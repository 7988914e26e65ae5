import RowExpr.Proofs.Text.Decimal
import RowExpr.Value.Conversion

/-!
Fractional values from texts.

A text is converted to a fractional type exactly if it is a decimal number with white space
around it at most (`Conversion.decimal_text_exact`). There is no range to check: a decimal that
is too large becomes an infinity, and one that is too small becomes zero. Words for numbers,
other bases and unfinished exponents are refused, although operators read some of them.
-/

namespace RowExpr

/-- The fractional types. -/
inductive Fractional where
  | float | double
deriving DecidableEq

def Fractional.primitive : Fractional → Primitive
  | .float => .float
  | .double => .double

/-- What a fractional type keeps of a number. -/
def Fractional.round : Fractional → Double → Double
  | .float, x => x.toSingle
  | .double, x => x

section Conversions

variable (T : Fractional) {t : Text}

theorem Conversion.valueOf_fractional (t : Text) :
    Conversion.valueOf T.primitive (.text t) =
      (Conversion.fractional T.primitive t).map fun x => .number (T.round x) := by
  cases T <;> rfl

theorem Conversion.fractional_of_read {x : Double} (read : Numeral.decimal? t.trim = some x) :
    Conversion.valueOf T.primitive (.text t) = .ok (.number (T.round x)) := by
  rw [Conversion.valueOf_fractional, Conversion.fractional, read]
  rfl

theorem Conversion.fractional_of_unread (unread : Numeral.decimal? t.trim = none) :
    Conversion.valueOf T.primitive (.text t) =
      .error (.unparseable (.text t) T.primitive.name) := by
  rw [Conversion.valueOf_fractional, Conversion.fractional, unread]
  rfl

theorem Conversion.isDecimal_of_fractional {v : Value}
    (converted : Conversion.valueOf T.primitive (.text t) = .ok v) :
    Numeral.IsDecimal t.trim := by
  cases read : Numeral.decimal? t.trim with
  | none =>
    rw [Conversion.fractional_of_unread T read] at converted
    cases converted
  | some x =>
    obtain ⟨neg, d, written, -⟩ := Numeral.decimal?_eq_some.1 read
    exact ⟨neg, d, written⟩

end Conversions

/-- A text is converted to a fractional type exactly if it is a decimal number with white space
around it, and gives what the type keeps of the number nearest to it. Every other text is an error
that names the text, as it was given, and the type. In particular a text is refused that has no
digit, that has a unit other than digits, signs, points and exponent marks, or that ends with a
sign or a mark. -/
theorem Conversion.decimal_text_exact (T : Fractional) (t : Text) :
    ((∃ x, Conversion.valueOf T.primitive (.text t) = .ok (.number x)) ↔
      Numeral.IsDecimal t.trim) ∧
      (∀ neg d, Numeral.Expresses t.trim neg d →
        Conversion.valueOf T.primitive (.text t) =
          .ok (.number (T.round (Double.ofDecimal neg d)))) ∧
      (¬ Numeral.IsDecimal t.trim →
        Conversion.valueOf T.primitive (.text t) =
          .error (.unparseable (.text t) T.primitive.name)) ∧
      ∀ v, Conversion.valueOf T.primitive (.text t) = .ok v →
        (∃ u ∈ t.trim, Text.isDigit u = true) ∧
          (∀ u ∈ t.trim, Text.isDigit u = true ∨ u ∈ Numeral.marks) ∧
          ∃ front u, t.trim = front ++ [u] ∧ (Text.isDigit u = true ∨ u = 46) := by
  refine ⟨⟨?_, ?_⟩, ?_, ?_, ?_⟩
  · intro converted
    obtain ⟨x, converted⟩ := converted
    exact Conversion.isDecimal_of_fractional T converted
  · intro decimal
    obtain ⟨neg, d, written⟩ := decimal
    exact ⟨_, Conversion.fractional_of_read T written.decimal?⟩
  · intro neg d written
    exact Conversion.fractional_of_read T written.decimal?
  · intro other
    refine Conversion.fractional_of_unread T (Option.not_isSome_iff_eq_none.1 fun read => ?_)
    exact other (Numeral.isSome_decimal?.1 read)
  · intro v converted
    exact (Conversion.isDecimal_of_fractional T converted).units

example : ∀ t ∈ ["12", "-.5E+07", "+3.", "0.25e1"], Numeral.IsDecimal t := by decide

example :
    ∀ t ∈ ["", "+", ".", "-.e1", "1e", "1E-", "0x1F", "Infinity", "NaN"],
      ¬ Numeral.IsDecimal t := by
  decide

end RowExpr
