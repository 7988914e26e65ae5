import RowExpr.Calendar.Offsets
import RowExpr.Proofs.EpochText
import RowExpr.Proofs.IntegralText

/-!
Primitive values written as texts and read again.

A value becomes a text by one general rule and a text becomes a value by a rule for each type:
white space is dropped around a number, the word for a truth value may be in capitals, and
characters are counted. For integers in range, truth values and single code units the second
undoes the first, whatever the code unit is (`Query.primitive_survives_text`).
-/

namespace RowExpr

/-- The cast of an expression of primitive type to a text, and of the text to a primitive type. -/
theorem Query.exists_through_text [TimeZones] {inputs : List Input} {given : GivenOptions}
    {e : Expr} {p : Query} {source : Primitive}
    (built : (Query.projection inputs [e] given).outcome = .ok p)
    (typed : e.type = .basic (.primitive source)) (target : Primitive) :
    ∃ back : Query,
      (Query.projection inputs [.cast (.cast e (.basic .string)) (.basic (.primitive target))]
        given).outcome =
        .ok back ∧
      ∀ records v w, v.isAbsent = false → p.Returns records v →
        Conversion.valueOf target (.text v.toText) = .ok w → back.Returns records w := by
  obtain ⟨_, written, -, builtWritten, writes⟩ := Query.exists_cast built Ty.Castable.toText
  obtain ⟨_, back, -, builtBack, reads⟩ := Query.exists_cast builtWritten Ty.Castable.ofText
  refine ⟨back, builtBack, ?_⟩
  intro records v w present returns converted
  have wrote : written.Returns records (.text v.toText) := by
    rw [Query.returns_of_run (writes records v present returns), typed]
    rfl
  rw [Query.returns_of_run (reads records _ rfl wrote), Expr.type, Value.cast]
  exact converted

theorem Conversion.valueOf_toText_bool (b : Bool) :
    Conversion.valueOf .boolean (.text (Value.bool b).toText) = .ok (.bool b) := by
  cases b <;> rfl

/-- Any code unit is a character, white space and a lone half of a surrogate pair as well. -/
theorem Conversion.valueOf_unit (u : UInt16) :
    Conversion.valueOf .char (.text [u]) = .ok (.text [u]) := rfl

/-- A primitive value survives being written as a text, for all inputs and options and all
expressions of its type that can be compiled: an integer in the range of its type, a truth value,
and a character of one code unit. -/
theorem Query.primitive_survives_text [TimeZones] {inputs : List Input} {given : GivenOptions}
    {e : Expr} {p : Query} (built : (Query.projection inputs [e] given).outcome = .ok p) :
    (∀ T : Whole, e.type = T.type → ∃ back : Query,
      (Query.projection inputs [.cast (.cast e (.basic .string)) T.type] given).outcome =
        .ok back ∧
      ∀ records n, T.InRange n → p.Gives records n → back.Gives records n) ∧
    (e.type = .basic .boolean → ∃ back : Query,
      (Query.projection inputs [.cast (.cast e (.basic .string)) (.basic .boolean)]
        given).outcome = .ok back ∧
      ∀ records b, p.Returns records (.bool b) → back.Returns records (.bool b)) ∧
    (e.type = .basic .char → ∃ back : Query,
      (Query.projection inputs [.cast (.cast e (.basic .string)) (.basic .char)] given).outcome =
        .ok back ∧
      ∀ records u, p.Returns records (.text [u]) → back.Returns records (.text [u])) := by
  refine ⟨?_, ?_, ?_⟩
  · intro T typed
    rw [T.type_eq] at typed ⊢
    obtain ⟨back, builtBack, reads⟩ := Query.exists_through_text built typed T.primitive
    refine ⟨back, builtBack, ?_⟩
    intro records n inRange gives
    obtain ⟨v, returns, whole⟩ := gives
    obtain ⟨w, converted, whole'⟩ := (Text.writesInt_ofInt n).exists_whole T inRange
    rw [← whole.toText inRange.natAbs_lt] at converted
    exact ⟨w, reads records v w whole.isAbsent returns converted, whole'⟩
  · intro typed
    obtain ⟨back, builtBack, reads⟩ := Query.exists_through_text built typed .boolean
    refine ⟨back, builtBack, ?_⟩
    intro records b returns
    exact reads records _ _ rfl returns (Conversion.valueOf_toText_bool b)
  · intro typed
    obtain ⟨back, builtBack, reads⟩ := Query.exists_through_text built typed .char
    refine ⟨back, builtBack, ?_⟩
    intro records u returns
    exact reads records _ _ rfl returns (Conversion.valueOf_unit u)

def Input.corners : List Input :=
  [⟨"row",
    .plain .pojo [.mk "n" (.basic .long), .mk "f" (.basic .boolean), .mk "c" (.basic .char)]⟩]

/-- The least integer of its type, a truth value and half of a surrogate pair. -/
def Value.corners : List Value :=
  [.record (.given 0)
    [("n", .number (Double.ofInt (-9007199254740991))), ("f", .bool true), ("c", .text [0xDC00])]]

section Host

open scoped Offsets

theorem Query.primitive_survives_text_corners :
    ∃ p p' p'' number flag unit : Query,
      (Query.projection Input.corners [.field "n" (.basic .long)] (.members [])).outcome = .ok p ∧
      (Query.projection Input.corners [.field "f" (.basic .boolean)] (.members [])).outcome =
        .ok p' ∧
      (Query.projection Input.corners [.field "c" (.basic .char)] (.members [])).outcome =
        .ok p'' ∧
      (Query.projection Input.corners
        [.cast (.cast (.field "n" (.basic .long)) (.basic .string)) (.basic .long)]
        (.members [])).outcome = .ok number ∧
      (Query.projection Input.corners
        [.cast (.cast (.field "f" (.basic .boolean)) (.basic .string)) (.basic .boolean)]
        (.members [])).outcome = .ok flag ∧
      (Query.projection Input.corners
        [.cast (.cast (.field "c" (.basic .char)) (.basic .string)) (.basic .char)]
        (.members [])).outcome = .ok unit ∧
      p.Gives Value.corners (-9007199254740991) ∧ number.Gives Value.corners (-9007199254740991) ∧
      p'.Returns Value.corners (.bool true) ∧ flag.Returns Value.corners (.bool true) ∧
      p''.Returns Value.corners (.text [0xDC00]) ∧
      unit.Returns Value.corners (.text [0xDC00]) := by
  obtain ⟨p, built, gives⟩ : ∃ p : Query,
      (Query.projection Input.corners [.field "n" (.basic .long)] (.members [])).outcome = .ok p ∧
      p.Gives Value.corners (-9007199254740991) :=
      ⟨_, rfl, _, rfl, _, rfl, Double.toInt?_ofInt (by decide)⟩
  obtain ⟨p', built', returns'⟩ : ∃ p : Query,
      (Query.projection Input.corners [.field "f" (.basic .boolean)] (.members [])).outcome =
        .ok p ∧
      p.Returns Value.corners (.bool true) := ⟨_, rfl, rfl⟩
  obtain ⟨p'', built'', returns''⟩ : ∃ p : Query,
      (Query.projection Input.corners [.field "c" (.basic .char)] (.members [])).outcome = .ok p ∧
      p.Returns Value.corners (.text [0xDC00]) := ⟨_, rfl, rfl⟩
  obtain ⟨number, builtNumber, numbers⟩ := (Query.primitive_survives_text built).1 .long rfl
  obtain ⟨flag, builtFlag, flags⟩ := (Query.primitive_survives_text built').2.1 rfl
  obtain ⟨unit, builtUnit, units⟩ := (Query.primitive_survives_text built'').2.2 rfl
  exact ⟨p, p', p'', number, flag, unit, built, built', built'', builtNumber, builtFlag,
    builtUnit, gives, numbers _ _ (by decide) gives, returns', flags _ _ returns', returns'',
    units _ _ returns''⟩

end Host

end RowExpr
