import RowExpr.Proofs.Number.Shortest
import RowExpr.Proofs.Number.SignedZero
import RowExpr.Proofs.Text.Numeral
import RowExpr.Proofs.Text.Runs
import RowExpr.Unit.Token

/-!
Numerals and their parts.

A numeral without a sign has digits, perhaps a point and more digits, and perhaps an exponent.
In front of anything that cannot go on with it, it is taken as a whole
(`Numeral.Parts.numberLength_text`), and it reads as the decimal of its parts
(`Numeral.Parts.decimal?_text`). Every layout of a decimal is such a numeral, of the same value
(`Decimal.exists_parts`), so the text of a finite number reads back as the number
(`Double.exists_parts`).
-/

namespace RowExpr

/-! ## Steps of reading -/

theorem Numeral.fraction_point (more : Text) : fraction (46 :: more) = digits more := rfl

theorem Numeral.fraction_of_stops {t : Text} (stops : Text.Stops (· == 46) t) :
    fraction t = ([], t) := by
  unfold fraction
  split
  · exact absurd (Text.stops_cons.1 stops) (by decide)
  · rfl

theorem Token.pointLength_of_stops {t : Text} (stops : Text.Stops (· == 46) t) :
    pointLength t = 0 := by
  unfold pointLength
  split
  · exact absurd (Text.stops_cons.1 stops) (by decide)
  · rfl

theorem Token.exponentLength_of_stops {t : Text} (stops : Text.Stops (· == 101) t) :
    exponentLength t = 0 := by
  unfold exponentLength
  split
  · exact absurd (Text.stops_cons.1 stops) (by decide)
  · rfl

/-- The text begins with nothing that can go on with a word or a numeral: no digit, no letter, no
point. -/
def Token.Ends (rest : Text) : Prop := Text.Stops (fun u => Token.inWord u || u == 46) rest

theorem Token.ends_nil : Token.Ends [] := Text.stops_nil _

theorem Token.Ends.stops_inWord {rest : Text} (ends : Token.Ends rest) :
    Text.Stops Token.inWord rest :=
  fun u first => (Bool.or_eq_false_iff.1 (ends u first)).1

theorem Token.Ends.stops_isDigit {rest : Text} (ends : Token.Ends rest) :
    Text.Stops Text.isDigit rest :=
  fun u first => (Bool.or_eq_false_iff.1 (ends.stops_inWord u first)).2

/-! ## Parts -/

/-- A numeral in its parts. -/
structure Numeral.Parts where
  whole : Text
  fraction : Text
  exponent : Option Int
  begun : whole ≠ []
  isDigit_whole : ∀ u ∈ whole, Text.isDigit u = true
  isDigit_fraction : ∀ u ∈ fraction, Text.isDigit u = true

namespace Numeral.Parts

/-- Digits after a point, if there are any. -/
def pointed (fraction : Text) : Text := if fraction = [] then [] else 46 :: fraction

/-- An exponent with its mark and its sign, if there is one. -/
def marked : Option Int → Text
  | none => []
  | some e => (if e < 0 then ("e-" : Text) else "e+") ++ Text.ofNat e.natAbs

def text (p : Parts) : Text := p.whole ++ (pointed p.fraction ++ marked p.exponent)

/-- The decimal that the parts make. -/
def decimal (p : Parts) : Decimal :=
  ⟨Text.digitsValue (p.whole ++ p.fraction), p.exponent.getD 0 - p.fraction.length⟩

section Reading

variable {rest : Text}

theorem isDigit_ofNat (n : Nat) : ∀ u ∈ Text.ofNat n, Text.isDigit u = true :=
  fun _ => Text.isDigit_of_mem_ofNat

theorem marked_some (e : Int) :
    ∃ sign, (sign = 43 ∧ ¬ e < 0 ∨ sign = 45 ∧ e < 0) ∧ marked (some e) = 101 :: sign ::
      Text.ofNat e.natAbs := by
  by_cases negative : e < 0
  · refine ⟨45, .inr ⟨rfl, negative⟩, ?_⟩
    rw [marked, if_pos negative]
    rfl
  · refine ⟨43, .inl ⟨rfl, negative⟩, ?_⟩
    rw [marked, if_neg negative]
    rfl

/-- An exponent does not begin with a digit or a point. -/
theorem marked_head (exponent : Option Int) (ends : Token.Ends rest) :
    Text.Stops (fun u => Text.isDigit u || u == 46) (marked exponent ++ rest) := by
  cases exponent with
  | none =>
    intro u first
    have other := ends u first
    rw [Bool.or_eq_false_iff] at other ⊢
    exact ⟨ends.stops_isDigit u first, other.2⟩
  | some e =>
    obtain ⟨sign, -, text⟩ := marked_some e
    rw [text]
    exact Text.stops_cons.2 (by decide)

theorem exponent?_signed {neg : Bool} {signed ds : Text}
    (sign : Numeral.sign signed = (neg, ds)) (some : ds ≠ [])
    (digits : ∀ u ∈ ds, Text.isDigit u = true) :
    Numeral.exponent? (101 :: signed) =
      .some (if neg then -(Text.digitsValue ds : Int) else Text.digitsValue ds) := by
  rw [Numeral.exponent?, sign]
  exact if_pos ⟨.inl rfl, some, List.all_eq_true.2 digits⟩

theorem exponent?_marked (exponent : Option Int) :
    Numeral.exponent? (marked exponent) = some (exponent.getD 0) := by
  cases exponent with
  | none => rfl
  | some e =>
    obtain ⟨sign, signed, text⟩ := marked_some e
    have digits := Text.digitsValue_ofNat e.natAbs
    rw [text]
    rcases signed with ⟨rfl, positive⟩ | ⟨rfl, negative⟩
    · rw [@exponent?_signed false _ _ rfl (Text.ofNat_ne_nil _) (isDigit_ofNat _), digits]
      simp only [Bool.false_eq_true, if_false, Option.getD_some, Option.some.injEq]
      omega
    · rw [@exponent?_signed true _ _ rfl (Text.ofNat_ne_nil _) (isDigit_ofNat _), digits]
      simp only [if_true, Option.getD_some, Option.some.injEq]
      omega

theorem text_begins (p : Parts) : ∃ u tail, p.text = u :: tail ∧ Text.isDigit u = true := by
  rcases p with ⟨_ | ⟨u, whole⟩, fraction, exponent, begun, digits, -⟩
  · exact absurd rfl begun
  · exact ⟨u, whole ++ _, rfl, digits u List.mem_cons_self⟩

theorem sign_text (p : Parts) : Numeral.sign p.text = (false, p.text) := by
  obtain ⟨u, tail, shape, digit⟩ := p.text_begins
  rw [shape]
  unfold Numeral.sign
  split
  · next same =>
    cases same
    exact absurd digit (by decide)
  · next same =>
    cases same
    exact absurd digit (by decide)
  · rfl

/-- What stands after the first digits is no digit. -/
theorem stops_pointed (p : Parts) (ends : Token.Ends rest) :
    Text.Stops Text.isDigit (pointed p.fraction ++ (marked p.exponent ++ rest)) := by
  unfold pointed
  split
  · intro u first
    exact (Bool.or_eq_false_iff.1 (marked_head p.exponent ends u first)).1
  · exact Text.stops_cons.2 (by decide)

/-- A numeral reads as the decimal of its parts. -/
theorem decimal?_text (p : Parts) :
    Numeral.decimal? p.text = some (Double.ofDecimal false p.decimal) := by
  have stops := p.stops_pointed Token.ends_nil
  rw [List.append_nil] at stops
  have whole : Numeral.digits p.text = (p.whole, pointed p.fraction ++ marked p.exponent) := by
    rw [Numeral.digits, text, Text.takeWhile_run p.isDigit_whole stops,
      Text.dropWhile_run p.isDigit_whole stops]
  have after := marked_head p.exponent Token.ends_nil
  rw [List.append_nil] at after
  have point : Numeral.fraction (pointed p.fraction ++ marked p.exponent) =
      (p.fraction, marked p.exponent) := by
    unfold pointed
    split
    · next none =>
      rw [none, List.nil_append]
      exact Numeral.fraction_of_stops fun u first => (Bool.or_eq_false_iff.1 (after u first)).2
    · have digits : Text.Stops Text.isDigit (marked p.exponent) :=
        fun u first => (Bool.or_eq_false_iff.1 (after u first)).1
      rw [List.cons_append, Numeral.fraction_point, Numeral.digits,
        Text.takeWhile_run p.isDigit_fraction digits,
        Text.dropWhile_run p.isDigit_fraction digits]
  rw [Numeral.decimal?, p.sign_text]
  dsimp only
  rw [whole]
  dsimp only
  rw [point]
  dsimp only
  rw [if_neg fun none => p.begun none.1, exponent?_marked, Option.map_some, decimal]

/-- A numeral is taken as a whole. -/
theorem numberLength_text (p : Parts) (ends : Token.Ends rest) :
    Token.numberLength (p.text ++ rest) = p.text.length := by
  have stops := p.stops_pointed ends
  have after := marked_head p.exponent ends
  have split : p.text ++ rest = p.whole ++
      (pointed p.fraction ++ (marked p.exponent ++ rest)) := by
    rw [text, List.append_assoc, List.append_assoc]
  have point : Token.pointLength (pointed p.fraction ++ (marked p.exponent ++ rest)) =
      (pointed p.fraction).length := by
    unfold pointed
    split
    · exact Token.pointLength_of_stops fun u first => (Bool.or_eq_false_iff.1 (after u first)).2
    · rw [List.cons_append, Token.pointLength, Text.takeWhile_run p.isDigit_fraction,
        List.length_cons, Nat.add_comm]
      exact fun u first => (Bool.or_eq_false_iff.1 (after u first)).1
  have mark : Token.exponentLength (marked p.exponent ++ rest) = (marked p.exponent).length := by
    cases p.exponent with
    | none =>
      refine Token.exponentLength_of_stops fun u first => ?_
      have other := (Bool.or_eq_false_iff.1 (ends u first)).1
      rw [beq_eq_false_iff_ne]
      rintro rfl
      exact absurd other (by decide)
    | some e =>
      obtain ⟨sign, signed, text⟩ := marked_some e
      have known : sign = 43 ∨ sign = 45 := signed.imp And.left And.left
      rw [text, List.cons_append, List.cons_append, Token.exponentLength, if_pos known,
        Text.takeWhile_run (isDigit_ofNat _) ends.stops_isDigit, List.length_cons,
        List.length_cons]
      omega
  rw [split, Token.numberLength, Text.takeWhile_run p.isDigit_whole stops, List.drop_left, point,
    ← List.drop_drop, List.drop_left, List.drop_left, mark]
  rw [text, List.length_append, List.length_append, Nat.add_assoc]

end Reading

end Numeral.Parts

/-! ## Layouts -/

theorem Decimal.Same.symm {d d' : Decimal} (same : d.Same d') : d'.Same d := Eq.symm same

namespace Numeral.Parts

section Cut

variable {ds : Text} (some : ds ≠ []) (digits : ∀ u ∈ ds, Text.isDigit u = true)
    {n : Nat} (pos : 0 < n)
  (exponent : Option Int)

/-- Digits with a point after the first `n`, unless they end there. -/
def cut : Parts where
  whole := ds.take n
  fraction := ds.drop n
  exponent := exponent
  begun := fun none => (List.take_eq_nil_iff.1 none).elim (Nat.ne_of_gt pos) some
  isDigit_whole := fun u listed => digits u (List.mem_of_mem_take listed)
  isDigit_fraction := fun u listed => digits u (List.mem_of_mem_drop listed)

theorem decimal_cut :
    (cut some digits pos exponent).decimal =
      ⟨Text.digitsValue ds, exponent.getD 0 - (ds.length - n : Nat)⟩ := by
  rw [decimal, cut]
  dsimp only
  rw [List.take_append_drop, List.length_drop]

end Cut

end Numeral.Parts

open Numeral.Parts in
/-- Every layout of a decimal is a numeral of the same value. -/
theorem Decimal.exists_parts (d : Decimal) :
    ∃ p : Numeral.Parts, d.layout = p.text ∧ p.decimal.Same d := by
  rcases d with ⟨m, e⟩
  have some := Text.ofNat_ne_nil m
  have digits := isDigit_ofNat m
  have value := Text.digitsValue_ofNat m
  have begun := List.length_pos_iff.2 some
  have zeros (n : Nat) : ∀ u ∈ List.replicate n Text.zeroDigit, Text.isDigit u = true := by
    intro u listed
    rw [List.eq_of_mem_replicate listed]
    rfl
  unfold layout
  dsimp only
  generalize Text.ofNat m = ds at some digits value begun
  split
  · -- One digit, the others after a point, and an exponent.
    refine ⟨cut some digits Nat.one_pos (.some (e + (ds.length - 1 : Nat))), ?_, ?_⟩
    · have fraction : (if ds.length = 1 then [] else 46 :: ds.drop 1) = pointed (ds.drop 1) := by
        unfold pointed
        by_cases single : ds.length = 1
        · rw [if_pos single, if_pos (List.drop_eq_nil_of_le (Nat.le_of_eq single))]
        · rw [if_neg single, if_neg fun none => single ?_]
          have := List.drop_eq_nil_iff.1 none
          omega
      rw [text, cut, fraction, marked, List.append_assoc, List.append_assoc]
    · rw [decimal_cut, value, Option.getD_some, Int.add_sub_cancel]
      exact .refl _
  · split
    · -- Zeros in place of a positive exponent.
      next positive =>
      obtain ⟨k, rfl⟩ := Int.eq_ofNat_of_zero_le positive
      refine ⟨⟨ds ++ List.replicate k Text.zeroDigit, [], none, ?_, ?_, nofun⟩, ?_, ?_⟩
      · exact List.append_ne_nil_of_left_ne_nil some _
      · exact List.forall_mem_append.2 ⟨digits, zeros k⟩
      · rw [text, pointed, if_pos rfl, marked, List.append_nil, List.append_nil,
          Int.toNat_natCast]
      · have shift := same_shift m k 0
        rw [Int.zero_add] at shift
        rw [decimal, List.append_nil, Text.digitsValue_append, Text.digitsValue_replicate, value,
          List.length_replicate]
        exact shift.symm
    · split
      · -- A point between the digits.
        next negative whole =>
        refine ⟨cut some digits (Nat.succ_pos (e + (ds.length - 1 : Nat)).toNat) none, ?_, ?_⟩
        · rw [text, cut, pointed, if_neg, marked, List.append_nil]
          intro none
          have := List.drop_eq_nil_iff.1 none
          omega
        · have exponent : (none : Option Int).getD 0 -
              ((ds.length - ((e + (ds.length - 1 : Nat)).toNat + 1) : Nat) : Int) = e := by
            rw [Option.getD_none]
            omega
          rw [decimal_cut, value, exponent]
          exact .refl _
      · -- A point and zeros in front of the digits.
        next negative below =>
        refine ⟨⟨("0" : Text),
          List.replicate ((-(e + (ds.length - 1 : Nat))).toNat - 1) Text.zeroDigit ++ ds, none,
          ?_, ?_, ?_⟩, ?_, ?_⟩
        · exact List.cons_ne_nil _ _
        · exact zeros 1
        · exact List.forall_mem_append.2 ⟨zeros _, digits⟩
        · rw [text, pointed, if_neg (List.append_ne_nil_of_right_ne_nil _ some), marked,
            List.append_nil]
          rfl
        · have exponent :
            (none : Option Int).getD
              0 - ((List.replicate ((-(e + (ds.length - 1 : Nat))).toNat - 1)
                Text.zeroDigit ++ ds).length : Int) = e := by
              rw [Option.getD_none, List.length_append, List.length_replicate]
              omega
          have first : Text.digitsValue "0" = 0 := rfl
          rw [decimal, exponent, Text.digitsValue_append, Text.digitsValue_append,
            Text.digitsValue_replicate, value, first, Nat.zero_mul, Nat.zero_mul, Nat.zero_add,
            Nat.zero_add]
          exact .refl _

/-! ## Numbers -/

section Numbers

variable {rank : Fin Double.rankBound}

theorem Double.text_finite (some : rank.val ≠ 0) (neg : Bool) :
    (Double.finite neg rank).text =
      if neg then Text.minus :: (shortest rank).layout else (shortest rank).layout := by
  rw [Double.text, if_neg some]

/-- The text of a number that is not negative is a numeral, and reads back as the number. -/
theorem Double.exists_parts (rank : Fin rankBound) :
    ∃ p : Numeral.Parts, (Double.finite false rank).text = p.text ∧ ofDecimal false p.decimal =
      .finite false rank := by
  by_cases zero : rank.val = 0
  · rw [Double.text, if_pos zero]
    refine ⟨⟨("0" : Text), [], none, List.cons_ne_nil _ _, ?_, nofun⟩, rfl, ?_⟩
    · exact List.forall_mem_singleton.2 rfl
    · exact (finite_eq_zero.2 ⟨rfl, zero⟩).symm
  · obtain ⟨p, layout, same⟩ := (shortest rank).exists_parts
    refine ⟨p, ?_, ?_⟩
    · rw [text_finite zero, if_neg Bool.false_ne_true, layout]
    · rw [same.ofDecimal_eq, ofDecimal_shortest zero]

/-- The text of a negative number is a minus sign in front of the text of its opposite. -/
theorem Double.text_finite_neg (some : rank.val ≠ 0) :
    (Double.finite true rank).text = Text.minus :: (Double.finite false rank).text := by
  rw [text_finite some, text_finite some, if_pos rfl, if_neg Bool.false_ne_true]

end Numbers

end RowExpr
