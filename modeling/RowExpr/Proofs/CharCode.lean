import RowExpr.Calendar.Offsets
import RowExpr.Proofs.IntegralText
import RowExpr.Proofs.Number.SignedZero

/-!
Characters and their codes.

A text is taken for a character if it has one code point, so a surrogate pair is a character too
(`Text.codePoints_eq_one`). The code of a character is that of its first unit, and a code makes a
character of one unit. The two rules agree on what one character is only for single units. These
survive the conversion to a code and back, and of a surrogate pair the second half is lost
(`Query.char_survives_code_iff`).
-/

namespace RowExpr

/-! ## Characters -/

/-- One code unit, or the two of a surrogate pair. -/
inductive Text.IsCharacter : Text → Prop
  | unit (u : UInt16) : Text.IsCharacter [u]
  | pair {u v : UInt16} : Text.isHigh u = true → Text.isLow v = true → Text.IsCharacter [u, v]

section Characters

variable {t : Text}

theorem Text.codePoints_cons_pos (u : UInt16) (t : Text) : 0 < codePoints (u :: t) := by
  rcases t with _ | ⟨v, rest⟩
  · exact Nat.one_pos
  · rw [codePoints]
    split
    · exact Nat.succ_pos _
    · exact Nat.succ_pos _

/-- One code point is one unit or a surrogate pair. -/
theorem Text.codePoints_eq_one : codePoints t = 1 ↔ t.IsCharacter := by
  constructor
  · intro one
    rcases t with _ | ⟨u, t⟩
    · cases one
    rcases t with _ | ⟨v, rest⟩
    · exact .unit u
    rw [codePoints] at one
    split at one
    · next paired =>
      obtain ⟨high, low⟩ := Bool.and_eq_true_iff.1 paired
      rcases rest with _ | ⟨w, rest⟩
      · exact .pair high low
      · have more := codePoints_cons_pos w rest
        omega
    · have more := codePoints_cons_pos v rest
      omega
  · intro character
    cases character with
    | unit u => rfl
    | pair high low => rw [codePoints, if_pos (Bool.and_eq_true_iff.2 ⟨high, low⟩), codePoints]

/-- A character is one unit unless it is a pair. -/
theorem Text.IsCharacter.length_eq_one_iff (character : t.IsCharacter) :
    t.length = 1 ↔ t.take 1 = t := by
  cases character with
  | unit u => exact iff_of_true rfl rfl
  | pair _ _ =>
    refine iff_of_false ?_ ?_
    · intro single
      cases single
    · intro same
      cases same

/-- A text is converted to a character if and only if it is one, and stays as it is. -/
theorem Conversion.valueOf_char_eq_ok {v : Value} :
    Conversion.valueOf .char (.text t) = .ok v ↔ t.IsCharacter ∧ v = .text t := by
  show (if t.codePoints = 1 then _ else _) = _ ↔ _
  rw [← Text.codePoints_eq_one]
  constructor
  · intro converted
    split at converted
    · next one =>
      cases converted
      exact ⟨one, rfl⟩
    · cases converted
  · intro accepted
    rw [if_pos accepted.1, accepted.2]

end Characters

/-! ## Codes -/

section Codes

variable {T : Whole} {w : Value} {u : UInt16}

/-- The number of a code unit is made into that code unit. -/
theorem Value.IsInt.toUnit (code : w.IsInt u.toNat) : w.toNumber.toUnit = u := by
  have bound := u.toNat_lt
  rw [Double.toUnit, Double.toWord_of_toInt? code.toNumber, BitVec.ofInt_natCast,
    BitVec.toNat_ofNat, Nat.mod_eq_of_lt (by omega), UInt16.ofNat_toNat]

/-- Int and Long have all code units. -/
theorem Whole.inRange_unit (wide : T = .width .int ∨ T = .long) (u : UInt16) :
    T.InRange u.toNat := by
  have bound := u.toNat_lt
  rcases wide with rfl | rfl
  · have power : (2 : Int) ^ (Width.int.bits - 1) = 2147483648 := rfl
    exact ⟨by omega, by omega⟩
  · exact ⟨by omega, by omega⟩

/-- A character as an integer is the code of its first unit, if the type has all codes. -/
theorem Value.exists_cast_code [TimeZones] (zone : Text) (rest : Text)
    (inRange : T.InRange u.toNat) :
    ∃ w, (Value.text (u :: rest)).cast zone (.basic .char) T.type = .ok w ∧ w.IsInt u.toNat := by
  have whole := Double.toInt?_ofInt (inRange.natAbs_lt)
  rcases T with width | _
  · have narrowed := (Value.isInt_number whole).narrow width
    rw [Width.toInt_ofInt inRange] at narrowed
    refine ⟨_, ?_, narrowed⟩
    cases width <;> rfl
  · refine ⟨_, rfl, Value.isInt_number ?_⟩
    rw [Value.toNumber, (Double.fractionless_of_toInt? whole).trunc_eq]
    exact whole

/-- An integer that is the code of a unit is that unit as a character. -/
theorem Value.IsInt.cast_char [TimeZones] (code : w.IsInt u.toNat) (zone : Text) (T : Whole) :
    w.cast zone T.type (.basic .char) = .ok (.text [u]) := by
  have cast : w.cast zone T.type (.basic .char) = .ok (.text [w.toNumber.toUnit]) := by
    rcases T with (_ | _ | _) | _ <;> rfl
  rw [cast, code.toUnit]

theorem Whole.castable_char (T : Whole) :
    Ty.Castable (.basic .char) T.type ∧ Ty.Castable T.type (.basic .char) := by
  have numeric : T.primitive ≠ .boolean := by
    rcases T with (_ | _ | _) | _ <;> decide
  rw [T.type_eq]
  exact ⟨.numeric (by decide) numeric, .numeric numeric (by decide)⟩

end Codes

section Casts

variable [TimeZones] {inputs : List Input} {given : GivenOptions} {e : Expr} {p : Query}
  (built : (Query.projection inputs [e] given).outcome = .ok p)

include built

/-- The cast of a text to Char gives what is taken for a character. -/
theorem Query.exists_cast_to_char (isText : e.type = .basic .string) :
    ∃ taken : Query,
      (Query.projection inputs [.cast e (.basic .char)] given).outcome = .ok taken ∧
      ∀ records t v, p.Returns records (.text t) →
        (taken.Returns records v ↔ Conversion.valueOf .char (.text t) = .ok v) := by
  obtain ⟨_, taken, -, builtTaken, reads⟩ := Query.exists_cast built (isText ▸ Ty.Castable.ofText)
  refine ⟨taken, builtTaken, ?_⟩
  intro records t v returns
  rw [Query.returns_of_run (reads records _ rfl returns), isText, Value.cast]

/-- As an Int or a Long and back, a character becomes its first unit. -/
theorem Query.exists_cast_through_code (isChar : e.type = .basic .char) {T : Whole}
    (wide : T = .width .int ∨ T = .long) :
    ∃ back : Query,
      (Query.projection inputs [.cast (.cast e T.type) (.basic .char)] given).outcome = .ok back ∧
      ∀ records t v, Conversion.valueOf .char (.text t) = .ok v → p.Returns records (.text t) →
        back.Returns records (.text (t.take 1)) ∧
        (back.Returns records (.text t) ↔ t.length = 1) := by
  obtain ⟨charToCode, codeToChar⟩ := T.castable_char
  obtain ⟨options, code, -, builtCode, codes⟩ := Query.exists_cast built (isChar ▸ charToCode)
  obtain ⟨_, back, -, builtBack, chars⟩ := Query.exists_cast builtCode codeToChar
  refine ⟨back, builtBack, ?_⟩
  intro records t v accepted returns
  obtain ⟨character, -⟩ := Conversion.valueOf_char_eq_ok.1 accepted
  obtain ⟨u, rest, rfl⟩ : ∃ u rest, t = u :: rest := by
    cases character with
    | unit u => exact ⟨u, [], rfl⟩
    | pair _ _ => exact ⟨_, _, rfl⟩
  obtain ⟨w, cast, whole⟩ :=
    Value.exists_cast_code options.timeZone rest (Whole.inRange_unit wide u)
  have coded : code.Returns records w := by
    rw [Query.returns_of_run (codes records _ rfl returns), isChar]
    exact cast
  have first (v : Value) : back.Returns records v ↔ .text [u] = v := by
    rw [Query.returns_of_run (chars records w whole.isAbsent coded), Expr.type, whole.cast_char,
      Except.ok.injEq]
  refine ⟨(first _).2 rfl, ?_⟩
  rw [first, character.length_eq_one_iff, Value.text.injEq]
  rfl

end Casts

/-- Which characters survive the conversion to their codes. A text is taken for a character if it
is one unit or a surrogate pair. For all inputs and options and all expressions that can be
compiled, the cast to Char gives exactly these texts, and as an Int or a Long and back a character
becomes its first unit, so it comes back exactly if it has no other. -/
theorem Query.char_survives_code_iff [TimeZones] :
    (∀ (t : Text) (v : Value),
      Conversion.valueOf .char (.text t) = .ok v ↔ t.IsCharacter ∧ v = .text t) ∧
    ∀ (inputs : List Input) (given : GivenOptions) (e : Expr) (p : Query),
      (Query.projection inputs [e] given).outcome = .ok p →
      (e.type = .basic .string → ∃ taken : Query,
        (Query.projection inputs [.cast e (.basic .char)] given).outcome = .ok taken ∧
        ∀ records t v, p.Returns records (.text t) →
          (taken.Returns records v ↔ Conversion.valueOf .char (.text t) = .ok v)) ∧
      (e.type = .basic .char → ∀ T : Whole, T = .width .int ∨ T = .long → ∃ back : Query,
        (Query.projection inputs [.cast (.cast e T.type) (.basic .char)] given).outcome =
          .ok back ∧
        ∀ records t v, Conversion.valueOf .char (.text t) = .ok v → p.Returns records (.text t) →
          back.Returns records (.text (t.take 1)) ∧
          (back.Returns records (.text t) ↔ t.length = 1)) := by
  refine ⟨fun t v => Conversion.valueOf_char_eq_ok, ?_⟩
  intro inputs given e p built
  constructor
  · intro isText
    exact Query.exists_cast_to_char built isText
  · intro isChar T wide
    exact Query.exists_cast_through_code built isChar wide

def Input.letters : List Input := [⟨"row", .plain .pojo [.mk "s" (.basic .string)]⟩]

def Value.letters (t : Text) : List Value := [.record (.given 0) [("s", .text t)]]

section Host

open scoped Offsets

/-- The last unit of all comes back, of a character beyond the units only the first half. -/
theorem Query.char_survives_code_iff_pair :
    ∃ p taken back : Query,
      (Query.projection Input.letters [.field "s" (.basic .string)] (.members [])).outcome =
        .ok p ∧
      (Query.projection Input.letters [.cast (.field "s" (.basic .string)) (.basic .char)]
        (.members [])).outcome =
        .ok taken ∧
      (Query.projection Input.letters
        [.cast (.cast (.cast (.field "s" (.basic .string)) (.basic .char))
        (.basic .long)) (.basic .char)] (.members [])).outcome = .ok back ∧
      taken.Returns (Value.letters [0xFFFF]) (.text [0xFFFF]) ∧
      back.Returns (Value.letters [0xFFFF]) (.text [0xFFFF]) ∧
      taken.Returns (Value.letters [0xD83D, 0xDE00]) (.text [0xD83D, 0xDE00]) ∧
      back.Returns (Value.letters [0xD83D, 0xDE00]) (.text [0xD83D]) ∧
      ¬ back.Returns (Value.letters [0xD83D, 0xDE00]) (.text [0xD83D, 0xDE00]) := by
  obtain ⟨p, built, returns⟩ : ∃ p : Query,
      (Query.projection Input.letters [.field "s" (.basic .string)] (.members [])).outcome =
        .ok p ∧
      ∀ t, p.Returns (Value.letters t) (.text t) := ⟨_, rfl, fun _ => rfl⟩
  obtain ⟨accepts, casts⟩ := Query.char_survives_code_iff
  obtain ⟨taken, builtTaken, takes⟩ := (casts _ _ _ _ built).1 rfl
  obtain ⟨back, builtBack, comesBack⟩ := (casts _ _ _ _ builtTaken).2 rfl .long (.inr rfl)
  have single := (accepts [0xFFFF] _).2 ⟨.unit _, rfl⟩
  have pair := (accepts [0xD83D, 0xDE00] _).2 ⟨.pair rfl rfl, rfl⟩
  have tookSingle := (takes _ _ _ (returns _)).2 single
  have tookPair := (takes _ _ _ (returns _)).2 pair
  obtain ⟨half, whole⟩ := comesBack _ _ _ pair tookPair
  refine ⟨p, taken, back, built, builtTaken, builtBack, tookSingle,
    (comesBack _ _ _ single tookSingle).1, tookPair, half, ?_⟩
  intro survives
  cases whole.1 survives

end Host

end RowExpr
