import Mathlib.Logic.Relation
import RowExpr.Calendar.Offsets
import RowExpr.Proofs.CharCode
import RowExpr.Proofs.Number.Truncation
import RowExpr.Proofs.Widening

/-!
Casts through a wider type.

A cast to a primitive type is a rule of its own for each type: words of 8, 16 and 32 bits, code
units, the integer part of a number, or the number as it is; and a cast to the type that a value
has already does nothing at all. All the same a cast through a type that is at least as wide
changes nothing (`Query.cast_absorbs_wider`). The rules are compared for neighbours in the order
of the types only, since what one type absorbs, it absorbs through any wider one
(`Primitive.Absorbs.trans`).
-/

namespace RowExpr

/-! ## Values and types -/

/-- The value is one of the type: an integer in its range, any number, or one code unit. -/
inductive Primitive.Holds : Primitive → Value → Prop
  | whole {T : Whole} {v : Value} {n : Int} : T.InRange n → v.IsInt n →
    Primitive.Holds T.primitive v
  | double (x : Double) : Primitive.Holds .double (.number x)
  | char (u : UInt16) : Primitive.Holds .char (.text [u])

/-- The numeric types, Float apart, from the narrowest to the widest. -/
def Primitive.ladder : List Primitive := [.byte, .short, .int, .long, .double]

/-- A value may be taken through the first type on its way to the second: a numeric type that is
at least as wide, or, for characters, one that has a value for each code unit. -/
inductive Primitive.Carries : Primitive → Primitive → Prop
  | numeric {wide narrow : Primitive} : narrow ∈ Primitive.ladder →
    Relation.ReflTransGen Primitive.Next narrow wide → Primitive.Carries wide narrow
  | char {wide : Primitive} : Relation.ReflTransGen Primitive.Next .short wide →
    Primitive.Carries wide .char

/-- The same text, or numerically the same number. -/
inductive Value.Same : Value → Value → Prop
  | number {x y : Double} : x.Same y → Value.Same (.number x) (.number y)
  | text (t : Text) : Value.Same (.text t) (.text t)

/-- The number that a value stands for in a cast: a character stands for its code. -/
def Value.numeric : Value → Double
  | .text (u :: _) => Double.ofInt u.toNat
  | v => v.toNumber

/-- A number as a value of a type. -/
def Primitive.taken (p : Primitive) (x : Double) : Value :=
  match p with
  | .long => .number x.trunc
  | .float => .number x.toSingle
  | .double => .number x
  | .char => .text [x.toUnit]
  | p => (Value.number x).narrow (.basic (.primitive p))

/-- A type absorbs another one: taking a number as a value of the other type first makes no
difference. -/
def Primitive.Absorbs (narrow wide : Primitive) : Prop :=
  ∀ x, (narrow.taken (wide.taken x).numeric).Same (narrow.taken x)

/-! ## Sameness -/

section Same

variable {v w z : Value} {x y : Double}

theorem Value.Same.symm (same : v.Same w) : w.Same v := by
  cases same with
  | number same => exact .number same.symm
  | text t => exact .text t

theorem Value.Same.trans (same : v.Same w) (same' : w.Same z) : v.Same z := by
  cases same with
  | number same =>
    cases same' with
    | number same' => exact .number (same.trans same')
  | text t => exact same'

theorem Value.Same.numeric (same : v.Same w) : v.numeric.Same w.numeric := by
  cases same with
  | number same => exact same
  | text t => exact .refl _

theorem Value.Same.isAbsent (same : v.Same w) : v.isAbsent = false := by
  cases same with
  | number same => rfl
  | text t => rfl

end Same

/-! ## Numbers as values of a type -/

section Taken

variable {x y : Double}

/-- The code unit of a number is its integral part, cut to sixteen bits. -/
theorem Double.toUnit_eq (x : Double) : x.toUnit = UInt16.ofBitVec (BitVec.ofInt 16 x.whole) := by
  have low := Width.setWidth_ofInt .short x.whole
  refine UInt16.toBitVec_inj.1 ?_
  rw [toUnit, toWord_eq]
  exact (BitVec.ofNat_toNat 16 (BitVec.ofInt 32 x.whole)).trans low

/-- A width keeps the low bits of the integer part. -/
theorem Width.taken_eq (w : Width) (x : Double) :
    w.primitive.taken x = .number (Double.ofInt (BitVec.ofInt w.bits x.whole).toInt) := by
  have taken : w.primitive.taken x = (Value.number x).narrow w.type := by
    cases w <;> rfl
  have word : (Value.number x).toWord = BitVec.ofInt 32 x.whole := x.toWord_eq
  rw [taken, Value.narrow_type, word, Width.setWidth_ofInt]

/-- Taking a number for a type of some width keeps that many of its low bits. -/
theorem Width.whole_taken (w : Width) (x : Double) :
    (w.primitive.taken x).numeric.whole = (BitVec.ofInt w.bits x.whole).toInt := by
  have small := (Width.inRange_toInt (BitVec.ofInt w.bits x.whole)).natAbs_le_int
  rw [Width.taken_eq]
  exact Double.whole_ofInt (by omega)

/-- The sign of a zero makes no difference to a cast. -/
theorem Double.Same.taken (same : x.Same y) (p : Primitive) : (p.taken x).Same (p.taken y) := by
  have fixed (w : Width) : (w.primitive.taken x).Same (w.primitive.taken y) := by
    rw [w.taken_eq, w.taken_eq, same.whole]
    exact .number (.refl _)
  cases p with
  | int => exact fixed .int
  | short => exact fixed .short
  | byte => exact fixed .byte
  | long => exact .number (same.map trunc_zero)
  | float => exact .number (same.map toSingle_zero)
  | double => exact .number same
  | boolean => exact .number same
  | char =>
    rw [Primitive.taken, Primitive.taken, toUnit_eq, toUnit_eq, same.whole]
    exact .text _

end Taken

/-! ## Absorption -/

section Absorption

variable {a b c : Primitive}

/-- The low bits of an integer are those of its low bits, if these are not fewer. -/
theorem Width.ofInt_lowBits {k m : Nat} (fewer : k ≤ m) (n : Int) :
    BitVec.ofInt k (BitVec.ofInt m n).toInt = BitVec.ofInt k n := by
  refine BitVec.eq_of_toInt_eq ?_
  rw [BitVec.toInt_ofInt, BitVec.toInt_ofInt, BitVec.toInt_ofInt,
    Int.bmod_bmod_of_dvd (Nat.pow_dvd_pow 2 fewer)]

/-- Cutting to a wider type first keeps all bits that the narrower one keeps. -/
theorem Width.absorbs {w w' : Width} (wider : w.bits ≤ w'.bits) :
    w.primitive.Absorbs w'.primitive := by
  intro x
  rw [w.taken_eq, w'.whole_taken, Width.ofInt_lowBits wider, ← w.taken_eq]
  exact (Double.Same.refl x).taken w.primitive

/-- Dropping the fraction first changes no bit. -/
theorem Width.absorbs_long (w : Width) : w.primitive.Absorbs .long := by
  intro x
  have part : (Primitive.long.taken x).numeric.whole = x.whole := x.whole_trunc
  rw [w.taken_eq, part, ← w.taken_eq]
  exact (Double.Same.refl x).taken w.primitive

theorem Primitive.long_absorbs_long : Primitive.Absorbs .long .long := by
  intro x
  have again : x.trunc.trunc = x.trunc := x.fractionless_trunc.trunc_eq
  exact .number (.inl again)

theorem Primitive.absorbs_double (p : Primitive) : p.Absorbs .double := by
  intro x
  exact (Double.Same.refl x).taken p

/-- A code unit and a short integer have the same sixteen bits. -/
theorem Primitive.char_absorbs_short : Primitive.Absorbs .char .short := by
  intro x
  have part : (Primitive.short.taken x).numeric.whole = (BitVec.ofInt 16 x.whole).toInt :=
    Width.short.whole_taken x
  rw [Primitive.taken, Double.toUnit_eq, part, Width.ofInt_lowBits (Nat.le_refl 16),
    ← Double.toUnit_eq]
  exact .text _

/-- Each type absorbs the next wider one. -/
theorem Primitive.Next.absorbs (next : a.Next b) : a.Absorbs b := by
  cases next with
  | byte => exact @Width.absorbs .byte .short (by decide)
  | short => exact @Width.absorbs .short .int (by decide)
  | int => exact Width.int.absorbs_long
  | long => exact Primitive.absorbs_double .long

/-- Absorption passes along a chain of types. -/
theorem Primitive.Absorbs.trans (inner : a.Absorbs b) (outer : b.Absorbs c) : a.Absorbs c := by
  intro x
  have inserted : (a.taken (b.taken (c.taken x).numeric).numeric).Same
      (a.taken (c.taken x).numeric) :=
    inner (c.taken x).numeric
  have removed : (a.taken (b.taken (c.taken x).numeric).numeric).Same
      (a.taken (b.taken x).numeric) :=
    (outer x).numeric.taken a
  exact (inserted.symm.trans removed).trans (inner x)

/-- What absorbs one type absorbs all that are wider. -/
theorem Primitive.Absorbs.wider (absorbs : a.Absorbs b)
    (wider : Relation.ReflTransGen Primitive.Next b c) : a.Absorbs c := by
  induction wider with
  | refl => exact absorbs
  | tail _ next ih => exact ih.trans next.absorbs

theorem Primitive.absorbs_self (numeric : a ∈ Primitive.ladder) : a.Absorbs a := by
  simp only [Primitive.ladder, List.mem_cons, List.not_mem_nil, or_false] at numeric
  rcases numeric with rfl | rfl | rfl | rfl | rfl
  · exact @Width.absorbs .byte .byte (Nat.le_refl _)
  · exact @Width.absorbs .short .short (Nat.le_refl _)
  · exact @Width.absorbs .int .int (Nat.le_refl _)
  · exact Primitive.long_absorbs_long
  · exact Primitive.absorbs_double .double

/-- The types above a numeric one are numeric. -/
theorem Primitive.numeric_of_wider (numeric : a ∈ Primitive.ladder)
    (wider : Relation.ReflTransGen Primitive.Next a b) : b ∈ Primitive.ladder := by
  induction wider with
  | refl => exact numeric
  | tail _ next _ => cases next <;> decide

/-- A type that carries another is absorbed by it. -/
theorem Primitive.Carries.absorbs (carries : b.Carries a) : a.Absorbs b := by
  cases carries with
  | numeric numeric wider => exact (Primitive.absorbs_self numeric).wider wider
  | char wider => exact Primitive.char_absorbs_short.wider wider

theorem Primitive.Carries.numeric_left (carries : b.Carries a) : b ∈ Primitive.ladder := by
  cases carries with
  | numeric numeric wider => exact Primitive.numeric_of_wider numeric wider
  | char wider => exact Primitive.numeric_of_wider (by decide) wider

theorem Primitive.Carries.ne_boolean (carries : b.Carries a) : b ≠ .boolean ∧ a ≠ .boolean := by
  refine ⟨?_, ?_⟩
  · rintro rfl
    exact absurd carries.numeric_left (by decide)
  · rintro rfl
    cases carries with
    | numeric numeric _ => exact absurd numeric (by decide)

end Absorption

/-! ## Casts -/

section Casts

variable {p q : Primitive} {v : Value}

/-- A value that a cast to its own type would leave as it is, up to the sign of a zero. -/
def Primitive.Fixes (p : Primitive) (v : Value) : Prop := v.Same (p.taken v.numeric)

/-- Casting a value to the type it has changes nothing. -/
theorem Primitive.Holds.fixes (holds : p.Holds v) : p.Fixes v := by
  cases holds with
  | @whole T v n inRange integer =>
    have small := inRange.natAbs_lt
    obtain ⟨x, rfl, read⟩ := integer
    rcases T with w | _
    · show (Value.number x).Same (w.primitive.taken x)
      rw [w.taken_eq, Double.whole_of_toInt? read, Width.toInt_ofInt inRange]
      exact .number (Double.same_of_toInt? read (Double.toInt?_ofInt small))
    · exact .number (.inl (Double.fractionless_of_toInt? read).trunc_eq.symm)
  | double x => exact .number (.refl x)
  | char u =>
    have bound := u.toNat_lt
    have code : (Value.number (Double.ofInt u.toNat)).IsInt u.toNat :=
      Value.isInt_number (Double.toInt?_ofInt (by omega))
    show (Value.text [u]).Same (.text [(Double.ofInt u.toNat).toUnit])
    rw [show (Double.ofInt u.toNat).toUnit = u from code.toUnit]
    exact .text [u]

theorem Primitive.exists_taken (number : p ≠ .char) (x : Double) :
    ∃ y, p.taken x = .number y := by
  cases p with
  | char => exact absurd rfl number
  | _ => exact ⟨_, rfl⟩

/-- The coercion of a number takes it as a value of the target. -/
theorem Value.coerce_number (x : Double) (other : p ≠ q) (number : p ≠ .char)
    (target : q ≠ .boolean) : (Value.number x).coerce p q = .ok (q.taken x) := by
  unfold Value.coerce
  rw [if_neg other, if_neg number]
  cases q with
  | boolean => exact absurd rfl target
  | _ => rfl

/-- A character is coerced by its code. -/
theorem Value.coerce_unit (u : UInt16) (other : .char ≠ q) (target : q ≠ .boolean) :
    (Value.text [u]).coerce .char q = .ok (q.taken (Double.ofInt u.toNat)) := by
  unfold Value.coerce
  rw [if_neg other, if_pos rfl]
  cases q with
  | boolean => exact absurd rfl target
  | _ => rfl

/-- A cast takes the number that a value stands for as a value of the new type. A cast to the type
of the value does nothing, which comes to the same. -/
theorem Primitive.Fixes.exists_coerce (fixes : p.Fixes v) (target : q ≠ .boolean) :
    ∃ w, v.coerce p q = .ok w ∧ w.Same (q.taken v.numeric) := by
  by_cases same : p = q
  · subst same
    exact ⟨v, if_pos rfl, fixes⟩
  · refine ⟨q.taken v.numeric, ?_, (Double.Same.refl _).taken q⟩
    unfold Primitive.Fixes at fixes
    by_cases char : p = .char
    · subst char
      obtain ⟨u, taken⟩ : ∃ u, Primitive.char.taken v.numeric = .text [u] := ⟨_, rfl⟩
      rw [taken] at fixes
      cases fixes with
      | text _ => exact Value.coerce_unit _ same target
    · obtain ⟨y, taken⟩ := Primitive.exists_taken char v.numeric
      rw [taken] at fixes
      cases fixes with
      | number _ => exact Value.coerce_number _ same char target

/-- Between primitive types, a cast is a coercion. -/
theorem Value.cast_primitive [TimeZones] (zone : Text) (p q : Primitive) (v : Value) :
    v.cast zone (.basic (.primitive p)) (.basic (.primitive q)) = v.coerce p q := by
  rw [Value.cast]

/-- A cast through a type that carries the value gives the same as the cast at once. -/
theorem Primitive.Carries.exists_coerce {middle : Primitive} (carries : middle.Carries q)
    (fixes : p.Fixes v) :
    ∃ m w w', v.coerce p middle = .ok m ∧ m.isAbsent = false ∧ v.coerce p q = .ok w ∧
      m.coerce middle q = .ok w' ∧ w'.Same w := by
  obtain ⟨m, first, taken⟩ := fixes.exists_coerce carries.ne_boolean.1
  obtain ⟨w, direct, same⟩ := fixes.exists_coerce carries.ne_boolean.2
  have settled : middle.Fixes m := by
    have again := Primitive.absorbs_self carries.numeric_left v.numeric
    exact (taken.trans again.symm).trans (taken.numeric.taken middle).symm
  obtain ⟨w', second, same'⟩ := settled.exists_coerce carries.ne_boolean.2
  refine ⟨m, w, w', first, taken.isAbsent, direct, second, ?_⟩
  have absorbed : (q.taken m.numeric).Same (q.taken v.numeric) :=
    (taken.numeric.taken q).trans (carries.absorbs v.numeric)
  exact (same'.trans absorbed).trans same.symm

end Casts

/-- Casts through a wider type change nothing, for all inputs and options and all expressions that
can be compiled. The expression has one of the six types, and its value is one of the type. A cast
to a numeric type may go through any type that is at least as wide, a cast to Char through any
that has all code units. Both casts can be compiled, and give numerically the same number or the
same text. If the type is that of the expression, this is the value itself. -/
theorem Query.cast_absorbs_wider [TimeZones] {inputs : List Input} {given : GivenOptions}
    {e : Expr} {p : Query} {source middle target : Primitive}
    (built : (Query.projection inputs [e] given).outcome = .ok p)
    (typed : e.type = .basic (.primitive source))
    (listed : source ∈ [Primitive.byte, .short, .int, .long, .double, .char])
    (carries : middle.Carries target) :
    ∃ direct through : Query,
      (Query.projection inputs [.cast e (.basic (.primitive target))] given).outcome =
        .ok direct ∧
      (Query.projection inputs
        [.cast (.cast e (.basic (.primitive middle))) (.basic (.primitive target))]
        given).outcome = .ok through ∧
      ∀ records v, source.Holds v → p.Returns records v →
        ∃ w w', direct.Returns records w ∧ through.Returns records w' ∧ w'.Same w ∧
          (target = source → w'.Same v) := by
  have numeric : source ≠ .boolean := by
    rintro rfl
    exact absurd listed (by decide)
  obtain ⟨middleNumeric, targetNumeric⟩ := carries.ne_boolean
  obtain ⟨_, direct, -, builtDirect, casts⟩ :=
    Query.exists_cast built (typed ▸ Ty.Castable.numeric numeric targetNumeric)
  obtain ⟨_, first, -, builtFirst, starts⟩ :=
    Query.exists_cast built (typed ▸ Ty.Castable.numeric numeric middleNumeric)
  obtain ⟨_, through, -, builtThrough, ends⟩ :=
    Query.exists_cast builtFirst (Ty.Castable.numeric middleNumeric targetNumeric)
  refine ⟨direct, through, builtDirect, builtThrough, ?_⟩
  intro records v holds returns
  have fixes := holds.fixes
  obtain ⟨m, w, w', coercedMiddle, present, coerced, coercedThrough, same⟩ :=
    carries.exists_coerce fixes
  have started : first.Returns records m := by
    rw [Query.returns_of_run (starts records v fixes.isAbsent returns), typed,
      Value.cast_primitive]
    exact coercedMiddle
  refine ⟨w, w', ?_, ?_, same, ?_⟩
  · rw [Query.returns_of_run (casts records v fixes.isAbsent returns), typed,
      Value.cast_primitive]
    exact coerced
  · rw [Query.returns_of_run (ends records m present started), Expr.type, Value.cast_primitive]
    exact coercedThrough
  · rintro rfl
    rw [Value.coerce, if_pos rfl] at coerced
    cases coerced
    exact same

def Input.extremes : List Input :=
  [⟨"row",
    .plain .pojo [.mk "x" (.basic .double), .mk "b" (.basic .byte), .mk "c" (.basic .char)]⟩]

/-- The least number of all, the least Byte and the last code unit. -/
def Value.extremes : List Value :=
  [.record (.given 0)
    [("x", .number (.infinite true)), ("b", .number (Double.ofInt (-128))),
      ("c", .text [0xFFFF])]]

section Host

open scoped Offsets

/-- The number becomes the same Int through a Long. The Byte comes back from a Double, and the
code unit from a Short, although it is a negative one. -/
theorem Query.cast_absorbs_wider_extremes :
    ∃ p p' p'' direct number integer unit : Query,
      (Query.projection Input.extremes [.field "x" (.basic .double)] (.members [])).outcome =
        .ok p ∧
      (Query.projection Input.extremes [.field "b" (.basic .byte)] (.members [])).outcome =
        .ok p' ∧
      (Query.projection Input.extremes [.field "c" (.basic .char)] (.members [])).outcome =
        .ok p'' ∧
      (Query.projection Input.extremes [.cast (.field "x" (.basic .double)) (.basic .int)]
        (.members [])).outcome =
        .ok direct ∧
      (Query.projection Input.extremes
        [.cast (.cast (.field "x" (.basic .double)) (.basic .long)) (.basic .int)]
        (.members [])).outcome = .ok number ∧
      (Query.projection Input.extremes
        [.cast (.cast (.field "b" (.basic .byte)) (.basic .double)) (.basic .byte)]
        (.members [])).outcome = .ok integer ∧
      (Query.projection Input.extremes
        [.cast (.cast (.field "c" (.basic .char)) (.basic .short)) (.basic .char)]
        (.members [])).outcome = .ok unit ∧
      p.Returns Value.extremes (.number (.infinite true)) ∧
      p'.Returns Value.extremes (.number (Double.ofInt (-128))) ∧
      p''.Returns Value.extremes (.text [0xFFFF]) ∧
      (∃ w w', direct.Returns Value.extremes w ∧ number.Returns Value.extremes w' ∧ w'.Same w) ∧
      (∃ w, integer.Returns Value.extremes w ∧ w.Same (.number (Double.ofInt (-128)))) ∧
      unit.Returns Value.extremes (.text [0xFFFF]) := by
  obtain ⟨p, built, returns⟩ : ∃ p : Query,
      (Query.projection Input.extremes [.field "x" (.basic .double)] (.members [])).outcome =
        .ok p ∧
      p.Returns Value.extremes (.number (.infinite true)) := ⟨_, rfl, rfl⟩
  obtain ⟨p', built', returns'⟩ : ∃ p : Query,
      (Query.projection Input.extremes [.field "b" (.basic .byte)] (.members [])).outcome =
        .ok p ∧
      p.Returns Value.extremes (.number (Double.ofInt (-128))) := ⟨_, rfl, rfl⟩
  obtain ⟨p'', built'', returns''⟩ : ∃ p : Query,
      (Query.projection Input.extremes [.field "c" (.basic .char)] (.members [])).outcome =
        .ok p ∧
      p.Returns Value.extremes (.text [0xFFFF]) := ⟨_, rfl, rfl⟩
  have upFromInt : Relation.ReflTransGen Primitive.Next .int .long := .single .int
  have upFromByte : Relation.ReflTransGen Primitive.Next .byte .double :=
    .head .byte (.head .short (.tail upFromInt .long))
  have least : Primitive.byte.Holds (.number (Double.ofInt (-128))) :=
    @Primitive.Holds.whole (.width .byte) _ (-128) (by decide)
      (Value.isInt_number (Double.toInt?_ofInt (by decide)))
  obtain ⟨direct, number, builtDirect, builtNumber, numbers⟩ :=
    Query.cast_absorbs_wider built rfl (by decide) (.numeric (by decide) upFromInt)
  obtain ⟨_, integer, -, builtInteger, integers⟩ :=
    Query.cast_absorbs_wider built' rfl (by decide) (.numeric (by decide) upFromByte)
  obtain ⟨_, unit, -, builtUnit, units⟩ :=
    Query.cast_absorbs_wider built'' rfl (by decide) (.char .refl)
  obtain ⟨w, w', computed, computed', same, -⟩ := numbers _ _ (.double _) returns
  obtain ⟨_, i, -, back, -, sameByte⟩ := integers _ _ least returns'
  obtain ⟨_, c, -, backUnit, -, sameUnit⟩ := units _ _ (.char _) returns''
  refine ⟨p, p', p'', direct, number, integer, unit, built, built', built'', builtDirect,
    builtNumber, builtInteger, builtUnit, returns, returns', returns'',
    ⟨w, w', computed, computed', same⟩, ⟨i, back, sameByte rfl⟩, ?_⟩
  cases sameUnit rfl
  exact backUnit

end Host

end RowExpr
