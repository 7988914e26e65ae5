import RowExpr.Calendar.Offsets
import RowExpr.Proofs.Literals
import RowExpr.Proofs.Number.Truncation
import RowExpr.Proofs.Projection

/-!
Parts of texts between two positions.

The code for a substring has two forms, one for an end that is a literal and one that tests the
end when it runs. They give the same part of every text that is no longer than the number that
stands for the end of a text (`Query.substring_form_immaterial`). A value that is this number is
brought to the length of the text anyway (`Double.clamp_of_eq`). A literal of type Float is
compared as it is written and cut as it is rounded, but the number that stands for the end is
rounded to a larger one (`Double.clamp_heldIn_of_eq`).
-/

namespace RowExpr

/-! ## Bounds -/

/-- The part of a text between two positions, in either order. -/
def Text.between (t : Text) (i j : Nat) : Text := (t.take (max i j)).drop (min i j)

/-- The integer part of a number, brought between zero and a limit. NaN counts as zero. -/
def Double.clamp (limit : Nat) : Double → Nat
  | .nan => 0
  | .infinite neg => if neg then 0 else limit
  | .finite neg rank => (max 0 (min (limit : Int) (whole (.finite neg rank)))).toNat

/-- A number as a literal of a type holds it: Float has only single precision. -/
def Double.heldIn (type : Ty) (x : Double) : Double :=
  if type.isBasicNamed .float then x.toSingle else x

/-- Where a part of a text ends whose end is a literal: the largest 32-bit integer stands for the
end of the text. -/
def Double.endIn (type : Ty) (length : Nat) (x : Double) : Nat :=
  if x.eq (Double.ofInt Expr.maxInt) then length else (x.heldIn type).clamp length

section Bounds

variable {x y : Double} {limit : Nat}

/-- A position that is an integer is moved into the text. -/
theorem Double.clamp_of_toInt? {n : Int} (integer : x.toInt? = some n) :
    x.clamp limit = (max 0 (min (limit : Int) n)).toNat := by
  obtain ⟨neg, rank, rfl, -, -⟩ := Double.of_toInt? integer
  rw [Double.clamp, Double.whole_of_toInt? integer]

/-- One beyond the end becomes the end. -/
theorem Double.clamp_of_le {n : Int} (integer : x.toInt? = some n) (beyond : (limit : Int) ≤ n) :
    x.clamp limit = limit := by
  rw [Double.clamp_of_toInt? integer]
  omega

/-- The sign of a zero does not matter to a position. -/
theorem Double.Same.clamp (same : x.Same y) : x.clamp limit = y.clamp limit := by
  rcases same with rfl | ⟨left, right⟩
  · rfl
  · obtain ⟨neg, rfl⟩ := Double.isZero_iff.1 left
    obtain ⟨neg', rfl⟩ := Double.isZero_iff.1 right
    rw [Double.clamp_of_toInt? (Double.toInt?_zero neg),
      Double.clamp_of_toInt? (Double.toInt?_zero neg')]

theorem Value.bound_number : (Value.number x).bound limit = x.clamp limit := by
  cases x with
  | nan => rfl
  | infinite neg => rfl
  | finite neg rank =>
    show min ((Double.finite neg rank).whole.toNat) limit = _
    rw [Double.clamp]
    omega

/-- Writing a number loses the sign of a zero at most. -/
theorem Double.same_written (x : Double) : x.written.Same x := by
  by_cases zero : x = .negativeZero
  · rw [zero, Double.written_negativeZero]
    exact Double.same_zero false true
  · rw [Double.written_eq_self zero]
    exact .refl x

/-- A literal number is held in its type, which can round it. -/
theorem Literal.eval_number {type : Ty} (other : x ≠ .negativeZero) :
    (Literal.number x).eval type = .number (x.heldIn type) := by
  rw [Literal.eval, Double.written_eq_self other, Double.heldIn]

/-- In single precision, the end that stands for that of the text is rounded up. -/
theorem Double.toSingle_maxInt :
    (Double.ofInt Expr.maxInt).toSingle = Double.ofInt 2147483648 := by
  decide +kernel

/-- The number that stands for the end of a text is brought to its length. -/
theorem Double.clamp_of_eq (equal : x.eq (Double.ofInt Expr.maxInt) = true)
    (short : limit ≤ 2147483647) : x.clamp limit = limit := by
  rw [(Double.same_of_eq equal).clamp]
  exact Double.clamp_of_le (Double.toInt?_ofInt (by decide)) (Int.ofNat_le.2 short)

/-- The end that stands for that of the text is beyond every text, in every type. -/
theorem Double.clamp_heldIn_of_eq {type : Ty} (equal : x.eq (Double.ofInt Expr.maxInt) = true)
    (short : limit ≤ 2147483647) : (x.heldIn type).clamp limit = limit := by
  rw [Double.heldIn]
  split
  · have rounded := (Double.same_of_eq equal).map Double.toSingle_zero
    rw [Double.toSingle_maxInt] at rounded
    rw [rounded.clamp]
    exact Double.clamp_of_le (Double.toInt?_ofInt (by decide)) (by omega)
  · exact Double.clamp_of_eq equal short

end Bounds

/-! ## Expressions -/

/-- Naming wrappers do not matter to evaluation. -/
theorem Expr.eval_unwrapped [TimeZones] (env : Environment) (e : Expr) :
    e.unwrapped.eval env = e.eval env := by
  induction e with
  | naming inner label type ih =>
    rw [Expr.unwrapped, Expr.eval]
    exact ih
  | _ => rfl

theorem Expr.allLegal_substring {inputs : List Input} {str start stop : Expr} {type : Ty} :
    (Expr.substring str start stop type).AllLegal inputs ↔
      str.AllLegal inputs ∧ start.AllLegal inputs ∧ stop.AllLegal inputs := by
  unfold Expr.AllLegal
  rw [Expr.nodes, List.forall_mem_cons, List.forall_mem_append, List.forall_mem_append]
  exact and_iff_right trivial

/-- Both forms cut alike, if the open one is taken only where the end is brought to the length. -/
theorem Value.cut_eq_between {t : Text} {b y : Double} {isOpen : Bool}
    (reaches : isOpen = true → y.clamp t.length = t.length) :
    Value.cut t (.number b) (if isOpen then none else some (.number y)) =
      t.between (b.clamp t.length) (y.clamp t.length) := by
  rw [Text.between, List.drop_take]
  cases isOpen with
  | true =>
    rw [reaches rfl, ← @Value.bound_number b]
    rfl
  | false =>
    rw [← @Value.bound_number b, ← @Value.bound_number y]
    rfl

/-- A substring can be built of three expressions that can be built by themselves. -/
theorem Query.exists_substring [TimeZones] {inputs : List Input} {given : GivenOptions}
    {str start stop : Expr} {p p' r : Query}
    (builtStr : (Query.projection inputs [str] given).outcome = .ok p)
    (builtStart : (Query.projection inputs [start] given).outcome = .ok p')
    (builtStop : (Query.projection inputs [stop] given).outcome = .ok r) (type : Ty) :
    ∃ q, (Query.projection inputs [.substring str start stop type] given).outcome = .ok q ∧
      ∀ records t b y, p.Returns records (.text t) → p'.Returns records (.number b) →
        r.Returns records (.number y) →
        (stop.isOpenEnd (.number y) = true → y.clamp t.length = t.length) →
        q.Returns records (.text (t.between (b.clamp t.length) (y.clamp t.length))) := by
  have legal : (Expr.substring str start stop type).AllLegal inputs := Expr.allLegal_substring.2
    ⟨Query.allLegal_of_built builtStr, Query.allLegal_of_built builtStart,
      Query.allLegal_of_built builtStop⟩
  obtain ⟨q, built⟩ := Query.exists_of_allLegal builtStr legal
  obtain ⟨⟨new, created, -⟩, -⟩ := Query.projection_built_iff.1 ⟨q, built⟩
  refine ⟨q, built, ?_⟩
  intro records t b y returnsStr returnsStart returnsStop reaches
  have evaluatedStr := (Query.returns_iff created builtStr rfl).1 returnsStr
  have evaluatedStart := (Query.returns_iff created builtStart rfl).1 returnsStart
  have evaluatedStop := (Query.returns_iff created builtStop rfl).1 returnsStop
  rw [Query.returns_iff created built rfl, Expr.eval, evaluatedStr, evaluatedStart, evaluatedStop,
    ← Value.cut_eq_between reaches]
  rfl

/-- The value of a literal, wrapped or not, on all records. -/
theorem Query.returns_literal [TimeZones] {inputs : List Input} {given : GivenOptions}
    {e : Expr} {r : Query} {x : Double} {type : Ty}
    (built : (Query.projection inputs [e] given).outcome = .ok r)
    (literal : e.unwrapped = .literal (.number x) type) (records : List Value) :
    r.Returns records ((Literal.number x).eval type) := by
  obtain ⟨⟨new, created, -⟩, -⟩ := Query.projection_built_iff.1 ⟨r, built⟩
  have number : (Literal.number x == .null) = false := rfl
  rw [Query.returns_iff created built rfl, ← Expr.eval_unwrapped, literal, Expr.eval, number,
    Bool.and_false]
  rfl

/-! ## Forms -/

/-- The form of the code for a substring makes no difference, for all inputs and options, for all
texts and starts and all ends that are number literals, wrapped or not, or fields of their type,
that can be compiled. The substrings with both ends can then be compiled too. On all records on
which the text has at most 2147483647 units and the start is a number, the literal gives the part
of the text between the two positions: each is the integer part of its number, brought between
zero and the length of the text. The end 2147483647 is the length, and an end of type Float is
first rounded to single precision. If the field holds the value of the literal, it gives the same
part. -/
theorem Query.substring_form_immaterial [TimeZones] {inputs : List Input} {given : GivenOptions}
    {str start stop : Expr} {name : Text} {x : Double} {type : Ty} {p p' r f : Query}
    (builtStr : (Query.projection inputs [str] given).outcome = .ok p)
    (builtStart : (Query.projection inputs [start] given).outcome = .ok p')
    (literal : stop.unwrapped = .literal (.number x) type)
    (builtStop : (Query.projection inputs [stop] given).outcome = .ok r)
    (builtField : (Query.projection inputs [.field name type] given).outcome = .ok f)
    (declared : Ty) :
    ∃ fixed tested,
      (Query.projection inputs [.substring str start stop declared] given).outcome = .ok fixed ∧
      (Query.projection inputs [.substring str start (.field name type) declared] given).outcome =
        .ok tested ∧
      (∀ records, r.Returns records ((Literal.number x).eval type)) ∧
      ∀ records t b, t.length ≤ 2147483647 → p.Returns records (.text t) →
        p'.Returns records (.number b) →
        fixed.Returns records (.text (t.between (b.clamp t.length) (x.endIn type t.length))) ∧
        (f.Returns records ((Literal.number x).eval type) →
          tested.Returns records
            (.text (t.between (b.clamp t.length) (x.endIn type t.length)))) := by
  obtain ⟨fixed, builtFixed, cuts⟩ :=
    Query.exists_substring builtStr builtStart builtStop declared
  obtain ⟨tested, builtTested, cuts'⟩ :=
    Query.exists_substring builtStr builtStart builtField declared
  have returns := Query.returns_literal builtStop literal
  refine ⟨fixed, tested, builtFixed, builtTested, returns, ?_⟩
  intro records t b short returnsStr returnsStart
  obtain ⟨y, value, same⟩ : ∃ y, (Literal.number x).eval type = .number y ∧
      y.Same (x.heldIn type) := by
    refine ⟨_, rfl, ?_⟩
    rw [Double.heldIn]
    split
    · exact x.same_written.map Double.toSingle_zero
    · exact x.same_written
  rw [value] at returns ⊢
  have ends : x.endIn type t.length = y.clamp t.length := by
    rw [same.clamp, Double.endIn]
    split
    · next equal => exact (Double.clamp_heldIn_of_eq equal short).symm
    · rfl
  rw [ends]
  refine ⟨cuts records t b y returnsStr returnsStart (returns records) ?_, fun holds => ?_⟩
  · intro isOpen
    rw [Expr.isOpenEnd, literal] at isOpen
    rw [same.clamp]
    exact Double.clamp_heldIn_of_eq isOpen short
  · -- A field is compared by the value that it also cuts by, so no rounding comes in between.
    exact cuts' records t b y returnsStr returnsStart holds fun isOpen =>
      Double.clamp_of_eq isOpen short

def Input.excerpt : List Input :=
  [⟨"row", .plain .pojo [.mk "s" .string, .mk "b" (.basic .double), .mk "e" (.basic .float)]⟩]

/-- A text, a start with a fraction, and what the largest 32-bit integer is in single
precision. -/
def Value.excerpt : List Value :=
  [.record (.given 0)
    [("s", .text "abc"), ("b", .number (Double.ofRatio false 5 2)),
      ("e", .number (Double.ofInt 2147483648))]]

/-- The largest 32-bit integer as a literal of type Float, with a name. -/
def Expr.namedEnd : Expr :=
  (Expr.literal (.number (Double.ofInt Expr.maxInt)) (.basic .float)).named "end"

section Host

open scoped Offsets

/-- As an end of type Float, the largest 32-bit integer still stands for the end of the text,
although the field that holds its value holds another number. -/
theorem Query.substring_form_immaterial_rounded :
    ∃ p p' r f fixed tested : Query,
      (Query.projection Input.excerpt [.field "s" .string] (.members [])).outcome = .ok p ∧
      (Query.projection Input.excerpt [.field "b" (.basic .double)] (.members [])).outcome =
        .ok p' ∧
      Expr.namedEnd.unwrapped = .literal (.number (Double.ofInt Expr.maxInt)) (.basic .float) ∧
      (Query.projection Input.excerpt [Expr.namedEnd] (.members [])).outcome = .ok r ∧
      (Query.projection Input.excerpt [.field "e" (.basic .float)] (.members [])).outcome =
        .ok f ∧
      (Query.projection Input.excerpt
        [.substring (.field "s" .string) (.field "b" (.basic .double)) Expr.namedEnd .string]
        (.members [])).outcome = .ok fixed ∧
      (Query.projection Input.excerpt
        [.substring (.field "s" .string) (.field "b" (.basic .double))
          (.field "e" (.basic .float)) .string]
        (.members [])).outcome = .ok tested ∧
      f.Returns Value.excerpt (.number (Double.ofInt 2147483648)) ∧
      fixed.Returns Value.excerpt (.text "c") ∧ tested.Returns Value.excerpt (.text "c") := by
  obtain ⟨p, built, returns⟩ : ∃ p : Query,
      (Query.projection Input.excerpt [.field "s" .string] (.members [])).outcome = .ok p ∧
      p.Returns Value.excerpt (.text "abc") := ⟨_, rfl, rfl⟩
  obtain ⟨p', built', returns'⟩ : ∃ p : Query,
      (Query.projection Input.excerpt [.field "b" (.basic .double)] (.members [])).outcome =
        .ok p ∧
      p.Returns Value.excerpt (.number (Double.ofRatio false 5 2)) := ⟨_, rfl, rfl⟩
  obtain ⟨f, builtField, holds⟩ : ∃ f : Query,
      (Query.projection Input.excerpt [.field "e" (.basic .float)] (.members [])).outcome =
        .ok f ∧
      f.Returns Value.excerpt (.number (Double.ofInt 2147483648)) := ⟨_, rfl, rfl⟩
  obtain ⟨r, builtStop⟩ : ∃ r : Query,
      (Query.projection Input.excerpt [Expr.namedEnd] (.members [])).outcome = .ok r := ⟨_, rfl⟩
  have value : (Literal.number (Double.ofInt Expr.maxInt)).eval (.basic .float) =
      .number (Double.ofInt 2147483648) := by
    rw [Literal.eval_number (by decide +kernel), Double.heldIn, if_pos (by decide),
      Double.toSingle_maxInt]
  have start : (Double.ofRatio false 5 2).clamp ("abc" : Text).length = 2 := by decide +kernel
  have stop : (Double.ofInt Expr.maxInt).endIn (.basic .float) ("abc" : Text).length = 3 := by
    decide +kernel
  have part : Text.between "abc" 2 3 = "c" := rfl
  obtain ⟨fixed, tested, builtFixed, builtTested, -, cuts⟩ :=
    Query.substring_form_immaterial built built' rfl builtStop builtField .string
  obtain ⟨cut, cut'⟩ := cuts _ _ _ (by decide) returns returns'
  rw [start, stop, part] at cut cut'
  rw [value] at cut'
  exact ⟨p, p', r, f, fixed, tested, built, built', rfl, builtStop, builtField, builtFixed,
    builtTested, holds, cut, cut' holds⟩

end Host

/-- The largest number below one. -/
def Double.belowOne : Double := .finite false ⟨1023 * 2 ^ 52 - 1, by decide⟩

theorem Double.toSingle_belowOne : Double.belowOne.toSingle = Double.ofInt 1 := by
  decide +kernel

section Host

open scoped Offsets

/-- An end of type Float that is less than one can include a unit of the text: its integer part is
zero, but in single precision it is one. -/
theorem Query.substring_end_rounded_up :
    ∃ q : Query,
      (Query.projection Input.excerpt
        [.substring (.field "s" .string) (.literal (.number (Double.ofInt 0)) (.basic .double))
          (.literal (.number Double.belowOne) (.basic .float)) .string] (.members
            [])).outcome = .ok q ∧
      q.Returns Value.excerpt (.text "a") ∧
      Double.belowOne.eq (Double.ofInt Expr.maxInt) = false ∧
      Text.between "abc" ((Double.ofInt 0).clamp 3) (Double.belowOne.clamp 3) = [] := by
  obtain ⟨p, built, returns⟩ : ∃ p : Query,
      (Query.projection Input.excerpt [.field "s" .string] (.members [])).outcome = .ok p ∧
      p.Returns Value.excerpt (.text "abc") := ⟨_, rfl, rfl⟩
  obtain ⟨p', built'⟩ : ∃ p : Query,
      (Query.projection Input.excerpt [.literal (.number (Double.ofInt 0)) (.basic .double)]
        (.members [])).outcome =
        .ok p := ⟨_, rfl⟩
  obtain ⟨r, builtStop⟩ : ∃ r : Query,
      (Query.projection Input.excerpt [.literal (.number Double.belowOne) (.basic .float)]
        (.members [])).outcome =
        .ok r := ⟨_, rfl⟩
  have start : (Literal.number (Double.ofInt 0)).eval (.basic .double) =
      .number (Double.ofInt 0) := by
    rw [Literal.eval_number (by decide +kernel), Double.heldIn, if_neg (by decide)]
  have stop : (Literal.number Double.belowOne).eval (.basic .float) =
      .number (Double.ofInt 1) := by
    rw [Literal.eval_number (by decide +kernel), Double.heldIn, if_pos (by decide),
      Double.toSingle_belowOne]
  have first : (Double.ofInt 0).clamp ("abc" : Text).length = 0 := by decide +kernel
  have last : (Double.ofInt 1).clamp ("abc" : Text).length = 1 := by decide +kernel
  have part : Text.between "abc" 0 1 = "a" := rfl
  have bounded : Double.belowOne.eq (Double.ofInt Expr.maxInt) = false := by decide +kernel
  obtain ⟨q, builtCut, cuts⟩ := Query.exists_substring built built' builtStop .string
  have returnsStart := Query.returns_literal built' rfl Value.excerpt
  have returnsStop := Query.returns_literal builtStop rfl Value.excerpt
  rw [start] at returnsStart
  rw [stop] at returnsStop
  have cut :=
    cuts _ _ _ _ returns returnsStart returnsStop fun isOpen =>
      absurd isOpen (ne_true_of_eq_false bounded)
  rw [first, last, part] at cut
  exact ⟨q, builtCut, cut, bounded, by decide +kernel⟩

end Host

end RowExpr
