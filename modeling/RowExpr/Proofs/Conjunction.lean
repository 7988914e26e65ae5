import Mathlib.Data.List.Perm.Basic
import RowExpr.Calendar.Offsets
import RowExpr.Proofs.Built

/-!
Filters of conjunctions.

A conjunction is built from left to right, and it is absent as soon as one of its members
is, also beside a false one. A filter rejects an absent predicate like a false one, so the
filter of a conjunction accepts records exactly if the filters of all its members do, in
whatever order they are joined (`Query.conjunction_splits`). This asks for members that are
absent or hold truth values: any other value would be handed on by the conjunction.
-/

namespace RowExpr

/-! ## Outcomes of conjunctions -/

/-- A value that is absent or a truth value. -/
def Value.Decided (v : Value) : Prop := v.isAbsent = true ∨ ∃ b, v = .bool b

/-- A conjunction of truth values is one of them. -/
theorem Value.Decided.and {a b : Value} (left : a.Decided) (right : b.Decided) :
    (if a.truthy then b else a).Decided := by
  split
  · exact right
  · exact left

/-- Of two such values the conjunction is true exactly if both are. -/
theorem Value.Decided.strictEq_and {a : Value} (left : a.Decided) (b : Value) :
    (if a.truthy then b else a).strictEq (.bool true) =
      (a.strictEq (.bool true) && b.strictEq (.bool true)) := by
  rcases left with absent | ⟨truth, rfl⟩
  · cases a
    case undefined => rfl
    case null => rfl
    all_goals cases absent
  · cases truth
    · rfl
    · rfl

theorem Outcome.decided_of_shown {o : Outcome} (present : o.isNull = false)
    (decided : o.shown.Decided) : o.value.Decided := by
  rwa [Outcome.shown, present, if_neg Bool.false_ne_true] at decided

/-- The tree ends in an outcome that is shown as a truth value or absent. -/
def Expr.DecidedIn [TimeZones] (env : Environment) (e : Expr) : Prop :=
  ∃ o, e.eval env = .ok o ∧ o.shown.Decided

section Conjunctions

variable {env : Environment}

/-- A filter accepts if and only if its outcome is true. -/
theorem Expr.accepts_eq [TimeZones] {e : Expr} {o : Outcome} (evaluated : e.eval env = .ok o) :
    e.accepts env = .ok o.isTrue := by
  rw [Expr.accepts, evaluated]
  rfl

/-- The conjunction of two decided predicates is decided, and true exactly if both are. -/
theorem Expr.eval_and [TimeZones] {left right : Expr} {l r : Outcome} (type : Ty)
    (evaluatedLeft : left.eval env = .ok l) (evaluatedRight : right.eval env = .ok r)
    (decidedLeft : l.shown.Decided) (decidedRight : r.shown.Decided) :
    ∃ o, (Expr.binary .and left right type).eval env = .ok o ∧ o.shown.Decided ∧
      o.isTrue = (l.isTrue && r.isTrue) := by
  have joined : (Expr.binary .and left right type).eval env =
      env.guarded (l.isNull || r.isNull) .boolean
        (.ok (if l.value.truthy then r.value else l.value)) := by
    rw [Expr.eval, evaluatedLeft, evaluatedRight]
    rfl
  rw [joined]
  unfold Outcome.isTrue
  cases absent : l.isNull || r.isNull with
  | true =>
    -- An absent member makes the conjunction absent, also beside a false one.
    refine ⟨⟨env.defaults .boolean, true⟩, rfl, .inl rfl, ?_⟩
    rcases Bool.or_eq_true_iff.1 absent with set | set
    · simp [set]
    · simp [set]
  | false =>
    obtain ⟨presentLeft, presentRight⟩ := Bool.or_eq_false_iff.1 absent
    have valueLeft := Outcome.decided_of_shown presentLeft decidedLeft
    have valueRight := Outcome.decided_of_shown presentRight decidedRight
    refine ⟨⟨_, false⟩, rfl, valueLeft.and valueRight, ?_⟩
    simpa [presentLeft, presentRight] using valueLeft.strictEq_and r.value

/-- The conjunction of a list of decided predicates is decided, and true exactly if all are. -/
theorem Expr.eval_conjunction [TimeZones] {first : Expr} {rest : List Expr}
    (decided : ∀ p ∈ first :: rest, p.DecidedIn env) :
    ∃ o, (Expr.chain .and first rest).eval env = .ok o ∧ o.shown.Decided ∧
      (o.isTrue = true ↔ ∀ p ∈ first :: rest, p.accepts env = .ok true) := by
  induction rest generalizing first with
  | nil =>
    obtain ⟨o, evaluated, shown⟩ := decided first List.mem_cons_self
    refine ⟨o, evaluated, shown, ?_⟩
    rw [List.forall_mem_singleton, Expr.accepts_eq evaluated, Except.ok.injEq]
  | cons next rest ih =>
    rw [List.forall_mem_cons, List.forall_mem_cons] at decided
    obtain ⟨⟨l, evaluatedFirst, shownFirst⟩, ⟨r, evaluatedNext, shownNext⟩, others⟩ := decided
    -- The fold joins the first two members, and the rest is joined to their conjunction.
    obtain ⟨joined, evaluated, shown, both⟩ :=
      Expr.eval_and .boolean evaluatedFirst evaluatedNext shownFirst shownNext
    obtain ⟨o, folded, shown', all⟩ :=
      @ih (.test first .and next) (List.forall_mem_cons.2 ⟨⟨joined, evaluated, shown⟩, others⟩)
    refine ⟨o, folded, shown', ?_⟩
    rw [all, List.forall_mem_cons, List.forall_mem_cons, List.forall_mem_cons, ← and_assoc]
    have split : (Expr.test first .and next).accepts env = .ok true ↔
        first.accepts env = .ok true ∧ next.accepts env = .ok true := by
      rw [Expr.test, Expr.accepts_eq evaluated, Expr.accepts_eq evaluatedFirst,
        Expr.accepts_eq evaluatedNext, both, Except.ok.injEq, Except.ok.injEq, Except.ok.injEq,
        Bool.and_eq_true]
    rw [split]

end Conjunctions

/-! ## Filters -/

theorem Expr.type_conjunction {first : Expr} (boolean : first.type = .boolean)
    (rest : List Expr) : (Expr.chain .and first rest).type = .boolean := by
  induction rest generalizing first with
  | nil => exact boolean
  | cons next rest ih => exact @ih (.test first .and next) rfl

/-- A conjunction is legal if and only if all its members are. -/
theorem Expr.allLegal_conjunction {inputs : List Input} {first : Expr} {rest : List Expr} :
    (Expr.chain .and first rest).AllLegal inputs ↔ ∀ p ∈ first :: rest, p.AllLegal inputs := by
  induction rest generalizing first with
  | nil => rw [List.forall_mem_singleton]; rfl
  | cons next rest ih =>
    show (Expr.chain .and (.test first .and next) rest).AllLegal inputs ↔ _
    rw [ih, List.forall_mem_cons, List.forall_mem_cons, List.forall_mem_cons, Expr.test,
      Expr.allLegal_binary, and_assoc]

section Filters

variable {inputs : List Input} {given : GivenOptions} {first : Expr} {rest : List Expr}

/-- The filter of a conjunction can be built exactly if the filters of its members can. -/
theorem Query.conjunction_built_iff [TimeZones]
    (boolean : ∀ p ∈ first :: rest, p.type = .boolean) :
    (∃ q, (Query.filter inputs (.chain .and first rest) given).outcome = .ok q) ↔
      ∀ p ∈ first :: rest, ∃ q, (Query.filter inputs p given).outcome = .ok q := by
  have joined := Expr.type_conjunction (boolean first List.mem_cons_self) rest
  rw [Query.filter_built_iff joined, Expr.allLegal_conjunction]
  constructor
  · rintro ⟨possible, legal⟩ p listed
    exact (Query.filter_built_iff (boolean p listed)).2 ⟨possible, legal p listed⟩
  · intro built
    have each : ∀ p ∈ first :: rest, Query.Possible inputs given ∧ p.AllLegal inputs :=
      fun p listed =>
      (Query.filter_built_iff (boolean p listed)).1 (built p listed)
    exact ⟨(each first List.mem_cons_self).1, fun p listed => (each p listed).2⟩

/-- On the records, the projection of the predicate gives a truth value, or null or undefined. -/
def Expr.DecidedOn [TimeZones] (inputs : List Input) (given : GivenOptions)
    (records : List Value) (p : Expr) : Prop :=
  ∃ q v, (Query.projection inputs [p] given).outcome = .ok q ∧
    q.run records = .ok (.array .made [v]) ∧ v.Decided

section Created

variable [TimeZones] {new : Session} (created : Session.create inputs given = .ok new)
    {records : List Value}

include created

theorem Expr.DecidedOn.decidedIn {p : Expr} (decided : p.DecidedOn inputs given records) :
    p.DecidedIn (new.environment Ty.defaultValue records) := by
  obtain ⟨q, v, built, ran, value⟩ := decided
  rw [Query.run_of_projection created built records, Expr.project_cons] at ran
  obtain ⟨vs, projected, shown⟩ := of_bind_eq_ok ran
  cases shown
  obtain ⟨w, shown, rest⟩ := of_bind_eq_ok projected
  cases rest
  obtain ⟨o, evaluated, same⟩ := of_bind_eq_ok shown
  cases same
  exact ⟨o, evaluated, value⟩

/-- What the filters of predicates answer is what the predicates evaluate to. -/
theorem Query.forall_accepts_iff {ps : List Expr} {parts : List Query}
    (each :
      List.Forall₂ (fun p part => (Query.filter inputs p given).outcome = .ok part) ps parts)
    (answer : Except Fault Bool → Prop) :
    (∀ part ∈ parts, answer (part.accepts records)) ↔
      ∀ p ∈ ps, answer (p.accepts (new.environment Ty.defaultValue records)) := by
  induction each with
  | nil => exact ⟨fun _ => List.forall_mem_nil _, fun _ => List.forall_mem_nil _⟩
  | cons built _ ih =>
    rw [List.forall_mem_cons, List.forall_mem_cons, ih,
      Query.accepts_of_filter created built records]

/-- A conjunction accepts if and only if all its members do, where each of them is decided. -/
theorem Query.accepts_conjunction {q : Query}
    (built : (Query.filter inputs (.chain .and first rest) given).outcome = .ok q)
    (decided : ∀ p ∈ first :: rest, p.DecidedOn inputs given records) :
    ∃ verdict, q.accepts records = .ok verdict ∧ (verdict = true ↔
      ∀ p ∈ first :: rest, p.accepts (new.environment Ty.defaultValue records) = .ok true) := by
  obtain ⟨o, evaluated, -, all⟩ :=
    Expr.eval_conjunction fun p listed => (decided p listed).decidedIn created
  refine ⟨o.isTrue, ?_, all⟩
  rw [Query.accepts_of_filter created built records, Expr.accepts_eq evaluated]

end Created

/-- Conjunctive filters can be split, for all inputs and options and all lists of predicates of
type Boolean. The filter of the conjunction can be built exactly if the filters of its members
can. On records on which every member is a truth value or absent, all these filters give a
verdict, and that of the conjunction is to accept exactly if all members accept. Joined in any
other order, the members give a filter with the same verdict. -/
theorem Query.conjunction_splits [TimeZones] (boolean : ∀ p ∈ first :: rest, p.type = .boolean) :
    ((∃ q, (Query.filter inputs (.chain .and first rest) given).outcome = .ok q) ↔
      ∀ p ∈ first :: rest, ∃ q, (Query.filter inputs p given).outcome = .ok q) ∧
    ∀ (q : Query) (parts : List Query),
      (Query.filter inputs (.chain .and first rest) given).outcome = .ok q →
      List.Forall₂ (fun p part => (Query.filter inputs p given).outcome = .ok part)
        (first :: rest) parts →
      ∀ records, (∀ p ∈ first :: rest, p.DecidedOn inputs given records) →
        ∃ verdict, q.accepts records = .ok verdict ∧
          (∀ part ∈ parts, ∃ b, part.accepts records = .ok b) ∧
          (verdict = true ↔ ∀ part ∈ parts, part.accepts records = .ok true) ∧
          ∀ first' rest', (first' :: rest').Perm (first :: rest) →
            ∃ q', (Query.filter inputs (.chain .and first' rest') given).outcome = .ok q' ∧
              q'.accepts records = .ok verdict := by
  refine ⟨Query.conjunction_built_iff boolean, fun q parts built each records decided => ?_⟩
  have joined := Expr.type_conjunction (boolean first List.mem_cons_self) rest
  obtain ⟨⟨new, created, replied⟩, legal⟩ := (Query.filter_built_iff joined).1 ⟨q, built⟩
  obtain ⟨verdict, accepts, all⟩ := Query.accepts_conjunction created built decided
  refine ⟨verdict, accepts, ?_, ?_, fun first' rest' reordered => ?_⟩
  · refine (Query.forall_accepts_iff created each fun answer => ∃ b, answer = .ok b).2
      fun p listed => ?_
    obtain ⟨o, evaluated, -⟩ := (decided p listed).decidedIn created
    exact ⟨o.isTrue, Expr.accepts_eq evaluated⟩
  · rw [all, Query.forall_accepts_iff created each fun answer => answer = .ok true]
  · have same : ∀ {p}, p ∈ first' :: rest' ↔ p ∈ first :: rest := reordered.mem_iff
    have boolean' : first'.type = .boolean := boolean first' (same.1 List.mem_cons_self)
    have legal' : (Expr.chain .and first' rest').AllLegal inputs :=
      Expr.allLegal_conjunction.2 fun p listed =>
      Expr.allLegal_conjunction.1 legal p (same.1 listed)
    obtain ⟨q', built'⟩ := (Query.filter_built_iff (Expr.type_conjunction boolean' rest')).2
      ⟨⟨new, created, replied⟩, legal'⟩
    obtain ⟨verdict', accepts', all'⟩ := Query.accepts_conjunction created built' fun p listed =>
      decided p (same.1 listed)
    have agree : verdict' = verdict := by
      rw [Bool.eq_iff_iff, all, all']
      exact forall_congr' fun p => imp_congr_left same
    exact ⟨q', built', agree ▸ accepts'⟩

end Filters

def Expr.flagged : Expr := .field "a" .boolean

section Host

open scoped Offsets

/-- A field that is a truth value, and the test that it is present. On a record without the field
the first is absent and the second false; the conjunction rejects the record in either order, and
accepts one that holds true. -/
theorem Query.conjunction_splits_flagged :
    ∃ q p p' : Query,
      (∀ e ∈ [Expr.flagged, .present .flagged], e.type = .boolean) ∧
      (Query.filter Input.counted (.chain .and .flagged [.present .flagged])
        (.members [])).outcome = .ok q ∧
      (Query.filter Input.counted .flagged (.members [])).outcome = .ok p ∧
      (Query.filter Input.counted (.present .flagged) (.members [])).outcome = .ok p' ∧
      ∀ v ∈ [Value.bool true, .null],
        (∀ e ∈ [Expr.flagged, .present .flagged],
          e.DecidedOn Input.counted (.members []) (Value.counted v)) ∧
        ∃ verdict, q.accepts (Value.counted v) = .ok verdict ∧ verdict = v.strictEq (.bool true) ∧
          (verdict = true ↔ ∀ part ∈ [p, p'], part.accepts (Value.counted v) = .ok true) ∧
          ∃ q',
            (Query.filter Input.counted (.chain .and (.present .flagged) [.flagged])
              (.members [])).outcome =
            .ok q' ∧ q'.accepts (Value.counted v) = .ok verdict := by
  have boolean : ∀ e ∈ [Expr.flagged, .present .flagged], e.type = .boolean :=
    List.forall_mem_cons.2 ⟨rfl, List.forall_mem_singleton.2 rfl⟩
  refine ⟨_, _, _, boolean, rfl, rfl, rfl, fun v listed => ?_⟩
  have decided : ∀ e ∈ [Expr.flagged, .present .flagged],
      e.DecidedOn Input.counted (.members []) (Value.counted v) := by
    rw [List.mem_cons, List.mem_singleton] at listed
    rcases listed with rfl | rfl
    · exact List.forall_mem_cons.2 ⟨⟨_, _, rfl, rfl, .inr ⟨true, rfl⟩⟩,
        List.forall_mem_singleton.2 ⟨_, _, rfl, rfl, .inr ⟨true, rfl⟩⟩⟩
    · exact List.forall_mem_cons.2 ⟨⟨_, _, rfl, rfl, .inl rfl⟩,
        List.forall_mem_singleton.2 ⟨_, _, rfl, rfl, .inr ⟨false, rfl⟩⟩⟩
  obtain ⟨-, splits⟩ := @Query.conjunction_splits Input.counted (.members []) _ _ _ boolean
  obtain ⟨verdict, accepts, -, all, reordered⟩ :=
    splits _ _ rfl (.cons rfl (.cons rfl .nil)) (Value.counted v) decided
  refine ⟨decided, verdict, accepts, ?_, all, reordered _ _ (List.Perm.swap _ _ _)⟩
  rw [List.mem_cons, List.mem_singleton] at listed
  rcases listed with rfl | rfl
  · cases accepts
    rfl
  · cases accepts
    rfl

end Host

end RowExpr
