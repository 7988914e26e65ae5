import RowExpr.Proofs.Code.Operator
import RowExpr.Proofs.Expr.Fault
import RowExpr.Proofs.Expr.Nullity

/-!
Present values stay present.

A declared type is taken as it is: an operand that is declared a date is asked for its time, and
one that is declared a text for a part of it or for the code of its first unit, whatever it is,
and a record may have a method of that name that gives nothing. Such records apart, no operator
and no cast makes an absent value of present ones. `Value.Solid` says so of a value, and
`Expr.solid_of_present` of every node that does not count as absent. If all leaves are solid, it
makes no difference whether absent values are tracked (`Expr.eval_untracked`).
-/

namespace RowExpr

/-! ## Solid values -/

/-- A value that is present, and what its methods give that evaluation may call is such a
value again. -/
inductive Value.Solid : Value → Prop
  | intro {v : Value} : v.isAbsent = false →
    (∀ method ∈ Value.calledMethods, ∀ w, v.invoke method = .ok w → w.Solid) → v.Solid

section Solid

variable {v : Value}

/-- A solid value is present. -/
theorem Value.Solid.isAbsent_eq_false (solid : v.Solid) : v.isAbsent = false := by
  cases solid with
  | intro present _ => exact present

/-- What it answers is solid as well. -/
theorem Value.Solid.answer (solid : v.Solid) {w : Value} (given : v.Answers w) : w.Solid := by
  obtain ⟨method, called, given⟩ := given
  cases solid with
  | intro _ answers => exact answers method called w given

/-- A present value that has no methods is solid. -/
theorem Value.solid_of_no_method (present : v.isAbsent = false)
    (none : ∀ method, v.invoke method = .error .wrongKind) : v.Solid := by
  refine .intro present fun method _ w given => ?_
  rw [none] at given
  cases given

theorem Value.solid_bool (b : Bool) : (Value.bool b).Solid := solid_of_no_method rfl fun _ => rfl

theorem Value.solid_number (x : Double) : (Value.number x).Solid :=
  solid_of_no_method rfl fun _ => rfl

theorem Value.solid_text (t : Text) : (Value.text t).Solid := solid_of_no_method rfl fun _ => rfl

theorem Value.solid_date (id : Identity) (t : Time) : (Value.date id t).Solid := by
  refine .intro rfl fun method _ w given => ?_
  rw [Value.invoke] at given
  split at given
  · cases given
    exact solid_number _
  · cases given

/-- Values of the basic types are solid. -/
theorem Value.solid_of_kind (known : v.kind?.isSome = true) : v.Solid := by
  cases v
  case bool b => exact solid_bool b
  case number x => exact solid_number x
  case text t => exact solid_text t
  case date id t => exact solid_date id t
  all_goals cases known

/-- All literals but null are solid. -/
theorem Literal.solid_eval (type : Ty) {value : Literal} (present : value ≠ .null) :
    (value.eval type).Solid := by
  cases value with
  | null => exact absurd rfl present
  | bool b => exact Value.solid_bool b
  | number x => exact Value.solid_number _
  | text t => exact Value.solid_text t
  | date t => exact Value.solid_date _ t

end Solid

/-! ## Operators and casts -/

/-- A value that the computation gives is solid. -/
abbrev EndsSolid (m : Except Fault Value) : Prop := Ends Value.Solid (fun _ => True) m

theorem EndsSolid.of_eq_ok {m : Except Fault Value} (ends : EndsSolid m) {v : Value}
    (given : m = .ok v) : v.Solid := by
  rw [given] at ends
  exact ends

/-- A computation that gives a value of a basic type, or one that is solid, gives a solid value.
-/
theorem EndsKindedOr.solid {given : Value → Prop} {m : Except Fault Value}
    (ends : EndsKindedOr given m) (solid : ∀ v, given v → v.Solid) : EndsSolid m := by
  refine ends.mono (fun v origin => ?_) fun _ _ => trivial
  rcases origin with known | given
  · exact Value.solid_of_kind known
  · exact solid v given

/-- Operations on solid values give solid values. -/
theorem BinaryOp.eval_solid (op : BinaryOp) (type l r : Ty) {a b : Value} (left : a.Solid)
    (right : b.Solid) : EndsSolid (op.eval type l r a b) := by
  refine (op.eval_ends type l r a b).solid ?_
  rintro v (rfl | rfl)
  · exact left
  · exact right

/-- What a method gives is the one thing that a cast hands on and that may be absent. -/
theorem Value.Solid.cast [TimeZones] {v : Value} (solid : v.Solid) (zone : Text)
    (source target : Ty) : EndsSolid (v.cast zone source target) := by
  refine (v.cast_ends zone source target).solid ?_
  rintro w (rfl | given)
  · exact solid
  · exact solid.answer given

/-- So do substrings, of records with such a method too. -/
theorem Value.Solid.substring {v : Value} (solid : v.Solid) (start : Value)
    (stop : Option Value) : EndsSolid (v.substring start stop) :=
  (v.substring_ends start stop).solid fun _ given => solid.answer given

/-! ## Trees -/

/-- Every value that a field of the tree reads satisfies `p`. -/
def Expr.Reads (p : Value → Prop) (inputs : List Input) (records : List Value) (e : Expr) :
    Prop :=
  ∀ name type, .field name type ∈ e.nodes → ∀ v, Input.read name inputs records = .ok v → p v

theorem Expr.Reads.sub {p : Value → Prop} {inputs : List Input} {records : List Value}
    {e c : Expr} (reads : e.Reads p inputs records) (part : c.nodes ⊆ e.nodes) :
    c.Reads p inputs records :=
  fun name type inside => reads name type (part inside)

/-- A value that has passed its guard is solid if the guarded one is. -/
theorem Environment.solid_of_guarded {env : Environment} {absent : Bool} {type : Ty}
    {value : Except Fault Value} {o : Outcome} (guarded : env.guarded absent type value = .ok o)
    (present : o.isNull = false) (ends : absent = false → EndsSolid value) : o.value.Solid := by
  rcases Environment.guarded_eq_ok guarded with ⟨-, rfl⟩ | ⟨unset, v, computed, rfl⟩
  · cases present
  · exact (ends unset).of_eq_ok computed

/-- If absent values are tracked and every field reads an absent or a solid value, the
value of a node that does not count as absent is solid. -/
theorem Expr.solid_of_present [TimeZones] {env : Environment} (checked : env.nullCheck = true)
    {e : Expr} {o : Outcome}
    (reads : e.Reads (fun v => v.isAbsent = true ∨ v.Solid) env.inputs env.records)
    (evaluated : e.eval env = .ok o) (present : o.isNull = false) : o.value.Solid := by
  induction e generalizing o with
  | naming inner label type ih =>
    exact ih (reads.sub (List.subset_cons_self _ _)) evaluated present
  | literal value type =>
    cases evaluated
    refine Literal.solid_eval type fun null => ?_
    rw [checked, null] at present
    cases present
  | field name type =>
    obtain ⟨v, read, done⟩ := of_bind_eq_ok evaluated
    cases done
    refine (reads name type List.mem_cons_self v read).resolve_left fun absent => ?_
    rw [checked, absent] at present
    cases present
  | binary op left right type ihl ihr =>
    obtain ⟨l, leftRun, evaluated⟩ := of_bind_eq_ok evaluated
    obtain ⟨r, rightRun, evaluated⟩ := of_bind_eq_ok evaluated
    refine Environment.solid_of_guarded evaluated present fun unset => ?_
    obtain ⟨leftPresent, rightPresent⟩ := Bool.or_eq_false_iff.1 unset
    exact op.eval_solid type left.type right.type
      (ihl (reads.sub (List.subset_cons_of_subset _ (List.subset_append_left _ _)))
        leftRun leftPresent)
      (ihr (reads.sub (List.subset_cons_of_subset _ (List.subset_append_right _ _)))
        rightRun rightPresent)
  | unary op operand type ih =>
    obtain ⟨c, -, evaluated⟩ := of_bind_eq_ok evaluated
    exact Environment.solid_of_guarded evaluated present fun _ =>
      Value.solid_of_kind (op.isSome_kind?_eval type c.value)
  | isNull operand type ih =>
    obtain ⟨c, -, done⟩ := of_bind_eq_ok evaluated
    cases done
    exact Value.solid_bool _
  | isNotNull operand type ih =>
    obtain ⟨c, -, done⟩ := of_bind_eq_ok evaluated
    cases done
    exact Value.solid_bool _
  | cast operand type ih =>
    obtain ⟨c, operandRun, evaluated⟩ := of_bind_eq_ok evaluated
    refine Environment.solid_of_guarded evaluated present fun unset => ?_
    exact (ih (reads.sub (List.subset_cons_self _ _)) operandRun unset).cast env.zone
      operand.type type
  | substring str start stop type iha ihb ihc =>
    obtain ⟨a, strRun, evaluated⟩ := of_bind_eq_ok evaluated
    obtain ⟨b, -, evaluated⟩ := of_bind_eq_ok evaluated
    obtain ⟨c, -, evaluated⟩ := of_bind_eq_ok evaluated
    refine Environment.solid_of_guarded evaluated present fun unset => ?_
    obtain ⟨bounded, -⟩ := Bool.or_eq_false_iff.1 unset
    obtain ⟨strPresent, -⟩ := Bool.or_eq_false_iff.1 bounded
    have inside := reads.sub (List.subset_cons_of_subset _ (List.subset_append_left _ _))
    exact (iha inside strRun strPresent).substring _ _

/-! ## Trees without absent leaves -/

/-- No leaf of the tree is absent on these records: it has no null literal, and the
values that its fields read are solid. -/
structure Expr.Present (inputs : List Input) (records : List Value) (e : Expr) : Prop where
  literals : ∀ type, .literal .null type ∉ e.nodes
  reads : e.Reads Value.Solid inputs records

section Present

variable {env : Environment} {e c : Expr}

theorem Expr.Present.sub {inputs : List Input} {records : List Value}
    (present : e.Present inputs records) (part : c.nodes ⊆ e.nodes) : c.Present inputs records :=
  ⟨fun type inside => present.literals type (part inside), present.reads.sub part⟩

theorem Expr.Present.isAbsentLeaf_eq_false {inputs : List Input} {records : List Value}
    {leaf : Expr} (present : e.Present inputs records) (inside : leaf ∈ e.nodes) :
    leaf.isAbsentLeaf inputs records = false := by
  unfold Expr.isAbsentLeaf
  split
  · next value type =>
    refine beq_false_of_ne fun null => ?_
    subst null
    exact present.literals type inside
  · next name type =>
    split
    · next v read => exact (present.reads name type inside v read).isAbsent_eq_false
    · rfl
  · rfl

/-- No node of such a tree counts as absent, and its value is not absent. -/
theorem Expr.Present.outcome [TimeZones] (present : e.Present env.inputs env.records)
    (checked : env.nullCheck = true) {o : Outcome} (evaluated : e.eval env = .ok o) :
    o.isNull = false ∧ o.value.isAbsent = false := by
  have unset : o.isNull = false := by
    rw [← Bool.not_eq_true, Expr.isNull_iff_of_eval checked evaluated]
    rintro ⟨leaf, exposed, absent⟩
    rw [present.isAbsentLeaf_eq_false (e.exposed_subset_nodes exposed)] at absent
    cases absent
  refine ⟨unset, Value.Solid.isAbsent_eq_false ?_⟩
  exact Expr.solid_of_present checked
    (fun name type inside v read => .inr (present.reads name type inside v read))
    evaluated unset

end Present

/-- Two computations that go on alike from every result of the first step. -/
theorem bind_congr_of_ok {α β : Type} {m : Except Fault α} {f g : α → Except Fault β}
    (same : ∀ a, m = .ok a → f a = g a) : (do let a ← m; f a) = (do let a ← m; g a) := by
  cases m with
  | error fault => rfl
  | ok a => exact same a rfl

/-- If no leaf is absent, it makes no difference whether absent values are tracked. -/
theorem Expr.eval_untracked [TimeZones] {env : Environment} (checked : env.nullCheck = true)
    {e : Expr} (present : e.Present env.inputs env.records) :
    e.eval { env with nullCheck := false } = e.eval env := by
  -- A null test looks at the flag of its operand or at its value; here both say that it is
  -- present.
  have nullTests {o : Outcome} (found : o.isNull = false ∧ o.value.isAbsent = false)
    (wanted : Bool) :
      Environment.nullTest { env with nullCheck := false } o wanted = env.nullTest o wanted := by
    simp only [Environment.nullTest, checked, found.1, found.2, if_true,
      Bool.false_eq_true, if_false]
  induction e with
  | naming inner label type ih => exact ih (present.sub (List.subset_cons_self _ _))
  | literal value type =>
    have found : value ≠ .null := fun null => present.literals type (null ▸ List.mem_cons_self)
    simp only [Expr.eval, beq_false_of_ne found, Bool.and_false]
  | field name type =>
    refine bind_congr_of_ok fun v read => ?_
    simp only [(present.reads name type List.mem_cons_self v read).isAbsent_eq_false,
      Bool.and_false]
  | binary op left right type ihl ihr =>
    have left' := present.sub (List.subset_cons_of_subset _ (List.subset_append_left _ _))
    have right' := present.sub (List.subset_cons_of_subset _ (List.subset_append_right _ _))
    simp only [Expr.eval, ihl left', ihr right']
    refine bind_congr_of_ok fun l leftRun => bind_congr_of_ok fun r rightRun => ?_
    rw [(left'.outcome checked leftRun).1, (right'.outcome checked rightRun).1]
    rfl
  | unary op operand type ih =>
    have operand' := present.sub (List.subset_cons_self _ _)
    simp only [Expr.eval, ih operand']
    refine bind_congr_of_ok fun c ran => ?_
    rw [(operand'.outcome checked ran).1]
    rfl
  | isNull operand type ih =>
    have operand' := present.sub (List.subset_cons_self _ _)
    simp only [Expr.eval, ih operand']
    exact bind_congr_of_ok fun c ran =>
      congrArg Except.ok (nullTests (operand'.outcome checked ran) true)
  | isNotNull operand type ih =>
    have operand' := present.sub (List.subset_cons_self _ _)
    simp only [Expr.eval, ih operand']
    exact bind_congr_of_ok fun c ran =>
      congrArg Except.ok (nullTests (operand'.outcome checked ran) false)
  | cast operand type ih =>
    have operand' := present.sub (List.subset_cons_self _ _)
    simp only [Expr.eval, ih operand']
    refine bind_congr_of_ok fun c ran => ?_
    rw [(operand'.outcome checked ran).1]
    rfl
  | substring str start stop type iha ihb ihc =>
    have str' := present.sub (List.subset_cons_of_subset _ (List.subset_append_left _ _))
    have bounds : start.nodes ++ stop.nodes ⊆ (Expr.substring str start stop type).nodes :=
      List.subset_cons_of_subset _ (List.subset_append_right _ _)
    have start' := present.sub (List.Subset.trans (List.subset_append_left _ _) bounds)
    have stop' := present.sub (List.Subset.trans (List.subset_append_right _ _) bounds)
    simp only [Expr.eval, iha str', ihb start', ihc stop']
    refine bind_congr_of_ok fun a strRun => bind_congr_of_ok fun b startRun =>
      bind_congr_of_ok fun c stopRun => ?_
    rw [(str'.outcome checked strRun).1, (start'.outcome checked startRun).1,
      (stop'.outcome checked stopRun).1]
    rfl

/-- Where all is present, tracking absence changes no outcome. -/
theorem Expr.evalAll_untracked [TimeZones] {env : Environment} (checked : env.nullCheck = true)
    {es : List Expr} (present : ∀ e ∈ es, e.Present env.inputs env.records) :
    Expr.evalAll { env with nullCheck := false } es = Expr.evalAll env es := by
  induction es with
  | nil => rfl
  | cons e es ih =>
    obtain ⟨first, rest⟩ := List.forall_mem_cons.1 present
    rw [Expr.evalAll, Expr.evalAll, Expr.eval_untracked checked first, ih rest]

section Results

variable {inputs : List Input} {records : List Value} {zone : Text} {absent : Ty → Value}

theorem Expr.project_untracked [TimeZones] {es : List Expr}
    (present : ∀ e ∈ es, e.Present inputs records) :
    Expr.project ⟨inputs, records, zone, false, absent⟩ es =
      Expr.project ⟨inputs, records, zone, true, absent⟩ es := by
  rw [Expr.project, Expr.project,
    ← @Expr.evalAll_untracked _ ⟨inputs, records, zone, true, absent⟩ rfl es present]

theorem Expr.accepts_untracked [TimeZones] {e : Expr} (present : e.Present inputs records) :
    e.accepts ⟨inputs, records, zone, false, absent⟩ =
      e.accepts ⟨inputs, records, zone, true, absent⟩ := by
  rw [Expr.accepts, Expr.accepts,
    ← @Expr.eval_untracked _ ⟨inputs, records, zone, true, absent⟩ rfl e present]

end Results

end RowExpr
