import RowExpr.Expr.Evaluation
import RowExpr.Proofs.Code.Frame

/-!
Which nodes of a tree count as absent.

If absent values are tracked, a node is absent exactly if an absent leaf can be
reached from it without passing through a null test. If they are not, none is.
`Expr.isNull_of_eval` says both.
-/

namespace RowExpr

/-! ## Parts of a tree -/

/-- All nodes of a tree, its root first. -/
def Expr.nodes : Expr → List Expr
  | e@(.literal _ _) => [e]
  | e@(.field _ _) => [e]
  | e@(.naming inner _ _) => e :: inner.nodes
  | e@(.binary _ left right _) => e :: (left.nodes ++ right.nodes)
  | e@(.unary _ operand _) => e :: operand.nodes
  | e@(.isNull operand _) => e :: operand.nodes
  | e@(.isNotNull operand _) => e :: operand.nodes
  | e@(.cast operand _) => e :: operand.nodes
  | e@(.substring str start stop _) => e :: (str.nodes ++ (start.nodes ++ stop.nodes))

/-- The leaves that can be reached from the root without passing through a null test. -/
def Expr.exposed : Expr → List Expr
  | e@(.literal _ _) => [e]
  | e@(.field _ _) => [e]
  | .naming inner _ _ => inner.exposed
  | .binary _ left right _ => left.exposed ++ right.exposed
  | .unary _ operand _ => operand.exposed
  | .isNull _ _ => []
  | .isNotNull _ _ => []
  | .cast operand _ => operand.exposed
  | .substring str start stop _ => str.exposed ++ start.exposed ++ stop.exposed

/-- A leaf is absent if it is a null literal or a field that reads as null or undefined. -/
def Expr.isAbsentLeaf (inputs : List Input) (records : List Value) : Expr → Bool
  | .literal value _ => value == .null
  | .field name _ =>
    match Input.read name inputs records with
    | .ok v => v.isAbsent
    | .error _ => false
  | _ => false

/-- An absent leaf can be reached from the root without passing through a null test. -/
def Expr.ExposesAbsence (inputs : List Input) (records : List Value) (e : Expr) : Prop :=
  ∃ leaf ∈ e.exposed, leaf.isAbsentLeaf inputs records = true

/-- The nodes of a node are nodes of the tree. -/
theorem Expr.nodes_subset_of_mem {e node : Expr} (inside : node ∈ e.nodes) :
    node.nodes ⊆ e.nodes := by
  induction e with
  | literal value type =>
    cases List.mem_singleton.1 inside
    exact List.Subset.refl _
  | field name type =>
    cases List.mem_singleton.1 inside
    exact List.Subset.refl _
  | naming inner label type ih | unary op inner type ih | isNull inner type ih
  | isNotNull inner type ih
  | cast inner type ih =>
    rcases List.mem_cons.1 inside with rfl | inside
    · exact List.Subset.refl _
    · exact List.subset_cons_of_subset _ (ih inside)
  | binary op left right type ihl ihr =>
    rcases List.mem_cons.1 inside with rfl | inside
    · exact List.Subset.refl _
    · refine List.subset_cons_of_subset _ ?_
      rcases List.mem_append.1 inside with inside | inside
      · exact List.subset_append_of_subset_left _ (ihl inside)
      · exact List.subset_append_of_subset_right _ (ihr inside)
  | substring str start stop type iha ihb ihc =>
    rcases List.mem_cons.1 inside with rfl | inside
    · exact List.Subset.refl _
    · refine List.subset_cons_of_subset _ ?_
      rcases List.mem_append.1 inside with inside | inside
      · exact List.subset_append_of_subset_left _ (iha inside)
      · refine List.subset_append_of_subset_right _ ?_
        rcases List.mem_append.1 inside with inside | inside
        · exact List.subset_append_of_subset_left _ (ihb inside)
        · exact List.subset_append_of_subset_right _ (ihc inside)

/-- What a tree exposes is part of it. -/
theorem Expr.exposed_subset_nodes (e : Expr) : e.exposed ⊆ e.nodes := by
  induction e with
  | literal value type => exact List.Subset.refl _
  | field name type => exact List.Subset.refl _
  | naming inner label type ih => exact List.subset_cons_of_subset _ ih
  | binary op left right type ihl ihr =>
    refine List.subset_cons_of_subset _ (List.append_subset.2 ⟨?_, ?_⟩)
    · exact List.subset_append_of_subset_left _ ihl
    · exact List.subset_append_of_subset_right _ ihr
  | unary op operand type ih => exact List.subset_cons_of_subset _ ih
  | isNull operand type ih => exact List.nil_subset _
  | isNotNull operand type ih => exact List.nil_subset _
  | cast operand type ih => exact List.subset_cons_of_subset _ ih
  | substring str start stop type iha ihb ihc =>
    refine List.subset_cons_of_subset _ (List.append_subset.2 ⟨List.append_subset.2 ⟨?_, ?_⟩, ?_⟩)
    · exact List.subset_append_of_subset_left _ iha
    · exact List.subset_append_of_subset_right _ (List.subset_append_of_subset_left _ ihb)
    · exact List.subset_append_of_subset_right _ (List.subset_append_of_subset_right _ ihc)

/-! ## Guarded nodes -/

variable {env : Environment}

/-- A guarded node that has an outcome is absent if an operand is, and then holds a
placeholder. -/
theorem Environment.guarded_eq_ok {absent : Bool} {type : Ty} {value : Except Fault Value}
    {o : Outcome} (guarded : env.guarded absent type value = .ok o) :
    (absent = true ∧ o = ⟨env.defaults type, true⟩) ∨
      (absent = false ∧ ∃ v, value = .ok v ∧ o = ⟨v, false⟩) := by
  cases absent with
  | true =>
    cases guarded
    exact .inl ⟨rfl, rfl⟩
  | false =>
    obtain ⟨v, computed, done⟩ := of_bind_eq_ok guarded
    cases done
    exact .inr ⟨rfl, v, computed, rfl⟩

/-- A guarded value is absent exactly if its guard says so. -/
theorem Environment.isNull_of_guarded {absent : Bool} {type : Ty} {value : Except Fault Value}
    {o : Outcome} (guarded : env.guarded absent type value = .ok o) : o.isNull = absent := by
  rcases guarded_eq_ok guarded with ⟨rfl, rfl⟩ | ⟨rfl, v, -, rfl⟩
  · rfl
  · rfl

/-! ## Trees -/

/-- A node is absent exactly if absent values are tracked and an absent leaf can be
reached from it without passing through a null test. -/
theorem Expr.isNull_of_eval [TimeZones] {e : Expr} {o : Outcome}
    (evaluated : e.eval env = .ok o) :
    o.isNull = (env.nullCheck && e.exposed.any (Expr.isAbsentLeaf env.inputs env.records)) := by
  induction e generalizing o with
  | naming inner label type ih => exact ih evaluated
  | literal value type =>
    cases evaluated
    simp only [exposed, List.any_cons, List.any_nil, Bool.or_false, isAbsentLeaf]
  | field name type =>
    obtain ⟨v, read, done⟩ := of_bind_eq_ok evaluated
    cases done
    simp only [exposed, List.any_cons, List.any_nil, Bool.or_false, isAbsentLeaf, read]
  | binary op left right type ihl ihr =>
    obtain ⟨l, leftRun, evaluated⟩ := of_bind_eq_ok evaluated
    obtain ⟨r, rightRun, evaluated⟩ := of_bind_eq_ok evaluated
    rw [Environment.isNull_of_guarded evaluated, ihl leftRun, ihr rightRun, exposed,
      List.any_append, Bool.and_or_distrib_left]
  | unary op operand type ih =>
    obtain ⟨c, operandRun, evaluated⟩ := of_bind_eq_ok evaluated
    rw [Environment.isNull_of_guarded evaluated, ih operandRun, exposed]
  | isNull operand type ih =>
    obtain ⟨c, -, done⟩ := of_bind_eq_ok evaluated
    cases done
    exact (Bool.and_false _).symm
  | isNotNull operand type ih =>
    obtain ⟨c, -, done⟩ := of_bind_eq_ok evaluated
    cases done
    exact (Bool.and_false _).symm
  | cast operand type ih =>
    obtain ⟨c, operandRun, evaluated⟩ := of_bind_eq_ok evaluated
    rw [Environment.isNull_of_guarded evaluated, ih operandRun, exposed]
  | substring str start stop type iha ihb ihc =>
    obtain ⟨a, strRun, evaluated⟩ := of_bind_eq_ok evaluated
    obtain ⟨b, startRun, evaluated⟩ := of_bind_eq_ok evaluated
    obtain ⟨c, stopRun, evaluated⟩ := of_bind_eq_ok evaluated
    rw [Environment.isNull_of_guarded evaluated, iha strRun, ihb startRun, ihc stopRun, exposed,
      List.any_append, List.any_append, Bool.and_or_distrib_left, Bool.and_or_distrib_left]

/-- With null checks, a tree is absent if and only if one of the leaves that it exposes is. By
induction on the tree: null tests hide what is below them. -/
theorem Expr.isNull_iff_of_eval [TimeZones] (checked : env.nullCheck = true) {e : Expr}
    {o : Outcome} (evaluated : e.eval env = .ok o) :
    o.isNull = true ↔ e.ExposesAbsence env.inputs env.records := by
  rw [Expr.isNull_of_eval evaluated, checked, Bool.true_and, List.any_eq_true]
  rfl

/-- If absent values are not tracked, no node counts as absent. -/
theorem Expr.isNull_eq_false_of_unchecked [TimeZones] (unchecked : env.nullCheck = false)
    {e : Expr} {o : Outcome} (evaluated : e.eval env = .ok o) : o.isNull = false := by
  rw [Expr.isNull_of_eval evaluated, unchecked, Bool.false_and]

end RowExpr
