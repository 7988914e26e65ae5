import RowExpr.Calendar.Offsets
import RowExpr.Proofs.Expr.Nullity
import RowExpr.Proofs.Generation.Likeness

/-!
Naming wrappers leave no trace.

A wrapper gives a name to an expression and carries its type. A tree with such wrappers, at
any depth, is compiled as the tree without them: it is refused for the same reason, or it gets
the same code under the same names, and the session is in the same state afterwards
(`Session.naming_transparent`).
-/

namespace RowExpr

/-- The tree without its naming wrappers. -/
def Expr.unnamed : Expr → Expr
  | .naming inner _ _ => inner.unnamed
  | .literal value type => .literal value type
  | .field name type => .field name type
  | .binary op left right type => .binary op left.unnamed right.unnamed type
  | .unary op operand type => .unary op operand.unnamed type
  | .isNull operand type => .isNull operand.unnamed type
  | .isNotNull operand type => .isNotNull operand.unnamed type
  | .cast operand type => .cast operand.unnamed type
  | .substring str start stop type => .substring str.unnamed start.unnamed stop.unnamed type

/-- The node is no naming wrapper, or it carries the type of what it names. -/
def Expr.CarriesType : Expr → Prop
  | .naming inner _ type => type = inner.type
  | _ => True

/-- No wrapper is left, at any depth. -/
theorem Expr.naming_not_mem_unnamed (e inner : Expr) (label : Text) (type : Ty) :
    .naming inner label type ∉ e.unnamed.nodes := by
  induction e with
  | naming _ _ _ ih => exact ih
  | literal _ _ | field _ _ => simp [Expr.unnamed, Expr.nodes]
  | binary _ _ _ _ ihl ihr => simp [Expr.unnamed, Expr.nodes, ihl, ihr]
  | unary _ _ _ ih | isNull _ _ ih | isNotNull _ _ ih | cast _ _ ih =>
    simp [Expr.unnamed, Expr.nodes, ih]
  | substring _ _ _ _ iha ihb ihc => simp [Expr.unnamed, Expr.nodes, iha, ihb, ihc]

/-- A tree resembles what is left of it without its wrappers. -/
theorem Expr.resembles_unnamed (s : Setting) {e : Expr}
    (carries : ∀ node ∈ e.nodes, node.CarriesType) : s.Resembles s.inputs e e.unnamed := by
  induction e with
  | naming inner label type ih =>
    obtain ⟨carried, below⟩ := List.forall_mem_cons.1 carries
    exact .unwrapped carried (ih below)
  | literal value type => exact .literal
  | field name type => exact .field rfl
  | binary op left right type ihl ihr =>
    obtain ⟨-, below⟩ := List.forall_mem_cons.1 carries
    obtain ⟨onLeft, onRight⟩ := List.forall_mem_append.1 below
    exact .binary (ihl onLeft) (ihr onRight)
  | unary op operand type ih => exact .unary (ih (List.forall_mem_cons.1 carries).2)
  | isNull operand type ih => exact .isNull (ih (List.forall_mem_cons.1 carries).2)
  | isNotNull operand type ih => exact .isNotNull (ih (List.forall_mem_cons.1 carries).2)
  | cast operand type ih => exact .cast (ih (List.forall_mem_cons.1 carries).2)
  | substring str start stop type iha ihb ihc =>
    obtain ⟨-, below⟩ := List.forall_mem_cons.1 carries
    obtain ⟨inStr, below⟩ := List.forall_mem_append.1 below
    obtain ⟨inStart, inStop⟩ := List.forall_mem_append.1 below
    exact .substring (iha inStr) (ihb inStart) (ihc inStop)

/-- Wrappers that carry the types of what they name can be taken off a tree, all of them and at
any depth. From every state a session answers the compile calls of both trees alike: the logger
fails in the same way, or both trees are refused for the same reason, or both get the same code
with the same names for value and flag. In all cases it has then taken the same names and holds
the same members and initialising statements. -/
theorem Session.naming_transparent (s : Session) {e : Expr}
    (carries : ∀ node ∈ e.nodes, node.CarriesType) :
    (∀ inner label type, .naming inner label type ∉ e.unnamed.nodes) ∧
    EndAlike SameAnswer (s.compile e).1.outcome (s.compile e.unnamed).1.outcome ∧
    (s.compile e.unnamed).2 = (s.compile e).2 := by
  have same := Session.compile_resembling (e.resembles_unnamed s.setting carries)
  refine ⟨e.naming_not_mem_unnamed, same.outcome, ?_⟩
  have kept : (s.compile e).2.over s.inputs = (s.compile e).2 := by
    rw [← (Session.Step.compile s e).grows.inputs]
    rfl
  exact same.after.trans kept

/-- A text from some position to its end; the end and the text are named, the end twice. -/
def Expr.wrappedEnd : Expr :=
  .substring ((Expr.cast ((Expr.field "d" (.basic .date)).named "day") .string).named "text")
    (.literal (.number (Double.ofInt 5)) (.basic .double))
    (((Expr.literal (.number (Double.ofInt Expr.maxInt)) (.basic .double)).named "end").named
      "last") .string

def Expr.bareEnd : Expr :=
  .substring (.cast (.field "d" (.basic .date)) .string)
    (.literal (.number (Double.ofInt 5)) (.basic .double))
    (.literal (.number (Double.ofInt Expr.maxInt)) (.basic .double)) .string

section Host

open scoped Offsets

theorem Session.naming_transparent_wrappedEnd :
    ∃ (new : Session) (g : Generated),
      Session.create [⟨"row", .plain .pojo [.mk "d" (.basic .date)]⟩] (.members []) = .ok new ∧
      (∀ node ∈ Expr.wrappedEnd.nodes, node.CarriesType) ∧
      (new.compile Expr.wrappedEnd).1.outcome = .ok (.ok g) ∧
      (new.compile Expr.bareEnd).1.outcome = .ok (.ok g) ∧
      (new.compile Expr.bareEnd).2 = (new.compile Expr.wrappedEnd).2 := by
  obtain ⟨new, g, created, accepted⟩ : ∃ (new : Session) (g : Generated),
      Session.create [⟨"row", .plain .pojo [.mk "d" (.basic .date)]⟩] (.members []) = .ok new ∧
      (new.compile Expr.wrappedEnd).1.outcome = .ok (.ok g) := ⟨_, _, rfl, rfl⟩
  have carries : ∀ node ∈ Expr.wrappedEnd.nodes, node.CarriesType := by
    simp [Expr.wrappedEnd, Expr.named, Expr.nodes, Expr.CarriesType, Expr.type]
  obtain ⟨-, answers, after⟩ := Session.naming_transparent new carries
  obtain ⟨answer, reported, same⟩ := answers.of_ok accepted
  cases same
  exact ⟨new, g, created, carries, accepted, reported, after⟩

end Host

end RowExpr
