import RowExpr.Calendar.Offsets
import RowExpr.Proofs.Expr.Nullity
import RowExpr.Proofs.Generation.Numbering
import RowExpr.Proofs.Generation.Parallel
import RowExpr.Proofs.Session

/-!
What a compile call takes from its session.

Every node takes two names, unless it is a naming wrapper, and a cast that reads a date
takes a third (`Setting.Emits.taken_eq`). Whether absent values are tracked changes
the code of an expression, but not whether it is accepted, nor the names it takes, nor
the declarations it asks for (`Session.bookkeeping_ignores_tracking`).
-/

namespace RowExpr

/-! ## Names of a tree -/

def Expr.isNaming : Expr → Bool
  | .naming _ _ _ => true
  | _ => false

/-- A cast that reads a date from a text. -/
def Expr.readsDate : Expr → Bool
  | .cast operand type => operand.type.isBasicNamed .string && type.isBasicNamed .date
  | _ => false

/-- The names that nodes take: two for each that is not a naming wrapper, and one for each
cast that reads a date. -/
def Expr.namesOf (nodes : List Expr) : Nat :=
  2 * nodes.countP (fun node => !node.isNaming) + nodes.countP Expr.readsDate

theorem Expr.namesOf_append (nodes nodes' : List Expr) :
    namesOf (nodes ++ nodes') = namesOf nodes + namesOf nodes' := by
  unfold namesOf
  rw [List.countP_append, List.countP_append]
  omega

theorem Expr.namesOf_naming (inner : Expr) (label : Text) (type : Ty) (below : List Expr) :
    namesOf (.naming inner label type :: below) = namesOf below := by
  unfold namesOf
  rw [List.countP_cons_of_neg Bool.false_ne_true, List.countP_cons_of_neg Bool.false_ne_true]

theorem Expr.namesOf_cons {node : Expr} (proper : node.isNaming = false) (below : List Expr) :
    namesOf (node :: below) = 2 + (if node.readsDate then 1 else 0) + namesOf below := by
  unfold namesOf
  rw [List.countP_cons, List.countP_cons, proper]
  simp only [Bool.not_false, if_true]
  omega

theorem Expr.namesOf_plain {node : Expr} (proper : node.isNaming = false)
    (plain : node.readsDate = false) (below : List Expr) :
    namesOf (node :: below) = 2 + namesOf below := by
  rw [namesOf_cons proper, plain]
  rfl

/-- The names that the conversion of a cast takes. -/
theorem Gen.taken_conversion? {result : Name} {value : Term} {source target : Ty}
    {step : Gen Block} {n m : Nat} {block : Block} {ds : List Declaration}
    (found : Gen.conversion? result value source target = some step)
    (made : step.Yields n block m ds) :
    m = n + (if source.isBasicNamed .string && target.isBasicNamed .date then 1 else 0) := by
  obtain ⟨block', ds', made'⟩ := Gen.exists_yields_conversion? found n
  exact (made.unique made').2.1

/-- Generation takes two names for every node that is not a naming wrapper, and one more for
every cast that reads a date. -/
theorem Setting.Emits.taken_eq {s : Setting} {e : Expr} {n m : Nat} {g : Generated}
    {ds : List Declaration} (emits : s.Emits e n g m ds) : m = n + Expr.namesOf e.nodes := by
  induction emits with
  | naming _ ih =>
    rw [Expr.nodes, Expr.namesOf_naming]
    exact ih
  | nullLiteral => rfl
  | literal _ found made =>
    obtain ⟨rfl, -⟩ := Literal.eval_term? found made
    rfl
  | field _ => rfl
  | binary _ _ ihl ihr =>
    rw [Expr.nodes, Expr.namesOf_plain rfl rfl, Expr.namesOf_append, ihr, ihl]
    omega
  | unary _ ih | isNull _ ih | isNotNull _ ih =>
    rw [Expr.nodes, Expr.namesOf_plain rfl rfl, ih]
    omega
  | cast _ _ found made ih =>
    rw [Expr.nodes, Expr.namesOf_cons rfl, Gen.taken_conversion? found made, ih, Expr.readsDate]
    omega
  | substring _ _ _ iha ihb ihc =>
    rw [Expr.nodes, Expr.namesOf_plain rfl rfl, Expr.namesOf_append, Expr.namesOf_append,
      ihc, ihb, iha]
    omega

/-! ## Two modes -/

/-- The session with absent values tracked or not, and all else the same. -/
def Session.tracking (s : Session) (nullCheck : Bool) : Session :=
  { s with options := { s.options with nullCheck } }

/-- Steps that were started after the same names have taken the same names. -/
theorem Draft.Parallel.names_eq {α β : Type} {n : Nat} {d : Draft α} {d' : Draft β}
    (drafts : d.Parallel n n d') : d.names = d'.names := by
  cases drafts with
  | intro _ => rfl

theorem Draft.Parallel.requests_eq {α β : Type} {n n' : Nat} {d : Draft α} {d' : Draft β}
    (drafts : d.Parallel n n' d') : d.requests = d'.requests := by
  cases drafts with
  | intro _ => rfl

/-- Whether absent values are tracked makes a difference to the code of an expression only.
From the same state, both modes refuse the expression with the same error, or both accept it
and leave its value and its flag in the same names. In all cases they have then taken the
same names and hold the same members and initialising statements. An accepted expression has
taken two names for every node that is not a naming wrapper and one for every cast that reads
a date from a text. -/
theorem Session.bookkeeping_ignores_tracking (s : Session) (e : Expr) :
    EndAlike (EndAlike fun g g' => g.result = g'.result ∧ g.isNull = g'.isNull)
      ((s.tracking true).compile e).1.outcome ((s.tracking false).compile e).1.outcome ∧
    ((s.tracking true).compile e).2.names = ((s.tracking false).compile e).2.names ∧
    ((s.tracking true).compile e).2.registry = ((s.tracking false).compile e).2.registry ∧
    ∀ tracked g, ((s.tracking tracked).compile e).1.outcome = .ok (.ok g) →
      ((s.tracking tracked).compile e).2.names.taken = s.names.taken +
        (2 * e.nodes.countP (fun node => !node.isNaming) + e.nodes.countP Expr.readsDate) := by
  have inputs : (s.tracking true).setting.inputs = (s.tracking false).setting.inputs := rfl
  have drafts := e.generate_parallel inputs s.names.taken s.names.taken
  refine ⟨?_, ?_, ?_, ?_⟩
  · rw [Session.outcome_compile, Session.outcome_compile]
    show EndAlike _ (do s.options.sink.reply; _) (do s.options.sink.reply; _)
    cases s.options.sink.reply with
    | error failure => exact .error failure
    | ok _ =>
      refine .ok (drafts.endAlike.mono fun g g' made made' _ => ?_)
      have numbered := Expr.numbered_of_generate made
      have numbered' := Expr.numbered_of_generate made'
      exact ⟨numbered.result.trans numbered'.result.symm,
        numbered.isNull.trans numbered'.isNull.symm⟩
  · rw [Session.compile_snd, Session.compile_snd]
    exact drafts.names_eq
  · rw [Session.compile_snd, Session.compile_snd]
    exact congrArg s.registry.ensureAll drafts.requests_eq
  · intro tracked g accepted
    rw [Session.outcome_compile] at accepted
    obtain ⟨-, -, made⟩ := of_bind_eq_ok accepted
    injection made with made
    rw [Session.compile_snd]
    exact (Expr.yields_iff.1 (Gen.exists_yields made)).taken_eq

/-- A cast that reads a date, with a name for it. -/
def Expr.namedDate : Expr :=
  .naming (.cast (.field "d" .string) (.basic .date)) "when" (.basic .date)

section Host

open scoped Offsets

/-- Two nodes and a cast that reads a date take five names in both modes. -/
theorem Session.bookkeeping_ignores_tracking_namedDate :
    ∃ (new : Session) (g g' : Generated),
      Session.create [⟨"row", .plain .pojo [.mk "d" .string]⟩] (.members []) = .ok new ∧
      ((new.tracking true).compile Expr.namedDate).1.outcome = .ok (.ok g) ∧
      ((new.tracking false).compile Expr.namedDate).1.outcome = .ok (.ok g') ∧
      g.result = g'.result ∧ g.isNull = g'.isNull ∧
      ((new.tracking true).compile Expr.namedDate).2.names.taken = 5 ∧
      ((new.tracking false).compile Expr.namedDate).2.names.taken = 5 := by
  obtain ⟨new, g, created, accepted, started⟩ : ∃ (new : Session) (g : Generated),
      Session.create [⟨"row", .plain .pojo [.mk "d" .string]⟩] (.members []) = .ok new ∧
      ((new.tracking true).compile Expr.namedDate).1.outcome = .ok (.ok g) ∧
      new.names.taken = 0 :=
    ⟨_, _, rfl, rfl, rfl⟩
  obtain ⟨ends, names, -, counted⟩ := Session.bookkeeping_ignores_tracking new Expr.namedDate
  obtain ⟨answer, reported, answers⟩ := ends.of_ok accepted
  obtain ⟨g', rfl, result, isNull⟩ := answers.of_ok rfl
  have taken := counted true g accepted
  rw [started] at taken
  exact ⟨new, g, g', created, accepted, reported, result, isNull, taken, names ▸ taken⟩

end Host

end RowExpr
