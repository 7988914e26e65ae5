import RowExpr.Proofs.Generation.Parallel
import RowExpr.Proofs.Session

/-!
Trees that get the same code.

A tree resembles another if the two differ only in naming wrappers, which carry the type of
what they name, and in the names of fields that are read in the same way. Generation goes the
same way for both: it takes the same names, asks for the same declarations, and gives the
same code or fails for the same reason (`Setting.Resembles.generate`). So does a compile call
of a session (`Session.compile_resembling`).
-/

namespace RowExpr

/-! ## Steps of generation -/

/-- Two computations give the same, or fail for the same reason. -/
inductive SameAnswer {α : Type} : Except GenerationError α → Except GenerationError α → Prop
  | given (a : α) : SameAnswer (.ok a) (.ok a)
  | refused {err err' : GenerationError} : err.reason = err'.reason →
    SameAnswer (.error err) (.error err')

/-- Two steps leave behind the same names and requests, and answer alike. -/
inductive Draft.Agrees {α : Type} : Draft α → Draft α → Prop
  | intro {names : NameSupply} {ds : List Declaration}
    {outcome outcome' : Except GenerationError α} :
    SameAnswer outcome outcome' → Draft.Agrees ⟨names, ds, outcome⟩ ⟨names, ds, outcome'⟩

theorem Draft.Agrees.answers {α : Type} {d d' : Draft α} (drafts : d.Agrees d') :
    SameAnswer d.outcome d'.outcome := by
  rcases drafts with ⟨answers⟩
  exact answers

/-- Two steps of generation that go the same way from every supply of names. -/
def Gen.Agrees {α : Type} (m m' : Gen α) : Prop := ∀ names, (m names).Agrees (m' names)

section Steps

variable {α β : Type}

theorem Gen.Agrees.refl (m : Gen α) : m.Agrees m := by
  intro names
  rcases m names with ⟨names', ds, err | a⟩
  · exact .intro (.refused rfl)
  · exact .intro (.given a)

/-- Two errors agree if their reasons do; where in the tree they came up may differ. -/
theorem Gen.agrees_fail {err err' : GenerationError} (same : err.reason = err'.reason) :
    (Gen.fail err : Gen α).Agrees (Gen.fail err') := by
  intro names
  exact .intro (.refused same)

/-- Steps in a row agree if the first ones do and what comes next agrees for every result. -/
theorem Gen.Agrees.bind {m m' : Gen α} {f f' : α → Gen β} (first : m.Agrees m')
    (next : ∀ a, (f a).Agrees (f' a)) : (m >>= f).Agrees (m' >>= f') := by
  intro names
  show Draft.Agrees (Gen.bind m f names) (Gen.bind m' f' names)
  have started := first names
  unfold Gen.bind
  generalize m names = draft at started
  generalize m' names = draft' at started
  cases started with
  | @intro names' ds _ _ answers =>
    cases answers with
    | refused same => exact .intro (.refused same)
    | given a =>
      have continued := next a names'
      dsimp only
      generalize f a names' = draft at continued
      generalize f' a names' = draft' at continued
      rcases continued with ⟨answers⟩
      exact .intro answers

/-- A node takes the names of its flag and of its value before all else. -/
theorem Gen.agrees_names {f f' : Name → Name → Gen α}
    (next : ∀ isNull result, (f isNull result).Agrees (f' isNull result)) :
    (do
      let isNull ← Gen.fresh "isNull"
      let result ← Gen.fresh "result"
      f isNull result).Agrees (do
      let isNull ← Gen.fresh "isNull"
      let result ← Gen.fresh "result"
      f' isNull result) := by
  refine (Gen.Agrees.refl _).bind fun isNull => ?_
  exact (Gen.Agrees.refl _).bind fun result => next isNull result

end Steps

/-! ## Trees -/

/-- The setting with other inputs. -/
def Setting.over (s : Setting) (inputs : List Input) : Setting := { s with inputs }

/-- The first tree, read in the setting, and the second one, read over other inputs, have the same
shape. A naming wrapper on the left may be missing on the right if it carries the type of what it
names, and a field may have another name that is read by the same term. -/
inductive Setting.Resembles (s : Setting) (inputs : List Input) : Expr → Expr → Prop
  | unwrapped {inner e' label type} :
    type = inner.type → s.Resembles inputs inner e' →
    s.Resembles inputs (.naming inner label type) e'
  | naming {inner inner' label type} :
    s.Resembles inputs inner inner' → s.Resembles inputs (.naming inner label type)
      (.naming inner' label type)
  | literal {value type} : s.Resembles inputs (.literal value type) (.literal value type)
  | field {name name' type} :
    s.fieldTerm? name type = (s.over inputs).fieldTerm? name' type →
    s.Resembles inputs (.field name type) (.field name' type)
  | binary {op left right left' right' type} :
    s.Resembles inputs left left' → s.Resembles inputs right right' →
    s.Resembles inputs (.binary op left right type) (.binary op left' right' type)
  | unary {op operand operand' type} :
    s.Resembles inputs operand operand' → s.Resembles inputs (.unary op operand type)
      (.unary op operand' type)
  | isNull {operand operand' type} :
    s.Resembles inputs operand operand' →
    s.Resembles inputs (.isNull operand type) (.isNull operand' type)
  | isNotNull {operand operand' type} :
    s.Resembles inputs operand operand' → s.Resembles inputs (.isNotNull operand type)
      (.isNotNull operand' type)
  | cast {operand operand' type} :
    s.Resembles inputs operand operand' →
    s.Resembles inputs (.cast operand type) (.cast operand' type)
  | substring {str start stop str' start' stop' type} :
    s.Resembles inputs str str' → s.Resembles inputs start start' →
    s.Resembles inputs stop stop' →
    s.Resembles inputs (.substring str start stop type) (.substring str' start' stop' type)

section Resembling

variable {s : Setting} {inputs : List Input} {e e' : Expr}

/-- Nodes look at the types of their operands. -/
theorem Setting.Resembles.type_eq (resembles : s.Resembles inputs e e') : e.type = e'.type := by
  induction resembles with
  | unwrapped carried _ ih => exact carried.trans ih
  | _ => rfl

/-- A substring looks for a literal under the wrappers of its end. -/
theorem Setting.Resembles.literal?_eq (resembles : s.Resembles inputs e e') :
    e.unwrapped.literal? = e'.unwrapped.literal? := by
  induction resembles with
  | unwrapped _ _ ih | naming _ ih => exact ih
  | _ => rfl

/-- Fields that are read by the same term get the same code. -/
theorem Setting.generateField_agrees {name name' : Text} {type : Ty}
    (read : s.fieldTerm? name type = (s.over inputs).fieldTerm? name' type)
    (isNull result : Name) :
    (s.generateField isNull result name type).Agrees
      ((s.over inputs).generateField isNull result name' type) := by
  unfold Setting.generateField
  rw [← read]
  split
  · exact .refl _
  · exact Gen.agrees_fail rfl

/-- Trees that resemble each other get the same code, or are refused for the same reason. -/
theorem Setting.Resembles.generate (resembles : s.Resembles inputs e e') :
    (e.generate s).Agrees (e'.generate (s.over inputs)) := by
  induction resembles with
  | unwrapped _ _ ih | naming _ ih => exact ih
  | literal => exact Gen.agrees_names fun isNull result => .refl _
  | field read =>
    refine Gen.agrees_names fun isNull result => ?_
    exact (Setting.generateField_agrees read isNull result).bind fun _ => .refl _
  | binary left right ihl ihr =>
    refine Gen.agrees_names fun isNull result => ihl.bind fun l => ihr.bind fun r => ?_
    rw [left.type_eq, right.type_eq]
    exact .refl _
  | unary operand ih =>
    refine Gen.agrees_names fun isNull result => ih.bind fun c => ?_
    rw [operand.type_eq]
    exact .refl _
  | isNull _ ih | isNotNull _ ih =>
    exact Gen.agrees_names fun isNull result => ih.bind fun c => .refl _
  | cast operand ih =>
    refine Gen.agrees_names fun isNull result => ?_
    rw [operand.type_eq]
    split
    · exact Gen.agrees_fail rfl
    · refine ih.bind fun c => ?_
      split
      · exact .refl _
      · exact Gen.agrees_fail rfl
  | substring str start stop iha ihb ihc =>
    refine Gen.agrees_names fun isNull result => iha.bind fun a => ihb.bind fun b =>
      ihc.bind fun c => ?_
    rw [str.type_eq, stop.literal?_eq]
    exact .refl _

end Resembling

/-! ## Sessions -/

/-- The session with other inputs, in the same state. -/
def Session.over (s : Session) (inputs : List Input) : Session := { s with inputs }

/-- Two sessions in the same state, with inputs of their own, answer two compile calls alike: the
logger fails in the same way, or both give the same code, or both refuse for the same reason.
Afterwards they are in the same state again. -/
structure Session.SameCompile (s s' : Session) (e e' : Expr) : Prop where
  outcome : EndAlike SameAnswer (s.compile e).1.outcome (s'.compile e').1.outcome
  after : (s'.compile e').2 = (s.compile e).2.over s'.inputs

/-- Sessions that go on from steps that agree are in the same state again. -/
theorem Draft.Agrees.sameState {α : Type} {d d' : Draft α} (drafts : d.Agrees d') (s : Session)
    (inputs : List Input) :
    ({ s with inputs, names := d'.names, registry := s.registry.ensureAll d'.requests } :
      Session) =
      { s with inputs, names := d.names, registry := s.registry.ensureAll d.requests } := by
  rcases drafts with ⟨_⟩
  rfl

/-- Trees that resemble each other are compiled alike, and leave two sessions in the same state.
-/
theorem Session.compile_resembling {s : Session} {inputs : List Input} {e e' : Expr}
    (resembles : s.setting.Resembles inputs e e') : s.SameCompile (s.over inputs) e e' := by
  have drafts := resembles.generate s.names
  constructor
  · rw [Session.outcome_compile, Session.outcome_compile]
    show EndAlike _ (do s.options.sink.reply; _) (do s.options.sink.reply; _)
    rcases s.options.sink.reply with failure | _
    · exact .error failure
    · exact .ok drafts.answers
  · rw [Session.compile_snd, Session.compile_snd]
    exact drafts.sameState s inputs

end RowExpr
