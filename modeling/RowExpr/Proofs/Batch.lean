import RowExpr.Proofs.Generation.Parallel
import RowExpr.Proofs.Query

/-!
Sessions that compile many expressions.

`Session.compileEach` makes one compile call for each expression and goes on after
one that is refused. A refused expression may have taken names and asked for
declarations, but it gives nothing back: the codes of the accepted ones are generated
in order, each after all names that were taken before it (`Setting.EmitsSome`), and
the registry covers what they ask for (`Session.Sound.compileEach`).
-/

namespace RowExpr

/-- The code that a compile call gives, if the expression is accepted and the logger does
not fail. -/
def Report.accepted? (report : Report (Except GenerationError Generated)) : Option Generated :=
  match report.outcome with
  | .ok (.ok g) => some g
  | _ => none

/-- Compiles expressions one after the other, whatever becomes of those before, and gives
the codes of the accepted ones. -/
def Session.compileEach (s : Session) : List Expr → List Generated × Session
  | [] => ([], s)
  | e :: es =>
    let (report, s) := s.compile e
    let (codes, s) := s.compileEach es
    (report.accepted?.toList ++ codes, s)

/-- Generation of some expressions in order, with names from `n` up to `m`. Between them,
and at the end, names may be taken that no code uses. -/
inductive Setting.EmitsSome (s : Setting) : Nat → List Generated → Nat → List Declaration → Prop
  | done {n m} : n ≤ m → s.EmitsSome n [] m []
  | emit {e n k g m ds gs m' ds'} :
    n ≤ k → s.Emits e k g m ds → s.EmitsSome m gs m' ds' → s.EmitsSome n (g :: gs) m' (ds ++ ds')

theorem Setting.EmitsSome.le {s : Setting} {n m : Nat} {gs : List Generated}
    {ds : List Declaration} (emits : s.EmitsSome n gs m ds) : n ≤ m := by
  induction emits with
  | done le => exact le
  | emit le first _ ih =>
    have taken := first.numbered.taken
    omega

/-- Names that are taken first do no harm. -/
theorem Setting.EmitsSome.later {s : Setting} {n k m : Nat} {gs : List Generated}
    {ds : List Declaration} (emits : s.EmitsSome k gs m ds) (le : n ≤ k) :
    s.EmitsSome n gs m ds := by
  cases emits with
  | done le' => exact .done (Nat.le_trans le le')
  | emit le' first rest => exact .emit (Nat.le_trans le le') first rest

theorem Report.of_accepted? {report : Report (Except GenerationError Generated)} {g : Generated}
    (accepted : report.accepted? = some g) : report.outcome = .ok (.ok g) := by
  unfold Report.accepted? at accepted
  split at accepted
  · next ended =>
    cases accepted
    exact ended
  · cases accepted

/-- A compile call gives back no names, whether it succeeds or fails. -/
theorem Session.taken_le_compile (s : Session) (e : Expr) :
    s.names.taken ≤ (s.compile e).2.names.taken := by
  rw [s.compile_snd e]
  exact (Expr.generate_parallel rfl e s.names.taken s.names.taken).taken_le

/-- A compile call lets a session grow, even if it is refused. -/
theorem Session.Grows.compile (s : Session) (e : Expr) : s.Grows (s.compile e).2 :=
  (Session.Step.compile s e).grows

/-- What a sound session has done after a compile call for each expression. -/
theorem Session.Sound.compileEach {s t : Session} (sound : s.Sound) {es : List Expr}
    {gs : List Generated} (compiled : s.compileEach es = (gs, t)) :
    s.Grows t ∧ ∃ ds, s.setting.EmitsSome s.names.taken gs t.names.taken ds ∧
      t.registry.Covers ds := by
  induction es generalizing s gs t with
  | nil =>
    cases compiled
    exact ⟨.refl _, [], .done (Nat.le_refl _), sound.registry⟩
  | cons e es ih =>
    rcases rest : (s.compile e).2.compileEach es with ⟨later, last⟩
    have grown := Session.Grows.compile s e
    obtain ⟨grows, ds', emitsRest, coversRest⟩ := ih (sound.grows grown) rest
    rw [grown.setting] at emitsRest
    unfold Session.compileEach at compiled
    simp only [rest] at compiled
    cases compiled
    cases report : (s.compile e).1.accepted? with
    | none => exact ⟨grown.trans grows, ds', emitsRest.later (s.taken_le_compile e), coversRest⟩
    | some g =>
      obtain ⟨-, ds, emits, covers⟩ :=
        sound.draft (Session.of_compile (Report.of_accepted? report))
      exact ⟨grown.trans grows, ds ++ ds', .emit (Nat.le_refl _) emits emitsRest,
        (grows.covers covers).append coversRest⟩

end RowExpr
