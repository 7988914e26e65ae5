import RowExpr.Calendar.Offsets
import RowExpr.Proofs.Generation.Numbering
import RowExpr.Proofs.Generation.Renumbering
import RowExpr.Proofs.Session

/-!
What the history of a session changes.

A session that has been used compiles an expression as a new one does. The numbers of its
names are higher by those taken before, and what is declared comes after what was declared
before (`Session.history_shifts_names`).
-/

namespace RowExpr

/-! ## Sessions that have been used -/

/-- The terms of a session that was created without terms of its own have no names. -/
theorem Session.fixed_setting [TimeZones] {inputs : List Input} {given : GivenOptions}
    {new : Session} (created : Session.create inputs given = .ok new) (f : Name → Name) :
    new.setting.Fixed f := by
  obtain ⟨-, -, terms⟩ := Session.of_createWith created
  intro type
  show (new.defaults type).rename f = new.defaults type
  rw [terms]
  exact type.rename_defaultTerm f

/-- A new session has taken no names and declares nothing. -/
theorem Session.new_of_createWith [TimeZones] {defaults : Ty → Term} {inputs : List Input}
    {given : GivenOptions} {new : Session}
    (created : Session.createWith defaults inputs given = .ok new) :
    new.names = .full ∧ new.registry = .empty new.options.timeZone := by
  unfold Session.createWith at created
  obtain ⟨-, -, created⟩ := of_bind_eq_ok created
  obtain ⟨options, -, made⟩ := of_bind_eq_ok created
  cases made
  exact ⟨rfl, rfl⟩

section Used

variable [TimeZones] {inputs : List Input} {given : GivenOptions} {new s : Session}
  (created : Session.create inputs given = .ok new) (grows : new.Grows s) (e : Expr)

include created grows

theorem Session.draft_shifts :
    e.generate s.setting s.names =
      (e.generate new.setting new.names).shift s.names.taken (Generated.shift s.names.taken) := by
  have fixed := Session.fixed_setting created (Name.shift s.names.taken)
  -- A new session has taken no names: all that were taken here come before.
  rw [grows.setting, (Session.new_of_createWith created).1]
  exact e.generate_shifts fixed 0

/-- Both sessions are asked for the same; the new one begins with an empty registry. -/
theorem Session.registry_compile :
    ∃ asked, (s.compile e).2.registry = s.registry.ensureAll asked ∧
      (new.compile e).2.registry = (Registry.empty s.registry.zone).ensureAll asked := by
  have sound := (Session.sound_createWith created).grows grows
  refine ⟨(e.generate new.setting new.names).requests, ?_, ?_⟩
  · rw [Session.compile_snd]
    exact congrArg (fun d => s.registry.ensureAll d.requests)
      (Session.draft_shifts created grows e)
  · rw [Session.compile_snd, sound.zone, grows.options, ← (Session.new_of_createWith created).2]
    rfl

end Used

/-- After any uses, with success or without, a session answers as a new one does: it refuses an
expression with the same error, or accepts it and gives the same code with all numbers of its
names raised by those taken before. The root has the first two numbers that are free. In both
cases the members and initialising statements are the old ones followed by those of the new
session that were not there. -/
theorem Session.history_shifts_names [TimeZones] {inputs : List Input} {given : GivenOptions}
    {new s : Session} (created : Session.create inputs given = .ok new) (reached : new.Leads s)
    (e : Expr) :
    (s.compile e).1.outcome = (new.compile e).1.outcome.map
      (Except.map (Generated.shift s.names.taken)) ∧
    (∀ g, (s.compile e).1.outcome = .ok (.ok g) →
      g.isNull = .fresh "isNull" s.names.taken ∧ g.result = .fresh "result" (s.names.taken + 1)) ∧
    (s.compile e).2.names.taken = s.names.taken + (new.compile e).2.names.taken ∧
    (s.compile e).2.registry.memberTexts = s.registry.memberTexts ++
      (new.compile e).2.registry.memberTexts.filter (· ∉ s.registry.memberTexts) ∧
    (s.compile e).2.registry.initTexts = s.registry.initTexts ++
      (new.compile e).2.registry.initTexts.filter (· ∉ s.registry.initTexts) := by
  have grows := reached.grows
  have drafts := Session.draft_shifts created grows e
  obtain ⟨asked, after, afterNew⟩ := Session.registry_compile created grows e
  refine ⟨?_, fun g accepted => ?_, ?_, ?_, ?_⟩
  · rw [Session.outcome_compile, Session.outcome_compile, drafts, grows.options]
    cases new.options.sink.reply <;> rfl
  · rw [Session.outcome_compile] at accepted
    obtain ⟨-, -, made⟩ := of_bind_eq_ok accepted
    injection made with made
    have numbered := Expr.numbered_of_generate made
    exact ⟨numbered.isNull, numbered.result⟩
  · rw [Session.compile_snd, Session.compile_snd]
    exact congrArg (fun d => d.names.taken) drafts
  · rw [after, afterNew]
    exact s.registry.memberTexts_ensureAll asked
  · rw [after, afterNew]
    exact s.registry.initTexts_ensureAll asked

/-- A date that is compared with a field that no input has. -/
def Expr.datedStray : Expr :=
  .binary .eq (.literal (.date (Time.ofMillis (-1))) (.basic .date))
    (.field "stray" .string) .boolean

/-- The same date, compared with one that is read from a text. -/
def Expr.datedText : Expr :=
  .binary .eq (.literal (.date (Time.ofMillis (-1))) (.basic .date))
    (.cast (.field "d" .string) (.basic .date)) .boolean

section Host

open scoped Offsets

/-- A refused expression has taken six names and declared a date, which is not declared again. -/
theorem Session.history_shifts_names_datedText :
    ∃ (new : Session) (g : Generated),
      Session.create [⟨"row", .plain .row [.mk "d" .string]⟩] (.members []) = .ok new ∧
      (∃ err, (new.compile Expr.datedStray).1.outcome = .ok (.error err)) ∧
      (new.compile Expr.datedText).1.outcome = .ok (.ok g) ∧
      ((new.compile Expr.datedStray).2.compile Expr.datedText).1.outcome = .ok (.ok (g.shift 6)) ∧
      (g.shift 6).result = .fresh "result" 7 ∧
      ((new.compile Expr.datedStray).2.compile Expr.datedText).2.registry.memberTexts =
        (Declaration.dateConstant (Time.ofMillis (-1))).text ::
          Gen.dateRequests.map Declaration.text := by
  obtain ⟨new, created, err, g, refused, accepted, taken, before, alone⟩ : ∃ new,
      Session.create [⟨"row", .plain .row [.mk "d" .string]⟩] (.members []) = .ok new ∧
      ∃ err g, (new.compile Expr.datedStray).1.outcome = .ok (.error err) ∧
        (new.compile Expr.datedText).1.outcome = .ok (.ok g) ∧
        (new.compile Expr.datedStray).2.names.taken = 6 ∧
        (new.compile Expr.datedStray).2.registry.memberTexts =
          [(Declaration.dateConstant (Time.ofMillis (-1))).text] ∧
        (new.compile Expr.datedText).2.registry.memberTexts =
          (Declaration.dateConstant (Time.ofMillis (-1))).text ::
            Gen.dateRequests.map Declaration.text :=
    ⟨_, rfl, _, _, rfl, rfl, rfl, rfl, rfl⟩
  obtain ⟨outcome, root, -, members, -⟩ :=
    Session.history_shifts_names created (.single (.compile new Expr.datedStray)) Expr.datedText
  rw [accepted, taken] at outcome
  obtain ⟨-, result⟩ := root _ outcome
  rw [taken] at result
  refine ⟨new, g, created, ⟨err, refused⟩, accepted, outcome, result, ?_⟩
  have others : ∀ t ∈ Gen.dateRequests.map Declaration.text,
      t ∉ [(Declaration.dateConstant (Time.ofMillis (-1))).text] := by
    intro t asked same
    obtain ⟨d, listed, rfl⟩ := List.mem_map.1 asked
    have equal := Declaration.text_injective (List.mem_singleton.1 same)
    subst equal
    exact absurd listed (by decide)
  rw [members, before, alone, List.filter_cons_of_neg (by simp),
    List.filter_eq_self.2 fun t asked => decide_eq_true (others t asked)]
  rfl

end Host

end RowExpr
