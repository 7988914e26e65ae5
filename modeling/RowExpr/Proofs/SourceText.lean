import RowExpr.Proofs.Generation.Legibility
import RowExpr.Proofs.Unit.ReadBack

/-!
Queries that are loaded from their source.

A query is its unit as data, and its source is the text of the unit. The code of a session is
legible, the names in it are usable and its zone is accepted, so the unit of every query is
legible (`Session.legible_unit`). What is loaded from the source of a query therefore answers as
the query does, on all records (`Query.readsBack`), and what is shown of the answers of a query
holds of its source.
-/

namespace RowExpr

/-! ## Codes -/

section Codes

variable {s : Setting} {es : List Expr} {n m : Nat} {gs : List Generated} {ds : List Declaration}

theorem Setting.EmitsAll.emitsSome (emits : s.EmitsAll es n gs m ds) : s.EmitsSome n gs m ds := by
  induction emits with
  | nil => exact .done (Nat.le_refl _)
  | cons first _ ih => exact .emit (Nat.le_refl _) first ih

/-- The code of a list of expressions is read back from its lines. -/
theorem Setting.EmitsAll.legible (emits : s.EmitsAll es n gs m ds)
    (absent : ∀ type, (s.defaults type).Stands 1) (shown : ∀ e ∈ es, e.Shown s) :
    Block.Legible (gs.flatMap Generated.code) := by
  induction emits with
  | nil => exact Block.legible_nil
  | cons first _ ih =>
    obtain ⟨here, others⟩ := List.forall_mem_cons.1 shown
    exact Block.legible_append.2 ⟨first.legible absent here, ih others⟩

end Codes

/-- What is returned for an expression is read back: two names in a test at most. -/
theorem Session.stands_projected (t : Session) (g : Generated) : (t.projected g).Stands 1 := by
  have name (x : Name) : (Term.name x).Stands 13 := Term.stands_name x
  unfold Session.projected
  split
  · exact ⟨⟨(name _).mono (by decide), ⟨trivial, show 1 ≤ 13 by decide⟩,
      (name _).mono (by decide)⟩, Nat.le_refl 1⟩
  · exact (name _).mono (by decide)

theorem Session.stands_accepted (t : Session) (g : Generated) : (t.accepted g).Stands 1 := by
  have fixed : (Term.bool true).Stands 8 := ⟨trivial, show 8 ≤ 13 by decide⟩
  have isTrue : (Term.binary .strictEq (.name g.result) (.bool true)).Stands 7 :=
    Term.Stands.binary _ ((Term.stands_name _).mono (by decide)) fixed
  have present : (Term.unary .not (.name g.isNull)).Stands 12 :=
    ((Term.stands_name _).mono (by decide)).unary .not
  unfold Session.accepted
  dsimp only
  split
  · exact (Term.Stands.binary .and (present.mono (by decide))
      (isTrue.mono (by decide))).mono (by decide)
  · exact isTrue.mono (by decide)

/-- Whatever a unit returns is read back. -/
theorem Session.Returns.legible {t : Session} {gs : List Generated} {returns : Returned}
    (returned : t.Returns gs returns) : returns.Legible := by
  intro u inside
  cases returned with
  | projection =>
    obtain ⟨g, -, rfl⟩ := List.mem_map.1 inside
    exact t.stands_projected g
  | filter =>
    cases List.mem_singleton.1 inside
    exact t.stands_accepted _

/-! ## Units -/

section Units

variable [TimeZones] {inputs : List Input} {given : GivenOptions} {new : Session}
  (created : Session.create inputs given = .ok new) {es : List Expr} {gs : List Generated}
  (compiled : (new.compileAll es).1.outcome = .ok gs) {returns : Returned}
  (returned : (new.compileAll es).2.Returns gs returns)

include created compiled returned

/-- The unit of what a session has compiled is legible, if the fields in it are shown. -/
theorem Session.legible_unit (shown : ∀ e ∈ es, e.Shown new.setting) :
    ((new.compileAll es).2.unit gs returns).Legible inputs := by
  have sound := Session.sound_createWith created
  obtain ⟨sameInputs, resolved, terms⟩ := Session.of_createWith created
  obtain ⟨grows, m, ds, emits, known, lists, sub⟩ := sound.compileAll compiled
  refine ⟨Session.named_unit created grows, ⟨known, lists⟩, ?_,
    Session.tidy_compileAll created compiled, ?_, returned.legible,
    Session.usable_unit created grows emits.emitsSome lists sub returned⟩
  · show (new.compileAll es).2.registry.zone.Unbroken
    rw [(sound.grows grows).zone, grows.options]
    exact Options.unbroken_timeZone resolved
  · refine emits.legible (fun type => ?_) shown
    rw [show new.setting.defaults = Ty.defaultTerm from terms]
    exact type.stands_defaultTerm

end Units

/-! ## Queries -/

/-- The source of a query loads, and what is loaded from it answers as the query does: with the
same value or the same fault, on all records. -/
def Query.ReadsBack [TimeZones] (q : Query) : Prop :=
  ∀ sink : Sink, sink.reply = .ok () → ∃ ev, (Loader.loadSource sink q.source).outcome = .ok ev ∧
    ∀ records, ev.run records = q.run records

section Queries

variable [TimeZones] {inputs : List Input} {given : GivenOptions} {q : Query}

/-- A query that is loaded from a unit can be loaded from its source as well, and gives the same.
-/
theorem Query.readsBack_of_load {new : Session} (created : Session.create inputs given = .ok new)
    {es : List Expr} {gs : List Generated} (compiled : (new.compileAll es).1.outcome = .ok gs)
    {returns : Returned} (returned : (new.compileAll es).2.Returns gs returns)
    (shown : ∀ e ∈ es, e.Shown new.setting) {sink : Sink}
    (loaded : (Query.load sink ((new.compileAll es).2.unit gs returns)).outcome = .ok q) :
    q.ReadsBack := by
  intro other replied
  rw [Query.source_of_load loaded]
  exact GeneratedUnit.load_source (Session.fine_of_createWith created)
    (Session.legible_unit created compiled returned shown) replied (Query.of_load loaded)

/-- What is loaded from the source of a projection answers as the projection does, if its fields
are shown. -/
theorem Query.readsBack_projection {es : List Expr}
    (built : (Query.projection inputs es given).outcome = .ok q)
    (shown : ∀ s : Setting, s.inputs = inputs → ∀ e ∈ es, e.Shown s) : q.ReadsBack := by
  obtain ⟨new, gs, sink, created, compiled, loaded⟩ := Query.steps_of_projectionWith built
  exact Query.readsBack_of_load created compiled .projection
    (shown new.setting (Session.of_createWith created).1) loaded

/-- What is loaded from the source of a filter answers as the filter does, if its fields are
shown. -/
theorem Query.readsBack_filter {e : Expr} (built : (Query.filter inputs e given).outcome = .ok q)
    (shown : ∀ s : Setting, s.inputs = inputs → e.Shown s) : q.ReadsBack := by
  obtain ⟨new, g, sink, created, compiled, loaded⟩ := Query.steps_of_filterWith built
  exact Query.readsBack_of_load created compiled (.filter List.mem_cons_self)
    (List.forall_mem_singleton.2 (shown new.setting (Session.of_createWith created).1)) loaded

/-- The source of every query is as good as the query, as long as no input has more fields than
there are positions that a text shows exactly. -/
theorem Query.readsBack (few : ∀ input ∈ inputs, input.type.base.length ≤ 2 ^ 53) :
    (∀ es q, (Query.projection inputs es given).outcome = .ok q → q.ReadsBack) ∧
      ∀ e q, (Query.filter inputs e given).outcome = .ok q → q.ReadsBack := by
  have shown (s : Setting) (same : s.inputs = inputs) (e : Expr) : e.Shown s :=
    Expr.shown_of_few (by rw [same]; exact few) e
  exact ⟨fun _ _ built => Query.readsBack_projection built fun s same e _ => shown s same e,
    fun e _ built => Query.readsBack_filter built fun s same => shown s same e⟩

end Queries

end RowExpr
