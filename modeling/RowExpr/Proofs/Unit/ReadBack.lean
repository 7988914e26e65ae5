import RowExpr.Proofs.Unit.Reading
import RowExpr.Proofs.Unit.Spelling
import RowExpr.Unit.Loader

/-!
Units that are read back from their source.

The source of a legible unit is cut into the tokens of the unit, and these are read as one factory
with plain names (`SourceItem.read?_source`). Running that factory ends in a scope that spells the
one of the unit, so the evaluator that is loaded from the source answers as the evaluator of the
unit does, with the same value or the same fault (`GeneratedUnit.load_source`).
-/

namespace RowExpr

section Source

variable {inputs : List Input}
  (fine : ∀ input ∈ inputs,
    Input.isIdentifier input.name = true ∧ Input.isReserved input.name = false)
  {u : GeneratedUnit} (legible : u.Legible inputs)

include fine legible

/-- The source is read as one item: the factory, under the name that the loader looks for. -/
theorem SourceItem.read?_source :
    SourceItem.read? u.source = some [.factory UnitParts.factoryName u.spoken] := by
  have lexes := GeneratedUnit.lexes_source (fun input listed => (fine input listed).1) legible
  have items :=
    @GeneratedUnit.items_tokens _ (fun input listed => (fine input listed).2) _ legible
    (16 * u.tokens.length + 16) (by omega)
  rw [SourceItem.read?, lexes.ofText?, Option.bind_eq_bind, Option.bind_some, items]
  rfl

/-- The factory that is read from the source of a unit loads, and its function answers as that of
the unit does. -/
theorem GeneratedUnit.load_spoken [TimeZones] {ev : Evaluator}
    (loaded : u.factory.load = .ok (some ev)) :
    ∃ ev', u.spoken.load = .ok (some ev') ∧ ∀ records, ev'.run records = ev.run records := by
  obtain ⟨scope, declared, done⟩ := of_bind_eq_ok loaded
  cases done
  have alike := FactoryStatement.runAll_spoken fine legible.factory (Scope.spells_empty inputs)
  rw [declared] at alike
  obtain ⟨inBody, inReturns⟩ := List.forall_mem_append.1 legible.usable
  have returned : ∀ t ∈ u.returns.terms, ∀ x ∈ t.names, x.Usable inputs :=
    fun t listed x read => inReturns x (List.mem_flatMap.2 ⟨t, listed, read⟩)
  generalize ran : FactoryStatement.runAll (u.factory.statements.map FactoryStatement.spoken)
    .empty = result at alike
  cases alike with
  | @ok _ scope' spells =>
    refine ⟨⟨scope', u.inputs, u.body.spoken, u.returns.spoken⟩, ?_, fun records => ?_⟩
    · rw [Factory.load, GeneratedUnit.spoken, ran]
      rfl
    · rw [legible.named]
      exact Evaluator.run_spoken fine spells inBody returned records

/-- A legible unit loads from its source, and what is loaded answers as the unit does. -/
theorem GeneratedUnit.load_source [TimeZones] {sink : Sink} (replied : sink.reply = .ok ())
    {ev : Evaluator} (loaded : u.factory.load = .ok (some ev)) :
    ∃ ev', (Loader.loadSource sink u.source).outcome = .ok ev' ∧
      ∀ records, ev'.run records = ev.run records := by
  obtain ⟨ev', loaded', same⟩ := GeneratedUnit.load_spoken fine legible loaded
  refine ⟨ev', ?_, same⟩
  rw [Loader.loadSource, Report.outcome_bind, Sink.outcome_emit, replied,
    SourceItem.read?_source fine legible]
  show (Loader.loadFactory sink u.source u.spoken).outcome = _
  rw [Loader.loadFactory, loaded']
  rfl

end Source

end RowExpr
