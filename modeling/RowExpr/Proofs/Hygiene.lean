import RowExpr.Calendar.Offsets
import RowExpr.Proofs.Batch
import RowExpr.Proofs.Generation.Binding

/-!
Hygiene of units.

A unit may be built from the codes of any number of expressions, some of which were
refused by the session. All names that it binds have different texts, and the name of
an input is not used for anything else (`Session.unit_hygienic`).
-/

namespace RowExpr

/-! ## Names that a unit binds -/

/-- The name that a statement of a factory declares. -/
def FactoryStatement.declared : FactoryStatement → List Name
  | .constant x _ => [x]
  | .formatter x _ => [x]
  | .setZone _ _ => []

/-- The names that a unit binds: its inputs, and what its factory and its body declare. -/
def GeneratedUnit.bound (u : GeneratedUnit) : List Name :=
  u.inputs.map .plain ++
    (u.factory.statements.flatMap FactoryStatement.declared ++ u.body.declared)

theorem Declaration.declared_statement (d : Declaration) : d.statement.declared = [d.name] := by
  cases d <;> rfl

/-- A factory declares what its registry lists; setting a zone declares nothing. -/
theorem GeneratedUnit.declared_factory {u : GeneratedUnit} {ds : List Declaration}
    (lists : u.registry.Lists ds) :
    u.factory.statements.flatMap FactoryStatement.declared = ds.map Declaration.name := by
  have zones (ks : List FormatterKind) :
      (ks.map fun k => FactoryStatement.setZone (.formatter k)
        (.singleText u.registry.zone)).flatMap
        FactoryStatement.declared = [] := by
    rw [List.flatMap_map]
    simp [FactoryStatement.declared]
  rw [GeneratedUnit.factory, List.flatMap_append, lists.memberStatements,
    lists.initStatements, zones, List.append_nil, List.flatMap_map]
  simp [Declaration.declared_statement, List.map_eq_flatMap]

/-! ## Code of many expressions -/

/-- Codes that follow each other declare different names. -/
theorem Setting.EmitsSome.declared_fresh {s : Setting} {n m : Nat} {gs : List Generated}
    {ds : List Declaration} (emits : s.EmitsSome n gs m ds) :
    Name.AllFresh s.stems n m (Block.declared (gs.flatMap Generated.code)) := by
  induction emits with
  | done _ => simpa using Name.allFresh_nil _ _ _
  | emit le first rest ih =>
    have taken := first.numbered.taken
    rw [List.flatMap_cons, Block.declared_append]
    exact (first.declared_fresh.mono le (Nat.le_refl _)).append ih (by omega) rest.le

/-! ## Units -/

section Units

variable {u : GeneratedUnit} {inputs : List Input} {known : List Declaration}
    {stems : List Text} {n m : Nat}
  (named : u.inputs = inputs.map Input.name) (lists : u.registry.Lists known)
  (body : Name.AllFresh stems n m u.body.declared)

include named lists body

/-- A unit binds no name twice. -/
theorem GeneratedUnit.bound_nodup (nodup : (inputs.map Input.name).Nodup) : u.bound.Nodup := by
  have members : (known.map Declaration.name).Nodup :=
    lists.nodup.map fun d d' same => Declaration.name_text_injective (congrArg Name.text same)
  have params : ((inputs.map Input.name).map Name.plain).Nodup :=
    nodup.map fun _ _ same => Name.plain.inj same
  rw [GeneratedUnit.bound, named, GeneratedUnit.declared_factory lists, List.nodup_append,
    List.nodup_append]
  refine ⟨params, ⟨members, body.nodup, ?_⟩, ?_⟩
  · intro x listed y declared same
    obtain ⟨d, -, rfl⟩ := List.mem_map.1 listed
    obtain ⟨stem, k, rfl, -⟩ := body.numbered y declared
    cases d <;> cases same
  · intro x listed y others same
    obtain ⟨name, -, rfl⟩ := List.mem_map.1 listed
    rcases List.mem_append.1 others with member | declared
    · obtain ⟨d, -, rfl⟩ := List.mem_map.1 member
      exact d.name_ne_plain name same.symm
    · obtain ⟨stem, k, rfl, -⟩ := body.numbered y declared
      cases same

/-- What a unit binds is an input, a declaration or numbered. -/
theorem GeneratedUnit.usable_of_bound (sub : stems ⊆ Name.stems) :
    ∀ x ∈ u.bound, x.Usable inputs := by
  intro x bound
  rw [GeneratedUnit.bound, named, GeneratedUnit.declared_factory lists, List.mem_append,
    List.mem_append] at bound
  rcases bound with param | member | declared
  · rw [List.map_map] at param
    obtain ⟨input, listed, rfl⟩ := List.mem_map.1 param
    exact .input listed
  · obtain ⟨d, -, rfl⟩ := List.mem_map.1 member
    exact .declaration d
  · obtain ⟨stem, k, rfl, used, -⟩ := body.numbered x declared
    exact .numbered (sub used)

end Units

/-- A unit made of what a session has accepted, among any expressions it was given, binds
names with different texts only: its inputs, one member for each declaration, and every name
that its body declares. The name of an input is not that of a numbered name, of a constant
or of a formatter, and not one that the unit refers to outside of it. -/
theorem Session.unit_hygienic [TimeZones] {inputs : List Input} {given : GivenOptions}
    {new t : Session} (created : Session.create inputs given = .ok new) {es : List Expr}
    {gs : List Generated} (compiled : new.compileEach es = (gs, t)) (returns : Returned) :
    ((t.unit gs returns).bound.map Name.text).Nodup ∧
    (∃ known : List Declaration, (t.unit gs returns).registry.members = known.map .declared ∧
      known.Nodup) ∧
    ∀ input ∈ inputs, (∀ x : Name, (∀ name, x ≠ .plain name) → x.text ≠ input.name) ∧
      input.name ∉ Name.surroundings := by
  have fine := Session.fine_of_createWith created
  have sound := Session.sound_createWith created
  obtain ⟨sameInputs, -⟩ := Session.of_createWith created
  obtain ⟨grows, ds, emits, known, lists, -⟩ := sound.compileEach compiled
  have named : (t.unit gs returns).inputs = inputs.map Input.name := by
    rw [← sameInputs, ← grows.inputs]
    rfl
  have body := emits.declared_fresh
  have nodup :=
    GeneratedUnit.bound_nodup (u := t.unit gs returns) named lists body (sameInputs ▸ sound.names)
  have usable :=
    GeneratedUnit.usable_of_bound (u := t.unit gs returns) named lists body
      (Setting.stems_subset _)
  refine ⟨?_, ⟨known, lists.members, lists.nodup⟩, fun input listed => ⟨fun x made => ?_, ?_⟩⟩
  · refine nodup.map_on fun x left y right same => ?_
    exact Name.Usable.eq_of_text fine (usable x left) (usable y right) same
  · exact Input.text_ne_of_mem fine listed made
  · exact Input.not_mem_surroundings (fine input listed).2

/-- A date before the epoch, a field that does not exist, and a cast that reads a date. -/
def Expr.datesAndStray : List Expr :=
  [.literal (.date (Time.ofMillis (-1))) (.basic .date), .field "stray" .string,
    .cast (.field "d" .string) (.basic .date)]

section Host

open scoped Offsets

/-- Two of three expressions are accepted. -/
theorem Session.unit_hygienic_datesAndStray :
    ∃ (new t : Session) (g g' : Generated),
      Session.create [⟨"row", .plain .pojo [.mk "d" .string]⟩] (.members []) = .ok new ∧
      new.compileEach Expr.datesAndStray = ([g, g'], t) ∧
      ((t.unit [g, g'] (.list [t.projected g, t.projected g'])).bound.map Name.text).Nodup ∧
      ∀ x : Name, (∀ name, x ≠ .plain name) → x.text ≠ "row" := by
  obtain ⟨new, created, g, g', t, compiled⟩ : ∃ new,
      Session.create [⟨"row", .plain .pojo [.mk "d" .string]⟩] (.members []) = .ok new ∧
      ∃ g g' t, new.compileEach Expr.datesAndStray = ([g, g'], t) :=
    ⟨_, rfl, _, _, _, rfl⟩
  obtain ⟨distinct, -, apart⟩ :=
    Session.unit_hygienic created compiled (.list [t.projected g, t.projected g'])
  exact ⟨new, t, g, g', created, compiled, distinct, (apart _ (List.mem_singleton_self _)).1⟩

end Host

end RowExpr
