import RowExpr.Proofs.Code.Registry
import RowExpr.Proofs.Generation.Simulation
import RowExpr.Unit.Evaluator

/-!
Loading a generated unit. The factory of a unit whose registry lists declarations
always loads, and the scope of its evaluator holds all of them, the formatters in
the zone of the unit (`GeneratedUnit.load_factory`). With the records bound to the
inputs this is a scope in which generated code can run
(`Scope.Declares.hosts_bindInputs`).
-/

namespace RowExpr

/-! ## Formatters in scope -/

@[simp] theorem Scope.getFormatter_bindFormatter_self (σ : Scope) (x : Name) (f : Formatter) :
    (σ.bindFormatter x f).getFormatter x = .ok f := by
  simp [getFormatter, bindFormatter]

theorem Scope.getFormatter_bindFormatter_of_ne (σ : Scope) {x y : Name} (f : Formatter)
    (ne : y ≠ x) : (σ.bindFormatter x f).getFormatter y = σ.getFormatter y := by
  have other : (y == x) = false := beq_eq_false_iff_ne.2 ne
  simp only [getFormatter, bindFormatter, List.lookup_cons, other]

/-! ## Declarations -/

/-- The scope after a declaration. -/
def Declaration.declareIn (σ : Scope) : Declaration → Scope
  | .formatter k => σ.bindFormatter (.formatter k) (.ofPattern k.pattern)
  | .dateConstant t => σ.bind (.dateConstant t) (.date .constant t)

/-- A declaration never fails; the constant of a time has exactly that time. -/
theorem Declaration.run_statement [TimeZones] (d : Declaration) (σ : Scope) :
    d.statement.run σ = .ok (d.declareIn σ) := by
  cases d with
  | formatter k => rfl
  | dateConstant t =>
    have made : (Term.call .makeDate (.number t.toDouble)).eval σ = .ok (.date .made t) := by
      rw [Term.eval_call .makeDate (v := .number t.toDouble.written) rfl,
        Function.apply, Value.toTime, Time.ofDouble_toDouble]
    rw [statement, FactoryStatement.run, made]
    rfl

/-- The scope holds the declared constants, and the formatters in whatever zone. -/
structure Scope.Provides (σ : Scope) (ds : List Declaration) : Prop where
  formatter : ∀ k, Declaration.formatter k ∈ ds → ∃ zone, σ.getFormatter (.formatter k) =
    .ok (k.inZone zone)
  constant : ∀ t, Declaration.dateConstant t ∈ ds → σ.get (.dateConstant t) =
    .ok (.date .constant t)

theorem Scope.provides_nil (σ : Scope) : σ.Provides [] :=
  ⟨fun _ listed => absurd listed List.not_mem_nil, fun _ listed => absurd listed List.not_mem_nil⟩

/-- A declaration adds what it declares, and hides nothing that was there: equal names declare
equal things. -/
theorem Scope.Provides.declareIn {σ : Scope} {ds : List Declaration} (provides : σ.Provides ds)
    (d : Declaration) : (d.declareIn σ).Provides (d :: ds) := by
  cases d with
  | formatter k =>
    refine ⟨fun k' listed => ?_, fun t listed => ?_⟩
    · by_cases same : k' = k
      · subst same
        exact ⟨_, σ.getFormatter_bindFormatter_self _ _⟩
      · obtain ⟨zone, found⟩ := provides.formatter k' (by simpa [same] using listed)
        refine ⟨zone, (σ.getFormatter_bindFormatter_of_ne _ fun equal => same ?_).trans found⟩
        injection equal
    · exact provides.constant t (by simpa using listed)
  | dateConstant t =>
    refine ⟨fun k listed => provides.formatter k (by simpa using listed), fun t' listed => ?_⟩
    by_cases same : t' = t
    · subst same
      exact σ.get_bind_self _ _
    · refine (σ.get_bind_of_ne _ fun equal => same ?_).trans
        (provides.constant t' (by simpa [same] using listed))
      injection equal

theorem FactoryStatement.runAll_append [TimeZones] (first rest : List FactoryStatement)
    (σ : Scope) : runAll (first ++ rest) σ = (do let σ' ← runAll first σ; runAll rest σ') := by
  induction first generalizing σ with
  | nil => rfl
  | cons f first ih =>
    rw [List.cons_append, runAll, runAll]
    cases f.run σ with
    | error fault => rfl
    | ok σ' => exact ih σ'

/-- Declarations run to their end, and the scope then provides all of them. -/
theorem Declaration.runAll_statements [TimeZones] (ds : List Declaration) {σ : Scope}
    {before : List Declaration} (provides : σ.Provides before) :
    ∃ σ', FactoryStatement.runAll (ds.map statement) σ = .ok σ' ∧ σ'.Provides (before ++ ds) := by
  induction ds generalizing σ before with
  | nil => exact ⟨σ, rfl, by rwa [List.append_nil]⟩
  | cons d ds ih =>
    obtain ⟨σ', ran, provides'⟩ := ih (provides.declareIn d)
    refine ⟨σ', ?_, ?_⟩
    · rw [List.map_cons, FactoryStatement.runAll, d.run_statement σ]
      exact ran
    · have perm (d' : Declaration) : d' ∈ before ++ d :: ds → d' ∈ d :: before ++ ds := by
        simp only [List.mem_append, List.mem_cons]
        rintro (old | same | new)
        · exact .inl (.inr old)
        · exact .inl (.inl same)
        · exact .inr new
      exact ⟨fun k listed => provides'.formatter k (perm _ listed),
        fun t listed => provides'.constant t (perm _ listed)⟩

/-! ## Zones -/

/-- Setting the zone of one formatter leaves the others as they are. -/
theorem Scope.getFormatter_setZone (σ : Scope) (zone : Text) (k k' : FormatterKind) :
    (σ.bindFormatter (.formatter k) (k.inZone zone)).getFormatter (.formatter k') =
      if k' = k then .ok (k'.inZone zone) else σ.getFormatter (.formatter k') := by
  split
  · next same =>
    subst same
    exact σ.getFormatter_bindFormatter_self _ _
  · next other =>
    refine σ.getFormatter_bindFormatter_of_ne _ fun equal => other ?_
    injection equal

/-- A formatter whose zone has been set is still provided: which zone it has is left open. -/
theorem Scope.Provides.setZone {σ : Scope} {ds : List Declaration} (provides : σ.Provides ds)
    (zone : Text) (k : FormatterKind) :
    (σ.bindFormatter (.formatter k) (k.inZone zone)).Provides ds := by
  refine ⟨fun k' listed => ?_, provides.constant⟩
  rw [σ.getFormatter_setZone]
  split
  · exact ⟨zone, rfl⟩
  · exact provides.formatter k' listed

/-- The zones of formatters that have been declared can be set, and stay set. -/
theorem Init.runAll_setZones [TimeZones] (zone : Text) (ks : List FormatterKind) {σ : Scope}
    {ds : List Declaration} {zoned : List FormatterKind} (provides : σ.Provides ds)
    (known : ∀ k ∈ ks, Declaration.formatter k ∈ ds)
    (done : ∀ k ∈ zoned, σ.getFormatter (.formatter k) = .ok (k.inZone zone)) :
    ∃ σ',
      FactoryStatement.runAll (ks.map fun k => .setZone (.formatter k) (.singleText zone)) σ =
        .ok σ' ∧
      σ'.Provides ds ∧ ∀ k, k ∈ zoned ∨ k ∈ ks → σ'.getFormatter (.formatter k) =
        .ok (k.inZone zone) := by
  induction ks generalizing σ zoned with
  | nil => exact ⟨σ, rfl, provides, fun k set => done k (by simpa using set)⟩
  | cons k ks ih =>
    obtain ⟨old, found⟩ := provides.formatter k (known k List.mem_cons_self)
    have ran : (FactoryStatement.setZone (.formatter k) (.singleText zone)).run σ =
        .ok (σ.bindFormatter (.formatter k) (k.inZone zone)) := by
      rw [FactoryStatement.run, found]
      rfl
    have more : ∀ k' ∈ k :: zoned, (σ.bindFormatter (.formatter k) (k.inZone zone)).getFormatter
      (.formatter k') =
        .ok (k'.inZone zone) := by
      intro k' set
      rw [σ.getFormatter_setZone]
      split
      · rfl
      · next other => exact done k' (List.mem_of_ne_of_mem other set)
    obtain ⟨σ', rest, provides', set⟩ := ih (provides.setZone zone k)
      (fun k' listed => known k' (List.mem_cons_of_mem k listed)) more
    refine ⟨σ', ?_, provides', fun k' either => set k' ?_⟩
    · rw [List.map_cons, FactoryStatement.runAll, ran]
      exact rest
    · rcases either with before | listed
      · exact .inl (List.mem_cons_of_mem k before)
      · rcases List.mem_cons.1 listed with rfl | later
        · exact .inl List.mem_cons_self
        · exact .inr later

/-! ## Units -/

/-- The members of a registry are the statements of its declarations, in their order. -/
theorem Registry.Lists.memberStatements {r : Registry} {ds : List Declaration}
    (lists : r.Lists ds) :
    r.members.filterMap Member.statement? = ds.map Declaration.statement := by
  rw [lists.members, List.filterMap_map]
  exact congrFun List.filterMap_eq_map ds

/-- Its initialisations set the zone of each formatter that it declares. -/
theorem Registry.Lists.initStatements {r : Registry} {ds : List Declaration}
    (lists : r.Lists ds) :
    r.inits.filterMap (Init.statement? r.zone) =
      (ds.filterMap Declaration.formatter?).map fun k => .setZone (.formatter k)
        (.singleText r.zone) := by
  rw [lists.inits, List.filterMap_map]
  exact congrFun List.filterMap_eq_map _

/-- A unit whose registry lists declarations loads, and its evaluator can use all of
them. -/
theorem GeneratedUnit.load_factory [TimeZones] (u : GeneratedUnit) {ds : List Declaration}
    (lists : u.registry.Lists ds) :
    ∃ scope : Scope, u.factory.load = .ok (some ⟨scope, u.inputs, u.body, u.returns⟩) ∧
      scope.Declares u.registry.zone ds := by
  obtain ⟨declared, ranMembers, provides⟩ :=
    Declaration.runAll_statements ds Scope.empty.provides_nil
  have known : ∀ k ∈ ds.filterMap Declaration.formatter?, Declaration.formatter k ∈ [] ++ ds := by
    intro k listed
    obtain ⟨d, inside, kind⟩ := List.mem_filterMap.1 listed
    rw [← Declaration.formatter?_eq_some.1 kind]
    exact inside
  obtain ⟨scope, ranInits, provides', zoned⟩ := Init.runAll_setZones u.registry.zone
    (ds.filterMap Declaration.formatter?) provides known fun _ set => absurd set List.not_mem_nil
  refine ⟨scope, ?_, fun k asked => ?_, provides'.constant⟩
  · rw [Factory.load, GeneratedUnit.factory, FactoryStatement.runAll_append,
      lists.memberStatements, lists.initStatements, ranMembers]
    show (do let scope ← FactoryStatement.runAll _ declared; _) = _
    rw [ranInits]
    rfl
  · exact zoned k (.inr (List.mem_filterMap.2 ⟨_, asked, rfl⟩))

/-! ## Records -/

/-- The first record is bound to the first name; a record that is missing is undefined. -/
theorem Scope.bindInputs_cons (σ : Scope) (name : Text) (names : List Text)
    (records : List Value) :
    σ.bindInputs (name :: names) records =
      (σ.bind (.plain name) (records.headD .undefined)).bindInputs names records.tail := by
  cases records <;> rfl

/-- Binding records to inputs changes no other name and no formatter. -/
theorem Scope.keeps_bindInputs (σ : Scope) (names : List Text) (records : List Value) :
    Scope.Keeps (names.map .plain) σ (σ.bindInputs names records) := by
  induction names generalizing σ records with
  | nil => exact .refl _ σ
  | cons name names ih =>
    rw [bindInputs_cons]
    exact (Scope.Keeps.bind σ _ _).trans (ih _ _)

/-- Under names that are all different, each input is bound to its own record. -/
theorem Scope.bindsInputs_bindInputs (σ : Scope) {inputs : List Input}
    (nodup : (inputs.map Input.name).Nodup) (records : List Value) :
    (σ.bindInputs (inputs.map Input.name) records).BindsInputs inputs records := by
  induction inputs generalizing σ records with
  | nil => trivial
  | cons input inputs ih =>
    rw [List.map_cons, List.nodup_cons] at nodup
    rw [List.map_cons, bindInputs_cons]
    refine ⟨?_, ih _ nodup.2 records.tail⟩
    have kept := (σ.bind (.plain input.name) (records.headD .undefined)).keeps_bindInputs
      (inputs.map Input.name) records.tail
    refine (kept.get _ fun bound => nodup.1 ?_).trans (σ.get_bind_self _ _)
    obtain ⟨name, listed, same⟩ := List.mem_map.1 bound
    injection same with same
    exact same ▸ listed

/-- A loaded scope hosts generated code once the records are bound. -/
theorem Scope.Declares.hosts_bindInputs {σ : Scope} (env : Environment) {ds : List Declaration}
    (declares : σ.Declares env.zone ds) (nodup : (env.inputs.map Input.name).Nodup) :
    (σ.bindInputs (env.inputs.map Input.name) env.records).Hosts env ds := by
  have kept := σ.keeps_bindInputs (env.inputs.map Input.name) env.records
  refine ⟨σ.bindsInputs_bindInputs nodup env.records, fun k asked => ?_, fun t asked => ?_⟩
  · exact (Scope.getFormatter_congr kept.formatters _).trans (declares.formatter k asked)
  · refine (kept.get _ fun bound => ?_).trans (declares.constant t asked)
    obtain ⟨name, -, same⟩ := List.mem_map.1 bound
    cases same

end RowExpr
