import RowExpr.Calendar.Offsets
import RowExpr.Proofs.Generation.Scoping
import RowExpr.Proofs.Hygiene

/-!
Definition before use in units.

A unit is scoped if its factory declares every member before it is used, and its body and
its return read only names that hold a value by then: inputs, members, and what the body
has declared and assigned before. Every unit made of what a session has accepted is
scoped, and without null checks it mentions no flag (`Session.unit_defines_before_use`).
-/

namespace RowExpr

/-! ## Terms of code -/

mutual

/-- The terms that a statement evaluates, inside of it too. -/
def Statement.terms : Statement → List Term
  | .declare _ _ value => [value]
  | .reserve _ _ => []
  | .assign _ value => [value]
  | .branch test yes no => test :: (Block.terms yes ++ Block.terms no)
  | .attempt _ value otherwise => value :: Block.terms otherwise

def Block.terms : Block → List Term
  | [] => []
  | statement :: rest => statement.terms ++ Block.terms rest

end

def FactoryStatement.term : FactoryStatement → Term
  | .constant _ value => value
  | .formatter _ pattern => pattern
  | .setZone _ zone => zone

def Returned.terms : Returned → List Term
  | .term t => [t]
  | .list ts => ts

/-- The terms that a unit evaluates. -/
def GeneratedUnit.terms (u : GeneratedUnit) : List Term :=
  u.factory.statements.map FactoryStatement.term ++ (u.body.terms ++ u.returns.terms)

/-- The names that occur in the function of a unit. -/
def GeneratedUnit.mentions (u : GeneratedUnit) : List Name :=
  u.body.mentions ++ u.returns.terms.flatMap Term.names

/-! ## Scoped units -/

/-- What is known after a statement of a factory. -/
def FactoryStatement.after : FactoryStatement → Flow → Flow
  | .constant x _, v => v.assign x
  | .formatter x _, v => v.assign x
  | .setZone _ _, v => v

/-- A statement of a factory declares a new member, or uses one that it has declared. -/
def FactoryStatement.Scoped : FactoryStatement → Flow → Prop
  | .constant x value, v => value.names ⊆ v.assigned ∧ x ∉ v.bound
  | .formatter x pattern, v => pattern.names ⊆ v.assigned ∧ x ∉ v.bound
  | .setZone x zone, v => zone.names ⊆ v.assigned ∧ x ∈ v.assigned

def FactoryStatement.afterAll (fs : List FactoryStatement) (v : Flow) : Flow :=
  fs.foldl (fun v f => f.after v) v

def FactoryStatement.AllScoped : List FactoryStatement → Flow → Prop
  | [], _ => True
  | f :: fs, v => f.Scoped v ∧ AllScoped fs (f.after v)

/-- What is known where the body of a unit begins: the members and the inputs. -/
def GeneratedUnit.entry (u : GeneratedUnit) : Flow where
  assigned :=
  u.inputs.map .plain ++ (FactoryStatement.afterAll u.factory.statements .start).assigned
  reserved := (FactoryStatement.afterAll u.factory.statements .start).reserved

/-- Every name is defined before it is used. -/
structure GeneratedUnit.Scoped (u : GeneratedUnit) : Prop where
  factory : FactoryStatement.AllScoped u.factory.statements .start
  body : u.body.Scoped u.entry
  returned : ∀ t ∈ u.returns.terms, t.names ⊆ (u.body.after u.entry).assigned

/-! ## Factories -/

/-- What is known after statements, from what is known after the first of them. -/
theorem FactoryStatement.afterAll_append (first rest : List FactoryStatement) (v : Flow) :
    afterAll (first ++ rest) v = afterAll rest (afterAll first v) :=
  List.foldl_append

theorem FactoryStatement.allScoped_append (first rest : List FactoryStatement) (v : Flow) :
    AllScoped (first ++ rest) v ↔ AllScoped first v ∧ AllScoped rest (afterAll first v) := by
  induction first generalizing v with
  | nil => simp [AllScoped, afterAll]
  | cons f first ih => simp [AllScoped, afterAll, ih, and_assoc]

theorem Declaration.after_statement (d : Declaration) (v : Flow) :
    d.statement.after v = v.assign d.name := by
  cases d <;> rfl

/-- A declaration reads nothing, so its name being new is all that it needs. -/
theorem Declaration.scoped_statement (d : Declaration) {v : Flow} (new : d.name ∉ v.bound) :
    d.statement.Scoped v := by
  cases d <;> exact ⟨List.nil_subset _, new⟩

/-- Different declarations can be made one after the other. -/
theorem Declaration.allScoped_statements {ds : List Declaration} (nodup : ds.Nodup) {v : Flow}
    (new : ∀ d ∈ ds, d.name ∉ v.bound) :
    FactoryStatement.AllScoped (ds.map Declaration.statement) v := by
  induction ds generalizing v with
  | nil => trivial
  | cons d ds ih =>
    rw [List.nodup_cons] at nodup
    refine ⟨d.scoped_statement (new d List.mem_cons_self), ih nodup.2 fun d' listed bound => ?_⟩
    rw [d.after_statement] at bound
    simp only [Flow.mem_bound, Flow.mem_assigned_assign, Flow.reserved_assign] at bound
    rcases bound with (same | old) | old
    · exact nodup.1 (Declaration.name_text_injective (congrArg Name.text same) ▸ listed)
    · exact new d' (List.mem_cons_of_mem _ listed) (by simp [old])
    · exact new d' (List.mem_cons_of_mem _ listed) (by simp [old])

/-- After declarations, their names are known, and nothing else is new. -/
theorem Declaration.mem_assigned_statements {ds : List Declaration} {v : Flow} {x : Name} :
    x ∈ (FactoryStatement.afterAll (ds.map Declaration.statement) v).assigned ↔
      x ∈ v.assigned ∨ x ∈ ds.map Declaration.name := by
  induction ds generalizing v with
  | nil => simp [FactoryStatement.afterAll]
  | cons d ds ih =>
    have step : FactoryStatement.afterAll ((d :: ds).map Declaration.statement) v =
        FactoryStatement.afterAll (ds.map Declaration.statement) (v.assign d.name) := by
      rw [← d.after_statement]
      rfl
    rw [step, ih, Flow.mem_assigned_assign, List.map_cons, List.mem_cons]
    constructor
    · rintro ((same | old) | new)
      · exact .inr (.inl same)
      · exact .inl old
      · exact .inr (.inr new)
    · rintro (old | same | new)
      · exact .inl (.inr old)
      · exact .inl (.inl same)
      · exact .inr new

theorem Declaration.reserved_statements (ds : List Declaration) (v : Flow) :
    (FactoryStatement.afterAll (ds.map Declaration.statement) v).reserved = v.reserved := by
  induction ds generalizing v with
  | nil => rfl
  | cons d ds ih =>
    refine (ih (d.statement.after v)).trans ?_
    rw [d.after_statement, Flow.reserved_assign]

/-- A zone can be set for every formatter that is declared. -/
theorem Init.allScoped_setZones {ks : List FormatterKind} {v : Flow} (zone : Text)
    (known : ∀ k ∈ ks, Name.formatter k ∈ v.assigned) :
    FactoryStatement.AllScoped
      (ks.map fun k => .setZone (.formatter k) (.singleText zone)) v := by
  induction ks with
  | nil => trivial
  | cons k ks ih =>
    refine ⟨⟨List.nil_subset _, known k List.mem_cons_self⟩, ih fun k' listed => ?_⟩
    exact known k' (List.mem_cons_of_mem _ listed)

theorem Init.afterAll_setZones (ks : List FormatterKind) (zone : Text) (v : Flow) :
    FactoryStatement.afterAll (ks.map fun k => .setZone (.formatter k) (.singleText zone)) v =
      v := by
  induction ks with
  | nil => rfl
  | cons k ks ih => exact ih

section Entry

variable {u : GeneratedUnit} {known : List Declaration} (lists : u.registry.Lists known)

include lists

/-- A factory makes known what its registry declares. -/
theorem GeneratedUnit.afterAll_factory :
    FactoryStatement.afterAll u.factory.statements .start =
      FactoryStatement.afterAll (known.map Declaration.statement) .start := by
  rw [GeneratedUnit.factory, FactoryStatement.afterAll_append, lists.memberStatements,
    lists.initStatements, Init.afterAll_setZones]

/-- The statements of a factory are in scope: the registry declares a name once, and zones are set
after all declarations. -/
theorem GeneratedUnit.allScoped_factory :
    FactoryStatement.AllScoped u.factory.statements .start := by
  rw [GeneratedUnit.factory, FactoryStatement.allScoped_append, lists.memberStatements,
    lists.initStatements]
  refine ⟨Declaration.allScoped_statements lists.nodup fun d _ bound => ?_,
    Init.allScoped_setZones _ fun k listed => ?_⟩
  · simp [Flow.start] at bound
  · obtain ⟨d, inside, kind⟩ := List.mem_filterMap.1 listed
    rw [Declaration.mem_assigned_statements]
    rw [Declaration.formatter?_eq_some.1 kind] at inside
    exact .inr (List.mem_map.2 ⟨_, inside, rfl⟩)

/-- Where the body begins, the inputs and what the factory has declared have values. -/
theorem GeneratedUnit.mem_assigned_entry {x : Name} :
    x ∈ u.entry.assigned ↔ x ∈ u.inputs.map .plain ∨ x ∈ known.map Declaration.name := by
  rw [GeneratedUnit.entry, GeneratedUnit.afterAll_factory lists, List.mem_append,
    Declaration.mem_assigned_statements]
  simp [Flow.start]

/-- No name is reserved there without a value. -/
theorem GeneratedUnit.mem_bound_entry {x : Name} :
    x ∈ u.entry.bound ↔ x ∈ u.inputs.map .plain ∨ x ∈ known.map Declaration.name := by
  have none : u.entry.reserved = [] := by
    rw [GeneratedUnit.entry, GeneratedUnit.afterAll_factory lists]
    exact Declaration.reserved_statements known .start
  rw [Flow.mem_bound, GeneratedUnit.mem_assigned_entry lists, none]
  simp

/-- A unit binds what is bound where its body begins, and what the body declares. -/
theorem GeneratedUnit.mem_bound_iff {x : Name} :
    x ∈ u.bound ↔ x ∈ u.entry.bound ∨ x ∈ u.body.declared := by
  rw [GeneratedUnit.bound, GeneratedUnit.declared_factory lists, List.mem_append,
    List.mem_append, ← or_assoc, GeneratedUnit.mem_bound_entry lists]

/-- No numbered name is in scope where a body begins. -/
theorem GeneratedUnit.avoids_entry (n m : Nat) : u.entry.Avoids n m := by
  rintro x bound ⟨stem, k, rfl, -⟩
  rcases (GeneratedUnit.mem_bound_entry lists).1 bound with param | member
  · obtain ⟨name, -, same⟩ := List.mem_map.1 param
    cases same
  · obtain ⟨d, -, same⟩ := List.mem_map.1 member
    cases d <;> cases same

/-- Where the body begins, it finds all that an expression over these inputs may read. -/
theorem GeneratedUnit.supplies_entry {inputs : List Input}
    (named : u.inputs = inputs.map Input.name) {ds : List Declaration} (sub : ds ⊆ known) :
    u.entry.Supplies inputs ds := by
  refine ⟨fun input listed => ?_, fun x asked => ?_⟩
  · rw [GeneratedUnit.mem_assigned_entry lists, named]
    exact .inl (List.mem_map_of_mem (List.mem_map_of_mem listed))
  · rw [GeneratedUnit.mem_assigned_entry lists]
    exact .inr (List.map_subset _ sub asked)

end Entry

/-! ## Bodies -/

/-- The codes of expressions, one after the other, are scoped, and fill all their names. -/
theorem Setting.EmitsSome.settles {s : Setting} (closed : ∀ type, (s.defaults type).names = [])
    {n m : Nat} {gs : List Generated} {ds : List Declaration} (emits : s.EmitsSome n gs m ds)
    {v : Flow} (supplies : v.Supplies s.inputs ds) (avoids : v.Avoids n m) :
    Block.Scoped (gs.flatMap Generated.code) v ∧
      ∀ g ∈ gs, g.result ∈ (Block.after (gs.flatMap Generated.code) v).assigned ∧
      (s.nullCheck = true → g.isNull ∈ (Block.after (gs.flatMap Generated.code) v).assigned) := by
  induction emits generalizing v with
  | done _ => exact ⟨Block.scoped_nil v, fun _ listed => absurd listed List.not_mem_nil⟩
  | @emit e n k g m ds gs m' ds' le first rest ih =>
    have taken := first.numbered.taken
    have later := rest.le
    have settled :=
      first.settles closed (supplies.mono (List.subset_append_left _ _) (List.Subset.refl _))
      (avoids.mono le (by omega))
    obtain ⟨valid, filled⟩ := ih (supplies.after g.code (List.subset_append_right _ _))
      (first.avoids_after settled (avoids.mono (by omega) (Nat.le_refl _)) (.inr (Nat.le_refl _)))
    have kept := Block.assigned_subset_after (gs.flatMap Generated.code) (g.code.after v)
    rw [List.flatMap_cons, Block.scoped_append, Block.after_append]
    refine ⟨⟨settled.valid, valid⟩, fun g' listed => ?_⟩
    rcases List.mem_cons.1 listed with rfl | listed
    · exact ⟨kept settled.result, fun checked => kept (settled.flag checked)⟩
    · exact filled g' listed

/-- What stands for an absent value is a literal. -/
theorem Ty.names_defaultTerm (type : Ty) : type.defaultTerm.names = [] := by
  rcases type with (p | _ | _) | _ | _
  · cases p <;> rfl
  · rfl
  · rfl
  · rfl
  · rfl

/-! ## Units -/

/-- What a unit can return of what its body has computed: the values of all codes, or the
verdict of one of them. -/
inductive Session.Returns (t : Session) (gs : List Generated) : Returned → Prop
  | projection : t.Returns gs (.list (gs.map t.projected))
  | filter {g : Generated} : g ∈ gs → t.Returns gs (.term (t.accepted g))

/-- What is returned for an expression reads its result, and its flag only if absence is tracked:
otherwise there is no flag. -/
theorem Session.names_projected {t : Session} {g : Generated} {v : Flow}
    (result : g.result ∈ v.assigned) (flag : t.options.nullCheck = true → g.isNull ∈ v.assigned) :
    (t.projected g).names ⊆ v.assigned := by
  unfold Session.projected
  split
  · next checked =>
    exact List.cons_subset.2 ⟨flag checked, List.cons_subset.2 ⟨result, List.nil_subset _⟩⟩
  · exact List.cons_subset.2 ⟨result, List.nil_subset _⟩

/-- The same for the condition of a filter. -/
theorem Session.names_accepted {t : Session} {g : Generated} {v : Flow}
    (result : g.result ∈ v.assigned) (flag : t.options.nullCheck = true → g.isNull ∈ v.assigned) :
    (t.accepted g).names ⊆ v.assigned := by
  unfold Session.accepted
  dsimp only
  split
  · next checked =>
    exact List.cons_subset.2 ⟨flag checked, List.cons_subset.2 ⟨result, List.nil_subset _⟩⟩
  · exact List.cons_subset.2 ⟨result, List.nil_subset _⟩

/-- What a unit returns reads only what the code of its expressions has filled in. -/
theorem Session.Returns.names_subset {t : Session} {gs : List Generated} {returns : Returned}
    {v : Flow} (returned : t.Returns gs returns)
    (filled : ∀ g ∈ gs, g.result ∈ v.assigned ∧
      (t.options.nullCheck = true → g.isNull ∈ v.assigned)) :
    ∀ u ∈ returns.terms, u.names ⊆ v.assigned := by
  intro u inside
  cases returned with
  | projection =>
    obtain ⟨g, listed, rfl⟩ := List.mem_map.1 inside
    exact Session.names_projected (filled g listed).1 (filled g listed).2
  | filter listed =>
    cases List.mem_singleton.1 inside
    exact Session.names_accepted (filled _ listed).1 (filled _ listed).2

/-- A scoped unit mentions its inputs, its members and what its body declares. -/
theorem GeneratedUnit.Scoped.bound_of_mentions {u : GeneratedUnit} (valid : u.Scoped) {x : Name}
    (mentioned : x ∈ u.mentions) : x ∈ u.entry.bound ∨ x ∈ u.body.declared := by
  rcases List.mem_append.1 mentioned with inside | inside
  · exact Block.of_mem_mentions valid.body inside
  · obtain ⟨t, returned, read⟩ := List.mem_flatMap.1 inside
    have assigned := valid.returned t returned read
    exact Block.bound_after valid.body (Flow.mem_bound.2 (.inl assigned))

section Accepted

variable [TimeZones] {inputs : List Input} {given : GivenOptions} {new t : Session}
  (created : Session.create inputs given = .ok new) (grows : new.Grows t) {n m : Nat}
  {gs : List Generated} {ds known : List Declaration} (emits : new.setting.EmitsSome n gs m ds)
  (lists : t.registry.Lists known) (sub : ds ⊆ known) {returns : Returned}
  (returned : t.Returns gs returns)

include created grows

/-- A unit takes the inputs that its session was created with. -/
theorem Session.named_unit : (t.unit gs returns).inputs = inputs.map Input.name := by
  rw [← (Session.of_createWith created).1, ← grows.inputs]
  rfl

include emits lists sub returned

/-- A unit of codes that follow each other is scoped: the factory declares what they have asked
for, each of them fills its names, and these are what is returned. -/
theorem Session.scoped_unit : (t.unit gs returns).Scoped := by
  obtain ⟨sameInputs, -, terms⟩ := Session.of_createWith created
  have closed : ∀ type, (new.setting.defaults type).names = [] := by
    intro type
    rw [show new.setting.defaults = Ty.defaultTerm from terms]
    exact type.names_defaultTerm
  have supplies : (t.unit gs returns).entry.Supplies new.setting.inputs ds := by
    rw [show new.setting.inputs = inputs from sameInputs]
    exact GeneratedUnit.supplies_entry lists (Session.named_unit created grows) sub
  obtain ⟨body, filled⟩ :=
    emits.settles closed supplies (GeneratedUnit.avoids_entry (u := t.unit gs returns) lists n m)
  refine ⟨GeneratedUnit.allScoped_factory lists, body, returned.names_subset fun g listed => ?_⟩
  rw [grows.options]
  exact filled g listed

/-- Such a unit mentions usable names only. -/
theorem Session.usable_unit : ∀ x ∈ (t.unit gs returns).mentions, x.Usable inputs := by
  intro x mentioned
  have valid := Session.scoped_unit created grows emits lists sub returned
  exact GeneratedUnit.usable_of_bound (Session.named_unit created grows) lists
    emits.declared_fresh (Setting.stems_subset _) x
    ((GeneratedUnit.mem_bound_iff lists).2 (valid.bound_of_mentions mentioned))

end Accepted

/-- In every unit made of what a session has accepted, among any expressions it was given,
every name is defined before it is used: the factory declares a member before it uses it, and
the body and the return read inputs, members, and names that the body has declared in the
same or an enclosing block and assigned on every way that leads there. All else that the unit
refers to is the run time or what every program can refer to. If absent values are not
tracked, the unit does not mention the flag of any node. -/
theorem Session.unit_defines_before_use [TimeZones] {inputs : List Input} {given : GivenOptions}
    {new t : Session} (created : Session.create inputs given = .ok new) {es : List Expr}
    {gs : List Generated} (compiled : new.compileEach es = (gs, t)) {returns : Returned}
    (returned : t.Returns gs returns) :
    (t.unit gs returns).Scoped ∧
      (∀ u ∈ (t.unit gs returns).terms, u.outside ⊆ Name.surroundings) ∧
    (new.options.nullCheck = false →
      ∀ x ∈ (t.unit gs returns).mentions, ∀ k, x.text ≠ (Name.flag k).text) := by
  have fine := Session.fine_of_createWith created
  obtain ⟨grows, ds, emits, known, lists, sub⟩ :=
    (Session.sound_createWith created).compileEach compiled
  have valid := Session.scoped_unit created grows emits lists sub returned
  refine ⟨valid, fun u _ => u.outside_subset, fun unchecked x mentioned k same => ?_⟩
  have flag : (Name.flag k).Usable inputs := .numbered List.mem_cons_self
  have usable := Session.usable_unit created grows emits lists sub returned x mentioned
  obtain rfl := Name.Usable.eq_of_text fine usable flag same
  rcases valid.bound_of_mentions mentioned with early | declared
  · exact GeneratedUnit.avoids_entry lists k (k + 2) _ early (Name.flag_inRange k)
  · exact emits.declared_fresh.flag_not_mem (Setting.isNull_not_mem_stems unchecked) k declared

section Host

open scoped Offsets

/-- Two dates, one of them read by a chain of handlers, without null checks. -/
theorem Session.unit_defines_before_use_datesAndStray :
    ∃ (new t : Session) (g g' : Generated),
      Session.create [⟨"row", .plain .pojo [.mk "d" .string]⟩]
        (.members [("nullCheck", .value (.bool false))]) =
        .ok new ∧ new.options.nullCheck = false ∧
      new.compileEach Expr.datesAndStray = ([g, g'], t) ∧
      (t.unit [g, g'] (.list [t.projected g, t.projected g'])).Scoped ∧
      ∀ x ∈ (t.unit [g, g'] (.list [t.projected g, t.projected g'])).mentions,
        ∀ k, x.text ≠ (Name.flag k).text := by
  obtain ⟨new, created, unchecked, g, g', t, compiled⟩ : ∃ new,
      Session.create [⟨"row", .plain .pojo [.mk "d" .string]⟩]
        (.members [("nullCheck", .value (.bool false))]) =
        .ok new ∧ new.options.nullCheck = false ∧
      ∃ g g' t, new.compileEach Expr.datesAndStray = ([g, g'], t) :=
    ⟨_, rfl, rfl, _, _, _, rfl⟩
  obtain ⟨valid, -, flagless⟩ := Session.unit_defines_before_use created compiled .projection
  exact ⟨new, t, g, g', created, unchecked, compiled, valid, flagless unchecked⟩

end Host

end RowExpr
