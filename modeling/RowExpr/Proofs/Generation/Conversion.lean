import RowExpr.Proofs.Code.Operator
import RowExpr.Proofs.Generation.Emission

/-!
What the code of literals and casts computes.

Code may ask for declarations; `Scope.Declares` says that a scope holds them. In
such a scope the term of a literal evaluates to the literal (`Literal.eval_term?`),
and the block of a cast assigns the cast value or stops with its fault
(`Gen.conversion?_assigns`). The block that reads a date tries four readings in
turn, each in the handler of the one before.
-/

namespace RowExpr

/-! ## Declarations in scope -/

/-- The scope holds the formatters, in this zone, and the date constants that have
been asked for. -/
structure Scope.Declares (σ : Scope) (zone : Text) (ds : List Declaration) : Prop where
  formatter : ∀ k, Declaration.formatter k ∈ ds → σ.getFormatter (.formatter k) =
    .ok (k.inZone zone)
  constant : ∀ t, Declaration.dateConstant t ∈ ds → σ.get (.dateConstant t) =
    .ok (.date .constant t)

theorem Scope.Declares.mono {σ : Scope} {zone : Text} {ds ds' : List Declaration}
    (declares : σ.Declares zone ds) (sub : ds' ⊆ ds) : σ.Declares zone ds' :=
  ⟨fun k asked => declares.formatter k (sub asked),
    fun t asked => declares.constant t (sub asked)⟩

/-! ## Blocks that assign a value -/

/-- The block, run in `σ`, leaves a value in `x` or stops with a fault. -/
inductive Block.Assigns [TimeZones] (b : Block) (x : Name) (σ : Scope) : Except Fault Value → Prop
  | fault {f} : b.run σ = .error f → Block.Assigns b x σ (.error f)
  | value {σ' v} : b.run σ = .ok σ' → σ'.get x = .ok v → Block.Assigns b x σ (.ok v)

section Assigns

variable {σ : Scope} {x y : Name} {t : Term}

/-- An assignment ends as its term does. -/
theorem Block.assigns_assign [TimeZones] (σ : Scope) (x : Name) (t : Term) :
    Block.Assigns [.assign x t] x σ (t.eval σ) := by
  cases value : t.eval σ with
  | error f =>
    refine .fault ?_
    rw [run_singleton, Statement.run, value]
    rfl
  | ok v => exact .value ((run_assign [] value).trans (run_nil _)) (σ.get_bind_self x v)

theorem Block.assigns_declare [TimeZones] (σ : Scope) (x : Name) (typeMark : Option Text)
    (t : Term) : Block.Assigns [.declare x typeMark t] x σ (t.eval σ) := by
  cases value : t.eval σ with
  | error f =>
    refine .fault ?_
    rw [run_singleton, Statement.run, value]
    rfl
  | ok v => exact .value ((run_declare typeMark [] value).trans (run_nil _)) (σ.get_bind_self x v)

/-- A term that faults leaves the assignment to the handler. -/
theorem Block.Assigns.attempt [TimeZones] {otherwise : Block}
    {first result : Except Fault Value} :
    t.eval σ = first → Block.Assigns otherwise x σ result →
    Block.Assigns [.attempt x t otherwise] x σ
      (match first with
        | .ok v => .ok v
        | .error _ => result) := by
  intro tried handler
  cases first with
  | ok v =>
    refine .value ?_ (σ.get_bind_self x v)
    rw [run_singleton, Statement.run, tried]
    rfl
  | error f =>
    have same : Block.run [.attempt x t otherwise] σ = otherwise.run σ := by
      rw [run_singleton, Statement.run, tried]
    cases handler with
    | fault ran => exact .fault (same.trans ran)
    | value ran bound => exact .value (same.trans ran) bound

/-- Code that leaves a value in `x`, followed by an assignment of `x` to another name. -/
theorem Block.Assigns.copy [TimeZones] {b : Block} {result : Except Fault Value}
    (assigns : Block.Assigns b x σ result) :
    Block.Assigns (b ++ [.assign y (.name x)]) y σ result := by
  cases assigns with
  | fault ran =>
    refine .fault ?_
    rw [run_append, ran]
    rfl
  | @value σ' v ran bound =>
    have copied : Block.run [.assign y (.name x)] σ' = .ok (σ'.bind y v) :=
      (run_assign [] ((Term.eval_name σ' x).trans bound)).trans (run_nil _)
    refine .value ?_ (σ'.get_bind_self y v)
    rw [run_append, ran]
    exact copied

/-- A name that is reserved first is undefined for the rest of the block. -/
theorem Block.Assigns.reserve [TimeZones] {typeMark : Text} {b : Block}
    {result : Except Fault Value} (assigns : Block.Assigns b x (σ.bind y .undefined) result) :
    Block.Assigns (.reserve y typeMark :: b) x σ result := by
  cases assigns with
  | fault ran => exact .fault ((run_reserve y typeMark b σ).trans ran)
  | value ran bound => exact .value ((run_reserve y typeMark b σ).trans ran) bound

/-- A branch ends as the block that is taken. -/
theorem Block.Assigns.branch [TimeZones] {yes no : Block} {v : Value}
    {result : Except Fault Value} (test : t.eval σ = .ok v)
    (taken : Block.Assigns (if v.truthy then yes else no) x σ result) :
    Block.Assigns [.branch t yes no] x σ result := by
  have same : Block.run [.branch t yes no] σ = Block.run (if v.truthy then yes else no) σ :=
    (run_singleton _ σ).trans (Statement.run_branch yes no test)
  cases taken with
  | fault ran => exact .fault (same.trans ran)
  | value ran bound => exact .value (same.trans ran) bound

end Assigns

/-! ## Literals -/

/-- A term that asks for nothing has its value in every scope. -/
theorem Term.eval_of_yields_pure {t term : Term} {v : Value} {n m : Nat} {ds : List Declaration}
    (made : (Gen.pure t).Yields n term m ds) (value : ∀ [TimeZones] σ, t.eval σ = .ok v) :
    m = n ∧ ∀ [TimeZones] {σ : Scope} {zone : Text}, σ.Declares zone ds →
      term.eval σ = .ok v := by
  obtain ⟨rfl, rfl, rfl⟩ := Gen.yields_pure.1 made
  exact ⟨rfl, fun {_ σ _} _ => value σ⟩

/-- The term of a literal takes no names, and in a scope that holds what it asks
for it has the value of the literal. -/
theorem Literal.eval_term? {value : Literal} {type : Ty} {step : Gen Term} {n m : Nat}
    {term : Term} {ds : List Declaration} (found : value.term? type = some step)
    (made : step.Yields n term m ds) :
    m = n ∧ ∀ [TimeZones] {σ : Scope} {zone : Text}, σ.Declares zone ds →
      term.eval σ = .ok (value.eval type) := by
  unfold Literal.term? at found
  split at found
  · split at found
    · split at found
      · cases found
        exact Term.eval_of_yields_pure made fun _ => rfl
      · cases found
    · cases found
  · split at found
    · cases found
      exact Term.eval_of_yields_pure made fun _ => rfl
    · cases found
  · cases found
    exact Term.eval_of_yields_pure made fun _ => rfl
  · cases found
    exact Term.eval_of_yields_pure made fun _ => rfl
  · cases found
    exact Term.eval_of_yields_pure made fun _ => rfl
  · cases found
    exact Term.eval_of_yields_pure made fun _ => rfl
  · next t =>
    cases found
    simp only [Gen.yields_bind, Gen.yields_request, Gen.yields_pure] at made
    obtain ⟨_, _, _, _, ⟨rfl, rfl, rfl⟩, ⟨rfl, rfl, rfl⟩, rfl⟩ := made
    exact ⟨rfl, fun declares => declares.constant (some t) (List.mem_singleton_self _)⟩
  · cases found

/-! ## Casts -/

/-- The block that reads a date from a text into `parsed` and hands it on to `result`. -/
def Gen.dateBlock (result parsed : Name) (value : Term) : Block :=
  [.reserve parsed (Basic.typeMark .date),
    .attempt parsed (.parse (.formatter .timestamp) value) [
      .attempt parsed (.parse (.formatter .date) value) [
        .attempt parsed (.parse (.formatter .time) value) [
          .assign parsed (.call .epochMillis value)]]],
    .assign result (.name parsed)]

/-- What a date is read with. -/
def Gen.dateRequests : List Declaration :=
  [.formatter .date, .formatter .time, .formatter .timestamp]

/-- The forms that the block of a cast has: one assignment of a term that evaluates
to the cast value, or the block that reads a date. -/
inductive Gen.Converts (result : Name) (value : Term) (source target : Ty) (n : Nat) :
    Block → Nat → List Declaration → Prop
  | term {t ds} :
    (∀ [TimeZones] {σ zone v}, value.eval σ = .ok v → σ.Declares zone ds →
      t.eval σ = v.cast zone source target) →
    Gen.Converts result value source target n [.assign result t] n ds
  | date :
    source = .basic .string → target = .basic .date →
    Gen.Converts result value source target n (dateBlock result (.fresh "parsed" n) value)
      (n + 1) dateRequests

/-- A cast that asks for nothing is one assignment. -/
theorem Gen.Converts.of_yields_pure {result : Name} {value t : Term} {source target : Ty}
    {n m : Nat} {block : Block} {ds : List Declaration}
    (made : (Gen.pure [.assign result t]).Yields n block m ds)
    (same : ∀ [TimeZones] {σ zone v}, value.eval σ = .ok v →
      t.eval σ = v.cast zone source target) :
    Gen.Converts result value source target n block m ds := by
  obtain ⟨rfl, rfl, rfl⟩ := Gen.yields_pure.1 made
  exact .term fun operand _ => same operand

/-- Every conversion that there is has one of the two forms. -/
theorem Gen.converts_of_conversion? {result : Name} {value : Term} {source target : Ty}
    {step : Gen Block} {n m : Nat} {block : Block} {ds : List Declaration}
    (found : Gen.conversion? result value source target = some step)
    (made : step.Yields n block m ds) : Gen.Converts result value source target n block m ds := by
  unfold Gen.conversion? at found
  split at found
  · cases found
    simp only [Gen.yields_bind, Gen.yields_request, Gen.yields_pure] at made
    obtain ⟨_, _, _, _, ⟨rfl, rfl, rfl⟩, ⟨rfl, rfl, rfl⟩, rfl⟩ := made
    refine .term fun operand declares => ?_
    have timestamp := declares.formatter .timestamp (List.mem_singleton_self _)
    rw [Term.eval, Declaration.name, timestamp, operand]
    rfl
  · next notDate =>
    cases found
    refine .of_yields_pure made fun {_ σ zone v} operand => ?_
    rw [Term.eval_call .string operand, Value.cast]
    · rfl
    · exact notDate
  · cases found
    exact .of_yields_pure made fun operand => Term.eval_call .makeDate operand
  · cases found
    simp only [Gen.parseDate, Gen.yields_bind, Gen.yields_request, Gen.yields_fresh,
      Gen.yields_pure] at made
    obtain ⟨_, _, _, _, ⟨rfl, rfl, rfl⟩,
      ⟨_, _, _, _, ⟨rfl, rfl, rfl⟩, ⟨_, _, _, _, ⟨rfl, rfl, rfl⟩,
        ⟨_, _, _, _, ⟨rfl, rfl, rfl⟩, ⟨rfl, rfl, rfl⟩, rfl⟩, rfl⟩, rfl⟩, rfl⟩ := made
    exact .date rfl rfl
  · cases found
    exact .of_yields_pure made fun operand => Term.eval_invoke "getTime" operand
  · next p =>
    cases found
    exact .of_yields_pure made fun operand => Term.eval_call (.valueOf p) operand
  · next p q =>
    obtain ⟨t, legal, rfl⟩ := Option.map_eq_some_iff.1 found
    exact .of_yields_pure made fun operand => Term.eval_coerce? operand legal
  · cases found

/-- A conversion always succeeds. It takes a name only if it reads a date from a text. -/
theorem Gen.exists_yields_conversion? {result : Name} {value : Term} {source target : Ty}
    {step : Gen Block} (found : Gen.conversion? result value source target = some step)
    (n : Nat) :
    ∃ block ds, step.Yields n block
      (n + if source.isBasicNamed .string && target.isBasicNamed .date then 1 else 0) ds := by
  unfold Gen.conversion? at found
  split at found
  · cases found
    exact ⟨_, _, rfl⟩
  · cases found
    rw [Bool.and_comm]
    exact ⟨_, _, rfl⟩
  · cases found
    exact ⟨_, _, rfl⟩
  · cases found
    exact ⟨_, _, rfl⟩
  · cases found
    exact ⟨_, _, rfl⟩
  · cases found
    exact ⟨_, _, rfl⟩
  · obtain ⟨t, -, rfl⟩ := Option.map_eq_some_iff.1 found
    exact ⟨_, _, rfl⟩
  · cases found

/-- Numbered names are none of the declarations. -/
theorem Scope.Declares.bind {σ : Scope} {zone : Text} {ds : List Declaration}
    (declares : σ.Declares zone ds) (stem : Text) (k : Nat) (v : Value) :
    (σ.bind (.fresh stem k) v).Declares zone ds :=
  ⟨declares.formatter, fun t asked =>
    (σ.get_bind_of_ne v Name.noConfusion).trans (declares.constant t asked)⟩

theorem Term.eval_parse [TimeZones] {σ : Scope} {x : Name} {f : Formatter} {t : Term} {v : Value}
    (formatter : σ.getFormatter x = .ok f) (value : t.eval σ = .ok v) :
    (Term.parse x t).eval σ = Conversion.parseDate f v := by
  rw [eval, formatter, value]
  rfl

/-- The block that reads a date gives up only if all four readings do. -/
theorem Gen.dateBlock_assigns [TimeZones] {result x : Name} {n : Nat} {σ : Scope} {zone : Text}
    {v : Value} (operand : σ.get x = .ok v) (apart : x ≠ .fresh "parsed" n)
    (declares : σ.Declares zone dateRequests) :
    Block.Assigns (dateBlock result (.fresh "parsed" n) (.name x)) result σ
      (v.parseDate zone) := by
  have value : (Term.name x).eval (σ.bind (.fresh "parsed" n) .undefined) = .ok v :=
    (σ.get_bind_of_ne .undefined apart).trans operand
  have declared := declares.bind "parsed" n .undefined
  have timestamp := Term.eval_parse (declared.formatter .timestamp (by decide)) value
  have date := Term.eval_parse (declared.formatter .date (by decide)) value
  have time := Term.eval_parse (declared.formatter .time (by decide)) value
  have last := Block.assigns_assign (σ.bind (.fresh "parsed" n) .undefined) (.fresh "parsed" n)
    (.call .epochMillis (.name x))
  rw [Term.eval_call .epochMillis value] at last
  exact .reserve (.copy (.attempt timestamp (.attempt date (.attempt time last))))

/-- The block of a cast ends as the cast does, in a scope that has what it asks for. -/
theorem Gen.Converts.assigns [TimeZones] {result x : Name} {source target : Ty} {n m : Nat}
    {block : Block} {ds : List Declaration}
    (converts : Gen.Converts result (.name x) source target n block m ds) {σ : Scope}
    {zone : Text} {v : Value} (operand : σ.get x = .ok v) (apart : x ≠ .fresh "parsed" n)
    (declares : σ.Declares zone ds) :
    Block.Assigns block result σ (v.cast zone source target) := by
  cases converts with
  | @term t _ same =>
    rw [← same operand declares]
    exact Block.assigns_assign σ result t
  | date text date =>
    subst text date
    exact Gen.dateBlock_assigns operand apart declares

/-- A cast binds its result and at most one further name, which it takes itself. -/
theorem Gen.Converts.targets {result : Name} {value : Term} {source target : Ty} {n m : Nat}
    {block : Block} {ds : List Declaration}
    (converts : Gen.Converts result value source target n block m ds) :
    n ≤ m ∧ ∀ x ∈ block.targets, x = result ∨ ∃ k, x = .fresh "parsed" k ∧ n ≤ k ∧ k < m := by
  cases converts with
  | term _ =>
    refine ⟨Nat.le_refl n, fun x bound => .inl ?_⟩
    simpa [Statement.targets] using bound
  | date _ _ =>
    refine ⟨Nat.le_succ n, fun x bound => ?_⟩
    have either : x = .fresh "parsed" n ∨ x = result := by
      simpa [dateBlock, Statement.targets] using bound
    rcases either with rfl | rfl
    · exact .inr ⟨n, rfl, Nat.le_refl n, Nat.lt_succ_self n⟩
    · exact .inl rfl

end RowExpr
