import RowExpr.Calendar.Offsets
import RowExpr.Proofs.Expr.Nullity
import RowExpr.Proofs.Generation.Conversion
import RowExpr.Proofs.Generation.Parallel
import RowExpr.Proofs.Session

/-!
Which expressions are accepted.

A session accepts an expression exactly if every node of it is legal by itself: literals
have values of their types, fields are declared by some input, and casts are between types
that have a conversion (`Expr.Legal`). If some node is not, the error is that of the first
check that fails. Checks are made from left to right and below a node before it, except
that the rules of a cast for dates come before those of its operand (`Expr.checks`).
-/

namespace RowExpr

/-! ## Legal nodes -/

/-- The literal is null or a value of the type. -/
inductive Literal.Legal : Literal → Ty → Prop
  | null {type : Ty} : Literal.Legal .null type
  | int {x : Double} {n : Int} :
    x.toInt? = some n → -2147483648 ≤ n → n ≤ 2147483647 → Literal.Legal (.number x) (.basic .int)
  | long {x : Double} {n : Int} :
    x.toInt? = some n → -9007199254740991 ≤ n → n ≤ 9007199254740991 →
    Literal.Legal (.number x) (.basic .long)
  | double {x : Double} : Literal.Legal (.number x) (.basic .double)
  | float {x : Double} : Literal.Legal (.number x) (.basic .float)
  | string {t : Text} : Literal.Legal (.text t) (.basic .string)
  | boolean {b : Bool} : Literal.Legal (.bool b) (.basic .boolean)
  | date {t : Instant} : Literal.Legal (.date (some t)) (.basic .date)

/-- A value of the first type can be cast to the second. -/
inductive Ty.Castable : Ty → Ty → Prop
  | toText {source : Ty} : Ty.Castable source (.basic .string)
  | dateOfMillis : Ty.Castable (.basic .long) (.basic .date)
  | dateOfText : Ty.Castable (.basic .string) (.basic .date)
  | millisOfDate : Ty.Castable (.basic .date) (.basic .long)
  | ofText {p : Primitive} : Ty.Castable (.basic .string) (.basic (.primitive p))
  | same {p : Primitive} : Ty.Castable (.basic (.primitive p)) (.basic (.primitive p))
  | numeric {p q : Primitive} : p ≠ .boolean → q ≠ .boolean →
    Ty.Castable (.basic (.primitive p)) (.basic (.primitive q))

/-- The node is legal by itself, whatever is below it. -/
def Expr.Legal (inputs : List Input) : Expr → Prop
  | .literal value type => value.Legal type
  | .field name _ => ∃ input ∈ inputs, name ∈ input.type.names
  | .cast operand type => operand.type.Castable type
  | _ => True

/-! ## Checks -/

/-- A check that generation makes at a node. A cast has three of them. -/
inductive Check where
  | literal (value : Literal) (type : Ty)
  | field (name : Text) (type : Ty)
  | toDate (operand : Expr) (type : Ty)
  | fromDate (operand : Expr) (type : Ty)
  | conversion (operand : Expr) (type : Ty)

/-- The node that is checked. -/
def Check.node : Check → Expr
  | .literal value type => .literal value type
  | .field name type => .field name type
  | .toDate operand type | .fromDate operand type | .conversion operand type => .cast operand type

def Check.Passes (inputs : List Input) : Check → Prop
  | .literal value type => value.Legal type
  | .field name _ => ∃ input ∈ inputs, name ∈ input.type.names
  | .toDate operand type =>
    type = .basic .date → operand.type = .basic .long ∨ operand.type = .basic .string
  | .fromDate operand type =>
    operand.type = .basic .date → type = .basic .long ∨ type = .basic .string
  | .conversion operand type => operand.type.Castable type

/-- The error of a check that fails. -/
def Check.error (inputs : List Input) : Check → GenerationError
  | .literal value type =>
    .unsupported (.literal value type)
      (("literal value does not match type " : Text) ++ type.text)
  | .field name type => .unresolvedField (.field name type) name (inputs.map Input.text)
  | .toDate operand type =>
    .illegalCast (.cast operand type) "Only Long and String can be casted to Date."
  | .fromDate operand type =>
    .illegalCast (.cast operand type) "Date can only be casted to Long or String."
  | .conversion operand type =>
    .unsupported (.cast operand type)
      (("no conversion from " : Text) ++ operand.type.text ++ " to " ++ type.text)

/-- The checks of an expression, in the order in which they are made. -/
def Expr.checks : Expr → List Check
  | .literal value type => [.literal value type]
  | .field name type => [.field name type]
  | .naming inner _ _ => inner.checks
  | .binary _ left right _ => left.checks ++ right.checks
  | .unary _ operand _ => operand.checks
  | .isNull operand _ => operand.checks
  | .isNotNull operand _ => operand.checks
  | .cast operand type =>
    .toDate operand type :: .fromDate operand type ::
      (operand.checks ++ [.conversion operand type])
  | .substring str start stop _ => str.checks ++ (start.checks ++ stop.checks)

/-- The first check of a list that fails. -/
def Check.FirstFailing (inputs : List Input) (cs : List Check) (c : Check) : Prop :=
  ∃ before after, cs = before ++ c :: after ∧ (∀ d ∈ before, d.Passes inputs) ∧ ¬ c.Passes inputs

/-- The error of a check is about the node that is checked. -/
theorem Check.expression?_error (inputs : List Input) (c : Check) :
    (c.error inputs).expression? = some c.node := by
  cases c <;> rfl

/-- Every check of a tree is made at one of its nodes. -/
theorem Expr.node_mem_of_mem_checks {e : Expr} {c : Check} (made : c ∈ e.checks) :
    c.node ∈ e.nodes := by
  induction e with
  | literal value type =>
    cases List.mem_singleton.1 made
    exact List.mem_singleton_self _
  | field name type =>
    cases List.mem_singleton.1 made
    exact List.mem_singleton_self _
  | naming inner label type ih | unary op inner type ih | isNull inner type ih
  | isNotNull inner type ih =>
    exact List.mem_cons_of_mem _ (ih made)
  | binary op left right type ihl ihr =>
    refine List.mem_cons_of_mem _ (List.mem_append.2 ?_)
    exact (List.mem_append.1 made).imp ihl ihr
  | cast operand type ih =>
    rw [Expr.checks, List.mem_cons, List.mem_cons, List.mem_append, List.mem_singleton] at made
    rcases made with rfl | rfl | below | rfl
    · exact List.mem_cons_self
    · exact List.mem_cons_self
    · exact List.mem_cons_of_mem _ (ih below)
    · exact List.mem_cons_self
  | substring str start stop type iha ihb ihc =>
    refine List.mem_cons_of_mem _ (List.mem_append.2 ?_)
    refine (List.mem_append.1 made).imp iha fun later => List.mem_append.2 ?_
    exact (List.mem_append.1 later).imp ihb ihc

/-- Dates are made of integers and texts only. -/
theorem Ty.Castable.toDate {source target : Ty} (castable : source.Castable target)
    (date : target = .basic .date) : source = .basic .long ∨ source = .basic .string := by
  cases castable with
  | dateOfMillis => exact .inl rfl
  | dateOfText => exact .inr rfl
  | toText | millisOfDate | ofText | same | numeric _ _ => cases date

/-- Dates are turned into these two types only. -/
theorem Ty.Castable.fromDate {source target : Ty} (castable : source.Castable target)
    (date : source = .basic .date) : target = .basic .long ∨ target = .basic .string := by
  cases castable with
  | toText => exact .inr rfl
  | millisOfDate => exact .inl rfl
  | dateOfMillis | dateOfText | ofText | same | numeric _ _ => cases date

/-- All checks pass exactly if all nodes are legal. -/
theorem Expr.checks_pass_iff (inputs : List Input) (e : Expr) :
    (∀ c ∈ e.checks, c.Passes inputs) ↔ ∀ node ∈ e.nodes, node.Legal inputs := by
  induction e with
  | literal value type => simp [Expr.checks, Expr.nodes, Check.Passes, Expr.Legal]
  | field name type => simp [Expr.checks, Expr.nodes, Check.Passes, Expr.Legal]
  | naming inner label type ih | unary op inner type ih | isNull inner type ih
  | isNotNull inner type ih =>
    simp [Expr.checks, Expr.nodes, Expr.Legal, ih]
  | binary op left right type ihl ihr =>
    rw [Expr.checks, Expr.nodes, List.forall_mem_append, List.forall_mem_cons,
      List.forall_mem_append, ihl, ihr]
    simp [Expr.Legal]
  | cast operand type ih =>
    rw [Expr.checks, Expr.nodes, List.forall_mem_cons, List.forall_mem_cons,
      List.forall_mem_append, List.forall_mem_singleton, List.forall_mem_cons, ih]
    constructor
    · rintro ⟨-, -, below, castable⟩
      exact ⟨castable, below⟩
    · rintro ⟨castable, below⟩
      exact ⟨castable.toDate, castable.fromDate, below, castable⟩
  | substring str start stop type iha ihb ihc =>
    rw [Expr.checks, Expr.nodes, List.forall_mem_append, List.forall_mem_append,
      List.forall_mem_cons, List.forall_mem_append, List.forall_mem_append, iha, ihb, ihc]
    simp [Expr.Legal]

/-! ## Leaves and casts -/

/-- There is a term for a literal exactly if it is a value of its type. -/
theorem Literal.isSome_term?_iff {value : Literal} (present : value ≠ .null) (type : Ty) :
    (value.term? type).isSome ↔ value.Legal type := by
  constructor
  · intro found
    unfold Literal.term? at found
    split at found
    · split at found
      · next whole =>
        split at found
        · next inRange => exact .int whole inRange.1 inRange.2
        · cases found
      · cases found
    · next x =>
      split at found
      · next safe =>
        unfold Double.toSafeInt? at safe
        split at safe
        · next whole =>
          split at safe
          · next inRange =>
            rw [Bool.and_eq_true, decide_eq_true_eq, decide_eq_true_eq] at inRange
            exact .long whole inRange.1 inRange.2
          · cases safe
        · cases safe
      · cases found
    · exact .double
    · exact .float
    · exact .string
    · exact .boolean
    · exact .date
    · cases found
  · intro legal
    cases legal with
    | null => exact absurd rfl present
    | int whole low high => simp [Literal.term?, whole, low, high]
    | long whole low high => simp [Literal.term?, Double.toSafeInt?, whole, low, high]
    | double | float | string | boolean | date => rfl

theorem Composite.hasField_iff {c : Composite} {name : Text} :
    c.hasField name = true ↔ name ∈ c.names := by
  rw [hasField, index?, List.findIdx?_isSome, List.any_eq_true]
  constructor
  · rintro ⟨found, listed, same⟩
    exact beq_iff_eq.1 same ▸ listed
  · intro listed
    exact ⟨name, listed, beq_self_eq_true name⟩

/-- There is code for every field that an input has, whatever type is claimed for it. -/
theorem Setting.exists_fieldTerm? {s : Setting} {input : Input} {name : Text} (type : Ty)
    (listed : input ∈ s.inputs) (has : input.type.hasField name = true) :
    ∃ term, s.fieldTerm? name type = some term := by
  unfold Setting.fieldTerm?
  cases first : s.inputs.find? (·.type.hasField name) with
  | none => exact absurd has (List.find?_eq_none.1 first input listed)
  | some found =>
    have holds : found.type.hasField name = true := by simpa using List.find?_some first
    obtain ⟨a, stored⟩ := Composite.exists_accessor? holds
    exact ⟨_, congrArg (Option.map _) stored⟩

/-- There is a term for a field exactly if some input declares it. -/
theorem Setting.isSome_fieldTerm?_iff (s : Setting) (name : Text) (type : Ty) :
    (s.fieldTerm? name type).isSome ↔ ∃ input ∈ s.inputs, name ∈ input.type.names := by
  constructor
  · intro found
    unfold Setting.fieldTerm? at found
    split at found
    · next input first =>
      have has : input.type.hasField name = true := by simpa using List.find?_some first
      exact ⟨input, List.mem_of_find?_eq_some first, Composite.hasField_iff.1 has⟩
    · cases found
  · rintro ⟨input, listed, declared⟩
    obtain ⟨term, found⟩ :=
      Setting.exists_fieldTerm? type listed (Composite.hasField_iff.2 declared)
    rw [found]
    rfl

/-- Primitive types can be coerced into each other, with the exception of truth values. -/
theorem Term.isSome_coerce?_iff (t : Term) (p q : Primitive) :
    (t.coerce? p q).isSome ↔ p = q ∨ p ≠ .boolean ∧ q ≠ .boolean := by
  unfold Term.coerce?
  split
  · next same => simp [same]
  · next apart =>
    split
    · next truth => rcases truth with rfl | rfl <;> simp [apart]
    · next numeric =>
      rw [not_or] at numeric
      cases q <;> simp_all [Term.wrap?]

/-- There is a conversion exactly between types that can be cast. -/
theorem Gen.isSome_conversion?_iff (result : Name) (value : Term) (source target : Ty) :
    (Gen.conversion? result value source target).isSome ↔ source.Castable target := by
  constructor
  · intro found
    unfold Gen.conversion? at found
    split at found
    · exact .toText
    · exact .toText
    · exact .dateOfMillis
    · exact .dateOfText
    · exact .millisOfDate
    · exact .ofText
    · next p q =>
      rw [Option.isSome_map, Term.isSome_coerce?_iff] at found
      rcases found with rfl | ⟨left, right⟩
      · exact .same
      · exact .numeric left right
    · cases found
  · intro castable
    cases castable with
    | @toText source =>
      rcases source with (p | _ | _) | _ | _
      · cases p <;> rfl
      all_goals rfl
    | dateOfMillis | dateOfText | millisOfDate | ofText => rfl
    | @same p =>
      show (Option.map _ (value.coerce? p p)).isSome = true
      rw [Option.isSome_map, Term.isSome_coerce?_iff]
      exact .inl rfl
    | @numeric p q left right =>
      show (Option.map _ (value.coerce? p q)).isSome = true
      rw [Option.isSome_map, Term.isSome_coerce?_iff]
      exact .inr ⟨left, right⟩

theorem Ty.isBasicNamed_iff {type : Ty} {b : Basic} :
    type.isBasicNamed b = true ↔ type = .basic b := by
  rw [isBasicNamed, beq_iff_eq]
  cases type <;> simp [basic?]

/-- What a type must be if another one is that of dates. -/
theorem Ty.dateRule_iff {type other : Ty} :
    (type.isBasicNamed .date && !(other.isBasicNamed .long || other.isBasicNamed .string)) =
      true ↔
      ¬ (type = .basic .date → other = .basic .long ∨ other = .basic .string) := by
  rw [Bool.and_eq_true, Bool.not_eq_true', ← Bool.not_eq_true, Bool.or_eq_true, isBasicNamed_iff,
    isBasicNamed_iff, isBasicNamed_iff, Classical.not_imp]

/-- The rules of a cast for dates, the one for its target before the one for its source. -/
theorem Check.illegalCast?_eq (inputs : List Input) (operand : Expr) (type : Ty) :
    (operand.type.illegalCast? type = some "Only Long and String can be casted to Date." ∧
      ¬ (Check.toDate operand type).Passes inputs) ∨
    (operand.type.illegalCast? type = some "Date can only be casted to Long or String." ∧
      (Check.toDate operand type).Passes inputs ∧ ¬ (Check.fromDate operand type).Passes inputs) ∨
    (operand.type.illegalCast? type = none ∧
      (Check.toDate operand type).Passes inputs ∧
      (Check.fromDate operand type).Passes inputs) := by
  unfold Ty.illegalCast?
  split
  · next refused => exact .inl ⟨rfl, Ty.dateRule_iff.1 refused⟩
  · next allowed =>
    have toDate := not_not.1 (mt Ty.dateRule_iff.2 allowed)
    split
    · next refused => exact .inr (.inl ⟨rfl, toDate, Ty.dateRule_iff.1 refused⟩)
    · next allowed' => exact .inr (.inr ⟨rfl, toDate, not_not.1 (mt Ty.dateRule_iff.2 allowed')⟩)

/-! ## Generation follows the checks -/

/-- The outcome that checks decide: success if they all pass, else the error of the first
that fails. -/
inductive Check.Decides {α : Type} (inputs : List Input) (cs : List Check) :
    Except GenerationError α → Prop
  | pass {a : α} : (∀ c ∈ cs, c.Passes inputs) → Check.Decides inputs cs (.ok a)
  | fail {c : Check} : Check.FirstFailing inputs cs c →
    Check.Decides inputs cs (.error (c.error inputs))

/-- A step of generation whose outcome is decided by checks, whatever names were taken. -/
def Gen.Follows {α : Type} (m : Gen α) (inputs : List Input) (cs : List Check) : Prop :=
  ∀ names, Check.Decides inputs cs (m names).outcome

section Follows

variable {α β : Type} {inputs : List Input} {cs cs' : List Check} {c : Check}

/-- Checks that come after the first that fails do not matter. -/
theorem Check.FirstFailing.append (failing : Check.FirstFailing inputs cs c) (cs' : List Check) :
    Check.FirstFailing inputs (cs ++ cs') c := by
  obtain ⟨before, after, rfl, passed, failed⟩ := failing
  exact ⟨before, after ++ cs', by rw [List.append_assoc, List.cons_append], passed, failed⟩

theorem Check.FirstFailing.after (passed : ∀ d ∈ cs, d.Passes inputs)
    (failing : Check.FirstFailing inputs cs' c) : Check.FirstFailing inputs (cs ++ cs') c := by
  obtain ⟨before, after, rfl, passed', failed⟩ := failing
  exact ⟨cs ++ before, after, (List.append_assoc _ _ _).symm,
    List.forall_mem_append.2 ⟨passed, passed'⟩, failed⟩

theorem Check.firstFailing_cons (failed : ¬ c.Passes inputs) (cs : List Check) :
    Check.FirstFailing inputs (c :: cs) c :=
  ⟨[], cs, rfl, List.forall_mem_nil _, failed⟩

theorem Gen.follows_pure (inputs : List Input) (a : α) :
    (Pure.pure a : Gen α).Follows inputs [] := by
  intro names
  exact .pass (List.forall_mem_nil _)

theorem Gen.follows_fresh (inputs : List Input) (stem : Text) :
    (Gen.fresh stem).Follows inputs [] := by
  intro names
  exact .pass (List.forall_mem_nil _)

/-- A step that fails with the error of the first failing check follows the checks. -/
theorem Gen.follows_fail (failing : Check.FirstFailing inputs cs c) :
    (Gen.fail (c.error inputs) : Gen α).Follows inputs cs := by
  intro names
  exact .fail failing

theorem Gen.follows_request (inputs : List Input) (d : Declaration) :
    (Gen.request d).Follows inputs [] := by
  intro names
  exact .pass (List.forall_mem_nil _)

/-- Checks that pass may come first. -/
theorem Gen.Follows.after {m : Gen α} (passed : ∀ d ∈ cs, d.Passes inputs)
    (rest : m.Follows inputs cs') : m.Follows inputs (cs ++ cs') := by
  intro names
  have decided := rest names
  cases ended : (m names).outcome with
  | error e =>
    rw [ended] at decided
    cases decided with
    | fail failing => exact .fail (.after passed failing)
  | ok a =>
    rw [ended] at decided
    cases decided with
    | pass passed' => exact .pass (List.forall_mem_append.2 ⟨passed, passed'⟩)

/-- Steps in a row follow the checks of each, in this order. -/
theorem Gen.Follows.bind {m : Gen α} {f : α → Gen β} (first : m.Follows inputs cs)
    (next : ∀ a, (f a).Follows inputs cs') : (m >>= f).Follows inputs (cs ++ cs') := by
  intro names
  show Check.Decides inputs _ (Gen.bind m f names).outcome
  have decided := first names
  unfold Gen.bind
  cases ended : (m names).outcome with
  | error e =>
    rw [ended] at decided
    cases decided with
    | fail failing => exact .fail (failing.append cs')
  | ok a =>
    rw [ended] at decided
    cases decided with
    | pass passed => exact Gen.Follows.after passed (next a) (m names).names

/-- A step that makes no checks may come first. -/
theorem Gen.Follows.idle_bind {m : Gen α} {f : α → Gen β} (first : m.Follows inputs [])
    (next : ∀ a, (f a).Follows inputs cs) : (m >>= f).Follows inputs cs :=
  first.bind next

/-- A node takes the names of its flag and of its value before all else. -/
theorem Gen.follows_names {rest : Name → Name → Gen α}
    (next : ∀ isNull result, (rest isNull result).Follows inputs cs) :
    (do
      let isNull ← Gen.fresh "isNull"
      let result ← Gen.fresh "result"
      rest isNull result).Follows inputs cs := by
  refine (Gen.follows_fresh inputs _).idle_bind fun isNull => ?_
  exact (Gen.follows_fresh inputs _).idle_bind fun result => next isNull result

/-- What comes after the last check of a node cannot fail. -/
theorem Gen.Follows.then_pure {m : Gen α} {f : α → β} (first : m.Follows inputs cs) :
    (do return f (← m)).Follows inputs cs := by
  have whole := first.bind fun a => Gen.follows_pure inputs (f a)
  rwa [List.append_nil] at whole

end Follows

theorem Literal.term?_follows {value : Literal} {type : Ty} {step : Gen Term}
    (found : value.term? type = some step) (inputs : List Input) : step.Follows inputs [] := by
  rcases Literal.term?_cases found with ⟨t, -, rfl⟩ | ⟨t, rfl⟩
  · exact Gen.follows_pure inputs t
  · exact (Gen.follows_request inputs (.dateConstant t)).then_pure

theorem Gen.conversion?_follows {result : Name} {value : Term} {source target : Ty}
    {step : Gen Block} (found : Gen.conversion? result value source target = some step)
    (inputs : List Input) : step.Follows inputs [] := by
  intro names
  obtain ⟨block, ds, made⟩ := Gen.exists_yields_conversion? found names.taken
  have ended : (step names).outcome = .ok block := congrArg Draft.outcome made
  rw [ended]
  exact .pass (List.forall_mem_nil _)

/-- A literal has one check: its value must be one of its type. -/
theorem Literal.generate_follows (s : Setting) (isNull result : Name) (value : Literal)
    (type : Ty) :
    (value.generate s isNull result type).Follows s.inputs [.literal value type] := by
  unfold Literal.generate
  split
  · next null =>
    subst null
    have passes : (Check.literal .null type).Passes s.inputs := Literal.Legal.null
    exact .after (List.forall_mem_singleton.2 passes) (Gen.follows_pure _ _)
  · next present =>
    have legal := Literal.isSome_term?_iff present type
    split
    · next step found =>
      have passes : (Check.literal value type).Passes s.inputs := legal.1 (by rw [found]; rfl)
      exact .after (List.forall_mem_singleton.2 passes)
        (Literal.term?_follows found s.inputs).then_pure
    · next missing =>
      have fails : ¬ (Check.literal value type).Passes s.inputs :=
        mt legal.2 (by rw [missing]; exact Bool.false_ne_true)
      exact Gen.follows_fail (Check.firstFailing_cons fails [])

/-- A field has one check: an input must have it. -/
theorem Setting.generateField_follows (s : Setting) (isNull result : Name) (name : Text)
    (type : Ty) :
    (s.generateField isNull result name type).Follows s.inputs [.field name type] := by
  have declared := s.isSome_fieldTerm?_iff name type
  unfold Setting.generateField
  split
  · next term found =>
    have passes : (Check.field name type).Passes s.inputs := declared.1 (by rw [found]; rfl)
    exact .after (List.forall_mem_singleton.2 passes) (Gen.follows_pure _ _)
  · next missing =>
    have fails : ¬ (Check.field name type).Passes s.inputs :=
      mt declared.2 (by rw [missing]; exact Bool.false_ne_true)
    exact Gen.follows_fail (Check.firstFailing_cons fails [])

/-- Generation of an expression is decided by its checks. -/
theorem Expr.generate_follows (s : Setting) (e : Expr) :
    (e.generate s).Follows s.inputs e.checks := by
  induction e with
  | naming inner label type ih => exact ih
  | literal value type =>
    exact Gen.follows_names fun isNull result =>
      (value.generate_follows s isNull result type).then_pure
  | field name type =>
    exact Gen.follows_names fun isNull result =>
      (s.generateField_follows isNull result name type).then_pure
  | binary op left right type ihl ihr =>
    exact Gen.follows_names fun isNull result => ihl.bind fun l => ihr.then_pure
  | unary op operand type ih | isNull operand type ih | isNotNull operand type ih =>
    exact Gen.follows_names fun isNull result => ih.then_pure
  | cast operand type ih =>
    refine Gen.follows_names fun isNull result => ?_
    rcases Check.illegalCast?_eq s.inputs operand type with
      ⟨refused, fails⟩ | ⟨refused, passes, fails⟩ | ⟨allowed, passes, passes'⟩
    · rw [refused]
      exact Gen.follows_fail (Check.firstFailing_cons fails _)
    · rw [refused]
      exact Gen.follows_fail (c := .fromDate operand type)
        (.after (List.forall_mem_singleton.2 passes) (Check.firstFailing_cons fails _))
    · rw [allowed]
      have dates : ∀ c ∈ [Check.toDate operand type, .fromDate operand type], c.Passes s.inputs :=
        List.forall_mem_cons.2 ⟨passes, List.forall_mem_singleton.2 passes'⟩
      -- Only now is the operand generated, and what is left of the rules is checked after it.
      refine .after dates (ih.bind fun c => ?_)
      have castable := Gen.isSome_conversion?_iff result (.name c.result) operand.type type
      split
      · next step found =>
        have passes : (Check.conversion operand type).Passes s.inputs :=
          castable.1 (by rw [found]; rfl)
        exact .after (List.forall_mem_singleton.2 passes)
          (Gen.conversion?_follows found s.inputs).then_pure
      · next missing =>
        have fails : ¬ (Check.conversion operand type).Passes s.inputs :=
          mt castable.2 (by rw [missing]; exact Bool.false_ne_true)
        exact Gen.follows_fail (Check.firstFailing_cons fails [])
  | substring str start stop type iha ihb ihc =>
    exact Gen.follows_names fun isNull result => iha.bind fun a => ihb.bind fun b => ihc.then_pure

/-! ## Sessions -/

/-- What checks decide succeeds if and only if all of them pass. -/
theorem Check.Decides.accepts_iff {α : Type} {inputs : List Input} {cs : List Check}
    {outcome : Except GenerationError α} (decided : Check.Decides inputs cs outcome) :
    (∃ a, outcome = .ok a) ↔ ∀ c ∈ cs, c.Passes inputs := by
  cases decided with
  | @pass a passed => exact ⟨fun _ => passed, fun _ => ⟨a, rfl⟩⟩
  | fail failing =>
    obtain ⟨before, after, rfl, -, failed⟩ := failing
    constructor
    · rintro ⟨a, same⟩
      cases same
    · intro passed
      exact absurd (passed _ (List.mem_append_right _ List.mem_cons_self)) failed

/-- Only one check of a list is the first to fail. -/
theorem Check.FirstFailing.unique {inputs : List Input} {cs : List Check} {c d : Check}
    (first : Check.FirstFailing inputs cs c) (second : Check.FirstFailing inputs cs d) :
    c = d := by
  obtain ⟨before, after, rfl, passed, failed⟩ := first
  obtain ⟨before', after', same, passed', failed'⟩ := second
  induction before generalizing before' with
  | nil =>
    cases before' with
    | nil => exact (List.cons.inj same).1
    | cons head before' =>
      rw [(List.cons.inj same).1] at failed
      exact absurd (passed' head List.mem_cons_self) failed
  | cons head before ih =>
    cases before' with
    | nil =>
      rw [← (List.cons.inj same).1] at failed'
      exact absurd (passed head List.mem_cons_self) failed'
    | cons head' before' =>
      exact ih (fun d listed => passed d (List.mem_cons_of_mem _ listed)) before'
        (List.cons.inj same).2
        (fun d listed => passed' d (List.mem_cons_of_mem _ listed))

/-- It fails with an error if and only if that is the error of the first check that fails. -/
theorem Check.Decides.refuses_iff {α : Type} {inputs : List Input} {cs : List Check}
    {outcome : Except GenerationError α} (decided : Check.Decides inputs cs outcome)
    (err : GenerationError) :
    outcome = .error err ↔ ∃ c, Check.FirstFailing inputs cs c ∧ err = c.error inputs := by
  cases decided with
  | pass passed =>
    constructor
    · intro same
      cases same
    · rintro ⟨c, ⟨before, after, rfl, -, failed⟩, -⟩
      exact absurd (passed c (List.mem_append_right _ List.mem_cons_self)) failed
  | @fail c failing =>
    constructor
    · intro same
      cases same
      exact ⟨c, failing, rfl⟩
    · rintro ⟨d, failing', rfl⟩
      rw [failing.unique failing']

/-- A session whose logger does not fail answers every expression. It accepts an expression
exactly if all nodes of it are legal, and else refuses it with the error of the first check
that fails, which is about the node that is checked. A field that an input declares is always
stored somewhere. -/
theorem Session.accepts_exactly_legal {s : Session}
    (quiet : ∀ message, s.options.sink ≠ .logger (some message)) (e : Expr) :
    (∃ answer, (s.compile e).1.outcome = .ok answer ∧
      ((∃ g, answer = .ok g) ↔ ∀ node ∈ e.nodes, node.Legal s.inputs) ∧
      ∀ err, answer = .error err ↔ ∃ c, Check.FirstFailing s.inputs e.checks c ∧
        err = c.error s.inputs) ∧
    (∀ c ∈ e.checks, c.node ∈ e.nodes ∧ (c.error s.inputs).expression? = some c.node) ∧
    ∀ input ∈ s.inputs, ∀ name ∈ input.type.names, ∃ a, input.type.accessor? name = some a := by
  have decided := e.generate_follows s.setting s.names
  refine ⟨⟨(e.generate s.setting s.names).outcome, ?_, ?_, decided.refuses_iff⟩, ?_, ?_⟩
  · rw [Session.outcome_compile, Sink.reply_of_quiet quiet]
    rfl
  · rw [decided.accepts_iff]
    exact e.checks_pass_iff s.inputs
  · intro c made
    exact ⟨Expr.node_mem_of_mem_checks made, c.expression?_error s.inputs⟩
  · intro input _ name declared
    exact Composite.exists_accessor? (Composite.hasField_iff.2 declared)

/-- A cast to a date of a field that no input has. -/
def Expr.strayDate : Expr := .cast (.field "stray" (.array .int)) (.basic .date)

/-- A cast to an array of a field that no input has. -/
def Expr.strayArray : Expr := .cast (.field "stray" .string) (.array .int)

section Host

open scoped Offsets

/-- The rules for dates are checked before the operand of a cast, the others after it. -/
theorem Session.accepts_exactly_legal_stray :
    ∃ new, Session.create [⟨"row", .plain .row [.mk "d" .string]⟩] (.members []) = .ok new ∧
      (new.compile Expr.strayDate).1.outcome =
        .ok (.error (.illegalCast Expr.strayDate "Only Long and String can be casted to Date.")) ∧
      (new.compile Expr.strayArray).1.outcome =
        .ok (.error (.unresolvedField (.field "stray" .string) "stray" ["row: row(d)"])) := by
  obtain ⟨new, created, inputs, quiet⟩ : ∃ new,
      Session.create [⟨"row", .plain .row [.mk "d" .string]⟩] (.members []) = .ok new ∧
      new.inputs = [⟨"row", .plain .row [.mk "d" .string]⟩] ∧
      ∀ message, new.options.sink ≠ .logger (some message) :=
    ⟨_, rfl, rfl, fun _ same => by cases same⟩
  have undeclared (type : Ty) : ¬ (Check.field "stray" type).Passes new.inputs := by
    rw [inputs]
    rintro ⟨input, listed, declared⟩
    cases List.mem_singleton.1 listed
    exact absurd declared (by decide)
  refine ⟨new, created, ?_, ?_⟩
  · obtain ⟨⟨answer, answered, -, refused⟩, -⟩ :=
      Session.accepts_exactly_legal quiet Expr.strayDate
    have fails : ¬ (Check.toDate (.field "stray" (.array .int)) (.basic .date)).Passes
        new.inputs := by
      intro passes
      rcases passes rfl with same | same <;> cases same
    rw [answered, (refused _).2 ⟨_, Check.firstFailing_cons fails _, rfl⟩]
    rfl
  · obtain ⟨⟨answer, answered, -, refused⟩, -⟩ :=
      Session.accepts_exactly_legal quiet Expr.strayArray
    have first : Check.FirstFailing new.inputs Expr.strayArray.checks
        (.field "stray" .string) := by
      refine ⟨[.toDate (.field "stray" .string) (.array .int),
        .fromDate (.field "stray" .string) (.array .int)],
        [.conversion (.field "stray" .string) (.array .int)], rfl, ?_, undeclared .string⟩
      intro c listed
      rw [List.mem_cons, List.mem_singleton] at listed
      rcases listed with rfl | rfl
      · intro date
        cases date
      · intro date
        cases date
    rw [answered, (refused _).2 ⟨_, first, rfl⟩, inputs]
    rfl

end Host

end RowExpr
