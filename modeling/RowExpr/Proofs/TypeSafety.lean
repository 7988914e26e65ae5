import Mathlib.Data.List.Forall2
import RowExpr.Calendar.Offsets
import RowExpr.Proofs.Correctness
import RowExpr.Proofs.Schema.Composite

/-!
Type safety of expressions whose absent values are tracked.

`Expr.Typed` gives the typing rules. A typed expression that has been accepted,
evaluated on records of the declared layout, ends with a value of the kind of its
type, with an absent value, or with a fault about the data: a text that cannot be
read or a division by zero (`Setting.Emits.typed_eval`). No member is ever asked of
a value that does not have it. The proof goes over the derivation of the code, since
acceptance rules out the casts that no value supports.
-/

namespace RowExpr

/-! ## Typing rules -/

def Basic.isNumeric (b : Basic) : Bool := (Ty.basic b).isNumeric

/-- Operators that compute a number from numbers. -/
def BinaryOp.isArithmetic : BinaryOp → Bool
  | .add | .sub | .mul | .div | .rem | .bitAnd | .bitOr | .bitXor => true
  | _ => false

def BinaryOp.isComparison : BinaryOp → Bool
  | .gt | .ge | .lt | .le => true
  | _ => false

def BinaryOp.isEquality : BinaryOp → Bool
  | .eq | .ne => true
  | _ => false

def BinaryOp.isLogical : BinaryOp → Bool
  | .and | .or => true
  | _ => false

/-- The expression is well typed over the inputs and has this basic type. -/
inductive Expr.Typed (inputs : List Input) : Expr → Basic → Prop
  | literal {value b} : Expr.Typed inputs (.literal value (.basic b)) b
  | field {name input b} :
    inputs.find? (·.type.hasField name) = some input → input.type.fieldType? name =
      some (.basic b) →
    Expr.Typed inputs (.field name (.basic b)) b
  | naming {inner label b} : inner.Typed inputs b →
    Expr.Typed inputs (.naming inner label (.basic b)) b
  | arithmetic {op left right l r b} :
    op.isArithmetic = true → left.Typed inputs l → right.Typed inputs r →
    l.isNumeric = true → r.isNumeric = true → b.isNumeric = true →
    Expr.Typed inputs (.binary op left right (.basic b)) b
  | comparison {op left right l r} :
    op.isComparison = true → left.Typed inputs l → right.Typed inputs r →
    l.isNumeric = true → r.isNumeric = true →
    Expr.Typed inputs (.binary op left right .boolean) .boolean
  | equality {op left right l r} :
    op.isEquality = true → left.Typed inputs l → right.Typed inputs r →
    Expr.Typed inputs (.binary op left right .boolean) .boolean
  | logical {op left right} :
    op.isLogical = true → left.Typed inputs .boolean → right.Typed inputs .boolean →
    Expr.Typed inputs (.binary op left right .boolean) .boolean
  | unary {op operand o b} :
    op ≠ .not → operand.Typed inputs o → o.isNumeric = true → b.isNumeric = true →
    Expr.Typed inputs (.unary op operand (.basic b)) b
  | not {operand} : operand.Typed inputs .boolean →
    Expr.Typed inputs (.unary .not operand .boolean) .boolean
  | isNull {operand o} : operand.Typed inputs o →
    Expr.Typed inputs (.isNull operand .boolean) .boolean
  | isNotNull {operand o} : operand.Typed inputs o →
    Expr.Typed inputs (.isNotNull operand .boolean) .boolean
  | cast {operand o b} : operand.Typed inputs o → Expr.Typed inputs (.cast operand (.basic b)) b
  | substring {str start stop x y} :
    str.Typed inputs .string → start.Typed inputs x → stop.Typed inputs y →
    x.isNumeric = true → y.isNumeric = true →
    Expr.Typed inputs (.substring str start stop .string) .string

/-- The type of a typed expression is the one its node carries. -/
theorem Expr.Typed.type_eq {inputs : List Input} {e : Expr} {b : Basic}
    (typed : e.Typed inputs b) : e.type = .basic b := by
  cases typed <;> rfl

/-! ## Kinds -/

section Kinds

variable {v : Value}

theorem Value.kind?_eq_number : v.kind? = some .number ↔ ∃ x, v = .number x := by
  cases v <;> simp [kind?]

theorem Value.kind?_eq_boolean : v.kind? = some .boolean ↔ ∃ b, v = .bool b := by
  cases v <;> simp [kind?]

theorem Value.kind?_eq_text : v.kind? = some .text ↔ ∃ t, v = .text t := by
  cases v <;> simp [kind?]

theorem Value.kind?_eq_date : v.kind? = some .date ↔ ∃ id t, v = .date id t := by
  cases v <;> simp [kind?]

/-- All numeric types have numbers as their values. -/
theorem Basic.kind_of_isNumeric {b : Basic} (numeric : b.isNumeric = true) :
    b.kind = .number := by
  revert numeric
  rcases b with p | _ | _
  · cases p <;> decide
  · decide
  · decide

theorem Value.kind?_narrow (x : Double) (type : Ty) :
    ((Value.number x).narrow type).kind? = some .number := by
  unfold narrow
  split <;> rfl

end Kinds

/-! ## Operators -/

/-- A divisor is handed on as it is, or refused for being zero. -/
theorem Conversion.divisor_typed (y : Double) :
    Ends (fun d => d = .number y) Fault.IsData (Conversion.divisor (.number y)) := by
  unfold Conversion.divisor
  dsimp only
  split
  · trivial
  · rfl

/-- Arithmetic on numbers gives a number, or stops at a zero divisor. -/
theorem BinaryOp.arithmetic_typed {op : BinaryOp} (arithmetic : op.isArithmetic = true)
    (type l r : Ty) (x y : Double) :
    EndsIn .number (op.eval type l r (.number x) (.number y)) := by
  cases op
  case add => exact Value.kind?_narrow _ type
  case sub => exact Value.kind?_narrow _ type
  case mul =>
    unfold BinaryOp.eval
    dsimp only
    split
    · rfl
    · exact Value.kind?_narrow _ type
  case div =>
    unfold BinaryOp.eval
    dsimp only
    split
    · exact (Conversion.divisor_typed y).bind fun _ _ _ => Value.kind?_narrow _ type
    · rfl
  case rem =>
    unfold BinaryOp.eval
    dsimp only
    split
    · exact (Conversion.divisor_typed y).bind fun _ _ _ => Value.kind?_narrow _ type
    · rfl
  case bitAnd => rfl
  case bitOr => rfl
  case bitXor => rfl
  all_goals cases arithmetic

/-- Values of basic types can always be compared. -/
theorem Value.equality_typed {l r : Basic} {a b : Value} (left : a.kind? = some l.kind)
    (right : b.kind? = some r.kind) :
    Ends (fun _ => True) Fault.IsData (Value.equality (.basic l) (.basic r) a b) := by
  unfold Value.equality
  split
  · trivial
  · split
    · next dates =>
      -- Only here a member is asked for, and both sides are dates.
      rw [Bool.and_eq_true, Ty.isBasicNamed, Ty.isBasicNamed, beq_iff_eq, beq_iff_eq] at dates
      obtain ⟨leftDate, rightDate⟩ := dates
      cases leftDate
      cases rightDate
      obtain ⟨id, t, rfl⟩ := Value.kind?_eq_date.1 left
      obtain ⟨id', t', rfl⟩ := Value.kind?_eq_date.1 right
      trivial
    · trivial

/-- An operator whose result is a truth value, on operands of the kinds it asks for. -/
theorem BinaryOp.equality_typed {op : BinaryOp} (equality : op.isEquality = true) (type : Ty)
    {l r : Basic} {a b : Value} (left : a.kind? = some l.kind) (right : b.kind? = some r.kind) :
    EndsIn .boolean (op.eval type (.basic l) (.basic r) a b) := by
  cases op
  case eq => exact (Value.equality_typed left right).bind fun _ _ _ => rfl
  case ne => exact (Value.equality_typed left right).bind fun _ _ _ => rfl
  all_goals cases equality

/-- A comparison gives a truth value. -/
theorem BinaryOp.comparison_typed {op : BinaryOp} (comparison : op.isComparison = true)
    (type l r : Ty) (a b : Value) : EndsIn .boolean (op.eval type l r a b) := by
  cases op
  case gt => rfl
  case ge => rfl
  case lt => rfl
  case le => rfl
  all_goals cases comparison

/-- A connective of truth values gives one. -/
theorem BinaryOp.logical_typed {op : BinaryOp} (logical : op.isLogical = true) (type l r : Ty)
    (a b : Bool) : EndsIn .boolean (op.eval type l r (.bool a) (.bool b)) := by
  cases op
  case and => cases a <;> rfl
  case or => cases a <;> rfl
  all_goals cases logical

theorem UnaryOp.number_typed {op : UnaryOp} (number : op ≠ .not) (type : Ty) (x : Double) :
    (op.eval type (.number x)).kind? = some .number := by
  cases op with
  | not => exact absurd rfl number
  | negate => exact Value.kind?_narrow _ type
  | complement => rfl
  | abs => exact Value.kind?_narrow _ type

/-! ## Casts -/

/-- A number is coerced into a value of the target. -/
theorem Value.coerce_number_typed {source target : Primitive} (other : source ≠ target)
    (notChar : source ≠ .char) (notBoolean : target ≠ .boolean) (x : Double) :
    EndsIn (Basic.primitive target).kind ((Value.number x).coerce source target) := by
  simp only [Value.coerce, if_neg other, if_neg notChar]
  cases target
  case boolean => exact absurd rfl notBoolean
  all_goals rfl

/-- A cast between primitive types that has a term keeps to the kinds. -/
theorem Value.coerce_typed {source target : Primitive} {t converted : Term}
    (legal : t.coerce? source target = some converted) {v : Value}
    (operand : v.kind? = some (Basic.primitive source).kind) :
    EndsIn (Basic.primitive target).kind (v.coerce source target) := by
  by_cases same : source = target
  · subst same
    simp only [Value.coerce, if_true]
    exact operand
  · have present : ¬ (source = .boolean ∨ target = .boolean) := by
      intro boolean
      rw [Term.coerce?, if_neg same, if_pos boolean] at legal
      cases legal
    by_cases char : source = .char
    · subst char
      obtain ⟨u, rfl⟩ := Value.kind?_eq_text.1 operand
      rw [Value.coerce_char _ fun equal => same equal.symm]
      have coded : EndsIn .number (Value.text u).charCode := by
        cases u <;> rfl
      refine coded.bind fun code _ number => ?_
      obtain ⟨x, rfl⟩ := Value.kind?_eq_number.1 number
      by_cases double : target = .double
      · subst double
        rfl
      · exact Value.coerce_number_typed (fun equal => double equal.symm) (by decide)
          (fun boolean => present (.inr boolean)) x
    · have number : v.kind? = some .number := by
        rw [operand]
        cases source
        case boolean => exact absurd (.inl rfl) present
        case char => exact absurd rfl char
        all_goals rfl
      obtain ⟨x, rfl⟩ := Value.kind?_eq_number.1 number
      exact Value.coerce_number_typed same char (fun boolean => present (.inr boolean)) x

/-- A cast that has a conversion keeps to the kinds: a text may be unreadable, but no
value lacks a member that the cast asks for. -/
theorem Value.cast_typed [TimeZones] {result : Name} {t : Term} {o b : Basic} {step : Gen Block}
    (legal : Gen.conversion? result t (.basic o) (.basic b) = some step) (zone : Text) {v : Value}
    (operand : v.kind? = some o.kind) : EndsIn b.kind (v.cast zone (.basic o) (.basic b)) := by
  rcases b with q | _ | _
  · rcases o with p | _ | _
    · obtain ⟨converted, legal, -⟩ := Option.map_eq_some_iff.1 legal
      exact Value.coerce_typed legal operand
    · obtain ⟨u, rfl⟩ := Value.kind?_eq_text.1 operand
      exact Conversion.ofText_typed q u
    · obtain ⟨id, u, rfl⟩ := Value.kind?_eq_date.1 operand
      cases q
      case long => rfl
      all_goals cases legal
  · rcases o with p | _ | _
    · rfl
    · rfl
    · rfl
  · rcases o with p | _ | _
    · cases p
      case long => rfl
      all_goals cases legal
    · obtain ⟨u, rfl⟩ := Value.kind?_eq_text.1 operand
      exact Value.parseDate_typed zone u
    · cases legal

/-! ## Leaves -/

/-- A literal for which there is code is a value of its type. -/
theorem Literal.eval_typed {value : Literal} {type : Ty} {step : Gen Term}
    (found : value.term? type = some step) :
    ∃ b, type = .basic b ∧ (value.eval type).kind? = some b.kind := by
  unfold Literal.term? at found
  split at found
  · exact ⟨.int, rfl, rfl⟩
  · exact ⟨.long, rfl, rfl⟩
  · exact ⟨.double, rfl, rfl⟩
  · exact ⟨.float, rfl, rfl⟩
  · exact ⟨.string, rfl, rfl⟩
  · exact ⟨.boolean, rfl, rfl⟩
  · exact ⟨.date, rfl, rfl⟩
  · cases found

/-- The record belongs to the composite of the input, which was built. -/
def Input.Accepts (input : Input) (record : Value) : Prop :=
  input.type.Built ∧ input.type.Stores record

/-- A field of a record that belongs to its input is read, and is of the type declared for it. -/
theorem Input.read_typed {inputs : List Input} {records : List Value} {input : Input}
    {name : Text} {a : Accessor} {type : Ty}
    (belong : List.Forall₂ Input.Accepts inputs records)
    (first : inputs.find? (·.type.hasField name) = some input)
    (stored : input.type.accessor? name = some a)
    (declared : input.type.fieldType? name = some type) :
    ∃ v, Input.read name inputs records = .ok v ∧ v.Fits type := by
  induction belong with
  | nil => cases first
  | @cons head record inputs records accepts _ ih =>
    rw [List.find?_cons] at first
    cases has : head.type.hasField name with
    | true =>
      rw [has] at first
      cases first
      rw [Input.read, stored]
      exact accepts.1.read_fits accepts.2 stored declared
    | false =>
      rw [has] at first
      rw [Input.read, Composite.accessor?_eq_none has]
      exact ih first

/-! ## Expressions -/

/-- A present outcome has this kind. -/
def Outcome.HasKind (kind : Kind) (o : Outcome) : Prop :=
  o.isNull = false → o.value.kind? = some kind

/-- Under a guard, a value is absent or of its kind. -/
theorem Environment.guarded_typed {env : Environment} {absent : Bool} {type : Ty} {kind : Kind}
    {value : Except Fault Value} (ends : absent = false → EndsIn kind value) :
    Ends (Outcome.HasKind kind) Fault.IsData (env.guarded absent type value) := by
  cases absent with
  | true => exact fun present => nomatch present
  | false => exact (ends rfl).bind fun v _ has _ => has

/-- An expression with code and with types that fit evaluates to a value of its type, or stops at
a fault of the data. By induction on the derivation, node by node. -/
theorem Setting.Emits.typed_eval [TimeZones] {s : Setting} {env : Environment}
    (describes : s.Describes env) (checked : env.nullCheck = true)
    (belong : List.Forall₂ Input.Accepts env.inputs env.records) {e : Expr} {n m : Nat}
    {g : Generated} {ds : List Declaration} (emits : s.Emits e n g m ds) {b : Basic}
    (typed : e.Typed env.inputs b) : Ends (Outcome.HasKind b.kind) Fault.IsData (e.eval env) := by
  induction emits generalizing b with
  | naming _ ih =>
    cases typed with
    | naming typed => exact ih typed
  | nullLiteral =>
    intro present
    rw [checked] at present
    cases present
  | literal _ found _ =>
    cases typed with
    | literal =>
      obtain ⟨b', same, kind⟩ := Literal.eval_typed found
      cases same
      exact fun _ => kind
  | @field name type _ _ found =>
    cases typed with
    | @field _ input _ first declared =>
      unfold Setting.fieldTerm? at found
      rw [describes.inputs, first] at found
      obtain ⟨a, stored, -⟩ := Option.map_eq_some_iff.1 found
      obtain ⟨v, read, fits⟩ := Input.read_typed belong first stored declared
      rw [Expr.eval, read]
      intro present
      have notAbsent : v.isAbsent = false := by
        simpa [checked] using present
      exact fits.resolve_left fun absent => Bool.noConfusion (absent.symm.trans notAbsent)
  | @binary op left right type _ _ _ _ _ _ _ _ _ ihl ihr =>
    -- One rule for each group of operators; the operands are typed by their own rules.
    cases typed with
    | arithmetic arithmetic typedLeft typedRight numericLeft numericRight numeric =>
      refine (ihl typedLeft).bind fun l _ leftKind =>
        (ihr typedRight).bind fun r _ rightKind => ?_
      refine Environment.guarded_typed fun present => ?_
      obtain ⟨leftPresent, rightPresent⟩ := Bool.or_eq_false_iff.1 present
      have leftNumber := leftKind leftPresent
      have rightNumber := rightKind rightPresent
      rw [Basic.kind_of_isNumeric numericLeft] at leftNumber
      rw [Basic.kind_of_isNumeric numericRight] at rightNumber
      obtain ⟨x, leftValue⟩ := Value.kind?_eq_number.1 leftNumber
      obtain ⟨y, rightValue⟩ := Value.kind?_eq_number.1 rightNumber
      rw [Basic.kind_of_isNumeric numeric, leftValue, rightValue]
      exact BinaryOp.arithmetic_typed arithmetic _ _ _ x y
    | comparison comparison typedLeft typedRight _ _ =>
      refine (ihl typedLeft).bind fun l _ _ => (ihr typedRight).bind fun r _ _ => ?_
      exact Environment.guarded_typed fun _ => BinaryOp.comparison_typed comparison _ _ _ _ _
    | equality equality typedLeft typedRight =>
      refine (ihl typedLeft).bind fun l _ leftKind =>
        (ihr typedRight).bind fun r _ rightKind => ?_
      refine Environment.guarded_typed fun present => ?_
      obtain ⟨leftPresent, rightPresent⟩ := Bool.or_eq_false_iff.1 present
      rw [typedLeft.type_eq, typedRight.type_eq]
      exact BinaryOp.equality_typed equality _ (leftKind leftPresent) (rightKind rightPresent)
    | logical logical typedLeft typedRight =>
      refine (ihl typedLeft).bind fun l _ leftKind =>
        (ihr typedRight).bind fun r _ rightKind => ?_
      refine Environment.guarded_typed fun present => ?_
      obtain ⟨leftPresent, rightPresent⟩ := Bool.or_eq_false_iff.1 present
      obtain ⟨x, leftValue⟩ := Value.kind?_eq_boolean.1 (leftKind leftPresent)
      obtain ⟨y, rightValue⟩ := Value.kind?_eq_boolean.1 (rightKind rightPresent)
      rw [leftValue, rightValue]
      exact BinaryOp.logical_typed logical _ _ _ x y
  | unary _ ih =>
    cases typed with
    | unary number typed numericOperand numeric =>
      refine (ih typed).bind fun c _ kind => Environment.guarded_typed fun present => ?_
      have operandNumber := kind present
      rw [Basic.kind_of_isNumeric numericOperand] at operandNumber
      obtain ⟨x, value⟩ := Value.kind?_eq_number.1 operandNumber
      rw [Basic.kind_of_isNumeric numeric, value]
      exact UnaryOp.number_typed number _ x
    | not typed => exact (ih typed).bind fun c _ _ => Environment.guarded_typed fun _ => rfl
  | isNull _ ih =>
    cases typed with
    | isNull typed => exact (ih typed).bind fun c _ _ _ => rfl
  | isNotNull _ ih =>
    cases typed with
    | isNotNull typed => exact (ih typed).bind fun c _ _ _ => rfl
  | cast _ _ found _ ih =>
    cases typed with
    | cast typed =>
      rw [typed.type_eq] at found
      refine (ih typed).bind fun c _ kind => Environment.guarded_typed fun present => ?_
      rw [typed.type_eq]
      exact Value.cast_typed found env.zone (kind present)
  | substring _ _ _ iha ihb ihc =>
    cases typed with
    | substring typedStr typedStart typedStop _ _ =>
      refine (iha typedStr).bind fun a _ strKind => (ihb typedStart).bind fun b _ _ =>
        (ihc typedStop).bind fun c _ _ => ?_
      refine Environment.guarded_typed fun present => ?_
      have strPresent := (Bool.or_eq_false_iff.1 (Bool.or_eq_false_iff.1 present).1).1
      obtain ⟨t, value⟩ := Value.kind?_eq_text.1 (strKind strPresent)
      rw [value]
      rfl

/-- Code of a typed expression, with absent values tracked and on records of the declared
layout, ends in one of two ways. It finishes with its flag set or with a result of the kind
of the type, or it stops with a fault about the data. -/
theorem Session.typed_code_is_safe [TimeZones] {inputs : List Input} {given : GivenOptions}
    {new s s' t : Session} {e : Expr} {b : Basic} {g : Generated}
    (created : Session.create inputs given = .ok new) (checked : new.options.nullCheck = true)
    (reached : new.Leads s) (accepted : s.draft (e.generate s.setting) = (.ok g, s'))
    (later : s'.Leads t) (typed : e.Typed inputs b) (codes : List Generated)
    (returns : Returned) :
    ∃ ev : Evaluator, (t.unit codes returns).factory.load = .ok (some ev) ∧
      ∀ records, List.Forall₂ Input.Accepts inputs records →
        ∀ σ : Scope, (ev.entry records).SameGlobals σ →
          (∃ σ' absent v, g.code.run σ = .ok σ' ∧ σ'.get g.isNull = .ok (.bool absent) ∧
            σ'.get g.result = .ok v ∧ (absent = false → v.kind? = some b.kind)) ∨
          ∃ f, g.code.run σ = .error f ∧ f.IsData := by
  have sound : s.Sound := (Session.sound_createWith created).grows reached.grows
  have defaults := Session.eval_defaults created reached.grows
  have sameInputs : s.inputs = inputs :=
    reached.grows.inputs.trans (Session.of_createWith created).1
  have tracked : s.options.nullCheck = true := by
    rw [reached.grows.options]
    exact checked
  obtain ⟨⟨n, m, ds, emits⟩, ev, loaded, agrees⟩ :=
    sound.code_agrees defaults accepted later.grows codes returns
  refine ⟨ev, loaded, fun records belong σ same => ?_⟩
  rw [← sameInputs] at belong typed
  have safe := emits.typed_eval (Session.describes defaults records) tracked belong typed
  have agree := agrees records σ same
  generalize e.eval (s.environment Ty.defaultValue records) = outcome at safe agree
  generalize g.code.run σ = ended at agree
  cases agree with
  | fault f => exact .inr ⟨f, rfl, safe⟩
  | finished holds => exact .inl ⟨_, _, _, rfl, holds.flag tracked, holds.value, safe⟩

section Host

open scoped Offsets

/-- A date compared with a date that is read from a text, on a row that has both. -/
theorem Session.typed_code_is_safe_datesOfRow :
    ∃ (new s : Session) (g : Generated) (ev : Evaluator),
      Session.create [⟨"row", .plain .row [.mk "d" (.basic .date), .mk "t" .string]⟩]
        (.members []) = .ok new ∧
      new.options.nullCheck = true ∧
      new.draft
        ((Expr.binary .eq (.field "d" (.basic .date)) (.cast (.field "t" .string) (.basic .date))
        .boolean).generate new.setting) = (.ok g, s) ∧
      (s.unit [g] (.term (.name g.result))).factory.load = .ok (some ev) ∧
      ((∃ σ' absent v,
        g.code.run (ev.entry [.array (.given 0) [.date (.given 1) none, .text "x"]]) = .ok σ' ∧
          σ'.get g.isNull = .ok (.bool absent) ∧ σ'.get g.result = .ok v ∧
          (absent = false → v.kind? = some .boolean)) ∨
        ∃ f, g.code.run (ev.entry [.array (.given 0) [.date (.given 1) none, .text "x"]]) =
          .error f ∧ f.IsData) := by
  have created : Session.create [⟨"row", .plain .row [.mk "d" (.basic .date), .mk "t" .string]⟩]
    (.members []) =
    .ok _ := rfl
  have made : Composite.plain? .row [.mk "d" (.basic .date), .mk "t" .string] = .ok _ := rfl
  have accepts : Input.Accepts ⟨"row", .plain .row [.mk "d" (.basic .date), .mk "t" .string]⟩
      (.array (.given 0) [.date (.given 1) none, .text "x"]) := by
    refine ⟨.plain made, fun i field listed => ?_⟩
    match i, listed with
    | 0, listed =>
      cases listed
      exact ⟨_, rfl, .inr rfl⟩
    | 1, listed =>
      cases listed
      exact ⟨_, rfl, .inr rfl⟩
    | _ + 2, listed => cases listed
  have typed : Expr.Typed [⟨"row", .plain .row [.mk "d" (.basic .date), .mk "t" .string]⟩]
      (.binary .eq (.field "d" (.basic .date)) (.cast (.field "t" .string) (.basic .date))
        .boolean) .boolean :=
    .equality rfl (.field rfl rfl) (.cast (.field rfl rfl))
  obtain ⟨ev, loaded, safe⟩ := Session.typed_code_is_safe created rfl .refl rfl .refl typed _ _
  exact ⟨_, _, _, ev, created, rfl, rfl, loaded,
    safe _ (.cons accepts .nil) _ ⟨rfl, fun _ _ => rfl⟩⟩

end Host

end RowExpr
