import RowExpr.Expr.Evaluation

/-!
How evaluation can end. `Ends` states a postcondition of a computation together
with the faults it may stop with. The operators and casts stop with faults of the
run time only and never miss a name. What they give is a new value of a known kind,
apart from a few that hand an operand on (`BinaryOp.eval_ends`, `Value.cast_ends`).
-/

namespace RowExpr

/-- The computation gives a value that satisfies `post`, or stops with a fault that is
allowed. -/
def Ends {α : Type} (post : α → Prop) (allowed : Fault → Prop) : Except Fault α → Prop
  | .ok a => post a
  | .error f => allowed f

section Ends

variable {α β : Type} {p : α → Prop} {q : β → Prop} {allowed : Fault → Prop}

/-- What computations in a row ensure, and how they can stop. -/
theorem Ends.bind {m : Except Fault α} {f : α → Except Fault β} (first : Ends p allowed m)
    (next : ∀ a, m = .ok a → p a → Ends q allowed (f a)) :
    Ends q allowed (do let a ← m; f a) := by
  cases m with
  | error fault => exact first
  | ok a => exact next a rfl first

/-- A postcondition can be weakened, and more faults allowed. -/
theorem Ends.mono {p' : α → Prop} {allowed' : Fault → Prop} {m : Except Fault α}
    (ends : Ends p allowed m) (weaken : ∀ a, p a → p' a) (allow : ∀ f, allowed f → allowed' f) :
    Ends p' allowed' m := by
  cases m with
  | error fault => exact allow fault ends
  | ok a => exact weaken a ends

theorem Ends.self {m : Except Fault α} (ends : Ends p allowed m) :
    Ends (fun a => m = .ok a) allowed m := by
  cases m with
  | error fault => exact ends
  | ok a => rfl

end Ends

/-- A fault of the run time: anything but a name that nothing is bound to. -/
def Fault.IsRuntime (f : Fault) : Prop := ∀ name, f ≠ .unbound name

theorem Fault.isRuntime_unparseable (given : Value) (target : Text) :
    (Fault.unparseable given target).IsRuntime :=
  fun _ => Fault.noConfusion

theorem Fault.isRuntime_wrongKind : Fault.wrongKind.IsRuntime := fun _ => Fault.noConfusion

theorem Fault.isRuntime_divisionByZero : Fault.divisionByZero.IsRuntime :=
  fun _ => Fault.noConfusion

/-- A fault about the data: a value that cannot be converted, or an arithmetic error. -/
def Fault.IsData : Fault → Prop
  | .unparseable _ _ => True
  | .arithmetic _ => True
  | .wrongKind => False
  | .unbound _ => False

/-- Faults of the data are among those that a run can stop with. -/
theorem Fault.IsData.isRuntime {f : Fault} (data : f.IsData) : f.IsRuntime := by
  rintro name rfl
  exact data

/-- The computation does not stop at a name that nothing is bound to. -/
abbrev EndsInRuntime {α : Type} (m : Except Fault α) : Prop :=
  Ends (fun _ => True) Fault.IsRuntime m

theorem Ends.inRuntime {α : Type} {p : α → Prop} {m : Except Fault α}
    (ends : Ends p Fault.IsRuntime m) : EndsInRuntime m :=
  ends.mono (fun _ _ => trivial) fun _ runtime => runtime

/-! ## Kinds of values -/

/-- The kinds of values that the basic types have. -/
inductive Kind where
  | number | boolean | text | date
deriving DecidableEq, Repr

def Basic.kind : Basic → Kind
  | .primitive .boolean => .boolean
  | .primitive .char => .text
  | .primitive _ => .number
  | .string => .text
  | .date => .date

/-- The kind of a value, `none` if no basic type has such values. -/
def Value.kind? : Value → Option Kind
  | .number _ => some .number
  | .bool _ => some .boolean
  | .text _ => some .text
  | .date _ _ => some .date
  | _ => none

/-- The computation gives a value of this kind or stops with a fault about the data. -/
abbrev EndsIn (kind : Kind) (m : Except Fault Value) : Prop :=
  Ends (fun v => v.kind? = some kind) Fault.IsData m

/-- The computation gives a value that has a kind, and its faults are those of the run
time. -/
abbrev EndsKinded (m : Except Fault Value) : Prop :=
  Ends (fun v => v.kind?.isSome = true) Fault.IsRuntime m

/-- The computation gives a value that has a kind or is one of the given ones, and its
faults are those of the run time. -/
abbrev EndsKindedOr (given : Value → Prop) (m : Except Fault Value) : Prop :=
  Ends (fun v => v.kind?.isSome = true ∨ given v) Fault.IsRuntime m

theorem EndsIn.kinded {kind : Kind} {m : Except Fault Value} (ends : EndsIn kind m) :
    EndsKinded m :=
  ends.mono (fun _ known => Option.isSome_of_mem known) fun _ data => data.isRuntime

theorem EndsKinded.or {given : Value → Prop} {m : Except Fault Value} (ends : EndsKinded m) :
    EndsKindedOr given m :=
  ends.mono (fun _ known => .inl known) fun _ runtime => runtime

theorem Value.isSome_kind?_narrow {v : Value} (known : v.kind?.isSome = true) (type : Ty) :
    (v.narrow type).kind?.isSome = true := by
  unfold narrow
  split
  · rfl
  · rfl
  · rfl
  · exact known

/-- A sum is a number or a text, whatever is added. -/
theorem Value.isSome_kind?_add (a b : Value) : (a.add b).kind?.isSome = true := by
  unfold Value.add
  split
  · rfl
  · rfl

/-! ## Members -/

/-- Calling a method stops a run at most in the ways in which runs stop. -/
theorem Value.invoke_ends (v : Value) (method : Text) : EndsInRuntime (v.invoke method) := by
  unfold Value.invoke
  split
  · split
    · trivial
    · exact Fault.isRuntime_wrongKind
  · split
    · trivial
    · exact Fault.isRuntime_wrongKind
  · exact Fault.isRuntime_wrongKind

/-- The methods that evaluation calls on an operand, whatever the operand is. -/
def Value.calledMethods : List Text := ["getTime", "substring", "charCodeAt"]

/-- A method that evaluation calls on a value gives this one. -/
def Value.Answers (v w : Value) : Prop := ∃ method ∈ calledMethods, v.invoke method = .ok w

/-- A method that evaluation calls gives what the operand answers, which may be anything. -/
theorem Value.called_ends (v : Value) {method : Text} (called : method ∈ calledMethods) :
    EndsKindedOr v.Answers (v.invoke method) :=
  (v.invoke_ends method).self.mono (fun _ given => .inr ⟨method, called, given⟩)
    fun _ runtime => runtime

theorem Value.index_ends (v : Value) (i : Nat) : EndsInRuntime (v.index i) := by
  unfold Value.index
  split
  · exact Fault.isRuntime_wrongKind
  · trivial

theorem Value.member_ends (v : Value) (field : Text) : EndsInRuntime (v.member field) := by
  unfold Value.member
  split
  · exact Fault.isRuntime_wrongKind
  · exact Fault.isRuntime_wrongKind
  · trivial
  · split
    · split <;> trivial
    · trivial

theorem Accessor.read_ends (a : Accessor) (record : Value) : EndsInRuntime (a.read record) := by
  cases a with
  | index i => exact record.index_ends i
  | method name => exact record.invoke_ends name
  | member name => exact record.member_ends name

/-! ## Operators -/

theorem Value.equality_ends (leftType rightType : Ty) (a b : Value) :
    EndsInRuntime (Value.equality leftType rightType a b) := by
  unfold Value.equality
  split
  · trivial
  · split
    · refine (a.invoke_ends "getTime").bind fun s _ _ => ?_
      exact (b.invoke_ends "getTime").bind fun t _ _ => trivial
    · trivial

theorem Conversion.divisor_ends (v : Value) : EndsInRuntime (Conversion.divisor v) := by
  unfold Conversion.divisor
  split
  · split
    · exact Fault.isRuntime_divisionByZero
    · trivial
  · trivial

/-- An operator makes a new value or, if it is a logical one, hands on an operand. -/
theorem BinaryOp.eval_ends (op : BinaryOp) (type leftType rightType : Ty) (a b : Value) :
    EndsKindedOr (fun v => v = a ∨ v = b) (op.eval type leftType rightType a b) := by
  have number (x : Double) : ((Value.number x).narrow type).kind?.isSome = true :=
    Value.isSome_kind?_narrow rfl type
  cases op
  case and =>
    unfold BinaryOp.eval
    dsimp only
    split
    · exact Or.inr (.inr rfl)
    · exact Or.inr (.inl rfl)
  case or =>
    unfold BinaryOp.eval
    dsimp only
    split
    · exact Or.inr (.inl rfl)
    · exact Or.inr (.inr rfl)
  case eq => exact (Value.equality_ends leftType rightType a b).bind fun _ _ _ => Or.inl rfl
  case ne => exact (Value.equality_ends leftType rightType a b).bind fun _ _ _ => Or.inl rfl
  case add => exact Or.inl (Value.isSome_kind?_narrow (a.isSome_kind?_add b) type)
  case sub => exact Or.inl (number _)
  case mul =>
    unfold BinaryOp.eval
    dsimp only
    split
    · exact Or.inl rfl
    · exact Or.inl (number _)
  case div =>
    unfold BinaryOp.eval
    dsimp only
    split
    · exact (Conversion.divisor_ends b).bind fun _ _ _ => Or.inl (number _)
    · exact Or.inl rfl
  case rem =>
    unfold BinaryOp.eval
    dsimp only
    split
    · exact (Conversion.divisor_ends b).bind fun _ _ _ => Or.inl (number _)
    · exact Or.inl rfl
  all_goals exact Or.inl rfl

/-- A unary operation gives a value of a basic type, whatever the operand is. -/
theorem UnaryOp.isSome_kind?_eval (op : UnaryOp) (type : Ty) (v : Value) :
    (op.eval type v).kind?.isSome = true := by
  cases op with
  | not => rfl
  | negate => exact Value.isSome_kind?_narrow rfl type
  | complement => rfl
  | abs => exact Value.isSome_kind?_narrow rfl type

/-! ## Casts -/

/-- The code of a character is a number, or what a record answers in its place. -/
theorem Value.charCode_ends (v : Value) : EndsKindedOr v.Answers v.charCode := by
  unfold Value.charCode
  split
  · exact Or.inl rfl
  · exact Or.inl rfl
  · exact v.called_ends (by decide)

/-- A coercion makes a new value, hands the old one on, or asks it for the code of a character. -/
theorem Value.coerce_ends (source target : Primitive) (v : Value) :
    EndsKindedOr (fun w => w = v ∨ v.Answers w) (v.coerce source target) := by
  unfold Value.coerce
  split
  · exact Or.inr (.inl rfl)
  · cases target
    case double =>
      dsimp only
      split
      · exact v.charCode_ends.bind fun _ _ origin => origin.imp_right .inr
      · exact Or.inr (.inl rfl)
    case boolean =>
      dsimp only
      split
      · exact v.charCode_ends.bind fun _ _ _ => Fault.isRuntime_wrongKind
      · exact Fault.isRuntime_wrongKind
    all_goals
      dsimp only
      split
      · exact v.charCode_ends.bind fun _ _ _ => Or.inl rfl
      · exact Or.inl rfl

/-- Milliseconds since the epoch are read as a date. -/
theorem Conversion.epochMillis_typed (t : Text) :
    EndsIn .date (Conversion.epochMillis (.text t)) := by
  unfold Conversion.epochMillis
  dsimp only
  split
  · split
    · rfl
    · trivial
  · trivial

/-- A text is read as a date, or the run stops. -/
theorem Value.parseDate_typed [TimeZones] (zone t : Text) :
    EndsIn .date ((Value.text t).parseDate zone) := by
  have tried {k : FormatterKind} {otherwise : Except Fault Value}
    (ends : EndsIn .date otherwise) :
      EndsIn .date ((Value.text t).parseDateAs zone k otherwise) := by
    unfold Value.parseDateAs Conversion.parseDate
    dsimp only
    cases (k.inZone zone).parse? t with
    | none => exact ends
    | some i => rfl
  exact tried (tried (tried (Conversion.epochMillis_typed t)))

/-- A text is converted to a value of the type, or the run stops. -/
theorem Conversion.ofText_typed (p : Primitive) (t : Text) :
    EndsIn (Basic.primitive p).kind (Conversion.ofText p t) := by
  have integral (p : Primitive) (low high : Int) :
      EndsIn .number (Conversion.integral p low high t) := by
    unfold Conversion.integral
    split
    · split
      · trivial
      · rfl
    · trivial
  have fractional (p : Primitive) (f : Double → Double) :
      EndsIn .number ((Conversion.fractional p t).map fun x => .number (f x)) := by
    unfold Conversion.fractional
    split
    · rfl
    · trivial
  cases p with
  | int => exact integral _ _ _
  | long => exact integral _ _ _
  | short => exact integral _ _ _
  | byte => exact integral _ _ _
  | float => exact fractional _ _
  | double => exact fractional _ id
  | boolean => rfl
  | char =>
    unfold Conversion.ofText
    dsimp only
    split
    · rfl
    · trivial

/-- Only texts are read as dates. -/
theorem Value.parseDate_ends [TimeZones] (zone : Text) (v : Value) :
    EndsKinded (v.parseDate zone) := by
  cases v
  case text t => exact (Value.parseDate_typed zone t).kinded
  all_goals exact Fault.isRuntime_wrongKind

/-- What is no text is handed on as it is, or refused. -/
theorem Conversion.valueOf_ends (p : Primitive) (v : Value) :
    EndsKindedOr (fun w => w = v) (Conversion.valueOf p v) := by
  unfold Conversion.valueOf
  split
  · exact (Conversion.ofText_typed p _).kinded.or
  · split
    · exact Or.inr rfl
    · exact Fault.isRuntime_unparseable _ _
  · split
    · exact Or.inr rfl
    · exact Fault.isRuntime_unparseable _ _
  · exact Fault.isRuntime_wrongKind

/-- A cast makes a new value, hands the old one on, or calls a method of it. -/
theorem Value.cast_ends [TimeZones] (zone : Text) (source target : Ty) (v : Value) :
    EndsKindedOr (fun w => w = v ∨ v.Answers w) (v.cast zone source target) := by
  unfold Value.cast
  split
  · exact Or.inl rfl
  · exact Or.inl rfl
  · exact Or.inl rfl
  · exact (v.parseDate_ends zone).or
  · exact (v.called_ends (by decide)).mono (fun _ origin => origin.imp_right .inr)
      fun _ runtime => runtime
  · exact (Conversion.valueOf_ends _ v).mono (fun _ origin => origin.imp_right .inl)
      fun _ runtime => runtime
  · exact v.coerce_ends _ _
  · exact Fault.isRuntime_wrongKind

/-- A substring is a text, or what a record answers in its place. -/
theorem Value.substring_ends (v start : Value) (stop : Option Value) :
    EndsKindedOr v.Answers (v.substring start stop) := by
  unfold Value.substring
  split
  · exact Or.inl rfl
  · exact v.called_ends (by decide)

theorem Environment.guarded_ends (env : Environment) (absent : Bool) (type : Ty)
    {value : Except Fault Value} (ends : EndsInRuntime value) :
    EndsInRuntime (env.guarded absent type value) := by
  unfold Environment.guarded
  split
  · trivial
  · exact ends.bind fun _ _ _ => trivial

end RowExpr
