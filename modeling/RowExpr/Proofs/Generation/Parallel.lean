import RowExpr.Generation.Compile

/-!
Two generations side by side.

Whether generation succeeds, how many names it takes and what it asks for depends on
the expression and on the inputs alone: not on the supply of names, not on whether
absent values are tracked, and not on the terms that stand for them
(`Expr.generate_parallel`).
-/

namespace RowExpr

/-! ## Ends of two computations -/

/-- Two computations end alike: with the same error, or with results that are related. -/
inductive EndAlike {ε α β : Type} (r : α → β → Prop) : Except ε α → Except ε β → Prop
  | error (e : ε) : EndAlike r (.error e) (.error e)
  | ok {a : α} {b : β} : r a b → EndAlike r (.ok a) (.ok b)

section EndAlike

variable {ε α β α' β' : Type} {r : α → β → Prop} {r' : α' → β' → Prop}

/-- Computations in a row end alike if the first ones do and related results are gone on from
alike. -/
theorem EndAlike.bind {m : Except ε α} {m' : Except ε β} {f : α → Except ε α'}
    {f' : β → Except ε β'} (first : EndAlike r m m')
    (next : ∀ a b, m = .ok a → m' = .ok b → r a b → EndAlike r' (f a) (f' b)) :
    EndAlike r' (do let a ← m; f a) (do let b ← m'; f' b) := by
  cases first with
  | error e => exact .error e
  | ok related => exact next _ _ rfl rfl related

theorem EndAlike.mono {s : α → β → Prop} {m : Except ε α} {m' : Except ε β}
    (alike : EndAlike r m m') (weaken : ∀ a b, m = .ok a → m' = .ok b → r a b → s a b) :
    EndAlike s m m' := by
  cases alike with
  | error e => exact .error e
  | ok related => exact .ok (weaken _ _ rfl rfl related)

/-- If one fails, the other fails with the same error. -/
theorem EndAlike.of_error {m : Except ε α} {m' : Except ε β} {e : ε} (alike : EndAlike r m m')
    (failed : m = .error e) : m' = .error e := by
  subst failed
  cases alike
  rfl

/-- If one has a result, so has the other, and the two are related. -/
theorem EndAlike.of_ok {m : Except ε α} {m' : Except ε β} {a : α} (alike : EndAlike r m m')
    (ended : m = .ok a) : ∃ b, m' = .ok b ∧ r a b := by
  subst ended
  cases alike with
  | ok related => exact ⟨_, rfl, related⟩

end EndAlike

/-! ## Steps of generation -/

/-- What two steps leave behind that were started after `n` and after `n'` names: both have
taken `k` further names, asked for the same and ended alike. -/
inductive Draft.Parallel {α β : Type} (n n' : Nat) : Draft α → Draft β → Prop
  | intro {k : Nat} {ds : List Declaration} {outcome : Except GenerationError α}
      {outcome' : Except GenerationError β} :
    EndAlike (fun _ _ => True) outcome outcome' →
    Draft.Parallel n n' ⟨⟨n + k⟩, ds, outcome⟩ ⟨⟨n' + k⟩, ds, outcome'⟩

/-- Steps in parallel fail together, with the same error. -/
theorem Draft.Parallel.endAlike {α β : Type} {n n' : Nat} {d : Draft α} {d' : Draft β}
    (drafts : d.Parallel n n' d') : EndAlike (fun _ _ => True) d.outcome d'.outcome := by
  cases drafts with
  | intro ended => exact ended

/-- A step gives back no names. -/
theorem Draft.Parallel.taken_le {α β : Type} {n n' : Nat} {d : Draft α} {d' : Draft β}
    (drafts : d.Parallel n n' d') : n ≤ d.names.taken := by
  cases drafts with
  | intro _ => exact Nat.le_add_right n _

/-- Two steps of generation that leave the same behind, whatever names were taken before. -/
def Gen.Parallel {α β : Type} (m : Gen α) (m' : Gen β) : Prop :=
  ∀ n n', Draft.Parallel n n' (m ⟨n⟩) (m' ⟨n'⟩)

section Steps

variable {α β α' β' : Type}

theorem Gen.parallel_pure (a : α) (b : β) :
    (Pure.pure a : Gen α).Parallel (Pure.pure b : Gen β) := by
  intro n n'
  exact .intro (k := 0) (.ok trivial)

theorem Gen.parallel_fail (e : GenerationError) :
    (Gen.fail e : Gen α).Parallel (Gen.fail e : Gen β) := by
  intro n n'
  exact .intro (k := 0) (.error e)

theorem Gen.parallel_fresh (stem : Text) : (Gen.fresh stem).Parallel (Gen.fresh stem) := by
  intro n n'
  exact .intro (k := 1) (.ok trivial)

theorem Gen.parallel_request (d : Declaration) : (Gen.request d).Parallel (Gen.request d) := by
  intro n n'
  exact .intro (k := 0) (.ok trivial)

/-- What comes next may depend on what the first steps give, as long as it goes on in parallel. -/
theorem Gen.Parallel.bind {m : Gen α} {m' : Gen β} {f : α → Gen α'} {f' : β → Gen β'}
    (first : m.Parallel m') (next : ∀ a b, (f a).Parallel (f' b)) :
    (m >>= f).Parallel (m' >>= f') := by
  intro n n'
  show Draft.Parallel n n' (Gen.bind m f ⟨n⟩) (Gen.bind m' f' ⟨n'⟩)
  have started := first n n'
  unfold Gen.bind
  generalize m ⟨n⟩ = draft at started
  generalize m' ⟨n'⟩ = draft' at started
  cases started with
  | @intro k ds _ _ ended =>
    cases ended with
    | error e => exact .intro (.error e)
    | @ok a b _ =>
      have continued := next a b (n + k) (n' + k)
      dsimp only
      generalize f a ⟨n + k⟩ = draft at continued
      generalize f' b ⟨n' + k⟩ = draft' at continued
      cases continued with
      | @intro k' ds' _ _ ended' =>
        rw [Nat.add_assoc, Nat.add_assoc]
        exact .intro ended'

/-- A node takes the names of its flag and of its value before all else. -/
theorem Gen.parallel_names {f : Name → Name → Gen α} {f' : Name → Name → Gen β}
    (next : ∀ isNull result isNull' result', (f isNull result).Parallel (f' isNull' result')) :
    (do
      let isNull ← Gen.fresh "isNull"
      let result ← Gen.fresh "result"
      f isNull result).Parallel (do
      let isNull ← Gen.fresh "isNull"
      let result ← Gen.fresh "result"
      f' isNull result) := by
  refine (Gen.parallel_fresh _).bind fun isNull isNull' => ?_
  exact (Gen.parallel_fresh _).bind fun result result' => next isNull result isNull' result'

end Steps

/-! ## Leaves and casts -/

/-- The terms that stand for values in the code. -/
inductive Term.IsConstant : Term → Prop
  | number (x : Double) : Term.IsConstant (.number x)
  | single (x : Double) : Term.IsConstant (.call .single (.number x))
  | text (t : Text) : Term.IsConstant (.text t)
  | bool (b : Bool) : Term.IsConstant (.bool b)

/-- The term of a literal is a constant, or the name of the constant of a time, which is asked
for. -/
theorem Literal.term?_cases {value : Literal} {type : Ty} {step : Gen Term}
    (found : value.term? type = some step) :
    (∃ t : Term, t.IsConstant ∧ step = Gen.pure t) ∨
      ∃ t : Time, step = (do return .name (← Gen.request (.dateConstant t))) := by
  unfold Literal.term? at found
  split at found
  · split at found
    · split at found
      · cases found
        exact .inl ⟨_, .number _, rfl⟩
      · cases found
    · cases found
  · split at found
    · cases found
      exact .inl ⟨_, .number _, rfl⟩
    · cases found
  · cases found
    exact .inl ⟨_, .number _, rfl⟩
  · cases found
    exact .inl ⟨_, .single _, rfl⟩
  · cases found
    exact .inl ⟨_, .text _, rfl⟩
  · cases found
    exact .inl ⟨_, .bool _, rfl⟩
  · cases found
    exact .inr ⟨_, rfl⟩
  · cases found

/-- A literal asks for the same whatever names were taken before. -/
theorem Literal.parallel_term? {value : Literal} {type : Ty} {step : Gen Term}
    (found : value.term? type = some step) : step.Parallel step := by
  rcases Literal.term?_cases found with ⟨t, -, rfl⟩ | ⟨t, rfl⟩
  · exact Gen.parallel_pure t t
  · exact (Gen.parallel_request (.dateConstant t)).bind fun _ _ => Gen.parallel_pure _ _

/-- The code of a literal takes and asks for the same in every setting. -/
theorem Literal.generate_parallel (s s' : Setting) (value : Literal) (type : Ty)
    (isNull result isNull' result' : Name) :
    (value.generate s isNull result type).Parallel (value.generate s' isNull' result' type) := by
  unfold Literal.generate
  split
  · exact Gen.parallel_pure _ _
  · split
    · next step found => exact (Literal.parallel_term? found).bind fun _ _ =>
        Gen.parallel_pure _ _
    · exact Gen.parallel_fail _

/-- Whether there is code for a field depends on the inputs. -/
theorem Setting.generateField_parallel {s s' : Setting} (inputs : s.inputs = s'.inputs)
    (name : Text) (type : Ty) (isNull result isNull' result' : Name) :
    (s.generateField isNull result name type).Parallel
      (s'.generateField isNull' result' name type) := by
  unfold Setting.generateField Setting.fieldTerm?
  rw [inputs]
  split
  · exact Gen.parallel_pure _ _
  · exact Gen.parallel_fail _

/-- Whether there is a cast between primitive types does not depend on the term. -/
theorem Term.isSome_coerce? (t t' : Term) (source target : Primitive) :
    (t.coerce? source target).isSome = (t'.coerce? source target).isSome := by
  unfold Term.coerce?
  split
  · rfl
  · split
    · rfl
    · cases target <;> rfl

theorem Gen.parallel_parseDate (result result' : Name) (value value' : Term) :
    (Gen.parseDate result value).Parallel (Gen.parseDate result' value') := by
  refine (Gen.parallel_request _).bind fun _ _ => ?_
  refine (Gen.parallel_request _).bind fun _ _ => ?_
  refine (Gen.parallel_request _).bind fun _ _ => ?_
  exact (Gen.parallel_fresh _).bind fun _ _ => Gen.parallel_pure _ _

/-- Whether there is a conversion, and what it asks for, depends on the types alone. -/
theorem Gen.parallel_conversion? (result result' : Name) (value value' : Term)
    (source target : Ty) :
    Option.Rel Gen.Parallel (Gen.conversion? result value source target)
      (Gen.conversion? result' value' source target) := by
  unfold Gen.conversion?
  split
  · exact .some ((Gen.parallel_request _).bind fun _ _ => Gen.parallel_pure _ _)
  · exact .some (Gen.parallel_pure _ _)
  · exact .some (Gen.parallel_pure _ _)
  · exact .some (Gen.parallel_parseDate _ _ _ _)
  · exact .some (Gen.parallel_pure _ _)
  · exact .some (Gen.parallel_pure _ _)
  · next p q =>
    have legal := Term.isSome_coerce? value value' p q
    cases first : value.coerce? p q <;> cases second : value'.coerce? p q
    · exact .none
    · simp [first, second] at legal
    · simp [first, second] at legal
    · exact .some (Gen.parallel_pure _ _)
  · exact .none

/-! ## Expressions -/

/-- Generation of an expression goes the same way in two settings with the same inputs. -/
theorem Expr.generate_parallel {s s' : Setting} (inputs : s.inputs = s'.inputs) (e : Expr) :
    (e.generate s).Parallel (e.generate s') := by
  induction e with
  | naming inner label type ih => exact ih
  | literal value type =>
    refine Gen.parallel_names fun isNull result isNull' result' => ?_
    exact (value.generate_parallel s s' type _ _ _ _).bind fun _ _ => Gen.parallel_pure _ _
  | field name type =>
    refine Gen.parallel_names fun isNull result isNull' result' => ?_
    exact (Setting.generateField_parallel inputs name type _ _ _ _).bind fun _ _ =>
      Gen.parallel_pure _ _
  | binary op left right type ihl ihr =>
    refine Gen.parallel_names fun isNull result isNull' result' => ?_
    exact ihl.bind fun _ _ => ihr.bind fun _ _ => Gen.parallel_pure _ _
  | unary op operand type ih =>
    refine Gen.parallel_names fun isNull result isNull' result' => ?_
    exact ih.bind fun _ _ => Gen.parallel_pure _ _
  | isNull operand type ih =>
    refine Gen.parallel_names fun isNull result isNull' result' => ?_
    exact ih.bind fun _ _ => Gen.parallel_pure _ _
  | isNotNull operand type ih =>
    refine Gen.parallel_names fun isNull result isNull' result' => ?_
    exact ih.bind fun _ _ => Gen.parallel_pure _ _
  | cast operand type ih =>
    refine Gen.parallel_names fun isNull result isNull' result' => ?_
    split
    · exact Gen.parallel_fail _
    · refine ih.bind fun c c' => ?_
      have converted :=
        Gen.parallel_conversion? result result' (.name c.result)
          (.name c'.result) operand.type type
      generalize Gen.conversion? result (.name c.result) operand.type type = step at converted
      generalize Gen.conversion? result' (.name c'.result) operand.type type = step' at converted
      cases converted with
      | none => exact Gen.parallel_fail _
      | some steps => exact steps.bind fun _ _ => Gen.parallel_pure _ _
  | substring str start stop type iha ihb ihc =>
    refine Gen.parallel_names fun isNull result isNull' result' => ?_
    exact iha.bind fun _ _ => ihb.bind fun _ _ => ihc.bind fun _ _ => Gen.parallel_pure _ _

end RowExpr
