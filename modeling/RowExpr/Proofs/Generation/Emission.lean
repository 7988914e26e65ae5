import RowExpr.Generation.Compile
import RowExpr.Proofs.Code.Frame

/-!
Successful generation as a derivation.

`Setting.Emits` has one rule for each form of an expression and says what code it
gets, which names it takes and which declarations it asks for. `Expr.yields_iff`
identifies it with `Expr.generate`, so a statement about generated code is an
induction over these rules and never opens a step of generation again.
-/

namespace RowExpr

/-! ## Steps that succeed -/

/-- A step of generation, started after `n` names, gives `a`, has then taken
`n'` names and has asked for `ds`. -/
def Gen.Yields {α : Type} (m : Gen α) (n : Nat) (a : α) (n' : Nat) (ds : List Declaration) :
    Prop :=
  m ⟨n⟩ = ⟨⟨n'⟩, ds, .ok a⟩

section Yields

variable {α β : Type} {n n' : Nat} {ds : List Declaration}

/-- A step that succeeds leaves behind some names and some requests. -/
theorem Gen.exists_yields {m : Gen α} {a : α} (ok : (m ⟨n⟩).outcome = .ok a) :
    m.Yields n a (m ⟨n⟩).names.taken (m ⟨n⟩).requests := by
  unfold Yields
  rw [← ok]

/-- What a step gives is determined by the names that were taken before. -/
theorem Gen.Yields.unique {m : Gen α} {a a' : α} {k : Nat} {ds' : List Declaration}
    (first : m.Yields n a n' ds) (second : m.Yields n a' k ds') : a = a' ∧ n' = k ∧ ds = ds' := by
  unfold Yields at first second
  rw [first] at second
  cases second
  exact ⟨rfl, rfl, rfl⟩

theorem Gen.yields_pure {a b : α} :
    (Pure.pure a : Gen α).Yields n b n' ds ↔ b = a ∧ n' = n ∧ ds = [] := by
  constructor
  · intro yields
    cases yields
    exact ⟨rfl, rfl, rfl⟩
  · rintro ⟨rfl, rfl, rfl⟩
    rfl

/-- Steps in a row: names are taken one after another, and requests add up. -/
theorem Gen.yields_bind {m : Gen α} {f : α → Gen β} {b : β} :
    (m >>= f).Yields n b n' ds ↔
      ∃ a k first rest, m.Yields n a k first ∧ (f a).Yields k b n' rest ∧ ds = first ++ rest := by
  constructor
  · intro yields
    have whole : Gen.bind m f ⟨n⟩ = ⟨⟨n'⟩, ds, .ok b⟩ := yields
    rcases draft : m ⟨n⟩ with ⟨⟨k⟩, first, e | a⟩
    · simp only [Gen.bind, draft] at whole
      cases whole
    · rcases next : f a ⟨k⟩ with ⟨⟨k'⟩, rest, outcome⟩
      simp only [Gen.bind, draft, next] at whole
      cases whole
      exact ⟨a, k, first, rest, draft, next, rfl⟩
  · rintro ⟨a, k, first, rest, ran, next, rfl⟩
    show Gen.bind m f ⟨n⟩ = _
    unfold Yields at ran next
    simp only [Gen.bind, ran, next]

/-- A fresh name has the number of the names before it. -/
theorem Gen.yields_fresh {stem : Text} {x : Name} :
    (Gen.fresh stem).Yields n x n' ds ↔ x = .fresh stem n ∧ n' = n + 1 ∧ ds = [] := by
  constructor
  · intro yields
    cases yields
    exact ⟨rfl, rfl, rfl⟩
  · rintro ⟨rfl, rfl, rfl⟩
    rfl

/-- A request gives the name of what is asked for, and takes no number. -/
theorem Gen.yields_request {d : Declaration} {x : Name} :
    (Gen.request d).Yields n x n' ds ↔ x = d.name ∧ n' = n ∧ ds = [d] := by
  constructor
  · intro yields
    cases yields
    exact ⟨rfl, rfl, rfl⟩
  · rintro ⟨rfl, rfl, rfl⟩
    rfl

theorem Gen.not_yields_fail {e : GenerationError} {a : α} :
    ¬ (Gen.fail e : Gen α).Yields n a n' ds := by
  intro yields
  cases yields

end Yields

/-! ## Rules of generation -/

/-- The name of the flag of a node that is generated after `n` names. -/
abbrev Name.flag (n : Nat) : Name := .fresh "isNull" n

/-- The name of the value of a node that is generated after `n` names. -/
abbrev Name.result (n : Nat) : Name := .fresh "result" (n + 1)

/-- A block that computes a value, as the code of a cast and of a substring has it: guarded if
flags are tracked, and with its result reserved in any case. -/
def Setting.guardedBlock (s : Setting) (isNull result : Name) (guardedMark plainMark : Text)
    (flag : Term) (absentType : Ty) (body : Block) : Block :=
  if s.nullCheck then s.guarded isNull result guardedMark flag absentType body
  else .reserve result plainMark :: body

/-- `s.Emits e n g m ds`: generation of `e`, started after `n` names, gives `g`,
has then taken `m` names and has asked for `ds`. -/
inductive Setting.Emits (s : Setting) : Expr → Nat → Generated → Nat → List Declaration → Prop
  | naming {inner label type n g m ds} :
    s.Emits inner n g m ds → s.Emits (.naming inner label type) n g m ds
  | nullLiteral {type n} :
    s.Emits (.literal .null type) n
      ⟨s.flag (.flag n) (.bool true) ++ [.declare (.result n) (some type.nullableMark) .null],
        .result n, .flag n⟩ (n + 2) []
  | literal {value type n step term m ds} :
    value ≠ .null → value.term? type = some step → step.Yields (n + 2) term m ds →
    s.Emits (.literal value type) n
      ⟨s.flag (.flag n) (.bool false) ++ [.declare (.result n) (some type.typeMark) term],
        .result n, .flag n⟩ m ds
  | field {name type n term} :
    s.fieldTerm? name type = some term →
    s.Emits (.field name type) n
      ⟨[.declare (.result n) (some type.typeMark) term] ++
        s.flag (.flag n) (.binary .looseEq (.name (.result n)) .null), .result n,
        .flag n⟩ (n + 2) []
  | binary {op left right type n l m ds r m' ds'} :
    s.Emits left (n + 2) l m ds → s.Emits right m r m' ds' →
    s.Emits (.binary op left right type) n
      ⟨l.code ++ r.code ++ s.compute (.flag n) (.result n) (op.resultType type).typeMark
        (.binary .or (.name l.isNull) (.name r.isNull)) (op.resultType type)
        (op.term type left.type right.type (.name l.result) (.name r.result)), .result n, .flag n⟩
      m' (ds ++ ds')
  | unary {op operand type n c m ds} :
    s.Emits operand (n + 2) c m ds →
    s.Emits (.unary op operand type) n
      ⟨c.code ++ s.compute (.flag n) (.result n) type.typeMark (.name c.isNull) operand.type
        (op.term type (.name c.result)), .result n, .flag n⟩
      m ds
  | isNull {operand type n c m ds} :
    s.Emits operand (n + 2) c m ds →
    s.Emits (.isNull operand type) n
      ⟨c.code ++ s.nullTest (.flag n) (.result n) c true, .result n, .flag n⟩ m ds
  | isNotNull {operand type n c m ds} :
    s.Emits operand (n + 2) c m ds →
    s.Emits (.isNotNull operand type) n
      ⟨c.code ++ s.nullTest (.flag n) (.result n) c false, .result n, .flag n⟩ m ds
  | cast {operand type n c m ds step conversion m' ds'} :
    operand.type.illegalCast? type = none →
    s.Emits operand (n + 2) c m ds →
    Gen.conversion? (.result n) (.name c.result) operand.type type = some step →
    step.Yields m conversion m' ds' →
    s.Emits (.cast operand type) n
      ⟨c.code ++ s.guardedBlock (.flag n) (.result n) type.nullableMark type.typeMark
        (.name c.isNull) type
        conversion, .result n, .flag n⟩
      m' (ds ++ ds')
  | substring {str start stop type n a m ds b m' ds' c m'' ds''} :
    s.Emits str (n + 2) a m ds → s.Emits start m b m' ds' → s.Emits stop m' c m'' ds'' →
    s.Emits (.substring str start stop type) n
      ⟨a.code ++ b.code ++ c.code ++ s.guardedBlock (.flag n) (.result n) Ty.string.typeMark
        Ty.string.typeMark
          (.binary .or (.binary .or (.name a.isNull) (.name b.isNull)) (.name c.isNull)) str.type
        (Setting.substringBlock (.result n) (.name a.result) (.name b.result) (.name c.result)
          stop.unwrapped.literal?), .result n, .flag n⟩
      m'' (ds ++ (ds' ++ ds''))

/-- A node takes the names of its flag and of its value before all else. -/
theorem Gen.yields_names {α : Type} {rest : Name → Name → Gen α} {n n' : Nat} {a : α}
    {ds : List Declaration} :
    (do
      let isNull ← Gen.fresh "isNull"
      let result ← Gen.fresh "result"
      rest isNull result).Yields n a n' ds ↔
      (rest (.flag n) (.result n)).Yields (n + 2) a n' ds := by
  simp only [yields_bind, yields_fresh]
  constructor
  · rintro ⟨_, _, _, _, ⟨rfl, rfl, rfl⟩, ⟨_, _, _, _, ⟨rfl, rfl, rfl⟩, yields, rfl⟩, rfl⟩
    exact yields
  · intro yields
    exact ⟨_, _, _, _, ⟨rfl, rfl, rfl⟩, ⟨_, _, _, _, ⟨rfl, rfl, rfl⟩, yields, rfl⟩, rfl⟩

/-- Whatever generation gives is derived by the rules. By induction on the expression, one rule
for each form. -/
theorem Setting.Emits.of_yields {s : Setting} {e : Expr} {n m : Nat} {g : Generated}
    {ds : List Declaration} (yields : (e.generate s).Yields n g m ds) : s.Emits e n g m ds := by
  induction e generalizing n m g ds with
  | naming inner label type ih => exact .naming (ih yields)
  | literal value type =>
    rw [Expr.generate, Gen.yields_names] at yields
    simp only [Gen.yields_bind, Gen.yields_pure, Literal.generate] at yields
    obtain ⟨code, k, first, rest, ran, ⟨rfl, rfl, rfl⟩, rfl⟩ := yields
    rw [List.append_nil]
    split at ran
    · next null =>
      subst null
      rw [Gen.yields_pure] at ran
      obtain ⟨rfl, rfl, rfl⟩ := ran
      exact .nullLiteral
    · next present =>
      split at ran
      · next step found =>
        simp only [Gen.yields_bind, Gen.yields_pure] at ran
        obtain ⟨term, k, first, rest, made, ⟨rfl, rfl, rfl⟩, rfl⟩ := ran
        rw [List.append_nil]
        exact .literal present found made
      · exact absurd ran Gen.not_yields_fail
  | field name type =>
    rw [Expr.generate, Gen.yields_names] at yields
    simp only [Gen.yields_bind, Gen.yields_pure, Setting.generateField] at yields
    obtain ⟨code, k, first, rest, ran, ⟨rfl, rfl, rfl⟩, rfl⟩ := yields
    rw [List.append_nil]
    split at ran
    · next term found =>
      rw [Gen.yields_pure] at ran
      obtain ⟨rfl, rfl, rfl⟩ := ran
      exact .field found
    · exact absurd ran Gen.not_yields_fail
  | binary op left right type ihl ihr =>
    rw [Expr.generate, Gen.yields_names] at yields
    simp only [Gen.yields_bind, Gen.yields_pure] at yields
    obtain ⟨l, k, first, rest, ranl, ⟨r, k', first', rest', ranr, ⟨rfl, rfl, rfl⟩, rfl⟩, rfl⟩ :=
      yields
    rw [List.append_nil]
    exact .binary (ihl ranl) (ihr ranr)
  | unary op operand type ih =>
    rw [Expr.generate, Gen.yields_names] at yields
    simp only [Gen.yields_bind, Gen.yields_pure] at yields
    obtain ⟨c, k, first, rest, ran, ⟨rfl, rfl, rfl⟩, rfl⟩ := yields
    rw [List.append_nil]
    exact .unary (ih ran)
  | isNull operand type ih =>
    rw [Expr.generate, Gen.yields_names] at yields
    simp only [Gen.yields_bind, Gen.yields_pure] at yields
    obtain ⟨c, k, first, rest, ran, ⟨rfl, rfl, rfl⟩, rfl⟩ := yields
    rw [List.append_nil]
    exact .isNull (ih ran)
  | isNotNull operand type ih =>
    rw [Expr.generate, Gen.yields_names] at yields
    simp only [Gen.yields_bind, Gen.yields_pure] at yields
    obtain ⟨c, k, first, rest, ran, ⟨rfl, rfl, rfl⟩, rfl⟩ := yields
    rw [List.append_nil]
    exact .isNotNull (ih ran)
  | cast operand type ih =>
    rw [Expr.generate, Gen.yields_names] at yields
    split at yields
    · exact absurd yields Gen.not_yields_fail
    · next legal =>
      rw [Gen.yields_bind] at yields
      obtain ⟨c, k, first, rest, ran, converted, rfl⟩ := yields
      split at converted
      · next step found =>
        simp only [Gen.yields_bind, Gen.yields_pure] at converted
        obtain ⟨conversion, k', first', rest', made, ⟨rfl, rfl, rfl⟩, rfl⟩ := converted
        rw [List.append_nil]
        exact .cast legal (ih ran) found made
      · exact absurd converted Gen.not_yields_fail
  | substring str start stop type iha ihb ihc =>
    rw [Expr.generate, Gen.yields_names] at yields
    simp only [Gen.yields_bind, Gen.yields_pure] at yields
    obtain ⟨a, k, first, rest, rana, ⟨b, k', first', rest', ranb, ⟨c, k'', first'', rest'', ranc,
      ⟨rfl, rfl, rfl⟩, rfl⟩, rfl⟩, rfl⟩ := yields
    rw [List.append_nil]
    exact .substring (iha rana) (ihb ranb) (ihc ranc)

/-- Whatever the rules derive is what generation gives. -/
theorem Setting.Emits.yields {s : Setting} {e : Expr} {n m : Nat} {g : Generated}
    {ds : List Declaration} (emits : s.Emits e n g m ds) : (e.generate s).Yields n g m ds := by
  induction emits with
  | naming _ ih => exact ih
  | nullLiteral =>
    rw [Expr.generate, Gen.yields_names]
    simp only [Gen.yields_bind, Gen.yields_pure, Literal.generate, if_true]
    exact ⟨_, _, _, _, ⟨rfl, rfl, rfl⟩, ⟨rfl, rfl, rfl⟩, rfl⟩
  | literal present found made =>
    rw [Expr.generate, Gen.yields_names]
    simp only [Gen.yields_bind, Gen.yields_pure, Literal.generate, if_neg present, found]
    refine ⟨_, _, _, _, ⟨_, _, _, _, made, ⟨rfl, rfl, rfl⟩, rfl⟩, ⟨rfl, rfl, rfl⟩, ?_⟩
    rw [List.append_nil, List.append_nil]
  | field found =>
    rw [Expr.generate, Gen.yields_names]
    simp only [Gen.yields_bind, Gen.yields_pure, generateField, found]
    exact ⟨_, _, _, _, ⟨rfl, rfl, rfl⟩, ⟨rfl, rfl, rfl⟩, rfl⟩
  | binary _ _ ihl ihr =>
    rw [Expr.generate, Gen.yields_names]
    simp only [Gen.yields_bind, Gen.yields_pure]
    refine ⟨_, _, _, _, ihl, ⟨_, _, _, _, ihr, ⟨rfl, rfl, rfl⟩, rfl⟩, ?_⟩
    rw [List.append_nil]
  | unary _ ih =>
    rw [Expr.generate, Gen.yields_names]
    simp only [Gen.yields_bind, Gen.yields_pure]
    exact ⟨_, _, _, _, ih, ⟨rfl, rfl, rfl⟩, (List.append_nil _).symm⟩
  | isNull _ ih =>
    rw [Expr.generate, Gen.yields_names]
    simp only [Gen.yields_bind, Gen.yields_pure]
    exact ⟨_, _, _, _, ih, ⟨rfl, rfl, rfl⟩, (List.append_nil _).symm⟩
  | isNotNull _ ih =>
    rw [Expr.generate, Gen.yields_names]
    simp only [Gen.yields_bind, Gen.yields_pure]
    exact ⟨_, _, _, _, ih, ⟨rfl, rfl, rfl⟩, (List.append_nil _).symm⟩
  | cast legal _ found made ih =>
    rw [Expr.generate, Gen.yields_names]
    simp only [legal, Gen.yields_bind]
    refine ⟨_, _, _, _, ih, ?_, rfl⟩
    simp only [found, Gen.yields_bind, Gen.yields_pure]
    exact ⟨_, _, _, _, made, ⟨rfl, rfl, rfl⟩, (List.append_nil _).symm⟩
  | substring _ _ _ iha ihb ihc =>
    rw [Expr.generate, Gen.yields_names]
    simp only [Gen.yields_bind, Gen.yields_pure]
    refine ⟨_, _, _, _, iha, ⟨_, _, _, _, ihb, ⟨_, _, _, _, ihc, ⟨rfl, rfl, rfl⟩, rfl⟩, rfl⟩, ?_⟩
    rw [List.append_nil]

/-- The rules describe generation exactly. -/
theorem Expr.yields_iff {s : Setting} {e : Expr} {n m : Nat} {g : Generated}
    {ds : List Declaration} : (e.generate s).Yields n g m ds ↔ s.Emits e n g m ds :=
  ⟨Setting.Emits.of_yields, Setting.Emits.yields⟩

end RowExpr
