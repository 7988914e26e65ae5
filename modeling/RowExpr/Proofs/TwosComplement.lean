import RowExpr.Calendar.Offsets
import RowExpr.Proofs.Acceptance
import RowExpr.Proofs.Correctness
import RowExpr.Proofs.Expr.Integral

/-!
Generated code computes integral expressions in two's complement.

Every session whose inputs have the fields of an integral expression accepts it
(`Integral.emits`), with absent values tracked or not. On records whose fields hold
integers in range its code leaves the integer that the evaluation on words gives, and
this lies in the range of the expression (`Session.integral_code_computes_word`).
-/

namespace RowExpr

/-! ## Acceptance -/

/-- Every field of a tree belongs to some input. -/
def Integral.Known {w : Width} (tree : Integral w) (inputs : List Input) : Prop :=
  ∀ name width, (name, width) ∈ tree.fields → ∃ input ∈ inputs, input.type.hasField name = true

theorem Literal.term?_int {x : Double} {n : Int} (whole : x.toInt? = some n)
    (inRange : Width.int.InRange n) :
    (Literal.number x).term? Width.int.type = some (Gen.pure (.number x)) := by
  have bounds : -2147483648 ≤ n ∧ n ≤ 2147483647 := by
    obtain ⟨low, high⟩ := inRange
    rw [Width.bits] at low high
    omega
  simp [Literal.term?, Width.type, Width.primitive, whole, bounds]

/-- Any two widths have a conversion, which is a single assignment. -/
theorem Width.exists_conversion? (v w : Width) (result : Name) (value : Term) :
    v.type.illegalCast? w.type = none ∧
      ∃ term, Gen.conversion? result value v.type w.type =
        some (Gen.pure [.assign result term]) := by
  cases v <;> cases w <;> exact ⟨rfl, _, rfl⟩

/-- Generation of an integral expression succeeds if its fields are known. -/
theorem Integral.emits {s : Setting} {w : Width} (tree : Integral w)
    (known : tree.Known s.inputs) (n : Nat) : ∃ g m ds, s.Emits tree.expr n g m ds := by
  induction tree generalizing n with
  | field w name =>
    obtain ⟨input, listed, has⟩ := known name w (List.mem_singleton_self _)
    obtain ⟨term, found⟩ := Setting.exists_fieldTerm? w.type listed has
    exact ⟨_, _, _, .field found⟩
  | literal x n whole inRange =>
    have present : Literal.number x ≠ .null := fun same => by cases same
    exact ⟨_, _, _, .literal present (Literal.term?_int whole inRange)
      (Gen.yields_pure.2 ⟨rfl, rfl, rfl⟩)⟩
  | binary op left right ihl ihr =>
    obtain ⟨l, m, ds, emitsLeft⟩ :=
      ihl (fun name width inside => known name width (List.mem_append_left _ inside)) _
    obtain ⟨r, m', ds', emitsRight⟩ :=
      ihr (fun name width inside => known name width (List.mem_append_right _ inside)) m
    exact ⟨_, _, _, .binary emitsLeft emitsRight⟩
  | unary op operand ih =>
    obtain ⟨c, m, ds, emits⟩ := ih known _
    exact ⟨_, _, _, .unary emits⟩
  | @cast v operand w ih =>
    obtain ⟨c, m, ds, emits⟩ := ih known (n + 2)
    obtain ⟨legal, term, found⟩ := v.exists_conversion? w (.result n) (.name c.result)
    rw [← operand.type_expr] at legal found
    exact ⟨_, _, _, .cast legal emits found (Gen.yields_pure.2 ⟨rfl, rfl, rfl⟩)⟩

/-- A session accepts what can be generated in it. -/
theorem Session.exists_draft {s : Session} {e : Expr} {g : Generated} {m : Nat}
    {ds : List Declaration} (emits : s.setting.Emits e s.names.taken g m ds) :
    ∃ s', s.draft (e.generate s.setting) = (.ok g, s') := by
  have yields : e.generate s.setting s.names = ⟨⟨m⟩, ds, .ok g⟩ := Expr.yields_iff.2 emits
  exact ⟨_, Prod.ext (congrArg Draft.outcome yields) rfl⟩

/-! ## Code -/

/-- The code of an integral expression, in every unit that is built from the session then
or later and wherever in it the code is run, leaves an integer in the range of the
expression: the one that the evaluation of the tree in two's complement gives. It is
present if absent values are tracked. -/
theorem Session.integral_code_computes_word [TimeZones] {inputs : List Input}
    {given : GivenOptions} {new s : Session} (created : Session.create inputs given = .ok new)
    (reached : new.Leads s) {w : Width} (tree : Integral w) (known : tree.Known inputs) :
    ∃ (g : Generated) (s' : Session), s.draft (tree.expr.generate s.setting) = (.ok g, s') ∧
      ∀ t, s'.Leads t → ∀ (codes : List Generated) (returns : Returned),
        ∃ ev : Evaluator, (t.unit codes returns).factory.load = .ok (some ev) ∧
          ∀ (values : Text → Int) (records : List Value), tree.Reads values inputs records →
            ∀ σ, (ev.entry records).SameGlobals σ →
              ∃ σ' v, g.code.run σ = .ok σ' ∧ σ'.get g.result = .ok v ∧
                v.IsInt (tree.eval values).toInt ∧ w.InRange (tree.eval values).toInt ∧
                (s.options.nullCheck = true → σ'.get g.isNull = .ok (.bool false)) := by
  have sound : s.Sound := (Session.sound_createWith created).grows reached.grows
  obtain rfl : s.inputs = inputs := reached.grows.inputs.trans (Session.of_createWith created).1
  have defaults := Session.eval_defaults created reached.grows
  obtain ⟨g, m, ds, emits⟩ := Integral.emits (s := s.setting) tree known s.names.taken
  obtain ⟨s', accepted⟩ := Session.exists_draft emits
  refine ⟨g, s', accepted, fun t later codes returns => ?_⟩
  obtain ⟨-, ev, loaded, agrees⟩ := sound.code_agrees defaults accepted later.grows codes returns
  refine ⟨ev, loaded, fun values records reads σ globals => ?_⟩
  have held : tree.Reads values (s.environment Ty.defaultValue records).inputs records := reads
  obtain ⟨v, evaluated, whole⟩ := tree.eval_expr held
  have ends := agrees records σ globals
  rw [evaluated] at ends
  generalize ran : g.code.run σ = run at ends
  cases ends with
  | @finished σ' _ holds =>
    exact ⟨σ', v, rfl, holds.value, whole, Width.inRange_toInt _, holds.flag⟩

/-- The sum of an absolute value and of the low bits of a square. -/
def Integral.wrapped : Integral .byte :=
  .binary .add (.unary .abs (.field .byte "b"))
    (.cast (.binary .mul (.field .short "h") (.field .short "h")) .byte)

def Input.measured : List Input :=
  [⟨"row", .plain .pojo [.mk "b" Width.byte.type, .mk "h" Width.short.type]⟩]

def Value.measured (b h : Int) : List Value :=
  [.record (.given 0) [("b", .number (Double.ofInt b)), ("h", .number (Double.ofInt h))]]

section Host

open scoped Offsets

/-- With -128 and 300 the absolute value, the square, the cast and the sum all wrap around. -/
theorem Session.integral_code_computes_word_wrapped :
    ∃ (new s : Session) (g : Generated) (ev : Evaluator) (σ : Scope) (v : Value),
      Session.create Input.measured (.members []) = .ok new ∧
      new.draft (Integral.wrapped.expr.generate new.setting) = (.ok g, s) ∧
      (s.unit [g] (.term (.name g.result))).factory.load = .ok (some ev) ∧
      g.code.run (ev.entry (Value.measured (-128) 300)) = .ok σ ∧ σ.get g.result = .ok v ∧
      v.IsInt 16 := by
  have created : Session.create Input.measured (.members []) = .ok _ := rfl
  have known : Integral.wrapped.Known Input.measured := by
    intro name width inside
    refine ⟨_, List.mem_singleton_self _, ?_⟩
    rcases List.mem_cons.1 inside with here | inside
    · cases here
      decide
    · cases List.eq_of_mem_replicate (n := 2) inside
      decide
  have reads : Integral.wrapped.Reads (fun name => if name = "b" then -128 else 300)
    Input.measured
      (Value.measured (-128) 300) := by
    intro name width inside
    rcases List.mem_cons.1 inside with here | inside
    · cases here
      exact ⟨by decide, _, rfl, _, rfl, Double.toInt?_ofInt (by decide)⟩
    · cases List.eq_of_mem_replicate (n := 2) inside
      exact ⟨by decide, _, rfl, _, rfl, Double.toInt?_ofInt (by decide)⟩
  obtain ⟨g, s, accepted, runs⟩ :=
    Session.integral_code_computes_word created .refl Integral.wrapped known
  obtain ⟨ev, loaded, computes⟩ := runs s .refl [g] (.term (.name g.result))
  obtain ⟨σ, v, ran, got, whole, -, -⟩ := computes _ _ reads _ ⟨rfl, fun _ _ => rfl⟩
  exact ⟨_, s, g, ev, σ, v, created, accepted, loaded, ran, got, whole⟩

end Host

end RowExpr
