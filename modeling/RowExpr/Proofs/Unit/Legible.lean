import RowExpr.Proofs.Code.Flow
import RowExpr.Proofs.Code.Identifier
import RowExpr.Proofs.Code.Lines
import RowExpr.Proofs.Quoting
import RowExpr.Proofs.Unit.Lexing
import RowExpr.Proofs.Unit.Loading
import RowExpr.Proofs.Unit.Scoping

/-!
Code that can be read back.

`Term.rank` says how tightly a term binds. A term is legible if each operand binds tightly enough
for its place, so that its text needs no other parentheses than those it has (`Term.Legible`); all
terms of generated code are. `Term.tokens` are its tokens and `Term.spoken` is the term that they
read as: names have become plain, and a number with a sign is a negation. Statements, factories
and units have tokens and readings in the same way (`GeneratedUnit.Legible`).
-/

namespace RowExpr

/-! ## Annotations -/

/-- The annotation of a type: a word, perhaps with brackets, perhaps with null as an
alternative. -/
structure TypeMark where
  word : Text
  array : Bool
  nullable : Bool
  identifier : Name.isIdentifier word = true

namespace TypeMark

def text (a : TypeMark) : Text :=
  let marked := if a.array then a.word ++ ("[]" : Text) else a.word
  if a.nullable then marked ++ " | " ++ "null" else marked

def tokens (a : TypeMark) : List Token :=
  let marked := if a.array then [.word a.word, .mark "[", .mark "]"] else [.word a.word]
  if a.nullable then marked ++ [.mark "|", .word "null"] else marked

end TypeMark

/-- The tokens of the text of an annotation. -/
def Text.markTokens (t : Text) : List Token := (Token.ofText? t).getD []

/-- The text is that of an annotation. -/
def Text.IsTypeMark (t : Text) : Prop := ∃ a : TypeMark, a.text = t

/-! ## Terms -/

/-- How tightly an operator binds. -/
def InfixOperator.rank : InfixOperator → Nat
  | .or => 2
  | .and => 3
  | .bitOr => 4
  | .bitXor => 5
  | .bitAnd => 6
  | .strictEq | .looseEq | .looseNe => 7
  | .lt | .le | .gt | .ge => 8
  | .shiftLeft | .shiftRight => 9
  | .add | .sub => 10
  | .mul | .div | .rem => 11

/-- The ranks of operators lie between those of tests and of operands. -/
theorem InfixOperator.rank_bounds (op : InfixOperator) : 2 ≤ op.rank ∧ op.rank ≤ 11 := by
  cases op <;> decide

/-- The term that the text of a number reads as. -/
def Double.spoken (x : Double) : Term :=
  if x.isSigned then .unary .negate (.number x.abs) else .number x.abs

namespace Term

/-- How tightly a term binds. An ascription stands in parentheses only, and a test binds less than
all operators. -/
def rank : Term → Nat
  | .ascribe _ _ => 0
  | .cond _ _ _ => 1
  | .binary op _ _ => op.rank
  | .unary _ _ => 12
  | .call .makeDate _ => 12
  | .number x => if x.isSigned then 12 else 13
  | .fractional x => if x.isSigned then 12 else 13
  | _ => 13

/-- The term can stand in front of a member, a position or a call. -/
def isHead : Term → Bool
  | .name _ => true
  | .paren _ => true
  | _ => false

/-- A term that is read back from its text. -/
def Legible : Term → Prop
  | .fractional x => x = minusOne
  | .singleText t => t.Unbroken
  | .paren t => t.Legible
  | .ascribe t type => t.Legible ∧ 1 ≤ t.rank ∧ type.IsTypeMark
  | .unary _ t => t.Legible ∧ 12 ≤ t.rank
  | .binary op left right =>
    (left.Legible ∧ op.rank ≤ left.rank) ∧ right.Legible ∧ op.rank < right.rank
  | .cond test yes no =>
    (test.Legible ∧ 2 ≤ test.rank) ∧ (yes.Legible ∧ 1 ≤ yes.rank) ∧ no.Legible ∧ 1 ≤ no.rank
  | .index t i => t.Legible ∧ t.isHead = true ∧ i < 2 ^ 53
  | .member t _ => t.Legible ∧ t.isHead = true
  | .invoke t _ => t.Legible ∧ t.isHead = true
  | .call _ t => t.Legible ∧ 1 ≤ t.rank
  | .call₂ _ left right => (left.Legible ∧ 1 ≤ left.rank) ∧ right.Legible ∧ 1 ≤ right.rank
  | .charCode t => ∃ x, t = .name x
  | .tail t start => (t.Legible ∧ t.isHead = true) ∧ start.Legible ∧ 1 ≤ start.rank
  | .slice t start stop =>
    (t.Legible ∧ t.isHead = true) ∧ (start.Legible ∧ 1 ≤ start.rank) ∧
    stop.Legible ∧ 1 ≤ stop.rank
  | .format _ t => t.Legible ∧ 1 ≤ t.rank
  | .parse _ t => t.Legible ∧ 1 ≤ t.rank
  | _ => True

end Term

/-- The tokens of the name of a function. -/
def Function.tokens : Function → List Token
  | .trunc => [.word "Math", .mark ".", .word "trunc"]
  | .abs => [.word "Math", .mark ".", .word "abs"]
  | .single => [.word "Math", .mark ".", .word "fround"]
  | .string => [.word "String"]
  | .charOf => [.word "String", .mark ".", .word "fromCharCode"]
  | .makeDate => [.word "new", .word "Date"]
  | .divisor => [.word "runtime", .mark ".", .word "checkDivisor"]
  | .epochMillis => [.word "runtime", .mark ".", .word "parseEpochMillis"]
  | .valueOf p => [.word "runtime", .mark ".", .word "valueOf", .mark ".", .word p.name]

def Function₂.tokens : Function₂ → List Token
  | .wordProduct => [.word "Math", .mark ".", .word "imul"]
  | .equals => [.word "runtime", .mark ".", .word "equals"]

/-- The tokens of the access to a member. -/
def Token.access (field : Text) : List Token :=
  if Name.isIdentifier field then [.mark ".", .word field]
    else [.mark "[", .text field, .mark "]"]

/-- The tokens of a call of a method. -/
def Token.calling (method : String) (arguments : List Token) : List Token :=
  .mark "." :: .word method :: .mark "(" :: (arguments ++ [.mark ")"])

namespace Term

/-- The tokens of a term. -/
def tokens : Term → List Token
  | .name x => [.word x.text]
  | .undefined => [.word "undefined"]
  | .null => [.word "null"]
  | .bool true => [.word "true"]
  | .bool false => [.word "false"]
  | .number x => x.tokens
  | .fractional x => x.tokens
  | .text t => [.text t]
  | .singleText t => [.text t]
  | .nullUnit => [.text [0]]
  | .paren t => .mark "(" :: (t.tokens ++ [.mark ")"])
  | .ascribe t type => t.tokens ++ .word "as" :: type.markTokens
  | .unary op t => .mark op.symbol :: t.tokens
  | .binary op left right => left.tokens ++ .mark op.symbol :: right.tokens
  | .cond test yes no => test.tokens ++ .mark "?" :: (yes.tokens ++ .mark ":" :: no.tokens)
  | .index t i => t.tokens ++ [.mark "[", .number (Double.ofInt i), .mark "]"]
  | .member t field => t.tokens ++ Token.access field
  | .invoke t method => t.tokens ++ (Token.access method ++ [.mark "(", .mark ")"])
  | .call f t => f.tokens ++ .mark "(" :: (t.tokens ++ [.mark ")"])
  | .call₂ f left right =>
    f.tokens ++ .mark "(" :: (left.tokens ++ .mark "," :: (right.tokens ++ [.mark ")"]))
  | .charCode t => t.tokens ++ Token.calling "charCodeAt" [.number (.zero false)]
  | .tail t start => t.tokens ++ Token.calling "substring" start.tokens
  | .slice t start stop =>
    t.tokens ++ Token.calling "substring" (start.tokens ++ .mark "," :: stop.tokens)
  | .format formatter t => .word formatter.text :: Token.calling "format" t.tokens
  | .parse formatter t => .word formatter.text :: Token.calling "parse" t.tokens

/-- The term that the text of a term reads as. -/
def spoken : Term → Term
  | .name x => .name (.plain x.text)
  | .number x => x.spoken
  | .fractional x => x.spoken
  | .singleText t => .text t
  | .nullUnit => .text [0]
  | .paren t => .paren t.spoken
  | .ascribe t type => .ascribe t.spoken type
  | .unary op t => .unary op t.spoken
  | .binary op left right => .binary op left.spoken right.spoken
  | .cond test yes no => .cond test.spoken yes.spoken no.spoken
  | .index t i => .index t.spoken i
  | .member t field => .member t.spoken field
  | .invoke t method => .invoke t.spoken method
  | .call f t => .call f t.spoken
  | .call₂ f left right => .call₂ f left.spoken right.spoken
  | .charCode t => .charCode t.spoken
  | .tail t start => .tail t.spoken start.spoken
  | .slice t start stop => .slice t.spoken start.spoken stop.spoken
  | .format formatter t => .format (.plain formatter.text) t.spoken
  | .parse formatter t => .parse (.plain formatter.text) t.spoken
  | t => t

end Term

/-! ## Statements -/

mutual

/-- A statement that is read back from its lines. -/
def Statement.Legible : Statement → Prop
  | .declare _ type value => (∀ mark ∈ type, mark.IsTypeMark) ∧ value.Legible ∧ 1 ≤ value.rank
  | .reserve _ type => type.IsTypeMark
  | .assign _ value => value.Legible ∧ 1 ≤ value.rank
  | .branch test yes no => (test.Legible ∧ 1 ≤ test.rank) ∧ Block.Legible yes ∧ Block.Legible no
  | .attempt _ value otherwise => (value.Legible ∧ 1 ≤ value.rank) ∧ Block.Legible otherwise

def Block.Legible : Block → Prop
  | [] => True
  | statement :: rest => statement.Legible ∧ Block.Legible rest

end

/-- The tokens of an annotation after a name, if there is one. -/
def Token.annotated : Option Text → List Token
  | none => []
  | some type => .mark ":" :: type.markTokens

/-- The tokens of an assignment. -/
def Block.assignmentTokens (x : Name) (value : Term) : List Token :=
  .word x.text :: .mark "=" :: (value.tokens ++ [.mark ";"])

mutual

/-- The tokens of a statement. -/
def Statement.tokens : Statement → List Token
  | .declare x type value =>
    .word "const" :: .word x.text ::
      (Token.annotated type ++ .mark "=" :: (value.tokens ++ [.mark ";"]))
  | .reserve x type =>
    .word "let" :: .word x.text :: .mark ":" :: (type.markTokens ++ [.mark ";"])
  | .assign x value => Block.assignmentTokens x value
  | .branch test yes no =>
    .word "if" :: .mark "(" :: (test.tokens ++ .mark ")" :: .mark "\x7b" :: (Block.tokens yes ++
      .mark "\x7d" :: .word "else" :: .mark "\x7b" :: (Block.tokens no ++ [.mark "\x7d"])))
  | .attempt x value otherwise =>
    .word "try" :: .mark "\x7b" :: (Block.assignmentTokens x value ++
      .mark "\x7d" :: .word "catch" :: .mark "\x7b" :: (Block.tokens otherwise ++ [.mark "\x7d"]))

def Block.tokens : Block → List Token
  | [] => []
  | statement :: rest => statement.tokens ++ Block.tokens rest

end

mutual

/-- The statement that the lines of a statement read as. -/
def Statement.spoken : Statement → Statement
  | .declare x type value => .declare (.plain x.text) type value.spoken
  | .reserve x type => .reserve (.plain x.text) type
  | .assign x value => .assign (.plain x.text) value.spoken
  | .branch test yes no => .branch test.spoken (Block.spoken yes) (Block.spoken no)
  | .attempt x value otherwise => .attempt (.plain x.text) value.spoken (Block.spoken otherwise)

def Block.spoken : Block → Block
  | [] => []
  | statement :: rest => statement.spoken :: Block.spoken rest

end

/-! ## Units -/

/-- The name that a statement of a factory declares or sets. -/
def FactoryStatement.name : FactoryStatement → Name
  | .constant x _ => x
  | .formatter x _ => x
  | .setZone x _ => x

/-- A statement of a factory that is read back from its line; its constants are dates. -/
structure FactoryStatement.Legible (inputs : List Input) (f : FactoryStatement) : Prop where
  usable : f.name.Usable inputs
  term : f.term.Legible
  whole : 1 ≤ f.term.rank
  closed : f.term.names = []
  dates : ∀ x value, f = .constant x value → ∃ t, value = .call .makeDate t

def FactoryStatement.tokens : FactoryStatement → List Token
  | .constant x value =>
    .word "const" :: .word x.text :: .mark "=" :: (value.tokens ++ [.mark ";"])
  | .formatter x pattern =>
    .word "const" :: .word x.text :: .mark "=" :: .word "runtime" :: .mark "." ::
      .word "createFormatter" :: .mark "(" :: (pattern.tokens ++ [.mark ")", .mark ";"])
  | .setZone x zone =>
    .word x.text :: .mark "." :: .word "setTimeZone" :: .mark "(" ::
      (zone.tokens ++ [.mark ")", .mark ";"])

def FactoryStatement.spoken : FactoryStatement → FactoryStatement
  | .constant x value => .constant (.plain x.text) value.spoken
  | .formatter x pattern => .formatter (.plain x.text) pattern.spoken
  | .setZone x zone => .setZone (.plain x.text) zone.spoken

/-- Lists of tokens with commas between them. -/
def Token.commas : List (List Token) → List Token
  | [] => []
  | [ts] => ts
  | ts :: more => ts ++ .mark "," :: commas more

/-- The tokens of parameters. -/
def Token.parameters (names : List Text) : List Token :=
  commas (names.map fun x => [.word x, .mark ":", .word "any"])

def Returned.Legible (r : Returned) : Prop := ∀ t ∈ r.terms, t.Legible ∧ 1 ≤ t.rank

def Returned.tokens : Returned → List Token
  | .term t => t.tokens
  | .list ts => .mark "[" :: (Token.commas (ts.map Term.tokens) ++ [.mark "]"])

def Returned.spoken : Returned → Returned
  | .term t => .term t.spoken
  | .list ts => .list (ts.map Term.spoken)

namespace GeneratedUnit

/-- A unit over these inputs that is read back from its source: its registry holds declarations
and no text given as it is, and its function is legible and mentions usable names only. -/
structure Legible (inputs : List Input) (u : GeneratedUnit) : Prop where
  named : u.inputs = inputs.map Input.name
  declares : ∃ ds, u.registry.Lists ds
  zone : u.registry.zone.Unbroken
  tidy : u.body.Tidy
  body : u.body.Legible
  returns : u.returns.Legible
  usable : ∀ x ∈ u.mentions, x.Usable inputs

variable (u : GeneratedUnit)

/-- The tokens of the function that the factory returns. -/
def functionTokens : List Token :=
  .word "function" :: .word "evaluate" :: .mark "(" ::
    (Token.parameters u.inputs ++ .mark ")" :: .mark "\x7b" ::
      (u.body.tokens ++ .word "return" ::
        (u.returns.tokens ++ [.mark ";", .mark "\x7d", .mark ";"])))

/-- The tokens of a unit. -/
def tokens : List Token :=
  .word "export" :: .word "function" :: .word "createEvaluator" :: .mark "(" ::
    (Token.parameters ["runtime"] ++ .mark ")" :: .mark "\x7b" ::
      (u.factory.statements.flatMap FactoryStatement.tokens ++ .word "return" ::
        (u.functionTokens ++ [.mark "\x7d"])))

/-- The factory that the source of a unit reads as. -/
def spoken : Factory where
  statements := u.factory.statements.map FactoryStatement.spoken
  result := .evaluator u.inputs u.body.spoken u.returns.spoken

end GeneratedUnit

theorem FormatterKind.unbroken_pattern (k : FormatterKind) : k.pattern.Unbroken := by
  cases k <;> decide

/-- What a registry declares can be read back: formatters by their patterns, dates by their times.
-/
theorem Declaration.legible_statement (inputs : List Input) (d : Declaration) :
    d.statement.Legible inputs := by
  cases d with
  | formatter k =>
    refine ⟨.declaration (.formatter k), k.unbroken_pattern, show 1 ≤ 13 by decide, rfl, ?_⟩
    intro x value same
    cases same
  | dateConstant t =>
    have whole : 1 ≤ (Term.number t.toDouble).rank := by
      rw [Term.rank]
      split <;> decide
    refine ⟨.declaration (.dateConstant t), ⟨trivial, whole⟩, show 1 ≤ 12 by decide, rfl, ?_⟩
    intro x value same
    cases same
    exact ⟨_, rfl⟩

/-- The statements of the factory of a legible unit are the declarations of its registry and the
settings of zones. -/
theorem GeneratedUnit.Legible.factory {inputs : List Input} {u : GeneratedUnit}
    (legible : u.Legible inputs) : ∀ f ∈ u.factory.statements, f.Legible inputs := by
  obtain ⟨ds, lists⟩ := legible.declares
  rw [GeneratedUnit.factory, lists.memberStatements, lists.initStatements]
  refine List.forall_mem_append.2 ⟨List.forall_mem_map.2 ?_, List.forall_mem_map.2 ?_⟩
  · exact fun d _ => d.legible_statement inputs
  · intro k _
    refine ⟨.declaration (.formatter k), legible.zone, show 1 ≤ 13 by decide, rfl, ?_⟩
    intro x value same
    cases same

end RowExpr
