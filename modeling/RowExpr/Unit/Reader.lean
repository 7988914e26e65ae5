import RowExpr.Unit.Evaluator
import RowExpr.Unit.Token

/-!
Reading units from text. `Source.read?` understands the forms that units are made
of: exported factories and constants, and, inside a factory, the statements and
terms of generated code. Any other text is refused.
-/

namespace RowExpr

/-- What a source text does when it is loaded. -/
inductive SourceItem where
  | factory (name : Text) (f : Factory)
  | constant (name : Text) (value : Term)
  /-- Raises an error. -/
  | raise (message : Text)

/-- A step of reading: it takes tokens off the front, or fails. -/
abbrev Reading := StateT (List Token) Option

namespace Reading

def fail {α : Type} : Reading α := fun _ => none

/-- The next token, without taking it. -/
def peek : Reading (Option Token) := do return (← get).head?

def take : Reading Token := fun tokens =>
  match tokens with
  | token :: rest => some (token, rest)
  | [] => none

/-- Takes the next token if it is the given one. -/
def accept (token : Token) : Reading Bool := fun tokens =>
  match tokens with
  | t :: rest => if t = token then some (true, rest) else some (false, tokens)
  | [] => some (false, [])

def expect (token : Token) : Reading Unit := do
  if ← accept token then return else fail

def acceptMark (m : String) : Reading Bool := accept (.mark m)

def mark (m : String) : Reading Unit := expect (.mark m)

def acceptWord (w : String) : Reading Bool := accept (.word w)

def word (w : String) : Reading Unit := expect (.word w)

/-- A name. -/
def name : Reading Text := do
  match ← take with
  | .word t => return t
  | _ => fail

/-- A type annotation: a name, perhaps followed by brackets and by an alternative. -/
def typeMark : Reading Text := do
  let mut t ← name
  if ← acceptMark "[" then
    mark "]"
    t := t ++ "[]"
  if ← acceptMark "|" then
    t := t ++ " | " ++ (← name)
  return t

/-- An annotation after a colon, if there is one. -/
def typeMark? : Reading (Option Text) := do
  if ← acceptMark ":" then return some (← typeMark) else return none

/-! ## Terms -/

/-- The infix operators by rising precedence. -/
def levels : List (List InfixOperator) := [
  [.or], [.and], [.bitOr], [.bitXor], [.bitAnd],
  [.strictEq, .looseEq, .looseNe], [.lt, .le, .gt, .ge],
  [.shiftLeft, .shiftRight], [.add, .sub], [.mul, .div, .rem]]

/-- Takes an operator of a level, if one is next. -/
def operator? (ops : List InfixOperator) : Reading (Option InfixOperator) := do
  match ← peek with
  | some (.mark m) =>
    match ops.find? (·.symbol == m) with
    | some op =>
      let _ ← take
      return some op
    | none => return none
  | _ => return none

/-- The functions of one argument that are called by name. -/
def functions : List Function :=
  [.trunc, .abs, .single, .string, .charOf, .divisor, .epochMillis] ++ Primitive.all.map .valueOf

/-- The functions of two arguments. -/
def functions₂ : List Function₂ := [.wordProduct, .equals]

/-- The term of a word that is not called. -/
def ofWord (w : Text) : Term :=
  if w = "undefined" then .undefined
  else if w = "null" then .null
  else if w = "true" then .bool true
  else if w = "false" then .bool false
  else if w = "NaN" then .number .nan
  else if w = "Infinity" then .number (.infinite false)
  else .name (.plain w)

/-- A call of the term `callee`, by its name. -/
def call (callee : Term) (arguments : List Term) : Option Term :=
  match arguments with
  | [a] => (functions.find? (·.text == callee.toText)).map (.call · a)
  | [a, b] => (functions₂.find? (·.text == callee.toText)).map (.call₂ · a b)
  | _ => none

/-- A call of a method. -/
def callMethod (t : Term) (method : Text) (arguments : List Term) : Option Term :=
  match call (.member t method) arguments with
  | some result => some result
  | none =>
    match t, arguments with
    | _, [] => some (.invoke t method)
    | .name f, [a] =>
      if method = "format" then some (.format f a)
      else if method = "parse" then some (.parse f a)
      else if method = "substring" then some (.tail t a)
      else if method = "charCodeAt" ∧ a = .number (.zero false) then some (.charCode t)
      else none
    | _, [a] => if method = "substring" then some (.tail t a) else none
    | _, [a, b] => if method = "substring" then some (.slice t a b) else none
    | _, _ => none

def ofOption {α : Type} : Option α → Reading α
  | some a => return a
  | none => fail

mutual

def term : (fuel : Nat) → Reading Term
  | 0 => fail
  | fuel + 1 => do
    let test ← level fuel levels
    if ← acceptMark "?" then
      let yes ← term fuel
      mark ":"
      let no ← term fuel
      return .cond test yes no
    else
      return test

/-- A term whose operators are of these levels or bind tighter. -/
def level : (fuel : Nat) → List (List InfixOperator) → Reading Term
  | 0, _ => fail
  | fuel + 1, [] => unary fuel
  | fuel + 1, ops :: tighter => do
    let left ← level fuel tighter
    operands fuel ops tighter left

/-- The operators of one level and their right operands. -/
def operands : (fuel : Nat) → List InfixOperator → List (List InfixOperator) → Term → Reading Term
  | 0, _, _, _ => fail
  | fuel + 1, ops, tighter, left => do
    match ← operator? ops with
    | some op =>
      let right ← level fuel tighter
      operands fuel ops tighter (.binary op left right)
    | none => return left

def unary : (fuel : Nat) → Reading Term
  | 0 => fail
  | fuel + 1 => do
    if ← acceptMark "!" then
      return .unary .not (← unary fuel)
    else if ← acceptMark "-" then
      return .unary .negate (← unary fuel)
    else if ← acceptMark "~" then
      return .unary .complement (← unary fuel)
    else if ← acceptWord "new" then
      word "Date"
      mark "("
      let t ← term fuel
      mark ")"
      return .call .makeDate t
    else
      let t ← primary fuel
      suffixes fuel t

def primary : (fuel : Nat) → Reading Term
  | 0 => fail
  | fuel + 1 => do
    match ← take with
    | .number x => return .number x
    | .text t => return .text t
    | .word w => return ofWord w
    | .mark m =>
      if m = "(" then
        let t ← term fuel
        if ← acceptWord "as" then
          let type ← typeMark
          mark ")"
          return .paren (.ascribe t type)
        else
          mark ")"
          return .paren t
      else
        fail

/-- Members, positions and calls after a term. -/
def suffixes : (fuel : Nat) → Term → Reading Term
  | 0, _ => fail
  | fuel + 1, t => do
    if ← acceptMark "." then
      let field ← name
      if ← acceptMark "(" then
        let args ← arguments fuel
        suffixes fuel (← ofOption (callMethod t field args))
      else
        suffixes fuel (.member t field)
    else if ← acceptMark "[" then
      match ← take with
      | .number x =>
        mark "]"
        match x.toInt? with
        | some (.ofNat i) => suffixes fuel (.index t i)
        | _ => fail
      | .text field =>
        mark "]"
        if ← acceptMark "(" then
          let args ← arguments fuel
          suffixes fuel (← ofOption (callMethod t field args))
        else
          suffixes fuel (.member t field)
      | _ => fail
    else if ← acceptMark "(" then
      let args ← arguments fuel
      suffixes fuel (← ofOption (call t args))
    else
      return t

/-- The arguments of a call, up to the closing parenthesis. -/
def arguments : (fuel : Nat) → Reading (List Term)
  | 0 => fail
  | fuel + 1 => do
    if ← acceptMark ")" then
      return []
    else
      let t ← term fuel
      if ← acceptMark "," then
        return t :: (← arguments fuel)
      else
        mark ")"
        return [t]

end

/-! ## Statements -/

/-- An assignment after the name. -/
def assigned (fuel : Nat) : Reading Term := do
  mark "="
  let value ← term fuel
  mark ";"
  return value

/-- The statements of a block, up to what is no statement of generated code. -/
def block : (fuel : Nat) → Reading Block
  | 0 => fail
  | fuel + 1 => do
    if ← acceptWord "const" then
      let x ← name
      let type ← typeMark?
      let value ← assigned fuel
      return .declare (.plain x) type value :: (← block fuel)
    else if ← acceptWord "let" then
      let x ← name
      mark ":"
      let type ← typeMark
      mark ";"
      return .reserve (.plain x) type :: (← block fuel)
    else if ← acceptWord "if" then
      mark "("
      let test ← term fuel
      mark ")"
      mark "\x7b"
      let yes ← block fuel
      mark "\x7d"
      word "else"
      mark "\x7b"
      let no ← block fuel
      mark "\x7d"
      return .branch test yes no :: (← block fuel)
    else if ← acceptWord "try" then
      mark "\x7b"
      let x ← name
      let value ← assigned fuel
      mark "\x7d"
      word "catch"
      mark "\x7b"
      let otherwise ← block fuel
      mark "\x7d"
      return .attempt (.plain x) value otherwise :: (← block fuel)
    else
      match ← peek with
      | some (.word w) =>
        if w = "return" then
          return []
        else
          let _ ← take
          let value ← assigned fuel
          return .assign (.plain w) value :: (← block fuel)
      | _ => return []

/-- What a function returns, after the word for it. -/
def returned (fuel : Nat) : Reading Returned := do
  if ← acceptMark "[" then
    let rec items : Nat → Reading (List Term)
      | 0 => fail
      | n + 1 => do
        if ← acceptMark "]" then
          return []
        else
          let t ← term fuel
          if ← acceptMark "," then
            return t :: (← items n)
          else
            mark "]"
            return [t]
    return .list (← items fuel)
  else
    return .term (← term fuel)

/-- The parameters of a function, up to the closing parenthesis. -/
def parameters : (fuel : Nat) → Reading (List Text)
  | 0 => fail
  | fuel + 1 => do
    if ← acceptMark ")" then
      return []
    else
      let x ← name
      let _ ← typeMark?
      if ← acceptMark "," then
        return x :: (← parameters fuel)
      else
        mark ")"
        return [x]

/-- What a factory returns, after the word for it: a function, or a term. -/
def factoryResult (fuel : Nat) : Reading FactoryResult := do
  if ← acceptWord "function" then
    let _ ← name
    mark "("
    let inputs ← parameters fuel
    mark "\x7b"
    let body ← block fuel
    word "return"
    let returns ← returned fuel
    mark ";"
    mark "\x7d"
    mark ";"
    return .evaluator inputs body returns
  else
    match ← get with
    | .mark m :: .mark n :: .mark arrow :: rest =>
      if m = "(" ∧ n = ")" ∧ arrow = "=>" then
        set rest
        let t ← term fuel
        mark ";"
        return .evaluator [] [] (.term t)
      else
        let t ← term fuel
        mark ";"
        return .value t
    | _ =>
      let t ← term fuel
      mark ";"
      return .value t

/-- The statements of a factory and what it returns. -/
def factory : (fuel : Nat) → Reading Factory
  | 0 => fail
  | fuel + 1 => do
    if ← acceptWord "return" then
      let result ← factoryResult fuel
      return ⟨[], result⟩
    else
      let statement ← factoryStatement fuel
      let rest ← factory fuel
      return { rest with statements := statement :: rest.statements }
where
  factoryStatement (fuel : Nat) : Reading FactoryStatement := do
    if ← acceptWord "const" then
      let x ← name
      let _ ← typeMark?
      mark "="
      match ← get with
      | .word w :: .mark dot :: .word f :: rest =>
        if w = "runtime" ∧ dot = "." ∧ f = "createFormatter" then
          set rest
          mark "("
          let pattern ← term fuel
          mark ")"
          mark ";"
          return .formatter (.plain x) pattern
        else
          let value ← term fuel
          mark ";"
          return .constant (.plain x) value
      | _ =>
        let value ← term fuel
        mark ";"
        return .constant (.plain x) value
    else
      let x ← name
      mark "."
      word "setTimeZone"
      mark "("
      let zone ← term fuel
      mark ")"
      mark ";"
      return .setZone (.plain x) zone

/-- The items of a source, up to its end. -/
def items : (fuel : Nat) → Reading (List SourceItem)
  | 0 => fail
  | fuel + 1 => do
    if (← get).isEmpty then
      return []
    else if ← acceptWord "throw" then
      word "new"
      word "Error"
      mark "("
      match ← take with
      | .text message =>
        mark ")"
        mark ";"
        return .raise message :: (← items fuel)
      | _ => fail
    else
      word "export"
      if ← acceptWord "const" then
        let x ← name
        let _ ← typeMark?
        let value ← assigned fuel
        return .constant x value :: (← items fuel)
      else
        word "function"
        let x ← name
        mark "("
        let _ ← parameters fuel
        mark "\x7b"
        let f ← factory fuel
        mark "\x7d"
        return .factory x f :: (← items fuel)

end Reading

/-- The items of a source text, `none` if it is not well formed. -/
def SourceItem.read? (source : Text) : Option (List SourceItem) := do
  let tokens ← Token.ofText? source
  let (result, _) ← Reading.items (16 * tokens.length + 16) tokens
  return result

end RowExpr
