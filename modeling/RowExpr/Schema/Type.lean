import RowExpr.Text.Quoted

/-!
Types of expressions: the basic types, arrays of the primitive ones, and the
composite types that describe a record. A composite is a plain list of named
fields in one of four layouts, or a renaming that gives the fields of another
composite new names, position by position.

`Composite.plain?`, `Composite.tuple?` and `Composite.renaming?` build composites
and refuse repeated field names and renamings of the wrong arity.
-/

namespace RowExpr

/-- The types with a value of their own, none of them an object. -/
inductive Primitive where
  | int | long | short | byte | float | double | boolean | char
deriving DecidableEq, Repr

inductive Basic where
  | primitive (p : Primitive)
  | string
  | date
deriving DecidableEq, Repr

/-- How a record stores its fields: by position, behind methods, or as members. -/
inductive Layout where
  | row | caseClass | tuple | pojo
deriving DecidableEq, Repr

mutual

inductive Ty where
  | basic (b : Basic)
  | array (element : Primitive)
  | composite (c : Composite)

inductive Composite where
  | plain (layout : Layout) (fields : List Field)
  | renaming (underlying : Composite) (names : List Text)

inductive Field where
  | mk (name : Text) (type : Ty)

end

instance : Inhabited Ty := ⟨.basic .string⟩

/-! ## Basic types -/

abbrev Basic.int : Basic := .primitive .int
abbrev Basic.long : Basic := .primitive .long
abbrev Basic.short : Basic := .primitive .short
abbrev Basic.byte : Basic := .primitive .byte
abbrev Basic.float : Basic := .primitive .float
abbrev Basic.double : Basic := .primitive .double
abbrev Basic.boolean : Basic := .primitive .boolean
abbrev Basic.char : Basic := .primitive .char

abbrev Ty.boolean : Ty := .basic .boolean
abbrev Ty.string : Ty := .basic .string

def Primitive.all : List Primitive :=
  [.int, .long, .short, .byte, .float, .double, .boolean, .char]

def Basic.all : List Basic := Primitive.all.map .primitive ++ [.string, .date]

def Primitive.name : Primitive → Text
  | .int => "Int"
  | .long => "Long"
  | .short => "Short"
  | .byte => "Byte"
  | .float => "Float"
  | .double => "Double"
  | .boolean => "Boolean"
  | .char => "Char"

def Basic.name : Basic → Text
  | .primitive p => p.name
  | .string => "String"
  | .date => "Date"

def Primitive.isIntegral : Primitive → Bool
  | .int | .long | .short | .byte => true
  | _ => false

def Primitive.isFractional : Primitive → Bool
  | .float | .double => true
  | _ => false

/-- The basic type that a type is, if it is one. -/
def Ty.basic? : Ty → Option Basic
  | .basic b => some b
  | _ => none

/-- The primitive type that a type is, if it is one. -/
def Ty.primitive? : Ty → Option Primitive
  | .basic (.primitive p) => some p
  | _ => none

def Ty.isBasic (t : Ty) : Bool := t.basic?.isSome

def Ty.isBasicNamed (t : Ty) (b : Basic) : Bool := t.basic? == some b

def Ty.isPrimitive (t : Ty) : Bool := t.primitive?.isSome

def Ty.isIntegral (t : Ty) : Bool := t.primitive?.any Primitive.isIntegral

def Ty.isNumeric (t : Ty) : Bool := t.primitive?.any fun p => p.isIntegral || p.isFractional

def Ty.isArray : Ty → Bool
  | .array _ => true
  | _ => false

/-- The types whose equality is equality of values: primitives and strings. -/
def Ty.hasValueIdentity (t : Ty) : Bool := t.isPrimitive || t.isBasicNamed .string

/-! ## Composite types -/

def Field.name : Field → Text
  | .mk name _ => name

def Field.type : Field → Ty
  | .mk _ type => type

/-- The fields of a composite in order. A renaming has the types of the composite below it. -/
def Composite.fields : Composite → List Field
  | .plain _ fields => fields
  | .renaming underlying names =>
    List.zipWith (fun name field => .mk name field.type) names underlying.fields

def Composite.names (c : Composite) : List Text := c.fields.map Field.name

def Composite.arity (c : Composite) : Nat := c.fields.length

/-- The position of a field. -/
def Composite.index? (c : Composite) (name : Text) : Option Nat := c.names.findIdx? (· == name)

def Composite.hasField (c : Composite) (name : Text) : Bool := (c.index? name).isSome

def Composite.fieldType? (c : Composite) (name : Text) : Option Ty :=
  (c.fields.find? (·.name == name)).map Field.type

def Layout.name : Layout → Text
  | .row => "row"
  | .caseClass => "case-class"
  | .tuple => "tuple"
  | .pojo => "pojo"

/-- The word for the kind of a composite. -/
def Composite.kind : Composite → Text
  | .plain layout _ => layout.name
  | .renaming _ _ => "renaming"

/-- A composite in text: its kind and its field names. -/
def Composite.text (c : Composite) : Text :=
  c.kind ++ "(" ++ Text.join ", " c.names ++ ")"

/-- A type in text. -/
def Ty.text : Ty → Text
  | .basic b => b.name
  | .array element => element.name ++ "[]"
  | .composite c => c.text

/-- Two types are interchangeable. Basic types and arrays are so if they have the same name;
composites only if they are one and the same, which the caller tells by `same`. -/
def Ty.agrees (same : Bool) : Ty → Ty → Bool
  | .basic a, .basic b => a == b
  | .array a, .array b => a == b
  | .composite _, .composite _ => same
  | _, _ => false

/-- Why a composite cannot be built. -/
inductive SchemaError where
  | duplicateField (name : Text)
  | renamingArity (underlying : Composite) (given : Nat)

def SchemaError.message : SchemaError → Text
  | .duplicateField name => ("Duplicate field name \"" : Text) ++ name ++ "\""
  | .renamingArity underlying given =>
    ("Renaming of " : Text) ++ underlying.text ++ " expects " ++ Text.ofNat underlying.arity ++
      " field names, got " ++ Text.ofNat given

/-- The first name that already stands before it in the list; `seen` holds the names before the
list. -/
def Composite.firstDuplicate? (seen : List Text) : List Text → Option Text
  | [] => none
  | name :: rest => if name ∈ seen then some name else firstDuplicate? (name :: seen) rest

/-- The composite itself, or the error that its first repeated field name is. -/
def Composite.checkNames (c : Composite) : Except SchemaError Composite :=
  match firstDuplicate? [] c.names with
  | some name => .error (.duplicateField name)
  | none => .ok c

def Composite.plain? (layout : Layout) (fields : List Field) : Except SchemaError Composite :=
  checkNames (.plain layout fields)

/-- A tuple; its fields are named `f0`, `f1`, and so on. -/
def Composite.tuple? (types : List Ty) : Except SchemaError Composite :=
  checkNames (.plain .tuple (types.mapIdx fun i type => .mk (("f" : Text) ++ Text.ofNat i) type))

/-- A renaming. The number of names is checked before the names themselves. -/
def Composite.renaming? (underlying : Composite) (names : List Text) :
    Except SchemaError Composite :=
  if names.length ≠ underlying.arity then
    .error (.renamingArity underlying names.length)
  else
    checkNames (.renaming underlying names)

end RowExpr
