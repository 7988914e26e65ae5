import RowExpr.Calendar.Instant
import RowExpr.Number.Decimal
import RowExpr.Text.Basic

/-!
The values that records hold and that evaluation computes. Dates, arrays, records
and methods are objects: two of them may have the same content and still be
different objects, which matters for strict equality and for what is equal only
to itself. An `Identity` tells which object a value is.
-/

namespace RowExpr

/-- Which object a value is. Objects that come with the records are numbered. The constant of a
time is one object. Any other object that evaluation makes differs from all others. -/
inductive Identity where
  | given (n : Nat)
  | constant
  | made
deriving DecidableEq, Repr

/-- What an array of fixed element type holds. -/
inductive ElementKind where
  | int32 | int16 | int8 | float32 | float64
deriving DecidableEq, Repr

inductive Value where
  | undefined
  | null
  | bool (b : Bool)
  | number (x : Double)
  | text (t : Text)
  | date (id : Identity) (t : Time)
  | array (id : Identity) (elements : List Value)
  | typed (id : Identity) (kind : ElementKind) (elements : List Double)
  | record (id : Identity) (members : List (Text × Value))
  | method (id : Identity) (result : Value)

instance : Inhabited Value := ⟨.undefined⟩

/-- A value is absent if it is null or undefined. -/
def Value.isAbsent : Value → Bool
  | .undefined | .null => true
  | _ => false

/-- The truth of a value as a condition: absent values, false, zero, NaN and the empty text are
false. -/
def Value.truthy : Value → Bool
  | .undefined | .null => false
  | .bool b => b
  | .number x => !(x.isNaN || x.isZero)
  | .text t => !t.isEmpty
  | _ => true

def ElementKind.name : ElementKind → Text
  | .int32 => "Int32Array"
  | .int16 => "Int16Array"
  | .int8 => "Int8Array"
  | .float32 => "Float32Array"
  | .float64 => "Float64Array"

def ElementKind.all : List ElementKind := [.int32, .int16, .int8, .float32, .float64]

/-! ## Conversions to text and number -/

mutual

/-- The text of a value. The elements of an array are joined with commas, absent ones being
empty. The texts of dates, records and methods only stand for those of the host; in particular
a record is not asked for a conversion of its own. -/
def Value.toText : Value → Text
  | .undefined => "undefined"
  | .null => "null"
  | .bool true => "true"
  | .bool false => "false"
  | .number x => x.text
  | .text t => t
  | .date _ t => ("Date(" : Text) ++ t.toDouble.text ++ ")"
  | .array _ elements => Text.join "," (Value.elementTexts elements)
  | .typed _ _ elements => Text.join "," (elements.map Double.text)
  | .record _ _ => "[object Object]"
  | .method _ _ => "[object Function]"

/-- The texts of the elements of an array. -/
def Value.elementTexts : List Value → List Text
  | [] => []
  | v :: vs => (if v.isAbsent then [] else v.toText) :: Value.elementTexts vs

end

end RowExpr
