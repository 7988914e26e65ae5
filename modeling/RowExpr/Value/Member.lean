import RowExpr.Schema.Access
import RowExpr.Value.Conversion

/-!
Members of values: the elements of arrays, the units of texts, the fields of
records and the methods of records and dates. Absent values have none, and asking
one of them for a member is a fault.
-/

namespace RowExpr

/-- The position that a member name denotes in an array. -/
def Value.position? (field : Text) : Option Nat :=
  let n := Text.digitsValue field
  if Text.ofNat n = field then some n else none

/-- The element or unit at a position of an array or text, if there is one. -/
def Value.at? (v : Value) (i : Nat) : Option Value :=
  match v with
  | .array _ xs => xs[i]?
  | .typed _ _ xs => xs[i]?.map .number
  | .text t => t[i]?.map fun u => .text [u]
  | .record _ members => members.lookup (Text.ofNat i)
  | _ => none

/-- The number of elements or units. -/
def Value.length? : Value → Option Nat
  | .array _ xs => some xs.length
  | .typed _ _ xs => some xs.length
  | .text t => some t.length
  | _ => none

/-- The value at a position; undefined if there is none. An absent value has no positions. -/
def Value.index (v : Value) (i : Nat) : Except Fault Value :=
  if v.isAbsent then .error .wrongKind else .ok ((v.at? i).getD .undefined)

/-- The member of this name; undefined if there is none. An absent value has no members. Only
a value's own members count, not those that the host adds to all objects. -/
def Value.member (v : Value) (field : Text) : Except Fault Value :=
  match v with
  | .undefined | .null => .error .wrongKind
  | .record _ members => .ok ((members.lookup field).getD .undefined)
  | _ =>
    match v.length? with
    | some n =>
      if field = "length" then .ok (.number (Double.ofInt n))
      else .ok (((position? field).bind v.at?).getD .undefined)
    | none => .ok .undefined

/-- The result of a method without arguments. A date has the method that gives its time. -/
def Value.invoke (v : Value) (method : Text) : Except Fault Value :=
  match v with
  | .record _ members =>
    match members.lookup method with
    | some (.method _ result) => .ok result
    | _ => .error .wrongKind
  | .date _ t => if method = "getTime" then .ok (.number t.toDouble) else .error .wrongKind
  | _ => .error .wrongKind

/-- A node of a tree is told from other values by its member `kind`. -/
def Value.isNode (v : Value) (kind : Text) : Bool :=
  match v with
  | .record _ members =>
    match members.lookup ("kind" : Text) with
    | some (.text t) => t == kind
    | _ => false
  | _ => false

/-- What an accessor finds in a record. -/
def Accessor.read (a : Accessor) (record : Value) : Except Fault Value :=
  match a with
  | .index i => record.index i
  | .method name => record.invoke name
  | .member name => record.member name

/-! ## Parts of texts -/

/-- The code of the first unit of a text, NaN if it is empty. A record gives what its own
method of this name gives. -/
def Value.charCode : Value → Except Fault Value
  | .text [] => .ok (.number .nan)
  | .text (u :: _) => .ok (.number (Double.ofInt u.toNat))
  | v => v.invoke "charCodeAt"

/-- The part of a text between two bounds. A record gives what its own method of this name
gives. -/
def Value.substring (v start : Value) (stop : Option Value) : Except Fault Value :=
  match v with
  | .text t => .ok (.text (cut t start stop))
  | _ => v.invoke "substring"

end RowExpr
