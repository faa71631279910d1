import MemberAccess.Exec
/-!
# Coercion — what may pass where

Values that enter a member (inputs of setters, arguments) go through
`castValue`, receivers through `castReference`, and values that leave a member
through `boxValue`. No number is ever widened or narrowed. `convert` is the
coercion to a type fixed by the caller's own code rather than by a member.
-/

namespace MemberAccess

namespace Heap

variable (h : Heap)

/-- The fault of a value of the wrong type. -/
def castFault (v : Value) (target : String) : RuntimeFault :=
  .invalidCast (h.typeName v) target

/-- **Whether a value may be stored where a type is declared**: null where the
type accepts it, anything else when it is an instance. -/
def isAdmissible (v : Value) (t : TypeDef) : Bool :=
  if v.isNull then t.acceptsNull else h.isInstance v t.handle

/-- **A receiver, checked against the declaring type.** It is never copied: a
boxed receiver is the box that the member works on. Null passes where the type
is a reference type, and fails later, when the member is reached. -/
def castReference (v : Value) (t : TypeDef) : Except RuntimeFault Value :=
  if v.isNull then
    if t.isValueType then .error .nullReference else .ok v
  else if h.isInstance v t.handle then .ok v
  else .error (h.castFault v t.name)

end Heap

namespace Exec

/-- **A value coerced to a member's declared type.** Boxes are copied on the
way into a value type; a reference type shares what it is given. -/
def castValue (v : Value) (t : TypeDef) : Exec RuntimeFault Value := do
  if ← ask (·.isAdmissible v t) then
    if t.isValueType then detach v else return v
  else read fun h => .error (h.castFault v t.name)

/-- A value on its way out of a member: a box is copied, so that the caller
never shares the member's storage. -/
def boxValue (v : Value) : Exec RuntimeFault Value := detach v

end Exec

/-! ## Conversions -/

/-- **A type fixed by the caller's code** rather than by a member. -/
inductive Conversion where
  /-- Any value, as it is. -/
  | value
  | bool
  | int32
  | int64
  | float64
  | string
  /-- An object, which null is not. -/
  | object
  /-- Null, or what the inner conversion accepts. -/
  | optional (inner : Conversion)
deriving DecidableEq, Inhabited, Repr

namespace Heap

/-- Accepts a value that has the form asked for. -/
def accept (h : Heap) (v : Value) (ok : Bool) (target : String) : Except RuntimeFault Value :=
  if ok then .ok v else .error (h.castFault v target)

/-- **A value converted**, unchanged when it has the right form. -/
def convert (h : Heap) : Conversion → Value → Except RuntimeFault Value
  | .value, v => .ok v
  | .bool, v => h.accept v v.toBool?.isSome "Bool"
  | .int32, v => h.accept v v.toInt32?.isSome "Int32"
  | .int64, v => h.accept v v.toInt64?.isSome "Int64"
  | .float64, v => h.accept v v.toFloat64?.isSome "Float64"
  | .string, v => h.accept v v.toStr?.isSome "String"
  | .object, .null => .error .nullReference
  | .object, v => h.accept v v.toObject?.isSome "Object"
  | .optional _, .null => .ok .null
  | .optional inner, v => h.convert inner v

/-- The object that a value refers to. -/
def expectObject (h : Heap) : Value → Except RuntimeFault ObjectRef
  | .object r => .ok r
  | .null => .error .nullReference
  | v => .error (h.castFault v "Object")

def expectBool (h : Heap) : Value → Except RuntimeFault Bool
  | .bool b => .ok b
  | v => .error (h.castFault v "Bool")

def expectInt32 (h : Heap) : Value → Except RuntimeFault Int32
  | .int32 i => .ok i
  | v => .error (h.castFault v "Int32")

def expectString (h : Heap) : Value → Except RuntimeFault String
  | .str s => .ok s
  | v => .error (h.castFault v "String")

end Heap

end MemberAccess
