import MemberAccess.Accessor.Basic
import MemberAccess.Catalog.Basic
/-!
# Accessor — which views of a member are sound

A view fixes the static types of a member's owner and of its value. Reading
may widen the value, writing may also narrow it, since every value written is
coerced. `View.check` accepts a view or says what is wrong with it.
-/

namespace MemberAccess

namespace Registry

variable (r : Registry)

/-- A type that an accessor refers to; `param` is the parameter at fault. -/
def require (h : TypeHandle) (param : String) : Except AccessorError TypeDef :=
  match r.find? h with
  | some t => .ok t
  | none => .error (.invalidShape (.unknownType h) param)

/-- A type's name, or its handle when the registry does not have it. -/
def typeName (h : TypeHandle) : String :=
  match r.find? h with
  | some t => t.name
  | none => h.text

end Registry

/-- **A field or property as a place for values.** -/
structure Place where
  declaringType : TypeHandle
  type : TypeHandle
  isStatic : Bool
deriving DecidableEq, Inhabited, Repr

def Field.place (f : Field) : Place := ⟨f.declaringType, f.type, f.isStatic⟩

def Property.place (p : Property) : Place := ⟨p.declaringType, p.type, p.isStatic⟩

/-- The direction of an access. -/
inductive Access where
  | read
  | write
deriving DecidableEq, Inhabited, Repr

namespace View

variable (r : Registry) (place : Place) (v : View)

/-- What is wrong with the value type of a view that reads. -/
def readFlaw? : Option ShapeFlaw :=
  if r.isAssignable v.value place.type then none
  else some (.valueNotAssignable (r.typeName v.value) (r.typeName place.type))

/-- What is wrong with a view that writes, its owner apart. An instance member
of a value type would be written in a copy. -/
def writeFlaw? : Option ShapeFlaw :=
  if !place.isStatic && (r.find? v.owner).any (·.isValueType) then
    some (.ownerIsValueType (r.typeName v.owner))
  else if r.isAssignable place.type v.value || r.isAssignable v.value place.type then none
  else some (.valueUnrelated (r.typeName v.value) (r.typeName place.type))

/-- **What is wrong with a view of a member**, if anything. -/
def flaw? (access : Access) : Option ShapeFlaw :=
  if !r.contains v.owner then some (.unknownType v.owner)
  else if !r.contains v.value then some (.unknownType v.value)
  else if v.owner != .object && !r.isAssignable place.declaringType v.owner then
    some (.ownerIncompatible (r.typeName v.owner) (r.typeName place.declaringType))
  else
    match access with
    | .read => v.readFlaw? r place
    | .write => v.writeFlaw? r place

/-- Accepts a view, or fails with what is wrong with it. -/
def check (access : Access) (param : String) : Except AccessorError Unit :=
  match v.flaw? r place access with
  | none => .ok ()
  | some flaw => .error (.invalidShape flaw param)

end View

end MemberAccess
