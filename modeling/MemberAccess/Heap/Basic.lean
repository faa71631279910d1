import MemberAccess.TypeDef
import MemberAccess.Fault
/-!
# Heap — objects, their slots, and the cells of static fields

Every class instance and every boxed struct is an object: its type and one
value per instance field. Static fields have cells of their own. Objects and
cells are never removed, and the type of an object never changes; only slots
and cells are written.

A reference that was never handed out reads as an empty object of the type of
nothing, so that every look-up has an answer.
-/

namespace MemberAccess

/-- **An object**: its type, and a value for each slot of the layout. -/
structure Instance where
  type : TypeDef
  slots : List Value
deriving Inhabited

/-- **All objects and all static cells.** -/
structure Heap where
  objects : Array Instance := #[]
  cells : Array Value := #[]
deriving Inhabited

namespace Heap

variable (h : Heap)

/-! ## Objects -/

def instanceAt (r : ObjectRef) : Instance := h.objects.getD r.index default

/-- The runtime type of an object. -/
def typeAt (r : ObjectRef) : TypeDef := (h.instanceAt r).type

def slotsAt (r : ObjectRef) : List Value := (h.instanceAt r).slots

/-- **A new object**, behind all others. -/
def alloc (x : Instance) : ObjectRef × Heap :=
  (⟨h.objects.size⟩, { h with objects := h.objects.push x })

/-- Replaces the slots of an object. -/
def setSlots (r : ObjectRef) (slots : List Value) : Heap :=
  { h with objects := h.objects.modify r.index fun x => { x with slots := slots } }

/-- Reads a slot. -/
def load (r : ObjectRef) (i : Nat) : Except RuntimeFault Value :=
  match (h.slotsAt r)[i]? with
  | some v => .ok v
  | none => .error (.indexOutOfRange i (h.slotsAt r).length)

/-- **Writes a slot** of an object and nothing else. -/
def store (r : ObjectRef) (i : Nat) (v : Value) : Except RuntimeFault Heap :=
  if i < (h.slotsAt r).length then .ok (h.setSlots r ((h.slotsAt r).set i v))
  else .error (.indexOutOfRange i (h.slotsAt r).length)

/-- Reads an instance field by name. -/
def get? (r : ObjectRef) (name : String) : Option Value :=
  ((h.typeAt r).instanceSlot? name).bind fun i => (h.slotsAt r)[i]?

/-- Writes an instance field by name, if there is one. -/
def set? (r : ObjectRef) (name : String) (v : Value) : Option Heap :=
  ((h.typeAt r).instanceSlot? name).bind fun i => (h.store r i v).toOption

/-! ## Cells -/

def readCell (c : CellRef) : Value := h.cells.getD c.index .null

def writeCell (c : CellRef) (v : Value) : Heap :=
  { h with cells := h.cells.setIfInBounds c.index v }

/-- A new cell, behind all others. -/
def allocCell (v : Value) : CellRef × Heap :=
  (⟨h.cells.size⟩, { h with cells := h.cells.push v })

/-! ## What a value is

The type of a primitive is known from the value; that of an object is read
off the heap. -/

/-- The runtime type of a value; null has none. -/
def typeOf? : Value → Option TypeHandle
  | .null => none
  | .bool _ => some .bool
  | .int32 _ => some .int32
  | .int64 _ => some .int64
  | .float64 _ => some .float64
  | .str _ => some .string
  | .object r => some (h.typeAt r).handle

/-- The name of a value's runtime type. -/
def typeName : Value → String
  | .null => "null"
  | .bool _ => "Bool"
  | .int32 _ => "Int32"
  | .int64 _ => "Int64"
  | .float64 _ => "Float64"
  | .str _ => "String"
  | .object r => (h.typeAt r).name

/-- **Whether a value is a non-null instance of a type.** A primitive is an
instance of its own type and of `Object`. -/
def isInstance (v : Value) (target : TypeHandle) : Bool :=
  match v with
  | .null => false
  | .object r => (h.typeAt r).isSubtypeOf target
  | v => target == .object || h.typeOf? v == some target

/-- **A box is an object whose type is a value type**: the one kind of object
that is copied rather than shared. -/
def box? : Value → Option Instance
  | .object r => if (h.typeAt r).isValueType then some (h.instanceAt r) else none
  | _ => none

def isBox (v : Value) : Bool := (h.box? v).isSome

end Heap

end MemberAccess
