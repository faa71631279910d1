import MemberAccess.Identity
import MemberAccess.Value
/-!
# Member — fields, methods, properties and constructors

What a type declares. A member carries its own identity and the type that
declares it; a field says where its value lives, a method which body it has
and in which dispatch slot it sits.

A body may read and write the heap, the heap holds objects, objects hold
their type and a type holds bodies. So a member only *names* its native body
by a token; what a token means is supplied when code runs (`Natives`).
-/

namespace MemberAccess

/-- Who may use a member. -/
inductive Visibility where
  /-- Everyone: the member is public. -/
  | anyone
  /-- The declaring type and its subtypes. -/
  | family
  /-- The declaring assembly. -/
  | assembly
  /-- The declaring type alone. -/
  | owner
deriving DecidableEq, Inhabited, Repr

/-- The word that declares a visibility. -/
def Visibility.keyword : Visibility → String
  | anyone => "public"
  | family => "protected"
  | assembly => "internal"
  | owner => "private"

def Visibility.isPublic : Visibility → Bool
  | anyone => true
  | _ => false

/-- A parameter, with its position counted from zero. -/
structure Parameter where
  name : String
  type : TypeHandle
  position : Nat
deriving DecidableEq, Inhabited, Repr

/-- **Where a field's value lives.** -/
inductive Storage where
  /-- In a slot of each instance. -/
  | slot (index : Nat)
  /-- In one cell shared by all instances: the field is static. -/
  | cell (ref : CellRef)
deriving DecidableEq, Inhabited, Repr

def Storage.isStatic : Storage → Bool
  | slot _ => false
  | cell _ => true

/-- The token of a native body. -/
structure NativeId where
  index : Nat
deriving DecidableEq, Inhabited, Repr

/-- **The body of a method.** Accessors generated for a property go to its
storage directly; any other body is native. -/
inductive MemberBody where
  | readSlot (index : Nat)
  | writeSlot (index : Nat)
  | readCell (ref : CellRef)
  | writeCell (ref : CellRef)
  | native (token : NativeId)
deriving DecidableEq, Inhabited, Repr

/-- The body that reads a storage. -/
def Storage.reader : Storage → MemberBody
  | slot i => .readSlot i
  | cell r => .readCell r

/-- The body that writes its argument to a storage. -/
def Storage.writer : Storage → MemberBody
  | slot i => .writeSlot i
  | cell r => .writeCell r

/-! ## The four kinds of member -/

structure Field where
  id : MemberId
  name : String
  declaringType : TypeHandle
  type : TypeHandle
  visibility : Visibility
  storage : Storage
deriving DecidableEq, Inhabited, Repr

namespace Field

def isStatic (f : Field) : Bool := f.storage.isStatic

/-- The slot of an instance field; a static field has none. -/
def slot? (f : Field) : Option Nat :=
  match f.storage with
  | .slot i => some i
  | .cell _ => none

end Field

/-- **A method.** It is virtual when it sits in a dispatch slot and abstract
when it has no body. -/
structure Method where
  id : MemberId
  name : String
  declaringType : TypeHandle
  parameters : List Parameter
  returnType : TypeHandle
  visibility : Visibility
  isStatic : Bool
  slot : Option VirtualSlot
  body : Option MemberBody
deriving DecidableEq, Inhabited, Repr

namespace Method

def returnsVoid (m : Method) : Bool := m.returnType == .void

def isVirtual (m : Method) : Bool := m.slot.isSome

def isAbstract (m : Method) : Bool := m.body.isNone

def parameterTypes (m : Method) : List TypeHandle := m.parameters.map (·.type)

/-- A signature is a name and the parameter types in order. -/
def hasSignature (m : Method) (name : String) (types : List TypeHandle) : Bool :=
  m.name == name && m.parameterTypes == types

end Method

structure Property where
  id : MemberId
  name : String
  declaringType : TypeHandle
  type : TypeHandle
  getter : Option Method
  setter : Option Method
  indexParameters : List Parameter
deriving DecidableEq, Inhabited, Repr

namespace Property

def isIndexed (p : Property) : Bool := !p.indexParameters.isEmpty

/-- A property is static when its accessors are. -/
def isStatic (p : Property) : Bool :=
  match p.getter <|> p.setter with
  | some m => m.isStatic
  | none => false

/-- The get accessor, unless it is not public and only public ones are asked
for. -/
def getMethod? (p : Property) (nonPublic : Bool) : Option Method :=
  p.getter.filter fun m => nonPublic || m.visibility.isPublic

/-- The set accessor, under the same rule. -/
def setMethod? (p : Property) (nonPublic : Bool) : Option Method :=
  p.setter.filter fun m => nonPublic || m.visibility.isPublic

end Property

/-- **A constructor.** Its body runs on an instance that already holds the
type's defaults; without one the defaults stay. -/
structure Constructor where
  id : MemberId
  declaringType : TypeHandle
  parameters : List Parameter
  visibility : Visibility
  body : Option NativeId
deriving DecidableEq, Inhabited, Repr

def Constructor.parameterTypes (c : Constructor) : List TypeHandle :=
  c.parameters.map (·.type)

/-- **A member of any kind.** -/
inductive Member where
  | field (f : Field)
  | property (p : Property)
  | method (m : Method)
  | constructor (c : Constructor)
deriving DecidableEq, Inhabited, Repr

namespace Member

def id : Member → MemberId
  | field f => f.id
  | property p => p.id
  | method m => m.id
  | constructor c => c.id

/-- Constructors go by `.ctor`. -/
def name : Member → String
  | field f => f.name
  | property p => p.name
  | method m => m.name
  | constructor _ => ".ctor"

def declaringType : Member → TypeHandle
  | field f => f.declaringType
  | property p => p.declaringType
  | method m => m.declaringType
  | constructor c => c.declaringType

end Member

end MemberAccess
