import MemberAccess.DispatchTable
/-!
# TypeDef — a type as it is once defined

A type is frozen when it is defined. It carries everything its users ask for,
so that nobody walks a hierarchy at run time: all its ancestors, its members
declared and inherited, the layout of its instances with their defaults, and
a dispatch table from virtual slots to the most derived methods.
-/

namespace MemberAccess

/-- The built-in value types. -/
inductive Primitive where
  | bool
  | int32
  | int64
  | float64
deriving DecidableEq, Inhabited, Repr

/-- **What sort of type a type is.** -/
inductive TypeKind where
  /-- The type of nothing. -/
  | void
  | primitive (p : Primitive)
  /-- A reference type whose instances have an identity. -/
  | classType
  /-- A value type, copied at every boundary. -/
  | structType
  /-- A contract, to be implemented. -/
  | interfaceType
deriving DecidableEq, Inhabited, Repr

/-- The word for a built-in value type. -/
def Primitive.keyword : Primitive → String
  | bool => "bool"
  | int32 => "int32"
  | int64 => "int64"
  | float64 => "float64"

namespace TypeKind

/-- The word for a sort of type. -/
def keyword : TypeKind → String
  | void => "void"
  | primitive p => p.keyword
  | classType => "class"
  | structType => "struct"
  | interfaceType => "interface"

/-- Values of primitive and struct types are copied; all others are shared. -/
def isValueType : TypeKind → Bool
  | primitive _ | structType => true
  | void | classType | interfaceType => false

end TypeKind

/-- **A defined type.** -/
structure TypeDef where
  handle : TypeHandle
  name : String
  kind : TypeKind
  /-- Whether the definition says that the type is abstract. -/
  declaredAbstract : Bool
  isSealed : Bool
  base : Option TypeHandle
  /-- The interfaces implemented, or extended, directly. -/
  interfaces : List TypeHandle
  /-- Every type this one can be used as, itself included. -/
  ancestors : List TypeHandle
  fields : List Field
  inheritedFields : List Field
  /-- The instance fields in slot order, inherited ones first. -/
  layout : List Field
  /-- What each slot of a new instance holds. -/
  defaults : List Value
  properties : List Property
  inheritedProperties : List Property
  methods : List Method
  inheritedMethods : List Method
  constructors : List Constructor
  dispatch : DispatchTable
deriving DecidableEq

namespace TypeDef

/-- A type without members: an ancestor of itself and, unless it is the type
of nothing, a kind of `Object`. -/
def blank (handle : TypeHandle) (name : String) (kind : TypeKind) : TypeDef where
  handle := handle
  name := name
  kind := kind
  declaredAbstract := false
  isSealed := kind.isValueType
  base := none
  interfaces := []
  ancestors := if kind = .void then [handle] else [handle].insert .object
  fields := []
  inheritedFields := []
  layout := []
  defaults := []
  properties := []
  inheritedProperties := []
  methods := []
  inheritedMethods := []
  constructors := []
  dispatch := {}

instance : Inhabited TypeDef := ⟨blank .void "Void" .void⟩

variable (t : TypeDef)

/-! ## Kinds -/

def isInterface : Bool := t.kind == .interfaceType

/-- Whether the type has no instances of its own. Interfaces never do. -/
def isAbstract : Bool := t.declaredAbstract || t.isInterface

def isValueType : Bool := t.kind.isValueType

/-- Null is a value of every type that is not a value type. -/
def acceptsNull : Bool := !t.isValueType

/-- Whether the type can be used as `target`. -/
def isSubtypeOf (target : TypeHandle) : Bool := t.ancestors.contains target

/-! ## Members, declared ones before inherited ones -/

def allFields : List Field := t.fields ++ t.inheritedFields

def allProperties : List Property := t.properties ++ t.inheritedProperties

def allMethods : List Method := t.methods ++ t.inheritedMethods

def field? (name : String) : Option Field := t.allFields.find? (·.name == name)

def property? (name : String) : Option Property := t.allProperties.find? (·.name == name)

def method? (name : String) : Option Method := t.allMethods.find? (·.name == name)

/-- The first method with a signature. -/
def methodWith? (name : String) (types : List TypeHandle) : Option Method :=
  t.allMethods.find? (·.hasSignature name types)

def constructor? (types : List TypeHandle) : Option Constructor :=
  t.constructors.find? (·.parameterTypes == types)

/-- The first public constructor without parameters. -/
def defaultConstructor? : Option Constructor :=
  t.constructors.find? fun c => c.parameters.isEmpty && c.visibility.isPublic

/-- **A member by name**: a field before a property, a property before a
method. -/
def member? (name : String) : Option Member :=
  (t.field? name).map .field <|> (t.property? name).map .property <|>
    (t.method? name).map .method

/-! ## Slots and dispatch -/

/-- The slot of an instance field by name; of several fields with one name,
that of the most derived. -/
def instanceSlot? (name : String) : Option Nat :=
  (t.layout.reverse.find? (·.name == name)).bind (·.slot?)

/-- **The method that a call of `m` runs on an instance of this type.** A
method outside any slot is itself; an unbound slot falls back on the method
called, if that has a body. -/
def resolve? (m : Method) : Option Method :=
  match m.slot with
  | some s => t.dispatch.find? s <|> (if m.body.isSome then some m else none)
  | none => some m

end TypeDef

end MemberAccess
