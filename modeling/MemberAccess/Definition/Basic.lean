import MemberAccess.TypeDef
/-!
# Definition — types as their author describes them

A definition says what a type is called, what it derives from and what it
declares. It is a wish: a catalog checks it and turns it into a `TypeDef`
(`Catalog.define`). Members are described with the kind of dispatch they want,
properties with the storage behind their generated accessors.
-/

namespace MemberAccess

structure FieldDefinition where
  name : String
  type : TypeHandle
  visibility : Visibility := .anyone
  isStatic : Bool := false
  /-- The initial value; without one, the zero value of the field's type. -/
  initial : Option Value := none
deriving DecidableEq, Inhabited

structure ParameterDefinition where
  name : String
  type : TypeHandle
deriving DecidableEq, Inhabited, Repr

/-- Parameters with their positions. -/
def numberParameters (ps : List ParameterDefinition) : List Parameter :=
  ps.mapIdx fun i p => ⟨p.name, p.type, i⟩

/-- **How a method takes part in dispatch.** -/
inductive Dispatch where
  /-- Not at all. -/
  | direct
  /-- By opening a slot of its own. -/
  | virtual
  /-- By taking over an inherited slot. -/
  | override
deriving DecidableEq, Inhabited, Repr

structure MethodDefinition where
  name : String
  parameters : List ParameterDefinition := []
  returnType : TypeHandle := .void
  visibility : Visibility := .anyone
  isStatic : Bool := false
  dispatch : Dispatch := .direct
  body : Option MemberBody := none
deriving DecidableEq, Inhabited, Repr

def MethodDefinition.parameterTypes (m : MethodDefinition) : List TypeHandle :=
  m.parameters.map (·.type)

/-- How an accessor of a property is implemented. -/
inductive AccessorBody where
  /-- By reading or writing the property's storage. -/
  | generated
  | native (token : NativeId)
  /-- Not at all: in interfaces and abstract types. -/
  | absent
deriving DecidableEq, Inhabited, Repr

structure AccessorDefinition where
  visibility : Visibility := .anyone
  body : AccessorBody
deriving DecidableEq, Inhabited, Repr

/-- **The storage behind generated accessors.** -/
inductive Backing where
  | none
  /-- A hidden field made for the property. -/
  | auto
  /-- A field of the type, declared or inherited, by name. -/
  | field (name : String)
deriving DecidableEq, Inhabited, Repr

structure PropertyDefinition where
  name : String
  type : TypeHandle
  isStatic : Bool := false
  /-- The dispatch of both accessors. -/
  dispatch : Dispatch := .direct
  backing : Backing := .none
  getter : Option AccessorDefinition := none
  setter : Option AccessorDefinition := none
  indexParameters : List ParameterDefinition := []
deriving DecidableEq, Inhabited, Repr

namespace PropertyDefinition

/-- A property with both accessors generated over a storage. -/
def generated (name : String) (type : TypeHandle) (backing : Backing) : PropertyDefinition where
  name := name
  type := type
  backing := backing
  getter := some { body := .generated }
  setter := some { body := .generated }

/-- A public property kept in a hidden field; on an interface it is a
contract without a body. -/
def auto (name : String) (type : TypeHandle) : PropertyDefinition := generated name type .auto

/-- A public property kept in a field of the type. -/
def backedBy (name : String) (type : TypeHandle) (field : String) : PropertyDefinition :=
  generated name type (.field field)

/-- The name of the hidden field of a property. -/
def hiddenName (property : String) : String := "<" ++ property ++ ">backing"

/-- The hidden field of a property. -/
def hiddenField (p : PropertyDefinition) : FieldDefinition where
  name := hiddenName p.name
  type := p.type
  visibility := .owner
  isStatic := p.isStatic

/-- The getter's visibility, if there is a getter. -/
def setGetterVisibility (p : PropertyDefinition) (v : Visibility) : PropertyDefinition :=
  { p with getter := p.getter.map ({ · with visibility := v }) }

/-- The setter's visibility, if there is a setter. -/
def setSetterVisibility (p : PropertyDefinition) (v : Visibility) : PropertyDefinition :=
  { p with setter := p.setter.map ({ · with visibility := v }) }

end PropertyDefinition

structure ConstructorDefinition where
  parameters : List ParameterDefinition := []
  visibility : Visibility := .anyone
  body : Option NativeId := none
deriving DecidableEq, Inhabited, Repr

/-- **The description of a type.** -/
structure TypeDefinition where
  name : String
  kind : TypeKind
  isAbstract : Bool := false
  isSealed : Bool := false
  /-- The base class; a class without one derives from `Object`. -/
  base : Option TypeHandle := none
  /-- The interfaces that a class or struct implements, or an interface
  extends. -/
  interfaces : List TypeHandle := []
  fields : List FieldDefinition := []
  properties : List PropertyDefinition := []
  methods : List MethodDefinition := []
  constructors : List ConstructorDefinition := []
deriving DecidableEq, Inhabited

namespace TypeDefinition

/-- **The fields that the type stores**: the declared ones, then a hidden one
for each automatic property. Interfaces store nothing. -/
def storedFields (d : TypeDefinition) : List FieldDefinition :=
  d.fields ++
    if d.kind = .interfaceType then []
    else (d.properties.filter (·.backing = .auto)).map (·.hiddenField)

end TypeDefinition

end MemberAccess
