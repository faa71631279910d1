import MemberAccess.Accessor.Field
/-!
# Accessor — getters and setters of properties

A property compiles to a call of its accessor method, so virtual and interface
properties dispatch on the receiver's runtime type. Indexed properties have no
such accessors, and methods that are not public are used on request only.
-/

namespace MemberAccess

namespace Property

variable (p : Property)

/-- **The get method that a getter calls.** -/
def resolveGet (nonPublic : Bool) : Except AccessorError Method :=
  if p.isIndexed then .error (.invalidShape .indexedGetter "property")
  else
    match p.getMethod? nonPublic, p.getter with
    | some m, _ => .ok m
    | none, none => .error (.invalidShape .noGetter "property")
    | none, some _ => .error (.invalidShape .noPublicGetter "property")

/-- **The set method that a setter calls.** -/
def resolveSet (nonPublic : Bool) : Except AccessorError Method :=
  if p.isIndexed then .error (.invalidShape .indexedSetter "property")
  else
    match p.setMethod? nonPublic, p.setter with
    | some m, _ => .ok m
    | none, none => .error (.invalidShape .noSetter "property")
    | none, some _ => .error (.invalidShape .noPublicSetter "property")

end Property

namespace Registry

variable (r : Registry) (p : Property) (m : Method)

/-- The receiver of an accessor method, unless it is static. -/
def accessorReceiver (owner : Option TypeHandle) : Except AccessorError (List Op) :=
  if m.isStatic then .ok [] else r.receiverOps m.declaringType owner "property"

/-- **The body of a property's getter**, which calls `m`. -/
def propertyGetter (owner : Option TypeHandle) : Except AccessorError Code := do
  let type ← r.require p.type "property"
  let receiver ← r.accessorReceiver m owner
  compileListing (.straight (receiver ++ [Op.callOf m] ++ Op.boxIfNeeded type ++ [.ret]) 0)
    (r.bodyName p.declaringType p.name "get")

/-- **The body of a property's setter**, which calls `m`. -/
def propertySetter (owner value : Option TypeHandle) : Except AccessorError Code := do
  let type ← r.require p.type "property"
  let input ← r.inputOps type value "property"
  let receiver ← r.accessorReceiver m owner
  compileListing (.straight (input ++ receiver ++ [.loadLocal 0, Op.callOf m, .retVoid]) 1)
    (r.bodyName p.declaringType p.name "set")

end Registry

namespace Reflector

variable (r : Reflector)

/-- The key of a property's accessor; only the choice about methods that are
not public matters to it. -/
def propertyKey (p : Property) (purpose : Purpose) (nonPublic : Bool) (view : Option View) :
    CacheKey :=
  (CacheKey.forMember r.registry.id p.id purpose { includeNonPublic := nonPublic }).withView view

/-- The getter of a property, through a view or without one. -/
def planPropertyGetter (property : Option Property) (nonPublic : Bool) (view : Option View) :
    Except AccessorError Plan := do
  let p ← present property "property"
  let m ← p.resolveGet nonPublic
  return {
    key := r.propertyKey p .propertyGetter nonPublic view
    shape := if view.isSome then .typedGetter else .getter
    code := do
      r.registry.checkView p.place view .read "property"
      r.registry.propertyGetter p m (view.map (·.owner)) }

/-- The setter of a property, through a view or without one. -/
def planPropertySetter (property : Option Property) (nonPublic : Bool) (view : Option View) :
    Except AccessorError Plan := do
  let p ← present property "property"
  let m ← p.resolveSet nonPublic
  return {
    key := r.propertyKey p .propertySetter nonPublic view
    shape := if view.isSome then .typedSetter else .setter
    code := do
      r.registry.checkView p.place view .write "property"
      r.registry.propertySetter p m (view.map (·.owner)) (view.map (·.value)) }

end Reflector

end MemberAccess
