import MemberAccess.Catalog.Interfaces
/-!
# Catalog — defining a type

`Catalog.define` runs the passes over a definition: the name and the kind are
checked, everything inherited is copied, fields, methods and properties are
added one by one, interface slots are bound, constructors follow. The first
member that is rejected ends the definition, and the catalog stays as it was.
-/

namespace MemberAccess

/-- What a definition leaves behind. -/
structure Defined where
  handle : TypeHandle
  catalog : Catalog
  supply : Supply
deriving DecidableEq, Inhabited

/-- Only classes, structs and interfaces can be defined. -/
def TypeKind.isDefinable : TypeKind → Bool
  | classType | structType | interfaceType => true
  | void | primitive _ => false

/-- **The new type before any member**, with its own fresh handle. Structs are
always sealed. -/
def TypeDefinition.start (d : TypeDefinition) (handle : TypeHandle) : TypeDef :=
  { TypeDef.blank handle d.name d.kind with
    declaredAbstract := d.isAbstract
    isSealed := d.isSealed || d.kind == .structType }

namespace Catalog

variable (c : Catalog)

/-- What is wrong with a definition before its members are looked at. -/
def checkHead (d : TypeDefinition) : Except DefinitionError Unit :=
  if (c.byName? d.name).isSome then .error (.duplicateType d.name)
  else if d.kind.isDefinable then .ok ()
  else .error (.invalidMember d.name d.name .undefinableKind)

/-- The members that do not touch the heap: methods, properties, interface
slots, constructors. -/
def addMembers (d : TypeDefinition) (dr : Draft) : Except DefinitionError Draft := do
  let dr ← d.methods.foldlM (fun dr m => (·.2) <$> dr.addMethod m) dr
  let dr ← d.properties.foldlM Draft.addProperty dr
  let t ← dr.type.bindAll (c.interfacesOf dr.type)
  Draft.addConstructors { dr with type := t } d

open Exec in
/-- **Defines a type.** -/
def define (d : TypeDefinition) (ids : Supply) : Exec DefinitionError Defined := do
  ofExcept (c.checkHead d)
  let (n, ids) := ids.take
  let t ← ofExcept (c.inherit d (d.start ⟨n⟩))
  let dr ← d.storedFields.foldlM (c.addField d) ⟨t, ids⟩
  let dr ← ofExcept (c.addMembers d dr)
  return { handle := ⟨n⟩, catalog := ⟨c.types ++ [dr.type]⟩, supply := dr.supply }

end Catalog

end MemberAccess
