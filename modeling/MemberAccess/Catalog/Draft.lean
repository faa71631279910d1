import MemberAccess.Catalog.Inheritance
import MemberAccess.Exec
/-!
# Catalog — a type under construction, and its members

A `Draft` is a type that is being defined, with the supply of identities for
its members. This file has one step per member: `Catalog.addField`,
`Draft.addMethod`, `Draft.addProperty` and `Draft.addConstructor`. A step
either rejects the member or appends it; only a field touches the heap, where
its initial value and, if it is static, its cell are laid out.
-/

namespace MemberAccess

/-- **A type under construction.** -/
structure Draft where
  type : TypeDef
  supply : Supply
deriving DecidableEq, Inhabited

namespace Draft

/-- The identity of the next member. -/
def nextId (dr : Draft) : MemberId × Draft :=
  let (n, supply) := dr.supply.take
  (⟨n⟩, { dr with supply := supply })

def invalid {α : Type} (dr : Draft) (member : String) (flaw : MemberFlaw) :
    Except DefinitionError α :=
  .error (.invalidMember dr.type.name member flaw)

/-! ## Fields -/

/-- Appends a field. An instance field takes the next slot, with its value as
the slot's default. -/
def appendField (dr : Draft) (f : FieldDefinition) (initial : Value) (cell : Option CellRef) :
    Draft :=
  let (id, dr) := dr.nextId
  let t := dr.type
  let field : Field := {
    id := id
    name := f.name
    declaringType := t.handle
    type := f.type
    visibility := f.visibility
    storage := match cell with
      | some r => .cell r
      | none => .slot t.layout.length }
  let t := { t with fields := t.fields ++ [field] }
  { dr with
    type := match cell with
      | some _ => t
      | none => { t with layout := t.layout ++ [field], defaults := t.defaults ++ [initial] } }

end Draft

open Exec in
/-- **One field of a definition.** A given initial value is copied; otherwise
the field's type must be known, and the value is its zero. -/
def Catalog.addField (c : Catalog) (d : TypeDefinition) (dr : Draft) (f : FieldDefinition) :
    Exec DefinitionError Draft := do
  if d.kind = .interfaceType then
    Exec.throw (.invalidMember d.name f.name .fieldOnInterface)
  else
    let initial ← match f.initial with
      | some v => detach v
      | none => do
        let t ← ofExcept (c.lookup f.type)
        zeroOf t
    if f.isStatic then
      let cell ← Exec.alloc (·.allocCell initial)
      return dr.appendField f initial (some cell)
    else
      return dr.appendField f initial none

namespace TypeDef

variable (t : TypeDef)

/-! ## Methods -/

/-- **What is wrong with a method**, if anything. -/
def methodFlaw? (m : MethodDefinition) : Option MemberFlaw :=
  if t.isInterface && m.body.isSome then some .bodyOnInterface
  else if m.isStatic && (t.isInterface || m.dispatch != .direct) then some .staticAndVirtual
  else if m.body.isNone && !t.isInterface && !(t.declaredAbstract && m.dispatch != .direct) then
    some .bodyMissing
  else none

/-- The inherited method that an override takes over from: the first instance
method with the signature. -/
def overridden? (m : MethodDefinition) : Option Method :=
  t.inheritedMethods.find? fun n => !n.isStatic && n.hasSignature m.name m.parameterTypes

/-- Binds a slot to a method. Slots that were bound to the method it replaces,
such as those of interfaces, follow. -/
def install (s : VirtualSlot) (m : Method) : DispatchTable :=
  match t.dispatch.find? s with
  | some old => (t.dispatch.redirect old m).bind s m
  | none => t.dispatch.bind s m

/-- **Appends a method.** An override hides the inherited methods of its slot;
a class or struct binds the slot of a method with a body. -/
def appendMethod (dispatch : Dispatch) (m : Method) : TypeDef :=
  { t with
    methods := t.methods ++ [m]
    inheritedMethods :=
      if dispatch = .override then
        t.inheritedMethods.filter fun n => !(m.slot.isSome && n.slot == m.slot)
      else t.inheritedMethods
    dispatch := match m.slot with
      | some s => if !t.isInterface && m.body.isSome then t.install s m else t.dispatch
      | none => t.dispatch }

end TypeDef

namespace Draft

/-- **The slot of a new method.** Interface methods and virtual ones open a
slot, an override takes over the slot of what it overrides. -/
def chooseSlot (dr : Draft) (m : MethodDefinition) :
    Except DefinitionError (Option VirtualSlot × Draft) :=
  if dr.type.isInterface || m.dispatch = .virtual then
    let (n, supply) := dr.supply.take
    .ok (some ⟨n⟩, { dr with supply := supply })
  else if m.dispatch = .override then
    match (dr.type.overridden? m).bind (·.slot) with
    | some s => .ok (some s, dr)
    | none => .error (.nothingToOverride dr.type.name m.name)
  else .ok (none, dr)

/-- **One method of a definition.** -/
def addMethod (dr : Draft) (m : MethodDefinition) : Except DefinitionError (Method × Draft) :=
  match dr.type.methodFlaw? m with
  | some flaw => dr.invalid m.name flaw
  | none => do
    let (slot, dr) ← dr.chooseSlot m
    let (id, dr) := dr.nextId
    let method : Method := {
      id := id
      name := m.name
      declaringType := dr.type.handle
      parameters := numberParameters m.parameters
      returnType := m.returnType
      visibility := m.visibility
      isStatic := m.isStatic
      slot := slot
      body := m.body }
    return (method, { dr with type := dr.type.appendMethod m.dispatch method })

/-! ## Properties -/

/-- **The storage behind a property.** An interface has none; a named backing
field must exist and be static exactly when the property is. -/
def backingStorage (dr : Draft) (p : PropertyDefinition) :
    Except DefinitionError (Option Storage) :=
  match p.backing with
  | .none => .ok none
  | .auto =>
    if dr.type.isInterface then .ok none
    else .ok ((dr.type.field? (PropertyDefinition.hiddenName p.name)).map (·.storage))
  | .field name =>
    match dr.type.field? name with
    | none => .error (.unknownBackingField dr.type.name p.name name)
    | some f =>
      if f.isStatic = p.isStatic then .ok (some f.storage)
      else dr.invalid p.name .backingStaticness

/-- **The body of an accessor**, given the one that a storage would generate. -/
def accessorBody (dr : Draft) (p : PropertyDefinition) (a : AccessorDefinition)
    (generated : Option MemberBody) : Except DefinitionError (Option MemberBody) :=
  match a.body with
  | .absent => .ok none
  | .native token => .ok (some (.native token))
  | .generated =>
    if dr.type.isInterface then .ok none
    else if !p.indexParameters.isEmpty then dr.invalid p.name .generatedIndexed
    else
      match generated with
      | some body => .ok (some body)
      | none => dr.invalid p.name .generatedUnbacked

/-- Adds an accessor, if the property has it, as the method `m` with the
accessor's visibility and body. -/
def addAccessor (dr : Draft) (p : PropertyDefinition) (accessor : Option AccessorDefinition)
    (generated : Option MemberBody) (m : MethodDefinition) :
    Except DefinitionError (Option Method × Draft) :=
  match accessor with
  | none => .ok (none, dr)
  | some a => do
    let body ← dr.accessorBody p a generated
    let (method, dr) ← dr.addMethod { m with visibility := a.visibility, body := body }
    return (some method, dr)

/-- The method that gets a property, but for visibility and body. -/
def getMethod (p : PropertyDefinition) : MethodDefinition where
  name := "get_" ++ p.name
  parameters := p.indexParameters
  returnType := p.type
  isStatic := p.isStatic
  dispatch := p.dispatch

/-- The method that sets a property; the new value is its last parameter. -/
def setMethod (p : PropertyDefinition) : MethodDefinition where
  name := "set_" ++ p.name
  parameters := p.indexParameters ++ [⟨"value", p.type⟩]
  isStatic := p.isStatic
  dispatch := p.dispatch

/-- **One property of a definition**: its accessors as methods, then the
property itself, which hides inherited ones of its name. -/
def addProperty (dr : Draft) (p : PropertyDefinition) : Except DefinitionError Draft := do
  let storage ← dr.backingStorage p
  let (getter, dr) ← dr.addAccessor p p.getter (storage.map (·.reader)) (getMethod p)
  let (setter, dr) ← dr.addAccessor p p.setter (storage.map (·.writer)) (setMethod p)
  let (id, dr) := dr.nextId
  let t := dr.type
  let property : Property := {
    id := id
    name := p.name
    declaringType := t.handle
    type := p.type
    getter := getter
    setter := setter
    indexParameters := numberParameters p.indexParameters }
  return { dr with
    type := { t with
      inheritedProperties := t.inheritedProperties.filter (·.name != p.name)
      properties := t.properties ++ [property] } }

/-! ## Constructors -/

/-- One constructor of a definition. -/
def addConstructor (dr : Draft) (k : ConstructorDefinition) : Draft :=
  let (id, dr) := dr.nextId
  let t := dr.type
  let constructor : Constructor := {
    id := id
    declaringType := t.handle
    parameters := numberParameters k.parameters
    visibility := k.visibility
    body := k.body }
  { dr with type := { t with constructors := t.constructors ++ [constructor] } }

/-- **The constructors of a definition.** A class that declares none gets one
without parameters, for its subtypes alone when it is abstract. -/
def addConstructors (dr : Draft) (d : TypeDefinition) : Except DefinitionError Draft :=
  if d.kind = .interfaceType then
    if d.constructors.isEmpty then .ok dr
    else .error (.invalidMember d.name ".ctor" .constructorOnInterface)
  else if d.constructors.isEmpty && d.kind = .classType then
    .ok (dr.addConstructor { visibility := if d.isAbstract then .family else .anyone })
  else .ok (d.constructors.foldl addConstructor dr)

end Draft

end MemberAccess
