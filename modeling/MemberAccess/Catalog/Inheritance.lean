import MemberAccess.Catalog.Basic
import MemberAccess.Definition.Basic
/-!
# Catalog — what a type takes over from its base and its interfaces

The first pass of a definition finds the base class and the interfaces and
copies everything inherited into the new type: ancestors, fields with their
layout and defaults, properties, methods, the dispatch table. An interface
inherits from the interfaces it extends; a class or struct takes only the
ancestors of the interfaces it implements.
-/

namespace MemberAccess

/-- The elements of a list that clash with none kept before them. -/
def keepFirst {α : Type} (clash : α → α → Bool) (l : List α) : List α :=
  l.foldl (fun kept a => if kept.any (clash · a) then kept else kept ++ [a]) []

namespace TypeDef

/-- Ancestors joined by those of another type. -/
def joinAncestors (t u : TypeDef) : List TypeHandle :=
  t.ancestors ++ u.ancestors.filter fun h => !t.ancestors.contains h

/-- **A type with one more interface.** -/
def implement (t i : TypeDef) : TypeDef :=
  let t := { t with
    interfaces := t.interfaces ++ [i.handle]
    ancestors := t.joinAncestors i }
  if t.isInterface then
    { t with
      inheritedProperties := t.inheritedProperties ++ i.allProperties
      inheritedMethods := t.inheritedMethods ++ i.allMethods }
  else t

/-- **A type derived from a base class.** -/
def derive (t b : TypeDef) : TypeDef :=
  { t with
    base := some b.handle
    ancestors := t.joinAncestors b
    inheritedFields := b.allFields
    layout := b.layout
    defaults := b.defaults
    inheritedProperties := b.allProperties
    inheritedMethods := b.allMethods
    dispatch := b.dispatch }

/-- Two inherited methods clash when they are one and the same or sit in one
slot. -/
def methodsClash (m n : Method) : Bool :=
  m.id == n.id || (n.slot.isSome && m.slot == n.slot)

/-- Drops what was inherited twice: properties by name, methods by identity
and by slot. -/
def withoutClashes (t : TypeDef) : TypeDef :=
  { t with
    inheritedProperties := keepFirst (fun p q => p.name == q.name) t.inheritedProperties
    inheritedMethods := keepFirst methodsClash t.inheritedMethods }

end TypeDef

namespace Catalog

variable (c : Catalog)

/-- **The base of a new type.** A class derives from a class that is not
sealed; structs and interfaces have no base. -/
def resolveBase (d : TypeDefinition) : Except DefinitionError (Option TypeDef) :=
  match d.kind, d.base with
  | .classType, base => do
    let b ← c.lookup (base.getD .object)
    if b.kind ≠ .classType then throw (.invalidBase d.name b.name .notAClass)
    else if b.isSealed then throw (.invalidBase d.name b.name .isSealed)
    else return some b
  | kind, some base => do
    let b ← c.lookup base
    throw (.invalidBase d.name b.name
      (if kind = .structType then .structWithBase else .interfaceWithBase))
  | _, none => return none

/-- Adds an interface by its handle. -/
def implement (d : TypeDefinition) (t : TypeDef) (h : TypeHandle) :
    Except DefinitionError TypeDef := do
  let i ← c.lookup h
  if i.isInterface then return t.implement i
  else throw (.notAnInterface d.name i.name)

/-- **Everything that a new type inherits.** The base is checked before the
interfaces. -/
def inherit (d : TypeDefinition) (t : TypeDef) : Except DefinitionError TypeDef := do
  let base ← c.resolveBase d
  let t ← d.interfaces.foldlM (c.implement d) t
  let t := match base with
    | some b => t.derive b
    | none => t
  return t.withoutClashes

end Catalog

end MemberAccess
