import MemberAccess.Definition.Error
import MemberAccess.TypeDef
/-!
# Catalog — the types defined so far

A catalog starts from the built-in types and grows by definitions
(`Catalog.define`); it never loses or changes a type. A `Registry` is a
catalog that has stopped growing, under an identity of its own.
-/

namespace MemberAccess

/-- **The types defined so far**, in the order of their definition. -/
structure Catalog where
  types : List TypeDef := []
deriving DecidableEq, Inhabited

namespace Catalog

variable (c : Catalog)

def find? (h : TypeHandle) : Option TypeDef := c.types.find? (·.handle == h)

def byName? (name : String) : Option TypeDef := c.types.find? (·.name == name)

def contains (h : TypeHandle) : Bool := (c.find? h).isSome

/-- A type that a definition refers to. -/
def lookup (h : TypeHandle) : Except DefinitionError TypeDef :=
  match c.find? h with
  | some t => .ok t
  | none => .error (.unknownType h)

/-- **Whether a value of type `source` can be used where `target` is
expected.** -/
def isAssignable (target source : TypeHandle) : Bool :=
  target == source ||
    match c.find? source with
    | some s => s.isSubtypeOf target
    | none => false

/-! ## The built-in types -/

/-- A constructor without parameters and without a body. -/
def implicitConstructor (id : MemberId) (type : TypeHandle) (v : Visibility) : Constructor where
  id := id
  declaringType := type
  parameters := []
  visibility := v
  body := none

/-- What sort of type a built-in type is. -/
def builtinKind (h : TypeHandle) : TypeKind :=
  if h = .void then .void
  else if h = .bool then .primitive .bool
  else if h = .int32 then .primitive .int32
  else if h = .int64 then .primitive .int64
  else if h = .float64 then .primitive .float64
  else .classType

/-- **A built-in type.** `Object` has a constructor, `String` is sealed and
derives from `Object`. -/
def builtinType (constructorId : MemberId) (h : TypeHandle) : TypeDef :=
  let t := TypeDef.blank h h.text (builtinKind h)
  if h = .object then { t with constructors := [implicitConstructor constructorId h .anyone] }
  else if h = .string then { t with base := some .object, isSealed := true }
  else t

/-- The catalog of the built-in types. -/
def standard (ids : Supply) : Catalog × Supply :=
  let (n, ids) := ids.take
  (⟨TypeHandle.builtins.map (builtinType ⟨n⟩)⟩, ids)

end Catalog

/-! ## Registries -/

/-- **A catalog that no longer grows.** -/
structure Registry extends Catalog where
  id : RegistryId
deriving DecidableEq, Inhabited

/-- Freezes a catalog. -/
def Catalog.freeze (c : Catalog) (ids : Supply) : Registry × Supply :=
  let (n, ids) := ids.take
  ({ types := c.types, id := ⟨n⟩ }, ids)

/-- A registry of the built-in types. -/
def Registry.standard (ids : Supply) : Registry × Supply :=
  let (c, ids) := Catalog.standard ids
  c.freeze ids

end MemberAccess
