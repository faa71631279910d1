import MemberAccess.Catalog.Draft
/-!
# Catalog — binding interface slots to implementations

A class or struct binds the slot of every method that its interfaces require
to a method of its own: to one it declares, else to what the slot was bound to
by a base, else to an inherited method with the signature. Whatever is chosen
is looked up in the dispatch table once more, so that an interface slot always
names the most derived method. An abstract type may leave a slot unbound.

`bindAll` takes the interfaces in any order the caller likes.
-/

namespace MemberAccess

namespace TypeDef

variable (t : TypeDef)

/-- Whether a method can stand behind a required one. -/
def implements (required m : Method) : Bool :=
  !m.isStatic && m.body.isSome && m.hasSignature required.name required.parameterTypes

/-- What a method of this type is replaced by in its own slot. -/
def mostDerived (m : Method) : Method :=
  match m.slot.bind t.dispatch.find? with
  | some n => n
  | none => m

/-- **The implementation of a required method in a slot**, or nothing to be
done when a base has bound the slot and this type declares no method for it. -/
inductive Implementation where
  /-- The slot is to be bound to this method. -/
  | bind (m : Method)
  /-- The slot stays as it is. -/
  | keep
  /-- No method will do. -/
  | missing
deriving DecidableEq, Repr

/-- Finds the implementation of a required method. -/
def implementation (required : Method) (s : VirtualSlot) : Implementation :=
  match t.methods.find? (implements required) with
  | some m => .bind (t.mostDerived m)
  | none =>
    if (t.dispatch.find? s).isSome then .keep
    else
      match t.inheritedMethods.find? (implements required) with
      | some m => .bind (t.mostDerived m)
      | none => .missing

/-- Binds one required method of an interface. -/
def bindMethod (interface : String) (t : TypeDef) (required : Method) :
    Except DefinitionError TypeDef :=
  match required.slot with
  | none => .ok t
  | some s =>
    match t.implementation required s with
    | .bind m => .ok { t with dispatch := t.dispatch.bind s m }
    | .keep => .ok t
    | .missing =>
      if t.declaredAbstract then .ok t
      else .error (.unimplementedMember t.name interface required.name)

/-- Binds what an interface itself requires. -/
def bindInterface (t i : TypeDef) : Except DefinitionError TypeDef :=
  i.methods.foldlM (bindMethod i.name) t

/-- **Binds what all of these interfaces require**, one after the other. -/
def bindAll (interfaces : List TypeDef) : Except DefinitionError TypeDef :=
  if t.isInterface then .ok t else interfaces.foldlM bindInterface t

end TypeDef

/-- The interfaces among a type's ancestors. -/
def Catalog.interfacesOf (c : Catalog) (t : TypeDef) : List TypeDef :=
  (t.ancestors.filterMap c.find?).filter (·.isInterface)

end MemberAccess
