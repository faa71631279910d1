import MemberAccess.Accessor.View
import MemberAccess.Accessor.Guard
/-!
# Accessor — what a request amounts to, and the parts of bodies

A request for an accessor is first checked, then turned into a `Plan`: the
key under which the accessor is kept, its form, and the body it would have if
it had to be compiled. Whether it is compiled is the cache's affair.

The parts that bodies share stand here too: the receiver cast to the types it
is seen as, the input coerced and put aside, the arguments coerced in order.
-/

namespace MemberAccess

/-- **The outcome of a request but for the cache.** -/
structure Plan where
  key : CacheKey
  shape : Shape
  code : Except AccessorError Code
deriving Inhabited

/-- **Compiles members of a registry's types.** -/
structure Reflector where
  registry : Registry
  /-- What requests use that leave a choice open. -/
  defaults : Options := {}
deriving Inhabited

/-- A descriptor that has to be there. -/
def present {α : Type} (x : Option α) (param : String) : Except AccessorError α :=
  match x with
  | some a => .ok a
  | none => .error (.nullArgument param)

/-- The body that a listing stands for. -/
def compileListing (l : Listing) (name : String) : Except AccessorError Code :=
  (l.assemble name).mapError .malformed

namespace Registry

variable (r : Registry)

/-- Bodies are named after the member and what is done with it. -/
def bodyName (declaring : TypeHandle) (member action : String) : String :=
  r.typeName declaring ++ "." ++ member ++ ":" ++ action

/-- The check of the receiver against a type that it is seen as. -/
def receiverCheck (h : TypeHandle) (param : String) : Except AccessorError (List Op) := do
  let t ← r.require h param
  return Op.receiverCheck t

/-- **The receiver, cast to the declaring type.** A view's owner, if it is
another type, is checked first. -/
def receiverOps (declaring : TypeHandle) (owner : Option TypeHandle) (param : String) :
    Except AccessorError (List Op) := do
  let view ← match owner.filter (· != declaring) with
    | some o => r.receiverCheck o param
    | none => pure []
  let own ← r.receiverCheck declaring param
  return .loadReceiver :: view ++ own

/-- **The input, coerced to the member's type and put into the first local.** A
view's value type, if it is another type, comes first. -/
def inputOps (member : TypeDef) (value : Option TypeHandle) (param : String) :
    Except AccessorError (List Op) := do
  let view ← match value.filter (· != member.handle) with
    | some v => do
      let t ← r.require v param
      pure [Op.castValue t]
    | none => pure []
  return .loadInput :: view ++ [.castValue member, .storeLocal 0]

/-- An argument, coerced to the type of its parameter. -/
def argumentOps (param : String) (i : Nat) (h : TypeHandle) : Except AccessorError (List Op) := do
  let t ← r.require h param
  return [.loadArgument i, .castValue t]

/-- The arguments from the `i`-th on, coerced in order. -/
def argumentsFrom (r : Registry) (param : String) :
    Nat → List TypeHandle → Except AccessorError (List Op)
  | _, [] => .ok []
  | i, h :: hs => do
    let first ← r.argumentOps param i h
    let rest ← r.argumentsFrom param (i + 1) hs
    return first ++ rest

/-- **All arguments**, coerced in order. -/
def argumentsOps (types : List TypeHandle) (param : String) : Except AccessorError (List Op) :=
  r.argumentsFrom param 0 types

end Registry

end MemberAccess
