import MemberAccess.Code.Machine
/-!
# Accessor — compiled accessors and the keys they are kept under

An accessor is a finished body together with what it is for: reading or
writing a field or property, invoking a method, running a constructor,
creating a default instance. It is known by the key it was compiled for and by
the identity of its body, which copies of the accessor share.
-/

namespace MemberAccess

/-- **Choices that change a compiled body**, and so belong to its key. -/
structure Options where
  /-- Whether invokers and factories check the receiver and the argument array
  before anything else. -/
  validateArguments : Bool := true
  /-- Whether accessors of properties that are not public may be used. -/
  includeNonPublic : Bool := true
deriving DecidableEq, Inhabited, Repr

/-- **A typed view**: the static types through which a field or property is
seen. -/
structure View where
  owner : TypeHandle
  value : TypeHandle
deriving DecidableEq, Inhabited, Repr

/-- What an accessor is for. -/
inductive Purpose where
  | fieldGetter
  | fieldSetter
  | propertyGetter
  | propertySetter
  | methodInvoker
  | constructorFactory
  | defaultFactory
deriving DecidableEq, Inhabited, Repr

namespace Purpose

def all : List Purpose :=
  [fieldGetter, fieldSetter, propertyGetter, propertySetter, methodInvoker, constructorFactory,
    defaultFactory]

/-- The purpose in one word. -/
def name : Purpose → String
  | fieldGetter => "FieldGetter"
  | fieldSetter => "FieldSetter"
  | propertyGetter => "PropertyGetter"
  | propertySetter => "PropertySetter"
  | methodInvoker => "MethodInvoker"
  | constructorFactory => "ConstructorFactory"
  | defaultFactory => "DefaultFactory"

end Purpose

/-- What an accessor was compiled for. -/
inductive CacheTarget where
  | member (id : MemberId)
  | type (handle : TypeHandle)
deriving DecidableEq, Inhabited, Repr

/-- **What a compiled accessor depends on.** Registries are part of it, since
relations between types are theirs. -/
structure CacheKey where
  registry : RegistryId
  target : CacheTarget
  purpose : Purpose
  options : Options := {}
  view : Option View := none
deriving DecidableEq, Inhabited, Repr

namespace CacheKey

/-- The key of a member's accessor. -/
def forMember (registry : RegistryId) (id : MemberId) (purpose : Purpose) (options : Options) :
    CacheKey where
  registry := registry
  target := .member id
  purpose := purpose
  options := options

/-- The key of a type's accessor, which no options change. -/
def forType (registry : RegistryId) (handle : TypeHandle) (purpose : Purpose) : CacheKey where
  registry := registry
  target := .type handle
  purpose := purpose

def withView (k : CacheKey) (v : Option View) : CacheKey := { k with view := v }

end CacheKey

/-- **The form of an accessor**, which decides how it is called. -/
inductive Shape where
  | getter
  | setter
  | invoker
  | factory
  | defaultFactory
  | typedGetter
  | typedSetter
deriving DecidableEq, Inhabited, Repr

/-- **A compiled accessor.** -/
structure Accessor where
  shape : Shape
  view : Option View
  code : Code
  body : BodyId
deriving DecidableEq, Inhabited

namespace Accessor

variable (natives : Natives) (a : Accessor)

/-- Whether two accessors share one body. -/
def sameBody (a b : Accessor) : Bool := a.body == b.body

/-- **Runs an accessor.** Its body only jumps forwards, so no instruction runs
twice and its length bounds the run. -/
def call (frame : Frame) : Exec AccessorError Value := a.code.run natives a.code.ops.length frame

/-- Reads the member of a receiver, which a static member ignores. -/
def get (receiver : Value) : Exec AccessorError Value := a.call natives (.getter receiver)

/-- Reads the member and converts what it holds. -/
def getAs (c : Conversion) (receiver : Value) : Exec AccessorError Value := do
  let v ← a.get natives receiver
  Exec.mapFault .runtime (Exec.read (·.convert c v))

/-- Writes the member of a receiver; a boxed receiver is changed in place. -/
def set (receiver input : Value) : Exec AccessorError Unit := do
  let _ ← a.call natives (.setter receiver input)

/-- Calls the method; one that returns nothing yields null. Arguments past the
declared ones are ignored. -/
def invoke (receiver : Value) (arguments : Option (List Value)) : Exec AccessorError Value :=
  a.call natives (.invoker receiver arguments)

/-- Creates an instance. -/
def create (arguments : Option (List Value)) : Exec AccessorError Value :=
  a.call natives (.factory arguments)

/-- Creates a default instance. -/
def createDefault : Exec AccessorError Value := a.create natives none

end Accessor

end MemberAccess
