import MemberAccess.Accessor.Plan
/-!
# Accessor — factories

A factory of a constructor coerces the declared arguments in order and only
then creates the instance, which holds the type's defaults when the
constructor's body starts. A default factory needs no constructor for value
types and a public one without parameters for classes.
-/

namespace MemberAccess

namespace TypeDef

/-- **What keeps a type from having a default instance**, if anything. -/
def defaultFlaw? (t : TypeDef) : Option ShapeFlaw :=
  if t.isInterface then some .typeIsInterface
  else if t.isAbstract then some .typeIsAbstract
  else if !t.isValueType && t.defaultConstructor?.isNone then some .noDefaultConstructor
  else none

/-- The instructions that create a default instance. -/
def defaultOps (t : TypeDef) : List Op :=
  if t.isValueType then .initObject t :: Op.boxIfNeeded t
  else [.newObject t 0 (t.defaultConstructor?.bind (·.body))]

end TypeDef

namespace Registry

variable (r : Registry)

/-- **The body of a type's default factory.** -/
def defaultFactory (t : TypeDef) : Except AccessorError Code :=
  compileListing (.straight (t.defaultOps ++ [.ret]) 0) (r.bodyName t.handle ".ctor" "default")

/-- The guard of a constructor's factory. -/
def factoryGuard (k : Constructor) (validate : Bool) : Guard :=
  ⟨false, if validate then k.parameters.length else 0⟩

/-- **The body of a constructor's factory**, for its declaring type. -/
def constructorFactory (k : Constructor) (declaring : TypeDef) (validate : Bool) :
    Except AccessorError Code := do
  let g := factoryGuard k validate
  let arguments ← r.argumentsOps k.parameterTypes "constructor"
  let ops := arguments ++ [.newObject declaring k.parameters.length k.body, .ret]
  compileListing { lines := g.lines ++ ops.map .op, labelCount := g.labelCount }
    (r.bodyName declaring.handle ".ctor" "new")

end Registry

namespace Reflector

variable (r : Reflector)

/-- The default factory of a type. -/
def planTypeFactory (type : Option TypeDef) : Except AccessorError Plan := do
  let t ← present type "type"
  match t.defaultFlaw? with
  | some flaw => throw (.invalidShape flaw "type")
  | none =>
    return {
      key := CacheKey.forType r.registry.id t.handle .defaultFactory
      shape := .defaultFactory
      code := r.registry.defaultFactory t }

/-- The factory of a constructor. -/
def planConstructorFactory (constructor : Option Constructor) (validate : Bool) :
    Except AccessorError Plan := do
  let k ← present constructor "constructor"
  let declaring ← r.registry.require k.declaringType "constructor"
  if declaring.isAbstract then throw (.invalidShape .declaringTypeIsAbstract "constructor")
  else
    return {
      key := CacheKey.forMember r.registry.id k.id .constructorFactory
        { validateArguments := validate }
      shape := .factory
      code := r.registry.constructorFactory k declaring validate }

end Reflector

end MemberAccess
