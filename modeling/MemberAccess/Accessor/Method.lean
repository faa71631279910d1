import MemberAccess.Accessor.Plan
/-!
# Accessor — invokers of methods

An invoker checks the receiver, coerces the declared arguments in order and
calls the method, dispatching when it is virtual. A method that returns
nothing yields null; a result of a value type is copied on the way out.
-/

namespace MemberAccess

namespace Registry

variable (r : Registry) (m : Method)

/-- The guard of an invoker. -/
def invokerGuard (validate : Bool) : Guard :=
  if validate then ⟨!m.isStatic, m.parameters.length⟩ else ⟨false, 0⟩

/-- What becomes of a method's result. -/
def resultOps : Except AccessorError (List Op) :=
  if m.returnsVoid then .ok [.loadNull]
  else do
    let t ← r.require m.returnType "method"
    return Op.boxIfNeeded t

/-- **The body of an invoker.** -/
def methodInvoker (validate : Bool) : Except AccessorError Code := do
  let g := invokerGuard m validate
  let receiver ←
    if m.isStatic then pure [] else r.receiverOps m.declaringType none "method"
  let arguments ← r.argumentsOps m.parameterTypes "method"
  let result ← r.resultOps m
  let ops := receiver ++ arguments ++ [Op.callOf m] ++ result ++ [.ret]
  compileListing { lines := g.lines ++ ops.map .op, labelCount := g.labelCount }
    (r.bodyName m.declaringType m.name "invoke")

end Registry

namespace Reflector

/-- The invoker of a method. -/
def planMethodInvoker (r : Reflector) (method : Option Method) (validate : Bool) :
    Except AccessorError Plan := do
  let m ← present method "method"
  return {
    key := CacheKey.forMember r.registry.id m.id .methodInvoker { validateArguments := validate }
    shape := .invoker
    code := r.registry.methodInvoker m validate }

end Reflector

end MemberAccess
