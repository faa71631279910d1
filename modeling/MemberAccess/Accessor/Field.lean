import MemberAccess.Accessor.Plan
/-!
# Accessor — getters and setters of fields

A field's getter loads its slot or cell and copies a value of a value type on
the way out; its setter coerces the input first, then checks the receiver,
then stores. Static fields never look at the receiver.
-/

namespace MemberAccess

namespace Registry

variable (r : Registry) (f : Field)

/-- **The body of a field's getter.** -/
def fieldGetter (owner : Option TypeHandle) : Except AccessorError Code := do
  let type ← r.require f.type "field"
  let load ← match f.storage with
    | .cell c => pure [Op.loadStaticField c]
    | .slot i => do
      let receiver ← r.receiverOps f.declaringType owner "field"
      pure (receiver ++ [.loadField i])
  compileListing (.straight (load ++ Op.boxIfNeeded type ++ [.ret]) 0)
    (r.bodyName f.declaringType f.name "get")

/-- **The body of a field's setter.** -/
def fieldSetter (owner value : Option TypeHandle) : Except AccessorError Code := do
  let type ← r.require f.type "field"
  let input ← r.inputOps type value "field"
  let store ← match f.storage with
    | .cell c => pure [.loadLocal 0, Op.storeStaticField c]
    | .slot i => do
      let receiver ← r.receiverOps f.declaringType owner "field"
      pure (receiver ++ [.loadLocal 0, .storeField i])
  compileListing (.straight (input ++ store ++ [.retVoid]) 1)
    (r.bodyName f.declaringType f.name "set")

/-- Checks a view, if there is one. -/
def checkView (place : Place) (view : Option View) (access : Access) (param : String) :
    Except AccessorError Unit :=
  match view with
  | some v => v.check r place access param
  | none => .ok ()

end Registry

namespace Reflector

variable (r : Reflector)

/-- The getter of a field, through a view or without one. -/
def planFieldGetter (field : Option Field) (view : Option View) : Except AccessorError Plan := do
  let f ← present field "field"
  return {
    key := (CacheKey.forMember r.registry.id f.id .fieldGetter {}).withView view
    shape := if view.isSome then .typedGetter else .getter
    code := do
      r.registry.checkView f.place view .read "field"
      r.registry.fieldGetter f (view.map (·.owner)) }

/-- The setter of a field, through a view or without one. -/
def planFieldSetter (field : Option Field) (view : Option View) : Except AccessorError Plan := do
  let f ← present field "field"
  return {
    key := (CacheKey.forMember r.registry.id f.id .fieldSetter {}).withView view
    shape := if view.isSome then .typedSetter else .setter
    code := do
      r.registry.checkView f.place view .write "field"
      r.registry.fieldSetter f (view.map (·.owner)) (view.map (·.value)) }

end Reflector

end MemberAccess
