import MemberAccess.Accessor.Property
import MemberAccess.Accessor.Method
import MemberAccess.Accessor.Constructor
/-!
# Accessor — everything that can be asked of a reflector

A `Request` names a member, or leaves it absent, and what is wanted for it;
`Reflector.plan` says what comes of it. Choices left open are filled in from
the reflector's defaults.
-/

namespace MemberAccess

/-- **A request for an accessor.** An absent descriptor is a request too, and
always fails. -/
inductive Request where
  | fieldGetter (field : Option Field) (view : Option View)
  | fieldSetter (field : Option Field) (view : Option View)
  | propertyGetter (property : Option Property) (nonPublic : Option Bool) (view : Option View)
  | propertySetter (property : Option Property) (nonPublic : Option Bool) (view : Option View)
  | methodInvoker (method : Option Method) (validate : Option Bool)
  | constructorFactory (constructor : Option Constructor) (validate : Option Bool)
  /-- The default factory of a type. -/
  | typeFactory (type : Option TypeDef)
  | memberGetter (member : Option Member)
  | memberSetter (member : Option Member)
  /-- A getter for a field or property, an invoker, or a factory. -/
  | memberAccessor (member : Option Member)
deriving DecidableEq, Inhabited

namespace Reflector

variable (r : Reflector)

/-- The choice about methods that are not public. -/
def nonPublic (choice : Option Bool) : Bool := choice.getD r.defaults.includeNonPublic

/-- The choice about guards. -/
def validate (choice : Option Bool) : Bool := choice.getD r.defaults.validateArguments

/-- The getter of a member, which has to be a field or property. -/
def planMemberGetter : Member → Except AccessorError Plan
  | .field f => r.planFieldGetter (some f) none
  | .property p => r.planPropertyGetter (some p) (r.nonPublic none) none
  | m => .error (.invalidShape (.notAValueMember m.name) "member")

/-- The setter of a member, which has to be a field or property. -/
def planMemberSetter : Member → Except AccessorError Plan
  | .field f => r.planFieldSetter (some f) none
  | .property p => r.planPropertySetter (some p) (r.nonPublic none) none
  | m => .error (.invalidShape (.notAValueMember m.name) "member")

/-- The natural accessor of a member. -/
def planMemberAccessor : Member → Except AccessorError Plan
  | .field f => r.planFieldGetter (some f) none
  | .property p => r.planPropertyGetter (some p) (r.nonPublic none) none
  | .method m => r.planMethodInvoker (some m) (r.validate none)
  | .constructor k => r.planConstructorFactory (some k) (r.validate none)

/-- **What a request amounts to.** -/
def plan : Request → Except AccessorError Plan
  | .fieldGetter f view => r.planFieldGetter f view
  | .fieldSetter f view => r.planFieldSetter f view
  | .propertyGetter p choice view => r.planPropertyGetter p (r.nonPublic choice) view
  | .propertySetter p choice view => r.planPropertySetter p (r.nonPublic choice) view
  | .methodInvoker m choice => r.planMethodInvoker m (r.validate choice)
  | .constructorFactory k choice => r.planConstructorFactory k (r.validate choice)
  | .typeFactory t => r.planTypeFactory t
  | .memberGetter m => present m "member" >>= r.planMemberGetter
  | .memberSetter m => present m "member" >>= r.planMemberSetter
  | .memberAccessor m => present m "member" >>= r.planMemberAccessor

end Reflector

end MemberAccess
