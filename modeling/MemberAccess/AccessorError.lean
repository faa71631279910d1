import MemberAccess.Code.Fault
import MemberAccess.Fault
/-!
# AccessorError — why an accessor cannot be made or fails

A request for an accessor fails when its descriptor is absent or when the
member does not have the right shape. Everything else happens when the
accessor runs: arguments missing, faults of values and members, faults of
hand-written code.
-/

namespace MemberAccess

/-- **What is wrong with the shape of a member or type.** Types and members
are given by name. -/
inductive ShapeFlaw where
  | unknownType (handle : TypeHandle)
  | ownerIncompatible (owner declaring : String)
  /-- A view that reads cannot hold what the member yields. -/
  | valueNotAssignable (value member : String)
  /-- A view would write to a copy of its owner. -/
  | ownerIsValueType (owner : String)
  /-- A view that writes has nothing in common with the member. -/
  | valueUnrelated (value member : String)
  | indexedGetter
  | indexedSetter
  | noGetter
  | noPublicGetter
  | noSetter
  | noPublicSetter
  | notAValueMember (member : String)
  | typeIsInterface
  | typeIsAbstract
  | noDefaultConstructor
  | declaringTypeIsAbstract
deriving DecidableEq, Inhabited, Repr

def ShapeFlaw.message : ShapeFlaw → String
  | unknownType handle => "Unknown type '" ++ handle.text ++ "'."
  | ownerIncompatible owner declaring =>
    "The owner type '" ++ owner ++ "' is not compatible with the declaring type '" ++
      declaring ++ "'."
  | valueNotAssignable value member =>
    "The value type '" ++ value ++ "' is not assignable from the member type '" ++ member ++ "'."
  | ownerIsValueType owner =>
    "An instance member cannot be written through the value-type owner '" ++ owner ++ "'."
  | valueUnrelated value member =>
    "The value type '" ++ value ++ "' is not compatible with the member type '" ++ member ++ "'."
  | indexedGetter => "Cannot create a dynamic getter for an indexed property."
  | indexedSetter => "Cannot create a dynamic setter for an indexed property."
  | noGetter => "The property does not have a get method."
  | noPublicGetter => "The property does not have a public get method."
  | noSetter => "The property does not have a set method."
  | noPublicSetter => "The property does not have a public set method."
  | notAValueMember member => "The member '" ++ member ++ "' is not a field or property."
  | typeIsInterface => "The type is an interface."
  | typeIsAbstract => "The type is abstract."
  | noDefaultConstructor => "The type does not have a public parameterless constructor."
  | declaringTypeIsAbstract => "The declaring type of the constructor is abstract."

/-- **Why an accessor cannot be made or fails.** `param` names the parameter
at fault. -/
inductive AccessorError where
  /-- A descriptor, receiver or argument array is absent. -/
  | nullArgument (param : String)
  | invalidShape (flaw : ShapeFlaw) (param : String)
  | notEnoughArguments (param : String) (required supplied : Nat)
  | malformed (fault : CodeFault)
  | runtime (fault : RuntimeFault)
deriving DecidableEq, Inhabited

/-- A coarse sorting of errors. -/
inductive ErrorKind where
  /-- An input that has to be there is absent. -/
  | nullArgument
  /-- The member, the code or the argument count does not fit. -/
  | invalidShape
  /-- A value has the wrong type. -/
  | typeMismatch
  /-- A low-level fault that no guard caught. -/
  | unguardedFault
  /-- The member itself failed. -/
  | member
deriving DecidableEq, Inhabited, Repr

def ErrorKind.name : ErrorKind → String
  | nullArgument => "NullArgument"
  | invalidShape => "InvalidShape"
  | typeMismatch => "TypeMismatch"
  | unguardedFault => "UnguardedFault"
  | member => "Member"

namespace AccessorError

/-- The cause in one word, for programs; faults at run time keep their own. -/
def name : AccessorError → String
  | nullArgument _ => "NullArgument"
  | invalidShape _ _ => "InvalidShape"
  | notEnoughArguments _ _ _ => "NotEnoughArguments"
  | malformed _ => "Emit"
  | runtime fault => fault.name

/-- The error in a sentence, for people. -/
def message : AccessorError → String
  | nullArgument param => "Value cannot be null. (Parameter '" ++ param ++ "')"
  | invalidShape flaw param => flaw.message ++ " (Parameter '" ++ param ++ "')"
  | notEnoughArguments param required supplied =>
    "Not enough arguments in the argument array: " ++ toString required ++ " required, " ++
      toString supplied ++ " supplied. (Parameter '" ++ param ++ "')"
  | malformed fault => "Accessor emission failed: " ++ fault.message
  | runtime fault => fault.message

def kind : AccessorError → ErrorKind
  | nullArgument _ => .nullArgument
  | invalidShape _ _ | notEnoughArguments _ _ _ | malformed _ => .invalidShape
  | runtime (.invalidCast _ _) => .typeMismatch
  | runtime .nullReference | runtime (.indexOutOfRange _ _)
  | runtime (.missingImplementation _ _) => .unguardedFault
  | runtime (.thrown _) => .member

/-- The parameter at fault, of errors that declare one. -/
def param? : AccessorError → Option String
  | nullArgument param | invalidShape _ param | notEnoughArguments param _ _ => some param
  | malformed _ | runtime _ => none

end AccessorError

end MemberAccess
