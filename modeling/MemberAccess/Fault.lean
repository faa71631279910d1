/-!
# Fault — what goes wrong while a member runs

The faults a member body, a coercion or a compiled body can end in. Each is
named by its cause; `RuntimeFault.message` is its only wording.
-/

namespace MemberAccess

/-- **A fault raised while a member runs.** -/
inductive RuntimeFault where
  /-- A member was reached through an absent receiver. -/
  | nullReference
  /-- An index past the end of an argument array or of an object's slots. -/
  | indexOutOfRange (index length : Nat)
  /-- A value of the type named `source` where one named `target` is needed. -/
  | invalidCast (source target : String)
  /-- A call ended at a method without a body. -/
  | missingImplementation (method typeName : String)
  /-- A member body raised a failure of its own. -/
  | thrown (message : String)
deriving DecidableEq, Inhabited, Repr

/-- The cause in one word, for programs. -/
def RuntimeFault.name : RuntimeFault → String
  | nullReference => "NullReference"
  | indexOutOfRange _ _ => "IndexOutOfRange"
  | invalidCast _ _ => "InvalidCast"
  | missingImplementation _ _ => "MissingImplementation"
  | thrown _ => "Thrown"

/-- The fault in a sentence, for people. -/
def RuntimeFault.message : RuntimeFault → String
  | nullReference => "Object reference not set to an instance of an object."
  | indexOutOfRange index length =>
    "Index " ++ toString index ++ " was outside the bounds of the array (length " ++
      toString length ++ ")."
  | invalidCast source target =>
    "Unable to cast object of type '" ++ source ++ "' to type '" ++ target ++ "'."
  | missingImplementation method typeName =>
    "Method '" ++ method ++ "' has no implementation on type '" ++ typeName ++ "'."
  | thrown message => message

end MemberAccess
