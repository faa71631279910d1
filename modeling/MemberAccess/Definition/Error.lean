import MemberAccess.Identity
/-!
# Definition — why a definition is rejected

Each way in which a definition can be wrong, by its cause.
`DefinitionError.message` is the only wording.
-/

namespace MemberAccess

/-- What is wrong with a base type. -/
inductive BaseFlaw where
  | notAClass
  | isSealed
  /-- The derived type is a struct. -/
  | structWithBase
  /-- The derived type is an interface. -/
  | interfaceWithBase
deriving DecidableEq, Inhabited, Repr

def BaseFlaw.reason : BaseFlaw → String
  | notAClass => "base is not a class"
  | isSealed => "base is sealed"
  | structWithBase => "structs cannot declare a base type"
  | interfaceWithBase => "interfaces extend other interfaces through implements"

/-- What is wrong with a member of a type. -/
inductive MemberFlaw where
  /-- The kind of type cannot be defined at all. -/
  | undefinableKind
  | fieldOnInterface
  | constructorOnInterface
  | bodyOnInterface
  | staticAndVirtual
  /-- No body, though the member is not a virtual one of an abstract type. -/
  | bodyMissing
  /-- Only one of the property and its backing field is static. -/
  | backingStaticness
  /-- A generated accessor of an indexed property. -/
  | generatedIndexed
  /-- A generated accessor without storage. -/
  | generatedUnbacked
deriving DecidableEq, Inhabited, Repr

def MemberFlaw.reason : MemberFlaw → String
  | undefinableKind => "only classes, structs and interfaces can be defined"
  | fieldOnInterface => "interfaces cannot declare fields"
  | constructorOnInterface => "interfaces cannot declare constructors"
  | bodyOnInterface => "interface members cannot have a body"
  | staticAndVirtual => "static members cannot be virtual"
  | bodyMissing => "members without a body must be virtual members of an abstract type"
  | backingStaticness => "backing field and property disagree on being static"
  | generatedIndexed => "indexed properties need native accessors"
  | generatedUnbacked => "generated accessors need a backing field"

/-- **Why a definition is rejected.** Types and members are given by name. -/
inductive DefinitionError where
  /-- A handle that no defined type has. -/
  | unknownType (handle : TypeHandle)
  | duplicateType (name : String)
  | invalidBase (type base : String) (flaw : BaseFlaw)
  | notAnInterface (type interface : String)
  | unknownBackingField (type property field : String)
  | nothingToOverride (type method : String)
  | unimplementedMember (type interface member : String)
  | invalidMember (type member : String) (flaw : MemberFlaw)
deriving DecidableEq, Inhabited, Repr

/-- The cause in one word, for programs. -/
def DefinitionError.name : DefinitionError → String
  | unknownType _ => "UnknownType"
  | duplicateType _ => "DuplicateType"
  | invalidBase _ _ _ => "InvalidBase"
  | notAnInterface _ _ => "NotAnInterface"
  | unknownBackingField _ _ _ => "UnknownBackingField"
  | nothingToOverride _ _ => "NothingToOverride"
  | unimplementedMember _ _ _ => "UnimplementedMember"
  | invalidMember _ _ _ => "InvalidMember"

/-- The rejection in a sentence, for people. -/
def DefinitionError.message : DefinitionError → String
  | unknownType handle => "Unknown type: " ++ handle.text
  | duplicateType name => "Duplicate type name: " ++ name
  | invalidBase type base flaw =>
    "Type '" ++ type ++ "' cannot derive from '" ++ base ++ "': " ++ flaw.reason
  | notAnInterface type interface =>
    "Type '" ++ type ++ "' cannot implement '" ++ interface ++ "': not an interface"
  | unknownBackingField type property field =>
    "Property '" ++ property ++ "' on '" ++ type ++ "' is backed by unknown field '" ++ field ++ "'"
  | nothingToOverride type method =>
    "Method '" ++ method ++ "' on '" ++ type ++ "' overrides nothing"
  | unimplementedMember type interface member =>
    "Type '" ++ type ++ "' does not implement '" ++ interface ++ "." ++ member ++ "'"
  | invalidMember type member flaw =>
    "Invalid member '" ++ member ++ "' on '" ++ type ++ "': " ++ flaw.reason

end MemberAccess
