import MemberAccess.Code.Op
/-!
# Code — what is wrong with a body

Faults of the code itself rather than of the values it works on: found while
a body is written, when it is finished, or when it runs.
-/

namespace MemberAccess

/-- What keeps a body from being finished. -/
inductive BodyFlaw where
  /-- A jump leads to a label that stands nowhere. -/
  | labelUnmarked (id : Nat)
  /-- Values would be left on the stack. -/
  | unbalanced (remaining : Nat)
  /-- The last instruction neither returns nor throws. -/
  | unterminated
deriving DecidableEq, Inhabited, Repr

def BodyFlaw.message : BodyFlaw → String
  | labelUnmarked id => "Label " ++ toString id ++ " is used but never marked"
  | unbalanced n => "Stack not balanced: " ++ toString n ++ " values remaining"
  | unterminated => "Op stream does not end in a return"

/-- **A fault of the code itself.** -/
inductive CodeFault where
  /-- Fewer values on the stack than the instruction takes. -/
  | stackUnderflow (index : Nat) (op : Op) (body : String)
  | labelUndefined (id : Nat)
  | labelMarkedTwice (id : Nat)
  | unfinished (body : String) (flaws : List BodyFlaw)
  /-- Fewer values on the stack, while running. -/
  | operandMissing
  | unknownLabel (id : Nat)
  | unknownLocal (index : Nat)
  | ranPastEnd (body : String)
deriving DecidableEq, Inhabited

def CodeFault.message : CodeFault → String
  | stackUnderflow index op body =>
    "Stack underflow at instruction " ++ toString index ++ " (" ++ op.text ++ ") in " ++ body
  | labelUndefined id => "Label " ++ toString id ++ " was never defined"
  | labelMarkedTwice id => "Label " ++ toString id ++ " is marked twice"
  | unfinished body flaws =>
    "Validation of " ++ body ++ " failed: " ++ "; ".intercalate (flaws.map (·.message))
  | operandMissing => "operand stack underflow"
  | unknownLabel id => "Unknown label " ++ toString id
  | unknownLocal index => "Unknown local " ++ toString index
  | ranPastEnd body => body ++ " ran past its last instruction"

end MemberAccess
