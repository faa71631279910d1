import MemberAccess.Code.Machine
/-!
# Accessor — checks at the start of invokers and factories

With guards on, an absent receiver, an absent argument array and a short one
are declared errors, found before anything else happens. Without them the body
faults when it first touches what is missing.
-/

namespace MemberAccess

/-- **What to check before a body starts.** -/
structure Guard where
  /-- Whether a receiver is needed. -/
  receiver : Bool
  /-- How many arguments are needed; with none the array is never looked at. -/
  parameterCount : Nat
deriving DecidableEq, Inhabited, Repr

namespace Guard

variable (g : Guard)

def isTrivial : Bool := !g.receiver && g.parameterCount == 0

/-- The label behind all checks. -/
def done : Label := ⟨0⟩

/-- The label behind the check of the receiver. -/
def receiverPresent : Label := ⟨1⟩

/-- The label behind the check for an argument array. -/
def argumentsPresent : Label := ⟨if g.receiver then 2 else 1⟩

def labelCount : Nat :=
  if g.isTrivial then 0
  else 1 + (if g.receiver then 1 else 0) + (if 0 < g.parameterCount then 1 else 0)

def receiverLines : List Line :=
  if g.receiver then
    [.op .loadReceiver, .op (.branchIfNotNull receiverPresent),
      .op (.throwArgumentNull "receiver"), .mark receiverPresent]
  else []

def argumentLines : List Line :=
  if 0 < g.parameterCount then
    [.op (.branchIfArgumentsPresent g.argumentsPresent), .op (.throwArgumentNull "arguments"),
      .mark g.argumentsPresent, .op .loadArgumentCount,
      .op (.loadInt32 (saturate g.parameterCount)), .op (.branchIfGreaterOrEqual done),
      .op (.throwNotEnoughArguments "arguments" g.parameterCount)]
  else [.op (.branch done)]

/-- **The checks, as lines of a body.** -/
def lines : List Line :=
  if g.isTrivial then [] else g.receiverLines ++ g.argumentLines ++ [.mark done]

end Guard

end MemberAccess
