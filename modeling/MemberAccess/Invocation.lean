import MemberAccess.Coercion
/-!
# Invocation — a call of a member body

A body receives an optional receiver and the arguments, already coerced.
Bodies generated for a property work on its storage; a native body is a token,
and `Natives` says what each token does. Nothing in this library looks into a
native body, so whatever is proved holds of all of them.
-/

namespace MemberAccess

/-- **The receiver and arguments of one call.** -/
structure Invocation where
  this : Option ObjectRef
  arguments : List Value
deriving DecidableEq, Inhabited

namespace Invocation

variable (inv : Invocation)

/-- The receiver, which a static call lacks. -/
def receiver : Except RuntimeFault ObjectRef :=
  match inv.this with
  | some r => .ok r
  | none => .error .nullReference

def argument (i : Nat) : Except RuntimeFault Value :=
  match inv.arguments[i]? with
  | some v => .ok v
  | none => .error (.indexOutOfRange i inv.arguments.length)

end Invocation

/-- **The meaning of native bodies**, by token. -/
abbrev Natives : Type := NativeId → Invocation → Exec RuntimeFault Value

namespace Exec

variable {ε : Type}

def load (r : ObjectRef) (i : Nat) : Exec RuntimeFault Value := read (·.load r i)

def store (r : ObjectRef) (i : Nat) (v : Value) : Exec RuntimeFault Unit := change (·.store r i v)

def readCell (c : CellRef) : Exec ε Value := ask (·.readCell c)

def writeCell (c : CellRef) (v : Value) : Exec ε Unit := alloc fun h => ((), h.writeCell c v)

end Exec

open Exec in
/-- **Runs a body.** A generated writer takes its first argument and answers
null. -/
def MemberBody.run (natives : Natives) : MemberBody → Invocation → Exec RuntimeFault Value
  | readSlot i, inv => do
    let r ← ofExcept inv.receiver
    load r i
  | writeSlot i, inv => do
    let v ← ofExcept (inv.argument 0)
    let r ← ofExcept inv.receiver
    store r i v
    return .null
  | readCell c, _ => Exec.readCell c
  | writeCell c, inv => do
    let v ← ofExcept (inv.argument 0)
    Exec.writeCell c v
    return .null
  | native token, inv => natives token inv

end MemberAccess
