import MemberAccess.Invocation
/-!
# Script — a small language for native bodies

Expressions over the receiver and arguments of a call: constants, slots by
name and by number, arithmetic that wraps at 32 bits, text, choice, sequence
and faults. A script is evaluated from left to right and stops at the first
fault. `Script.natives` gives tokens their meaning from a table of scripts.
-/

namespace MemberAccess

/-- **An expression over one invocation.** -/
inductive Script where
  /-- A constant; objects are shared, not copied. -/
  | constant (v : Value)
  | receiver
  | argument (i : Nat)
  | argumentAs (c : Conversion) (i : Nat)
  | argumentCount
  /-- An instance field by name, which must exist. -/
  | get (object : Script) (name : String)
  /-- Writes an instance field by name and says whether it exists. -/
  | set (object : Script) (name : String) (value : Script)
  | load (object : Script) (slot : Nat)
  | store (object : Script) (slot : Nat) (value : Script)
  | add (a b : Script)
  | mul (a b : Script)
  | concat (a b : Script)
  | equal (a b : Script)
  | choose (condition yes no : Script)
  /-- All of them in order; the value of the last, or null. -/
  | sequence (parts : List Script)
  | detach (e : Script)
  | typeName (e : Script)
  | fault (f : RuntimeFault)
deriving Inhabited

namespace Script

open Exec

/-- A computed value that has to be an object. -/
def object (x : Exec RuntimeFault Value) : Exec RuntimeFault ObjectRef := do
  let v ← x
  read (·.expectObject v)

def bool (x : Exec RuntimeFault Value) : Exec RuntimeFault Bool := do
  let v ← x
  read (·.expectBool v)

def int32 (x : Exec RuntimeFault Value) : Exec RuntimeFault Int32 := do
  let v ← x
  read (·.expectInt32 v)

def string (x : Exec RuntimeFault Value) : Exec RuntimeFault String := do
  let v ← x
  read (·.expectString v)

mutual

/-- **The value of a script in an invocation.** -/
def eval : Script → Invocation → Exec RuntimeFault Value
  | constant v, _ => return v
  | receiver, inv => return .object (← ofExcept inv.receiver)
  | argument i, inv => ofExcept (inv.argument i)
  | argumentAs c i, inv => do
    let v ← ofExcept (inv.argument i)
    read (·.convert c v)
  | argumentCount, inv => return .int32 (Int32.ofNat inv.arguments.length)
  | get e name, inv => do
    let r ← object (eval e inv)
    match ← ask (·.get? r name) with
    | some v => return v
    | none => Exec.throw (.thrown ("no field " ++ name))
  | set e name e', inv => do
    let r ← object (eval e inv)
    let v ← eval e' inv
    Exec.alloc fun h =>
      match h.set? r name v with
      | some h => (.bool true, h)
      | none => (.bool false, h)
  | load e i, inv => do
    let r ← object (eval e inv)
    Exec.load r i
  | store e i e', inv => do
    let r ← object (eval e inv)
    let v ← eval e' inv
    Exec.store r i v
    return .null
  | add a b, inv => do
    let x ← int32 (eval a inv)
    let y ← int32 (eval b inv)
    return .int32 (x + y)
  | mul a b, inv => do
    let x ← int32 (eval a inv)
    let y ← int32 (eval b inv)
    return .int32 (x * y)
  | concat a b, inv => do
    let s ← string (eval a inv)
    let t ← string (eval b inv)
    return .str (s ++ t)
  | equal a b, inv => do
    let v ← eval a inv
    let w ← eval b inv
    return .bool (← ask? (·.eq? v w))
  | choose c yes no, inv => do
    if ← bool (eval c inv) then eval yes inv else eval no inv
  | sequence parts, inv => evalSequence parts .null inv
  | detach e, inv => do
    let v ← eval e inv
    Exec.detach v
  | typeName e, inv => do
    let v ← eval e inv
    return .str (← ask (·.typeName v))
  | fault f, _ => Exec.throw f

/-- The value of the last part, or `last` when there is none. -/
def evalSequence : List Script → Value → Invocation → Exec RuntimeFault Value
  | [], last, _ => return last
  | e :: es, _, inv => do
    let v ← eval e inv
    evalSequence es v inv

end

/-- Tokens index a table of scripts; a token outside it answers null. -/
def natives (table : Array Script) : Natives :=
  fun token => eval (table.getD token.index (.constant .null))

end Script

end MemberAccess
