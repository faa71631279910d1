import MemberAccess.Code.Builder
import MemberAccess.AccessorError
import MemberAccess.Invocation
/-!
# Code — running a body

The machine has a stack, locals and a position in the code. `Code.step` says
what one instruction does; `Code.runFrom` runs until a return or a fault,
within a bound on the number of instructions, since hand-written code may jump
backwards for ever. The bodies of accessors only jump forwards, and their own
length is bound enough (`Accessor.call`).
-/

namespace MemberAccess

/-- **What a call of a body is given.** -/
structure Frame where
  /-- Null for static members and for factories. -/
  receiver : Value := .null
  /-- The value that a setter writes. -/
  input : Value := .null
  /-- The argument array, if there is one. -/
  arguments : Option (List Value) := none
deriving DecidableEq, Inhabited

namespace Frame

def getter (receiver : Value) : Frame := { receiver := receiver }

def setter (receiver input : Value) : Frame := { receiver := receiver, input := input }

def invoker (receiver : Value) (arguments : Option (List Value)) : Frame :=
  { receiver := receiver, arguments := arguments }

def factory (arguments : Option (List Value)) : Frame := invoker .null arguments

end Frame

/-- **The state of the machine**: position, stack with its top first, and
locals. -/
structure Config where
  pc : Nat := 0
  stack : List Value := []
  locals : List Value := []
deriving DecidableEq, Inhabited

/-- What an instruction leads to. -/
inductive Progress where
  | next (c : Config)
  | done (v : Value)
deriving DecidableEq, Inhabited

/-- A count as a 32-bit number, the greatest one when it does not fit. -/
def saturate (n : Nat) : Int32 := Int32.ofNat (min n 2147483647)

namespace Config

variable (c : Config)

def push (v : Value) : Config := { c with stack := v :: c.stack }

/-- Pops a value. -/
def pop (k : Value → Config → Exec AccessorError Progress) : Exec AccessorError Progress :=
  match c.stack with
  | v :: stack => k v { c with stack := stack }
  | [] => Exec.throw (.malformed .operandMissing)

/-- Pops `n` values, which come in the order in which they were pushed. -/
def popN (n : Nat) (k : List Value → Config → Exec AccessorError Progress) :
    Exec AccessorError Progress :=
  if n ≤ c.stack.length then
    k (c.stack.take n).reverse { c with stack := c.stack.drop n }
  else Exec.throw (.malformed .operandMissing)

/-- Pops an object. -/
def popObject (k : ObjectRef → Config → Exec AccessorError Progress) :
    Exec AccessorError Progress :=
  c.pop fun v c => do
    let r ← Exec.mapFault .runtime (Exec.read (·.expectObject v))
    k r c

/-- Pops a number. -/
def popInt32 (k : Int32 → Config → Exec AccessorError Progress) : Exec AccessorError Progress :=
  c.pop fun v c => do
    let i ← Exec.mapFault .runtime (Exec.read (·.expectInt32 v))
    k i c

end Config

namespace Code

/-- Goes on with a configuration. -/
def continueWith (c : Config) : Exec AccessorError Progress := pure (.next c)

/-- Goes on at a label. -/
def jump (code : Code) (l : Label) (c : Config) : Exec AccessorError Progress :=
  match code.labels[l.id]? with
  | some pc => continueWith { c with pc := pc }
  | none => Exec.throw (.malformed (.unknownLabel l.id))

/-- The argument array, whose absence is a fault. -/
def argumentsOf (frame : Frame) : Except RuntimeFault (List Value) :=
  match frame.arguments with
  | some args => .ok args
  | none => .error .nullReference

/-- **The method that a call runs**: the most derived one for the receiver
when the call dispatches. -/
def callee? (h : Heap) (dispatches : Bool) (m : Method) (this : Option ObjectRef) :
    Option Method :=
  match dispatches, this with
  | true, some r => (h.typeAt r).resolve? m
  | _, _ => some m

/-- **Calls a method** on a receiver with the arguments it declares. -/
def callMethod (natives : Natives) (dispatches : Bool) (m : Method) (this : Option ObjectRef)
    (arguments : List Value) : Exec RuntimeFault Value := do
  let callee ← Exec.ask fun h => (callee? h dispatches m this).bind (·.body)
  match callee with
  | some body => body.run natives ⟨this, arguments⟩
  | none =>
    Exec.read fun h => .error (.missingImplementation m.name
      (match this with
        | some r => (h.typeAt r).name
        | none => "<static>"))

/-- Pops the arguments and the receiver of a method, calls it and pushes what
it returns. -/
def call (natives : Natives) (dispatches : Bool) (m : Method) (c : Config) :
    Exec AccessorError Progress :=
  let finish (this : Option ObjectRef) (args : List Value) (c : Config) := do
    let v ← Exec.mapFault .runtime (callMethod natives dispatches m this args)
    continueWith (if m.returnsVoid then c else c.push v)
  c.popN m.parameters.length fun args c =>
    if m.isStatic then finish none args c
    else c.popObject fun r c => finish (some r) args c

/-- **A new instance**: zeroed, then initialized by a constructor's body. -/
def construct (natives : Natives) (t : TypeDef) (body : Option NativeId) (args : List Value) :
    Exec RuntimeFault ObjectRef := do
  let r ← Exec.zeroed t
  match body with
  | some token =>
    let _ ← natives token ⟨some r, args⟩
    return r
  | none => return r

/-- **What one instruction does**, on a configuration that is already past
it. -/
def step (natives : Natives) (code : Code) (frame : Frame) (c : Config) :
    Op → Exec AccessorError Progress
  | .loadReceiver => continueWith (c.push frame.receiver)
  | .loadInput => continueWith (c.push frame.input)
  | .loadArgument i => do
    let args ← Exec.mapFault .runtime (Exec.ofExcept (argumentsOf frame))
    let v ← Exec.mapFault .runtime (Exec.ofExcept (Invocation.argument ⟨none, args⟩ i))
    continueWith (c.push v)
  | .loadArgumentCount => do
    let args ← Exec.mapFault .runtime (Exec.ofExcept (argumentsOf frame))
    continueWith (c.push (.int32 (saturate args.length)))
  | .loadNull => continueWith (c.push .null)
  | .loadInt32 v => continueWith (c.push (.int32 v))
  | .storeLocal i => c.pop fun v c =>
    if i < c.locals.length then continueWith { c with locals := c.locals.set i v }
    else Exec.throw (.malformed (.unknownLocal i))
  | .loadLocal i =>
    match c.locals[i]? with
    | some v => continueWith (c.push v)
    | none => Exec.throw (.malformed (.unknownLocal i))
  | .branch l => code.jump l c
  | .branchIfNotNull l => c.pop fun v c => if v.isNull then continueWith c else code.jump l c
  | .branchIfArgumentsPresent l =>
    if frame.arguments.isSome then code.jump l c else continueWith c
  | .branchIfGreaterOrEqual l => c.popInt32 fun b c => c.popInt32 fun a c =>
    if b ≤ a then code.jump l c else continueWith c
  | .throwArgumentNull param => Exec.throw (.nullArgument param)
  | .throwNotEnoughArguments param required =>
    Exec.throw (.notEnoughArguments param required
      (match frame.arguments with
        | some args => args.length
        | none => 0))
  | .castReference t => c.pop fun v c => do
    let v ← Exec.mapFault .runtime (Exec.read (·.castReference v t))
    continueWith (c.push v)
  | .castValue t => c.pop fun v c => do
    let v ← Exec.mapFault .runtime (Exec.castValue v t)
    continueWith (c.push v)
  | .box _ => c.pop fun v c => do
    let v ← Exec.mapFault .runtime (Exec.boxValue v)
    continueWith (c.push v)
  | .loadField slot => c.popObject fun r c => do
    let v ← Exec.mapFault .runtime (Exec.load r slot)
    continueWith (c.push v)
  | .storeField slot => c.pop fun v c => c.popObject fun r c => do
    Exec.mapFault .runtime (Exec.store r slot v)
    continueWith c
  | .loadStaticField cell => do
    let v ← Exec.readCell cell
    continueWith (c.push v)
  | .storeStaticField cell => c.pop fun v c => do
    Exec.writeCell cell v
    continueWith c
  | .call m => call natives false m c
  | .callVirtual m => call natives true m c
  | .newObject t arity body => c.popN arity fun args c => do
    let r ← Exec.mapFault .runtime (construct natives t body args)
    continueWith (c.push (.object r))
  | .initObject t => do
    let v ← Exec.zeroOf t
    continueWith (c.push v)
  | .ret => c.pop fun v _ => pure (.done v)
  | .retVoid => pure (.done .null)

/-- **Runs on from a configuration**, for at most the given number of
instructions. -/
def runFrom (natives : Natives) (code : Code) (frame : Frame) :
    (bound : Nat) → Config → Exec AccessorError Value
  | bound, c =>
    match code.ops[c.pc]? with
    | none => Exec.throw (.malformed (.ranPastEnd code.name))
    | some op =>
      match bound with
      | 0 => Exec.noAnswer
      | bound + 1 => do
        match ← code.step natives frame { c with pc := c.pc + 1 } op with
        | .next c => runFrom natives code frame bound c
        | .done v => return v

/-- Runs a body from its start. -/
def run (natives : Natives) (code : Code) (bound : Nat) (frame : Frame) :
    Exec AccessorError Value :=
  code.runFrom natives frame bound { locals := List.replicate code.localCount .null }

end Code

end MemberAccess
