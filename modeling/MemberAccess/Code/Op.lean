import MemberAccess.TypeDef
/-!
# Code — the instructions of accessor bodies

A body is a list of instructions for a stack machine. An instruction carries
the types, methods and slots that it works with, so running it never consults
a registry. `Op.effect` states how many values each instruction takes from
the stack and leaves there; the builder counts with it.
-/

namespace MemberAccess

/-- A jump target, known by its number within one body. -/
structure Label where
  id : Nat
deriving DecidableEq, Inhabited, Repr

/-- **One instruction.** -/
inductive Op where
  /-- Pushes the receiver. -/
  | loadReceiver
  /-- Pushes the value that a setter is given. -/
  | loadInput
  /-- Pushes an argument. -/
  | loadArgument (index : Nat)
  /-- Pushes the number of arguments. -/
  | loadArgumentCount
  | loadNull
  | loadInt32 (value : Int32)
  | storeLocal (index : Nat)
  | loadLocal (index : Nat)
  | branch (target : Label)
  /-- Pops a value and jumps if it is not null. -/
  | branchIfNotNull (target : Label)
  /-- Jumps if there is an argument array, be it empty. -/
  | branchIfArgumentsPresent (target : Label)
  /-- Pops `b`, then `a`, and jumps if `a ≥ b`. -/
  | branchIfGreaterOrEqual (target : Label)
  | throwArgumentNull (param : String)
  | throwNotEnoughArguments (param : String) (required : Nat)
  /-- Checks the value on top as a receiver of the type. -/
  | castReference (type : TypeDef)
  /-- Coerces the value on top to the type. -/
  | castValue (type : TypeDef)
  /-- Copies the value on top if it is a box. -/
  | box (type : TypeHandle)
  /-- Pops an object and pushes one of its slots. -/
  | loadField (slot : Nat)
  /-- Pops a value, then an object, and writes the slot. -/
  | storeField (slot : Nat)
  | loadStaticField (cell : CellRef)
  | storeStaticField (cell : CellRef)
  /-- Pops the arguments and, for an instance method, the receiver, and runs
  the method as it is. -/
  | call (method : Method)
  /-- The same, but runs the receiver's most derived implementation. -/
  | callVirtual (method : Method)
  /-- Pops the arguments and pushes a new instance, after its initializer has
  run. -/
  | newObject (type : TypeDef) (arity : Nat) (body : Option NativeId)
  /-- Pushes the zero value of a type. -/
  | initObject (type : TypeDef)
  /-- Pops the result and ends. -/
  | ret
  /-- Ends with null. -/
  | retVoid
deriving DecidableEq, Inhabited

namespace Op

/-- How many values a call takes from the stack. -/
def callPops (m : Method) : Nat := m.parameters.length + if m.isStatic then 0 else 1

/-- How many values a call leaves. -/
def callPushes (m : Method) : Nat := if m.returnsVoid then 0 else 1

/-- **What an instruction does to the height of the stack**: how many values
it pops, and how many it then pushes. -/
def effect : Op → Nat × Nat
  | loadReceiver | loadInput | loadArgument _ | loadArgumentCount | loadNull | loadInt32 _
  | loadLocal _ | loadStaticField _ | initObject _ => (0, 1)
  | storeLocal _ | branchIfNotNull _ | storeStaticField _ | ret => (1, 0)
  | branch _ | branchIfArgumentsPresent _ | throwArgumentNull _ | throwNotEnoughArguments _ _
  | retVoid => (0, 0)
  | branchIfGreaterOrEqual _ | storeField _ => (2, 0)
  | castReference _ | castValue _ | box _ | loadField _ => (1, 1)
  | call m | callVirtual m => (callPops m, callPushes m)
  | newObject _ arity _ => (arity, 1)

/-- Where an instruction may jump to. -/
def target? : Op → Option Label
  | branch l | branchIfNotNull l | branchIfArgumentsPresent l | branchIfGreaterOrEqual l => some l
  | _ => none

/-- Whether nothing can follow the instruction. -/
def isTerminator : Op → Bool
  | ret | retVoid | throwArgumentNull _ | throwNotEnoughArguments _ _ => true
  | _ => false

/-- The instruction in writing. -/
def text : Op → String
  | loadReceiver => "ldrecv"
  | loadInput => "ldinput"
  | loadArgument i => "ldarg " ++ toString i
  | loadArgumentCount => "ldargc"
  | loadNull => "ldnull"
  | loadInt32 v => "ldc.i4 " ++ toString v
  | storeLocal i => "stloc " ++ toString i
  | loadLocal i => "ldloc " ++ toString i
  | branch l => "br L" ++ toString l.id
  | branchIfNotNull l => "brtrue L" ++ toString l.id
  | branchIfArgumentsPresent l => "brargs L" ++ toString l.id
  | branchIfGreaterOrEqual l => "bge L" ++ toString l.id
  | throwArgumentNull param => "throw.null " ++ param
  | throwNotEnoughArguments param required => "throw.argc " ++ param ++ " " ++ toString required
  | castReference t => "castclass " ++ t.name
  | castValue t => "castvalue " ++ t.name
  | box t => "box " ++ t.text
  | loadField slot => "ldfld " ++ toString slot
  | storeField slot => "stfld " ++ toString slot
  | loadStaticField _ => "ldsfld"
  | storeStaticField _ => "stsfld"
  | call m => "call " ++ m.name
  | callVirtual m => "callvirt " ++ m.name
  | newObject t arity _ => "newobj " ++ t.name ++ "/" ++ toString arity
  | initObject t => "initobj " ++ t.name
  | ret => "ret"
  | retVoid => "ret.void"

/-! ## Short sequences -/

/-- The check of a receiver against a type. Everything is an `Object`, so that
check is left out. -/
def receiverCheck (t : TypeDef) : List Op :=
  if t.handle = .object then [] else [castReference t]

/-- The copy made of values of a value type. -/
def boxIfNeeded (t : TypeDef) : List Op := if t.isValueType then [box t.handle] else []

/-- The call of a method: virtual instance methods dispatch. -/
def callOf (m : Method) : Op := if m.isVirtual && !m.isStatic then callVirtual m else call m

end Op

end MemberAccess
