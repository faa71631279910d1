import MemberAccess.Code.Fault
/-!
# Code — writing a body, instruction by instruction

A `CodeBuilder` is a body being written. It counts the height of the stack
along the text, so an instruction that would take more values than there are
is refused. `CodeBuilder.finish` turns the text into `Code`, unless a jump
leads nowhere, values are left over or the end is open.

A `Listing` is a whole body written down at once; `Listing.assemble` passes it
through a builder.
-/

namespace MemberAccess

/-- **A finished body.** `labels` gives each label the instruction it stands
before. -/
structure Code where
  name : String
  ops : List Op
  labels : List Nat
  localCount : Nat
  maxStack : Nat
deriving DecidableEq, Inhabited

/-- **A body being written.** -/
structure CodeBuilder where
  name : String
  ops : List Op := []
  localCount : Nat := 0
  /-- The number of labels defined so far. -/
  labelCount : Nat := 0
  /-- Where labels stand. -/
  positions : List (Nat × Nat) := []
  /-- The labels that jumps lead to, in the order of the jumps. -/
  used : List Label := []
  depth : Nat := 0
  maxDepth : Nat := 0
deriving DecidableEq, Inhabited

namespace CodeBuilder

variable (b : CodeBuilder)

/-- **Appends an instruction**, if the stack holds what it takes. -/
def emit (op : Op) : Except CodeFault CodeBuilder :=
  let (pops, pushes) := op.effect
  if b.depth < pops then .error (.stackUnderflow b.ops.length op b.name)
  else
    let depth := b.depth - pops + pushes
    .ok { b with
      ops := b.ops ++ [op]
      depth := depth
      maxDepth := max b.maxDepth depth
      used := b.used ++ op.target?.toList }

/-- Appends instructions up to the first that is refused. -/
def emitAll (ops : List Op) : Except CodeFault CodeBuilder := ops.foldlM emit b

/-- A new label, which stands nowhere yet. -/
def defineLabel : Label × CodeBuilder := (⟨b.labelCount⟩, { b with labelCount := b.labelCount + 1 })

/-- **Puts a label before the next instruction.** A label put down twice moves
to the new place, and the call fails all the same. -/
def mark (l : Label) : CodeBuilder × Option CodeFault :=
  if l.id < b.labelCount then
    let positions := (l.id, b.ops.length) :: b.positions.filter (·.1 != l.id)
    ({ b with positions := positions },
      if (b.positions.lookup l.id).isSome then some (.labelMarkedTwice l.id) else none)
  else (b, some (.labelUndefined l.id))

/-- A new local, by its index. -/
def declareLocal : Nat × CodeBuilder := (b.localCount, { b with localCount := b.localCount + 1 })

/-- **What keeps the body from being finished**: jumps that lead nowhere, in
the order of the jumps, then the height of the stack, then the open end. -/
def flaws : List BodyFlaw :=
  (b.used.filter fun l => (b.positions.lookup l.id).isNone).map (fun l => .labelUnmarked l.id) ++
    (if b.depth = 0 then [] else [.unbalanced b.depth]) ++
    (if b.ops.getLast?.any (·.isTerminator) then [] else [.unterminated])

/-- **The finished body**, with a place for every label. -/
def finish : Except CodeFault Code :=
  match b.flaws with
  | [] =>
    .ok {
      name := b.name
      ops := b.ops
      labels := (List.range b.labelCount).map fun id => (b.positions.lookup id).getD 0
      localCount := b.localCount
      maxStack := b.maxDepth }
  | flaws => .error (.unfinished b.name flaws)

end CodeBuilder

/-! ## Bodies written at once -/

/-- A line of a listing: an instruction, or a label before the next one. -/
inductive Line where
  | op (op : Op)
  | mark (label : Label)
deriving DecidableEq, Inhabited

/-- **A body written down at once**, with the number of its labels and
locals. -/
structure Listing where
  lines : List Line
  labelCount : Nat := 0
  localCount : Nat := 0
deriving DecidableEq, Inhabited

namespace Listing

/-- A listing without labels. -/
def straight (ops : List Op) (localCount : Nat) : Listing where
  lines := ops.map .op
  localCount := localCount

/-- Adds one line to a builder. -/
def addLine (b : CodeBuilder) : Line → Except CodeFault CodeBuilder
  | .op op => b.emit op
  | .mark l =>
    match b.mark l with
    | (b, none) => .ok b
    | (_, some fault) => .error fault

/-- **The body that a listing stands for.** -/
def assemble (l : Listing) (name : String) : Except CodeFault Code := do
  let b : CodeBuilder := { name := name, labelCount := l.labelCount, localCount := l.localCount }
  let b ← l.lines.foldlM addLine b
  b.finish

end Listing

end MemberAccess
