import MemberAccess.Accessor.Basic
import MemberAccess.Proofs.Exec
/-!
# Code — walking through instructions that do not jump

The machine keeps a position and a bound, and needs neither where no
instruction jumps: there it does one instruction after the other. `walk` is
that reading of a list of instructions. It composes along lists
(`walk_append`), so the parts of a body are worked out one by one, and
`runFrom_walk` says that the machine walks through every part of a body that
does not jump. `Accessor.call_of_unguarded` is the case of a whole body.
-/

namespace MemberAccess

/-- Whether an instruction leads to the next one, or ends the run. -/
def Op.IsStraight (op : Op) : Prop := op.target? = none

namespace Progress

/-- Goes on, unless the run has ended. -/
def andThen (k : Config → Exec AccessorError Progress) : Progress → Exec AccessorError Progress
  | .next c => k c
  | .done v => pure (.done v)

@[simp] theorem andThen_next (k : Config → Exec AccessorError Progress) (c : Config) :
    andThen k (.next c) = k c := rfl

@[simp] theorem andThen_done (k : Config → Exec AccessorError Progress) (v : Value) :
    andThen k (.done v) = pure (.done v) := rfl

/-- What a body answers once it has been walked through. -/
def answer (body : String) : Progress → Exec AccessorError Value
  | .next _ => Exec.throw (.malformed (.ranPastEnd body))
  | .done v => pure v

@[simp] theorem answer_done (body : String) (v : Value) : answer body (.done v) = pure v := rfl

/-- The same progress at another position. -/
def moveTo (pc : Nat) : Progress → Progress
  | .next c => .next { c with pc := pc }
  | .done v => .done v

end Progress

namespace Code

variable {natives : Natives} {code : Code} {frame : Frame}

/-- **Walks through instructions**, one after the other, whatever the
position. -/
def walk (natives : Natives) (frame : Frame) : List Op → Config → Exec AccessorError Progress
  | [], c => pure (.next c)
  | op :: ops, c => step natives default frame c op >>= Progress.andThen (walk natives frame ops)

@[simp] theorem walk_nil (c : Config) : walk natives frame [] c = pure (.next c) := rfl

theorem walk_cons (op : Op) (ops : List Op) (c : Config) :
    walk natives frame (op :: ops) c =
      step natives default frame c op >>= Progress.andThen (walk natives frame ops) := rfl

/-- **A walk is made of walks.** -/
theorem walk_append (xs ys : List Op) (c : Config) :
    walk natives frame (xs ++ ys) c =
      walk natives frame xs c >>= Progress.andThen (walk natives frame ys) := by
  induction xs generalizing c with
  | nil => rfl
  | cons op xs ih =>
    rw [List.cons_append, walk_cons, walk_cons, bind_assoc]
    congr 1
    funext p
    cases p with
    | next c => exact ih c
    | done v => rfl

/-! ## The machine walks -/

/-- Popping is the same at every position. -/
theorem pop_moveTo {k k' : Value → Config → Exec AccessorError Progress} (c : Config) (pc : Nat)
    (hk : ∀ v c, k v { c with pc := pc } = Progress.moveTo pc <$> k' v c) :
    ({ c with pc := pc } : Config).pop k = Progress.moveTo pc <$> c.pop k' := by
  obtain ⟨p, stack, locals⟩ := c
  cases stack with
  | nil => rfl
  | cons v stack => exact hk v ⟨p, stack, locals⟩

theorem popN_moveTo {n : Nat} {k k' : List Value → Config → Exec AccessorError Progress}
    (c : Config) (pc : Nat)
    (hk : ∀ vs c, k vs { c with pc := pc } = Progress.moveTo pc <$> k' vs c) :
    ({ c with pc := pc } : Config).popN n k = Progress.moveTo pc <$> c.popN n k' := by
  unfold Config.popN
  by_cases hn : n ≤ c.stack.length
  · simp only [hn, if_true]
    exact hk _ { c with stack := c.stack.drop n }
  · simp only [hn, if_false]
    rfl

theorem popObject_moveTo {k k' : ObjectRef → Config → Exec AccessorError Progress}
    (c : Config) (pc : Nat)
    (hk : ∀ r c, k r { c with pc := pc } = Progress.moveTo pc <$> k' r c) :
    ({ c with pc := pc } : Config).popObject k = Progress.moveTo pc <$> c.popObject k' := by
  refine pop_moveTo c pc fun v c => ?_
  rw [map_bind]
  exact bind_congr fun r => hk r c

/-- **An instruction that does not jump does the same in every code and at
every position.** -/
theorem step_moveTo {op : Op} (hop : op.IsStraight) (c : Config) (pc : Nat) :
    step natives code frame { c with pc := pc } op =
      Progress.moveTo pc <$> step natives default frame c op := by
  cases op with
  | branch => cases hop
  | branchIfNotNull => cases hop
  | branchIfArgumentsPresent => cases hop
  | branchIfGreaterOrEqual => cases hop
  | loadReceiver | loadInput | loadNull | loadInt32 | throwArgumentNull
  | throwNotEnoughArguments | retVoid => rfl
  | loadArgument | loadArgumentCount | loadStaticField | initObject =>
    simp only [step, map_bind]
    rfl
  -- whether the local is there does not depend on the position
  | storeLocal i =>
    simp only [step]
    refine pop_moveTo c pc fun v c => ?_
    by_cases hi : i < c.locals.length
    · simp only [hi, if_true]
      rfl
    · simp only [hi, if_false]
      rfl
  | loadLocal i =>
    simp only [step]
    cases c.locals[i]? with
    | none => rfl
    | some v => rfl
  | castReference | castValue | box | storeStaticField =>
    simp only [step]
    refine pop_moveTo c pc fun v c => ?_
    simp only [map_bind]
    rfl
  | loadField =>
    simp only [step]
    refine popObject_moveTo c pc fun r c => ?_
    simp only [map_bind]
    rfl
  | storeField =>
    simp only [step]
    refine pop_moveTo c pc fun v c => popObject_moveTo c pc fun r c => ?_
    simp only [map_bind]
    rfl
  -- a static method pops its arguments only, any other its receiver too
  | call m | callVirtual m =>
    simp only [step, call]
    refine popN_moveTo c pc fun vs c => ?_
    by_cases hs : m.isStatic = true
    · simp only [hs, if_true, map_bind]
      refine bind_congr fun v => ?_
      split <;> rfl
    · simp only [hs]
      refine popObject_moveTo c pc fun r c => ?_
      simp only [map_bind]
      refine bind_congr fun v => ?_
      split <;> rfl
  | newObject =>
    simp only [step]
    refine popN_moveTo c pc fun vs c => ?_
    simp only [map_bind]
    rfl
  | ret =>
    simp only [step]
    exact pop_moveTo c pc fun v c => rfl

/-- One instruction of the machine, within its bound. -/
theorem runFrom_succ {c : Config} (op : Op) (hop : code.ops[c.pc]? = some op) (bound : Nat) :
    code.runFrom natives frame (bound + 1) c =
      step natives code frame { c with pc := c.pc + 1 } op >>= fun p =>
        match p with
        | .next c => code.runFrom natives frame bound c
        | .done v => pure v := by
  rewrite [runFrom, hop]
  rfl

/-- Past the last instruction the machine stops with a fault. -/
theorem runFrom_end {c : Config} (hc : code.ops[c.pc]? = none) (bound : Nat) :
    code.runFrom natives frame bound c = Exec.throw (.malformed (.ranPastEnd code.name)) := by
  rw [runFrom, hc]

/-- A walk is the same at every position. -/
theorem walk_moveTo {ops : List Op} (hs : ∀ op ∈ ops, op.IsStraight) (c : Config) (pc : Nat) :
    walk natives frame ops { c with pc := pc } =
      Progress.moveTo pc <$> walk natives frame ops c := by
  induction ops generalizing c with
  | nil => rfl
  | cons op ops ih =>
    rw [walk_cons, walk_cons, step_moveTo (hs op (by simp)), bind_map_left, map_bind]
    refine bind_congr fun p => ?_
    cases p with
    | next c => exact ih (fun op h => hs op (List.mem_cons_of_mem _ h)) c
    | done v => rfl

/-- **The machine walks through a part of a body that does not jump**, and
goes on behind it with what is left of its bound. -/
theorem runFrom_walk {ops : List Op} (rest : List Op) (hs : ∀ op ∈ ops, op.IsStraight) {c : Config}
    (hc : code.ops.drop c.pc = ops ++ rest) (bound : Nat) :
    code.runFrom natives frame (ops.length + bound) c =
      walk natives frame ops c >>= fun p =>
        match p with
        | .next c' => code.runFrom natives frame bound { c' with pc := c.pc + ops.length }
        | .done v => pure v := by
  induction ops generalizing c with
  | nil => simp only [List.length_nil, Nat.zero_add, walk_nil, pure_bind, Nat.add_zero]
  | cons op ops ih =>
    have hop : code.ops[c.pc]? = some op := by
      rw [← List.head?_drop, hc]
      rfl
    have hrest : code.ops.drop (c.pc + 1) = ops ++ rest := by
      rw [← List.drop_drop, hc]
      rfl
    have htail : ∀ op ∈ ops, op.IsStraight := fun op h => hs op (List.mem_cons_of_mem _ h)
    rw [List.length_cons, show ops.length + 1 + bound = ops.length + bound + 1 by omega,
      runFrom_succ op hop, step_moveTo (hs op (by simp)), bind_map_left, walk_cons, bind_assoc]
    refine bind_congr fun p => ?_
    cases p with
    | done v => rfl
    | next c₁ =>
      -- the rest is walked from one position further, which makes no difference
      refine (ih htail (c := { c₁ with pc := c.pc + 1 }) hrest).trans ?_
      rw [walk_moveTo htail, bind_map_left]
      refine bind_congr fun p => ?_
      cases p with
      | done v => rfl
      | next c₂ =>
        simp only [Progress.moveTo]
        rw [show c.pc + 1 + ops.length = c.pc + (ops.length + 1) by omega]

/-- The last part of a body is walked through, and then there is an answer. -/
theorem runFrom_walk_end {ops : List Op} (hs : ∀ op ∈ ops, op.IsStraight) {c : Config}
    (hc : code.ops.drop c.pc = ops) {bound : Nat} (hb : ops.length ≤ bound) :
    code.runFrom natives frame bound c =
      walk natives frame ops c >>= Progress.answer code.name := by
  obtain ⟨extra, rfl⟩ := Nat.exists_eq_add_of_le hb
  rw [runFrom_walk [] hs (by simpa using hc)]
  refine bind_congr fun p => ?_
  cases p with
  | done v => rfl
  | next c' =>
    -- nothing is left of the code, so the machine finds no instruction
    have hend : code.ops.length ≤ c.pc + ops.length := by
      have hlen := congrArg List.length hc
      rw [List.length_drop] at hlen
      omega
    exact runFrom_end (List.getElem?_eq_none hend) extra

end Code

/-- **A body that is a list of instructions and nothing else**, with a number
of locals. -/
structure Code.Unguarded (code : Code) (name : String) (ops : List Op) (locals : Nat) : Prop where
  name_eq : code.name = name
  ops_eq : code.ops = ops
  localCount_eq : code.localCount = locals

/-- **An accessor whose body does not jump walks through it.** -/
theorem Accessor.call_of_unguarded {natives : Natives} {frame : Frame} {a : Accessor}
    {name : String} {ops : List Op} {locals : Nat} (h : a.code.Unguarded name ops locals)
    (hs : ∀ op ∈ ops, op.IsStraight) :
    a.call natives frame =
      Code.walk natives frame ops { locals := List.replicate locals .null } >>=
        Progress.answer name := by
  obtain ⟨rfl, rfl, rfl⟩ := h
  exact Code.runFrom_walk_end hs rfl (Nat.le_refl _)

end MemberAccess
