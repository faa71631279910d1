import MemberAccess.Proofs.Code.Assembly
/-!
# Accessor — which calls a guard refuses

A guard is a piece of code with up to three labels. `refusal?` says what it
amounts to: which calls it refuses, and with which error, in the order in
which it looks. A body behind a guard either is refused on the heap it was
called on or runs as if the guard were not there (`runFrom_guarded`).

Counts are compared as 32-bit numbers (`verdict?`), so the guard is exact for
members of at most `maxCount` parameters.
-/

namespace MemberAccess

/-- The greatest count that a 32-bit number can hold. -/
def maxCount : Nat := 2147483647

/-- **Counts keep their order as 32-bit numbers**, as long as the smaller one
fits. -/
theorem saturate_le_saturate {m n : Nat} (hm : m ≤ maxCount) :
    saturate m ≤ saturate n ↔ m ≤ n := by
  simp only [maxCount] at hm
  rw [saturate, saturate, Int32.le_iff_toInt_le, Int32.toInt_ofNat_of_lt (by omega),
    Int32.toInt_ofNat_of_lt (by omega)]
  omega

namespace Guard

variable (g : Guard)

/-- **Why a guard refuses a call**, if it does: an absent receiver first, then
an absent argument array, then a short one. -/
def refusal? (frame : Frame) : Option AccessorError :=
  if g.receiver && frame.receiver.isNull then some (.nullArgument "receiver")
  else if g.parameterCount = 0 then none
  else
    match frame.arguments with
    | none => some (.nullArgument "arguments")
    | some args =>
      if args.length < g.parameterCount then
        some (.notEnoughArguments "arguments" g.parameterCount args.length)
      else none

/-- **What the checks of a guard come to**: a refusal, with counts compared as
32-bit numbers. -/
def verdict? (frame : Frame) : Option AccessorError :=
  if g.receiver && frame.receiver.isNull then some (.nullArgument "receiver")
  else if g.parameterCount = 0 then none
  else
    match frame.arguments with
    | none => some (.nullArgument "arguments")
    | some args =>
      if saturate g.parameterCount ≤ saturate args.length then none
      else some (.notEnoughArguments "arguments" g.parameterCount args.length)

/-- The receiver is looked at before the arguments. -/
theorem verdict?_eq_or (frame : Frame) :
    g.verdict? frame =
      (verdict? ⟨g.receiver, 0⟩ frame).or (verdict? ⟨false, g.parameterCount⟩ frame) := by
  obtain ⟨receiver, n⟩ := g
  simp only [verdict?, Bool.false_and]
  cases receiver && frame.receiver.isNull <;> rfl

@[simp] theorem verdict?_trivial (frame : Frame) : verdict? ⟨false, 0⟩ frame = none := rfl

variable {g}

/-- A guard without parameters does not look at the arguments. -/
theorem verdict?_of_zero (hg : g.parameterCount = 0) (frame : Frame) :
    g.verdict? frame =
      if g.receiver && frame.receiver.isNull then some (.nullArgument "receiver") else none := by
  unfold verdict?
  rw [if_pos hg]

/-- **The checks are exact** for counts that fit into 32 bits. -/
theorem verdict?_eq_refusal? (hg : g.parameterCount ≤ maxCount) (frame : Frame) :
    g.verdict? frame = g.refusal? frame := by
  unfold verdict? refusal?
  cases frame.arguments with
  | none => rfl
  | some args =>
    simp only [saturate_le_saturate hg, ← Nat.not_lt, ite_not]

end Guard

namespace Exec

/-- **Ends in an error, if there is one**, before anything else happens. -/
def refuse {ε α : Type} (refusal : Option ε) (x : Exec ε α) : Exec ε α :=
  match refusal with
  | some e => throw e
  | none => x

@[simp] theorem refuse_none {ε α : Type} (x : Exec ε α) : refuse none x = x := rfl

@[simp] theorem refuse_some {ε α : Type} (e : ε) (x : Exec ε α) : refuse (some e) x = throw e := rfl

theorem refuse_or {ε α : Type} (r s : Option ε) (x : Exec ε α) :
    refuse (r.or s) x = refuse r (refuse s x) := by
  cases r <;> rfl

end Exec

namespace Code

variable {natives : Natives} {code : Code} {frame : Frame} {locals : List Value}

/-- **The check of the receiver**: three instructions from the start, over
which a receiver that is there jumps. -/
theorem runFrom_receiverCheck (rest : List Op)
    (hops : code.ops = [.loadReceiver, .branchIfNotNull Guard.receiverPresent,
      .throwArgumentNull "receiver"] ++ rest)
    (hl : code.labels[1]? = some 3) (bound : Nat) :
    code.runFrom natives frame (bound + 3) { locals := locals } =
      Exec.refuse (Guard.verdict? ⟨true, 0⟩ frame)
        (code.runFrom natives frame (bound + 1) { pc := 3, locals := locals }) := by
  rw [runFrom_succ .loadReceiver (by simp [hops])]
  simp only [step, continueWith, Config.push, pure_bind]
  rw [runFrom_succ (.branchIfNotNull Guard.receiverPresent) (by simp [hops])]
  simp only [step, Config.pop, Guard.verdict?, Bool.true_and]
  cases frame.receiver.isNull with
  | true =>
    simp only [if_true, continueWith, pure_bind]
    rw [runFrom_succ (.throwArgumentNull "receiver") (by simp [hops])]
    rfl
  | false =>
    simp only [Bool.false_eq_true, if_false, jump, Guard.receiverPresent, hl]
    rfl

/-- **The check of the arguments**: six instructions, over which a long
enough array jumps. -/
theorem runFrom_argumentCheck {n pc : Nat} (l : Label) (rest : List Op) (hpos : n ≠ 0)
    (hops : code.ops.drop pc = [.branchIfArgumentsPresent l, .throwArgumentNull "arguments",
      .loadArgumentCount, .loadInt32 (saturate n), .branchIfGreaterOrEqual Guard.done,
      .throwNotEnoughArguments "arguments" n] ++ rest)
    (hl : code.labels[l.id]? = some (pc + 2)) (hdone : code.labels[0]? = some (pc + 6))
    (bound : Nat) :
    code.runFrom natives frame (bound + 5) { pc := pc, locals := locals } =
      Exec.refuse (Guard.verdict? ⟨false, n⟩ frame)
        (code.runFrom natives frame (bound + 1) { pc := pc + 6, locals := locals }) := by
  have hop : ∀ i, code.ops[pc + i]? = (code.ops.drop pc)[i]? := by simp
  simp only [Guard.verdict?, Bool.false_and, Bool.false_eq_true, if_false, hpos]
  rw [runFrom_succ (.branchIfArgumentsPresent l) (by simpa [hops] using hop 0)]
  cases hargs : frame.arguments with
  | none =>
    simp only [step, hargs, Option.isSome_none, Bool.false_eq_true, if_false, continueWith,
      pure_bind]
    rw [runFrom_succ (.throwArgumentNull "arguments") (by simpa [hops] using hop 1)]
    rfl
  | some args =>
    simp only [step, hargs, Option.isSome_some, if_true, jump, hl, continueWith, pure_bind]
    rw [runFrom_succ .loadArgumentCount (by simpa [hops] using hop 2)]
    simp only [step, argumentsOf, hargs, Exec.ofExcept_ok, Exec.mapFault_pure, continueWith,
      Config.push, pure_bind]
    rw [runFrom_succ (.loadInt32 (saturate n)) (by simpa [hops] using hop 3)]
    simp only [step, continueWith, Config.push, pure_bind]
    rw [runFrom_succ (.branchIfGreaterOrEqual Guard.done) (by simpa [hops] using hop 4)]
    have hpop : ∀ v : Int32, Exec.mapFault AccessorError.runtime
        (Exec.read fun h => h.expectInt32 (.int32 v)) = pure v := fun v => rfl
    simp only [step, Config.popInt32, Config.pop, hpop, pure_bind]
    -- the counts are compared as the machine holds them
    by_cases hle : saturate n ≤ saturate args.length
    · simp only [hle, if_true, jump, Guard.done, hdone, continueWith, pure_bind, Exec.refuse_none]
    · simp only [hle, if_false, continueWith, pure_bind]
      rw [runFrom_succ (.throwNotEnoughArguments "arguments" n)
        (by simpa [hops] using hop 5)]
      simp only [step, hargs, Exec.throw_bind, Exec.refuse_some]

/-- Without arguments to look at, the checks end in a jump to the body. -/
theorem runFrom_branchDone {pc : Nat} (rest : List Op)
    (hops : code.ops.drop pc = .branch Guard.done :: rest)
    (hdone : code.labels[0]? = some (pc + 1)) (bound : Nat) :
    code.runFrom natives frame (bound + 1) { pc := pc, locals := locals } =
      code.runFrom natives frame bound { pc := pc + 1, locals := locals } := by
  rw [runFrom_succ (.branch Guard.done) (by rw [← List.head?_drop, hops]; rfl)]
  simp only [step, jump, Guard.done, hdone, continueWith, pure_bind]

/-- Behind the checks the body is walked through. -/
theorem runFrom_behind {before ops : List Op} (hops : code.ops = before ++ ops)
    (hs : ∀ op ∈ ops, op.IsStraight) {pc bound : Nat} (hpc : pc = before.length)
    (hb : ops.length ≤ bound) :
    code.runFrom natives frame bound { pc := pc, locals := locals } =
      walk natives frame ops { locals := locals } >>= Progress.answer code.name := by
  rw [runFrom_walk_end hs (by simp [hops, hpc]) hb]
  have hmove := @walk_moveTo natives frame ops hs { locals := locals } pc
  rw [hmove, bind_map_left]
  refine bind_congr fun p => ?_
  cases p <;> rfl

/-- **A body behind a guard**: a refused call ends at once, any other one
walks through the body. -/
theorem runFrom_guarded {g : Guard} {ops : List Op}
    (hops : code.ops = g.ops ++ ops) (hlabels : code.labels = g.labels)
    (hs : ∀ op ∈ ops, op.IsStraight) {bound : Nat} (hb : g.ops.length + ops.length ≤ bound) :
    code.runFrom natives frame bound { locals := locals } =
      Exec.refuse (g.verdict? frame)
        (walk natives frame ops { locals := locals } >>= Progress.answer code.name) := by
  obtain ⟨extra, rfl⟩ := Nat.exists_eq_add_of_le hb
  have hbody : ∀ pc bound, pc = g.ops.length → ops.length ≤ bound →
      code.runFrom natives frame bound { pc := pc, locals := locals } =
        walk natives frame ops { locals := locals } >>= Progress.answer code.name :=
    fun _ _ hpc hle => runFrom_behind hops hs hpc hle
  rw [Guard.verdict?_eq_or, Exec.refuse_or]
  -- a guard has four forms, and each its own positions
  obtain ⟨receiver, n⟩ := g
  cases receiver with
  | false =>
    cases n with
    | zero => exact hbody _ _ rfl (by omega)
    | succ n =>
      have hlen : (Guard.ops ⟨false, n + 1⟩).length = 6 := rfl
      rw [hlen, show 6 + ops.length + extra = (ops.length + extra + 1) + 5 by omega,
        runFrom_argumentCheck ⟨1⟩ ops (Nat.succ_ne_zero n) (by rw [hops]; rfl)
          (by rw [hlabels]; rfl) (by rw [hlabels]; rfl),
        hbody (0 + 6) (ops.length + extra + 1 + 1) rfl (by omega)]
      rfl
  | true =>
    cases n with
    | zero =>
      have hlen : (Guard.ops ⟨true, 0⟩).length = 4 := rfl
      rw [hlen, show 4 + ops.length + extra = (ops.length + extra + 1) + 3 by omega,
        runFrom_receiverCheck (.branch Guard.done :: ops) (by rw [hops]; rfl)
          (by rw [hlabels]; rfl),
        runFrom_branchDone ops (by rw [hops]; rfl) (by rw [hlabels]; rfl),
        hbody (3 + 1) (ops.length + extra + 1) rfl (by omega)]
      rfl
    | succ n =>
      have hlen : (Guard.ops ⟨true, n + 1⟩).length = 9 := rfl
      rw [hlen, show 9 + ops.length + extra = (ops.length + extra + 6) + 3 by omega,
        runFrom_receiverCheck
          (.branchIfArgumentsPresent ⟨2⟩ :: (Guard.ops ⟨false, n + 1⟩).tail ++ ops)
          (by rw [hops]; rfl) (by rw [hlabels]; rfl),
        show ops.length + extra + 6 + 1 = (ops.length + extra + 2) + 5 by omega,
        runFrom_argumentCheck ⟨2⟩ ops (Nat.succ_ne_zero n) (by rw [hops]; rfl)
          (by rw [hlabels]; rfl) (by rw [hlabels]; rfl),
        hbody (3 + 6) (ops.length + extra + 2 + 1) rfl (by omega)]

end Code

/-- **An accessor behind a guard**, called. -/
theorem Accessor.call_of_guarded {natives : Natives} {frame : Frame} {a : Accessor} {name : String}
    {g : Guard} {ops : List Op} (h : a.code.Guarded name g ops)
    (hs : ∀ op ∈ ops, op.IsStraight) :
    a.call natives frame =
      Exec.refuse (g.verdict? frame)
        (Code.walk natives frame ops {} >>= Progress.answer name) := by
  have hbound : g.ops.length + ops.length ≤ a.code.ops.length := by simp [h.ops_eq]
  rw [Accessor.call, Code.run, h.localCount_eq, ← h.name_eq]
  exact Code.runFrom_guarded h.ops_eq h.labels_eq hs hbound

end MemberAccess
