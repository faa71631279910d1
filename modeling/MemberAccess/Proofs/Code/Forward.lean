import Mathlib.Data.List.Perm.Subperm
import MemberAccess.Proofs.Code.Traces
/-!
# Code — bodies whose jumps lead ahead

Where every jump leads ahead, the positions along a trace ascend
(`JumpsForward.ascending`), so a run executes no instruction twice and stops
within the length of the body, whatever the bound (`JumpsForward.halts`). It has
an answer then, unless a member's body has none or the instruction where it
stops is to copy a box that has no contents (`Answers`, `answers_step`).
-/

namespace MemberAccess

/-! ## Instructions that have an answer -/

/-- **The copy that an instruction is to make never ends**: of the value on top,
or of a default of the type that is zeroed. -/
def Op.CopiesForever (h : Heap) (c : Config) : Op → Prop
  | .castValue _ | .box _ => ∃ v stack, c.stack = v :: stack ∧ h.detach? v = none
  | .newObject t _ _ => h.zeroed? t = none
  | .initObject t => h.zeroOf? t = none
  | _ => False

/-- **Every member's body has an answer.** -/
def Natives.Return (natives : Natives) : Prop :=
  ∀ token inv h, (natives token inv).run h ≠ none

namespace Exec

variable {ε ε' α β : Type} {x : Exec ε α} {h : Heap}

/-- **A computation has an answer on a heap**, be it a fault. -/
def Answers (h : Heap) (x : Exec ε α) : Prop := x.run h ≠ none

namespace Answers

theorem pure (a : α) : Answers h (Pure.pure a : Exec ε α) := nofun

theorem throw (e : ε) : Answers h (Exec.throw e : Exec ε α) := nofun

theorem ofExcept (a : Except ε α) : Answers h (Exec.ofExcept a) := nofun

theorem read (f : Heap → Except ε α) : Answers h (Exec.read f) := nofun

theorem ask (f : Heap → α) : Answers h (Exec.ask f : Exec ε α) := nofun

theorem alloc (f : Heap → α × Heap) : Answers h (Exec.alloc f : Exec ε α) := nofun

theorem change (f : Heap → Except ε Heap) : Answers h (Exec.change f) := by
  unfold Answers
  rw [run_change]
  split <;> exact nofun

theorem alloc? {f : Heap → Option (α × Heap)} (hf : f h ≠ none) :
    Answers h (Exec.alloc? f : Exec ε α) := by
  unfold Answers
  rw [run_alloc?]
  exact fun hnone => hf (Option.map_eq_none_iff.1 hnone)

/-- A sequence has an answer where its parts have one. -/
theorem bind {f : α → Exec ε β} (hx : Answers h x) (hf : ∀ a h, Answers h (f a)) :
    Answers h (x >>= f) := by
  unfold Answers
  rw [run_bind]
  rcases hrun : x.run h with _ | ⟨_ | a, h₁⟩
  · exact absurd hrun hx
  · exact nofun
  · exact hf a h₁

/-- Renaming faults changes nothing. -/
theorem mapFault {f : ε → ε'} (hx : Answers h x) : Answers h (Exec.mapFault f x) := by
  unfold Answers
  rw [run_mapFault]
  rcases hrun : x.run h with _ | ⟨_ | a, h₁⟩
  · exact absurd hrun hx
  · exact nofun
  · exact nofun

end Answers

end Exec

namespace Code

open Exec

variable {natives : Natives} {code : Code} {frame : Frame} {c c' : Config} {op : Op} {h h' : Heap}
  {ps : List Nat}

section Taking

theorem answers_pop {k : Value → Config → Exec AccessorError Progress}
    (hk : ∀ v stack, c.stack = v :: stack → Answers h (k v { c with stack := stack })) :
    Answers h (c.pop k) := by
  unfold Config.pop
  split
  · rename_i v stack hstack
    exact hk v stack hstack
  · exact .throw _

theorem answers_popN {n : Nat} {k : List Value → Config → Exec AccessorError Progress}
    (hk : ∀ args c, Answers h (k args c)) : Answers h (c.popN n k) := by
  unfold Config.popN
  split
  · exact hk _ _
  · exact .throw _

theorem answers_popObject {k : ObjectRef → Config → Exec AccessorError Progress}
    (hk : ∀ r c h, Answers h (k r c)) : Answers h (c.popObject k) :=
  answers_pop fun _ _ _ => .bind (.mapFault (.read _)) fun r h => hk r _ h

theorem answers_popInt32 {k : Int32 → Config → Exec AccessorError Progress}
    (hk : ∀ i c h, Answers h (k i c)) : Answers h (c.popInt32 k) :=
  answers_pop fun _ _ _ => .bind (.mapFault (.read _)) fun i h => hk i _ h

end Taking

theorem answers_jump (l : Label) : Answers h (code.jump l c) := by
  unfold jump
  split
  · exact .pure _
  · exact .throw _

/-- A body that was generated reads or writes, and has an answer. -/
theorem answers_memberBody (hn : natives.Return) (body : MemberBody) (inv : Invocation) :
    Answers h (body.run natives inv) := by
  cases body with
  | readSlot i => exact .bind (.ofExcept _) fun _ _ => .read _
  | writeSlot i =>
    exact .bind (.ofExcept _) fun _ _ => .bind (.ofExcept _) fun _ _ =>
      .bind (.change _) fun _ _ => .pure _
  | readCell k => exact .ask _
  | writeCell k => exact .bind (.ofExcept _) fun _ _ => .bind (.alloc _) fun _ _ => .pure _
  | native token => exact hn token inv h

theorem answers_callMethod (hn : natives.Return) (dispatches : Bool) (m : Method)
    (this : Option ObjectRef) (args : List Value) :
    Answers h (callMethod natives dispatches m this args) := by
  refine .bind (.ask _) fun callee h => ?_
  cases callee with
  | some body => exact answers_memberBody hn body _
  | none => exact .read _

theorem answers_call (hn : natives.Return) (dispatches : Bool) (m : Method) :
    Answers h (call natives dispatches m c) := by
  unfold call
  refine answers_popN fun args c => ?_
  split
  · exact .bind (.mapFault (answers_callMethod hn _ _ _ _)) fun _ _ => .pure _
  · exact answers_popObject fun r c h =>
      .bind (.mapFault (answers_callMethod hn _ _ _ _)) fun _ _ => .pure _

/-- Whether a value is admissible is only asked; a copy may have to be made
then. -/
theorem answers_castValue {v : Value} {t : TypeDef} (hends : h.detach? v ≠ none) :
    Answers h (castValue v t) := by
  unfold castValue Answers
  rw [run_bind, run_ask]
  change Answers h (if h.isAdmissible v t = true then _ else _)
  split
  · split
    · exact .alloc? hends
    · exact .pure _
  · exact .read _

theorem answers_construct (hn : natives.Return) {t : TypeDef} (hends : h.zeroed? t ≠ none)
    (body : Option NativeId) (args : List Value) : Answers h (construct natives t body args) := by
  refine .bind (.alloc? hends) fun r h => ?_
  cases body with
  | none => exact .pure _
  | some token => exact .bind (hn token _ h) fun _ _ => .pure _

/-- **An instruction has an answer** if members' bodies have, unless it is to
make a copy that never ends. -/
theorem answers_step (hn : natives.Return) (hcopy : ¬ op.CopiesForever h c) :
    Answers h (step natives code frame c op) := by
  cases op with
  | loadReceiver | loadInput | loadNull | loadInt32 | retVoid => exact .pure _
  | loadArgument i =>
    exact .bind (.mapFault (.ofExcept _)) fun _ _ => .bind (.mapFault (.ofExcept _)) fun _ _ =>
      .pure _
  | loadArgumentCount => exact .bind (.mapFault (.ofExcept _)) fun _ _ => .pure _
  | storeLocal i =>
    simp only [step]
    refine answers_pop fun v stack _ => ?_
    split
    · exact .pure _
    · exact .throw _
  | loadLocal i =>
    simp only [step]
    split
    · exact .pure _
    · exact .throw _
  | branch l => exact answers_jump l
  | branchIfNotNull l =>
    simp only [step]
    refine answers_pop fun v stack _ => ?_
    split
    · exact .pure _
    · exact answers_jump l
  | branchIfArgumentsPresent l =>
    simp only [step]
    split
    · exact answers_jump l
    · exact .pure _
  | branchIfGreaterOrEqual l =>
    simp only [step]
    refine answers_popInt32 fun b c h => answers_popInt32 fun a c h => ?_
    split
    · exact answers_jump l
    · exact .pure _
  | throwArgumentNull | throwNotEnoughArguments => exact .throw _
  | castReference t =>
    simp only [step]
    exact answers_pop fun v stack _ => .bind (.mapFault (.read _)) fun _ _ => .pure _
  | castValue t =>
    simp only [step]
    refine answers_pop fun v stack hstack => .bind (.mapFault ?_) fun _ _ => .pure _
    exact answers_castValue fun hnone => hcopy ⟨v, stack, hstack, hnone⟩
  | box t =>
    simp only [step]
    refine answers_pop fun v stack hstack => .bind (.mapFault (.alloc? ?_)) fun _ _ => .pure _
    exact fun hnone => hcopy ⟨v, stack, hstack, hnone⟩
  | loadField slot =>
    simp only [step]
    exact answers_popObject fun _ _ _ => .bind (.mapFault (.read _)) fun _ _ => .pure _
  | storeField slot =>
    simp only [step]
    exact answers_pop fun _ _ _ => answers_popObject fun _ _ _ =>
      .bind (.mapFault (.change _)) fun _ _ => .pure _
  | loadStaticField k => exact .bind (.ask _) fun _ _ => .pure _
  | storeStaticField k =>
    simp only [step]
    exact answers_pop fun _ _ _ => .bind (.alloc _) fun _ _ => .pure _
  | call m => exact answers_call hn false m
  | callVirtual m => exact answers_call hn true m
  | newObject t arity body =>
    simp only [step]
    exact answers_popN fun args c =>
      .bind (.mapFault (answers_construct hn hcopy body args)) fun _ _ => .pure _
  | initObject t => exact .bind (.alloc? hcopy) fun _ _ => .pure _
  | ret =>
    simp only [step]
    exact answers_pop fun _ _ _ => .pure _

/-! ## Traces ascend -/

/-- **Every jump leads ahead**: its label stands behind it. -/
def JumpsForward (code : Code) : Prop :=
  ∀ (i : Nat) (op : Op) (l : Label), code.ops[i]? = some op → op.target? = some l →
    ∃ pc, code.labels[l.id]? = some pc ∧ i < pc

/-- What does not jump jumps forward. -/
theorem jumpsForward_of_straight (hs : ∀ op ∈ code.ops, op.IsStraight) : code.JumpsForward := by
  intro i op l hop hl
  have hnone : op.target? = none := hs op (List.mem_of_getElem? hop)
  rw [hnone] at hl
  cases hl

namespace JumpsForward

/-- One instruction leads ahead. -/
theorem lt_of_yields (hf : code.JumpsForward) (hop : code.ops[c.pc]? = some op)
    (hy : Yields code { c with pc := c.pc + 1 } op (.ok (.next c'))) : c.pc < c'.pc := by
  cases hy with
  | next pushed locals => exact Nat.lt_succ_self _
  | jump l pc hl hpc =>
    obtain ⟨place, hplace, hlt⟩ := hf c.pc op l hop hl
    obtain rfl : place = pc := Option.some.inj (hplace.symm.trans hpc)
    exact hlt

/-- **The positions along a trace ascend**, up to the one it comes to. -/
theorem ascending (hf : code.JumpsForward) (ht : Trace natives code frame c h ps c' h') :
    (ps ++ [c'.pc]).Pairwise (· < ·) ∧ ∀ p ∈ ps ++ [c'.pc], c.pc ≤ p := by
  induction ht with
  | nil c h => exact ⟨List.pairwise_singleton _ _, by simp⟩
  | @cons c c₁ c' h h₁ h' op ps hop hstep _ ih =>
    have hlt : c.pc < c₁.pc := hf.lt_of_yields hop (yields_step _ _ _ hstep)
    obtain ⟨hpairwise, hle⟩ := ih
    refine ⟨List.pairwise_cons.2 ⟨fun p hp => Nat.lt_of_lt_of_le hlt (hle p hp), hpairwise⟩, ?_⟩
    intro p hp
    rcases List.mem_cons.1 hp with rfl | hp
    · exact Nat.le_refl _
    · exact Nat.le_of_lt (Nat.lt_of_lt_of_le hlt (hle p hp))

end JumpsForward

/-- A trace comes through positions of the body. -/
theorem Trace.lt_length (ht : Trace natives code frame c h ps c' h') :
    ∀ p ∈ ps, p < code.ops.length := by
  induction ht with
  | nil => exact nofun
  | cons hop _ _ ih =>
    obtain ⟨hlt, -⟩ := List.getElem?_eq_some_iff.1 hop
    exact List.forall_mem_cons.2 ⟨hlt, ih⟩

/-- Ascending numbers below a bound are no more than the bound. -/
theorem length_le_of_pairwise {n : Nat} (hps : ps.Pairwise (· < ·)) (hlt : ∀ p ∈ ps, p < n) :
    ps.length ≤ n := by
  have hnodup : ps.Nodup := hps.imp Nat.ne_of_lt
  have hsub : ps ⊆ List.range n := fun p hp => List.mem_range.2 (hlt p hp)
  simpa using (List.subperm_of_subset hnodup hsub).length_le

/-- **No more instructions than the body has** are executed on the way, and
fewer if another one follows. -/
theorem JumpsForward.length_le (hf : code.JumpsForward)
    (ht : Trace natives code frame c h ps c' h') :
    ps.length ≤ code.ops.length ∧ (c'.pc < code.ops.length → ps.length < code.ops.length) := by
  obtain ⟨hpairwise, -⟩ := hf.ascending ht
  refine ⟨length_le_of_pairwise (List.pairwise_append.1 hpairwise).1 ht.lt_length, fun hlt => ?_⟩
  have hle := length_le_of_pairwise hpairwise
    (List.forall_mem_append.2 ⟨ht.lt_length, by simpa using hlt⟩)
  rwa [List.length_append, List.length_singleton] at hle

/-! ## Where a run stops -/

/-- Where a run stops, one instruction is as good as any number of them. -/
theorem Stops.runFrom_eq (hs : Stops natives code frame c h) (bound : Nat) :
    (code.runFrom natives frame (bound + 1) c).run h = (code.runFrom natives frame 1 c).run h := by
  cases hop : code.ops[c.pc]? with
  | none => rw [runFrom_end hop, runFrom_end hop]
  | some op =>
    rw [runFrom_succ op hop, runFrom_succ op hop]
    refine run_bind_congr rfl fun p h₁ hstep => ?_
    cases p with
    | next c₁ => exact absurd hstep (hs op hop c₁ h₁)
    | done v => rfl

/-- A run past the last instruction stops whatever its bound. -/
theorem runFrom_eq_of_end (hend : code.ops[c.pc]? = none) (bound bound' : Nat) :
    code.runFrom natives frame bound c = code.runFrom natives frame bound' c := by
  rw [runFrom_end hend, runFrom_end hend]

/-- **Where every jump leads ahead, a run stops**, within as many instructions
as the body has, and a greater bound makes no difference. -/
theorem JumpsForward.exists_stop (hf : code.JumpsForward) (natives : Natives) (frame : Frame)
    (c : Config) (h : Heap) :
    ∃ ps c' h', Trace natives code frame c h ps c' h' ∧ Stops natives code frame c' h' ∧
      ∀ bound, code.ops.length ≤ bound →
        (code.runFrom natives frame bound c).run h =
          (code.runFrom natives frame 1 c').run h' := by
  obtain ⟨ps, c', h', ht, hend⟩ := exists_trace natives code frame (code.ops.length + 1) c h
  obtain ⟨hle, hlt⟩ := hf.length_le ht
  have hstops : Stops natives code frame c' h' := hend.resolve_left fun hlen => by omega
  refine ⟨ps, c', h', ht, hstops, fun bound hbound => ?_⟩
  obtain ⟨left, rfl⟩ := Nat.exists_eq_add_of_le (Nat.le_trans hle hbound)
  rw [ht.runFrom_eq]
  by_cases hin : c'.pc < code.ops.length
  · -- an instruction is left to execute, and so is some of the bound
    obtain ⟨more, rfl⟩ : ∃ more, left = more + 1 := Nat.exists_eq_succ_of_ne_zero (by
      have := hlt hin
      omega)
    exact hstops.runFrom_eq more
  · rw [runFrom_eq_of_end (List.getElem?_eq_none (Nat.not_lt.1 hin))]

/-- **A run that has stopped has an answer** if members' bodies have, unless it
has stopped at a copy that never ends. -/
theorem Stops.answers (hs : Stops natives code frame c h) (hn : natives.Return) :
    Answers h (code.runFrom natives frame 1 c) ∨
      ∃ op, code.ops[c.pc]? = some op ∧ op.CopiesForever h c := by
  cases hop : code.ops[c.pc]? with
  | none =>
    rw [runFrom_end hop]
    exact .inl (.throw _)
  | some op =>
    by_cases hcopy : op.CopiesForever h c
    · exact .inr ⟨op, rfl, hcopy⟩
    · refine .inl ?_
      have hstep : Answers h (step natives code frame { c with pc := c.pc + 1 } op) :=
        answers_step hn (by cases op <;> exact hcopy)
      unfold Answers at hstep ⊢
      rw [runFrom_succ op hop, run_bind]
      rcases hrun : (step natives code frame { c with pc := c.pc + 1 } op).run h with
        _ | ⟨_ | p, h₁⟩
      · exact absurd hrun hstep
      · exact nofun
      · cases p with
        | next c₁ => exact absurd hrun (hs op hop c₁ h₁)
        | done v => exact nofun

end Code

end MemberAccess
