import Mathlib.Data.List.Induction
import MemberAccess.Proofs.Code.Faults
import MemberAccess.Proofs.Code.Traces
/-!
# Code — the height of the stack, written and run

A builder counts the height of the stack along the text. Where nothing jumps,
a run goes along the text too, so the stack of the machine is as high before an
instruction as the builder's count was before the call that wrote it, and never
higher than the body announces (`CodeBuilder.heights_of_run`). What the machine
does at one instruction is `Code.yields_step`; the rest is the induction along
a trace.
-/

namespace MemberAccess

/-- A jump takes values and leaves none. -/
theorem Op.effect_of_target? {op : Op} {l : Label} (h : op.target? = some l) :
    op.effect.2 = 0 := by
  cases op <;> first | rfl | cases h

namespace Code

variable {natives : Natives} {code : Code} {frame : Frame} {c c' : Config} {op : Op}
  {out : Except AccessorError Progress} {h h' : Heap}

/-! ## One instruction -/

/-- **Where the run goes on, the stack has changed by the effect of the
instruction**, and what was not taken is still there. -/
theorem Yields.stack (hy : Yields code c op (.ok (.next c'))) :
    c'.stack.length = c.stack.length - op.effect.1 + op.effect.2 ∧
      c'.stack.drop op.effect.2 = c.stack.drop op.effect.1 := by
  cases hy with
  | next pushed locals _ _ hpushed =>
    refine ⟨?_, by rw [← hpushed, List.drop_left]⟩
    rw [List.length_append, List.length_drop, hpushed, Nat.add_comm]
  | jump l pc hl =>
    rw [Op.effect_of_target? hl]
    exact ⟨List.length_drop, rfl⟩

/-- **An instruction that finds what it takes does not miss an operand.** -/
theorem Yields.ne_operandMissing (hy : Yields code c op out)
    (hpops : op.effect.1 ≤ c.stack.length) : out ≠ .error (.malformed .operandMissing) := by
  rintro rfl
  cases hy with
  | fault e hno => exact hno _ rfl
  | operandMissing hfew => exact absurd hpops (Nat.not_le.2 hfew)

/-! ## Along a trace -/

/-- **Where nothing jumps, a run goes along the text**: the stack is as high as
the text says. -/
theorem Finished.heightAt_of_trace (hf : code.Finished) (hs : ∀ op ∈ code.ops, op.IsStraight)
    {ps : List Nat} (ht : Trace natives code frame code.start h ps c h') :
    code.heightAt c.pc = some c.stack.length := by
  refine ht.keeps (P := fun c => code.heightAt c.pc = some c.stack.length) ?_ rfl
  intro c c' op hheight hop hy
  cases hy with
  | next pushed locals _ _ hpushed =>
    rw [(hf.heightAt_succ hop hheight).2, List.length_append, List.length_drop, hpushed,
      Nat.add_comm]
  | jump l pc hl =>
    have hstraight : op.target? = none := hs op (List.mem_of_getElem? hop)
    rw [hstraight] at hl
    cases hl

end Code

namespace CodeBuilder

variable {b b' : CodeBuilder} {name : String} {calls : List BuilderCall} {code : Code}

/-! ## Along the calls of a builder -/

/-- A call writes an instruction, or writes nothing. -/
theorem perform_ops (b : CodeBuilder) (call : BuilderCall) :
    (b.perform call).ops = b.ops ∨
      ∃ op b', call = .emit op ∧ b.emit op = .ok b' ∧ (b.perform call).ops = b.ops ++ [op] := by
  cases call with
  | emit op =>
    simp only [perform]
    split
    · rename_i b' hemit
      exact .inr ⟨op, b', rfl, hemit, (emit_eq_ok.1 hemit).2 ▸ rfl⟩
    · exact .inl rfl
  | mark l =>
    refine .inl ?_
    simp only [perform, mark]
    split <;> rfl
  | defineLabel | declareLocal => exact .inl rfl

/-- **Every instruction was written by a call**, which found before it what
stands before the instruction. -/
theorem exists_emit {i : Nat} {op : Op} (hop : (after name calls).ops[i]? = some op) :
    ∃ before behind b, calls = before ++ .emit op :: behind ∧
      (after name before).emit op = .ok b ∧
      (after name before).ops = (after name calls).ops.take i ∧
      (after name before).ops.length = i := by
  induction calls using List.reverseRecOn with
  | nil => cases hop
  | append_singleton calls call ih =>
    rw [after_concat] at hop ⊢
    rcases perform_ops (after name calls) call with hsame | ⟨op', b', rfl, hemit, hops⟩
    · rw [hsame] at hop ⊢
      obtain ⟨before, behind, b, rfl, hb⟩ := ih hop
      exact ⟨before, behind ++ [call], b, by simp, hb⟩
    · rw [hops] at hop ⊢
      obtain ⟨hi, -⟩ := List.getElem?_eq_some_iff.1 hop
      rw [List.length_append, List.length_singleton] at hi
      rcases Nat.lt_or_eq_of_le (Nat.le_of_lt_succ hi) with hlt | rfl
      · -- the instruction was there before this call
        rw [List.getElem?_append_left hlt] at hop
        obtain ⟨before, behind, b, rfl, hb, htake, hlen⟩ := ih hop
        refine ⟨before, behind ++ [.emit op'], b, by simp, hb, ?_, hlen⟩
        rw [htake, List.take_append_of_le_length (Nat.le_of_lt hlt)]
      · obtain rfl : op' = op := by simpa using hop
        exact ⟨calls, [], b', rfl, hemit, by simp, rfl⟩

/-- **No height along the text is above the greatest that was counted.** -/
def Topped (b : CodeBuilder) : Prop :=
  ∀ i d, Op.heightAfter (b.ops.take i) 0 = some d → d ≤ b.maxDepth

theorem Topped.perform (ht : b.Topped) (hb : b.Tallied) (call : BuilderCall) :
    (b.perform call).Topped := by
  cases call with
  | emit op =>
    have hafter := hb.perform (.emit op)
    simp only [CodeBuilder.perform] at hafter ⊢
    split at hafter
    · rename_i b' hemit
      obtain ⟨-, rfl⟩ := emit_eq_ok.1 hemit
      intro i d hd
      by_cases hi : i ≤ b.ops.length
      · rw [List.take_append_of_le_length hi] at hd
        exact Nat.le_trans (ht i d hd) (Nat.le_max_left ..)
      · -- behind the new instruction the height is the new depth
        rw [List.take_of_length_le (by simp; omega), hafter.height] at hd
        cases hd
        exact Nat.le_max_right ..
    · exact ht
  | mark l =>
    simp only [CodeBuilder.perform, CodeBuilder.mark]
    split <;> exact ht
  | defineLabel | declareLocal => exact ht

theorem topped_after (name : String) (calls : List BuilderCall) : (after name calls).Topped := by
  induction calls using List.reverseRecOn with
  | nil =>
    intro i d hd
    rw [show (after name []).ops = [] from rfl, List.take_nil] at hd
    cases hd
    exact Nat.le_refl 0
  | append_singleton calls call ih =>
    rw [after_concat]
    exact ih.perform (.after name calls) call

theorem maxStack_of_finish (h : b.finish = .ok code) : code.maxStack = b.maxDepth := by
  unfold finish at h
  split at h
  · cases h
    rfl
  · cases h

end CodeBuilder

open CodeBuilder in
/-- **What an instruction declares to do to the stack is what it does.** On a
stack that holds what it takes, it misses no operand, and where the run goes on
the stack has changed by the declared effect, above values that are untouched.
So in a body without jumps the stack is as high before each instruction that is
executed as the builder's count was when the call for it was made, and never
higher than the body announces. -/
theorem CodeBuilder.heights_of_run :
    (∀ (natives : Natives) (code : Code) (frame : Frame) (c : Config) (op : Op) (h h' : Heap)
        (out : Except AccessorError Progress), op.effect.1 ≤ c.stack.length →
      (Code.step natives code frame c op).run h = some (out, h') →
      out ≠ .error (.malformed .operandMissing) ∧
      ∀ c', out = .ok (.next c') →
        c'.stack.length = c.stack.length - op.effect.1 + op.effect.2 ∧
        c'.stack.drop op.effect.2 = c.stack.drop op.effect.1) ∧
    ∀ (name : String) (calls : List BuilderCall) (code : Code),
      (after name calls).finish = .ok code → (∀ op ∈ code.ops, op.IsStraight) →
      ∀ (natives : Natives) (frame : Frame) (h h' : Heap) (ps : List Nat) (c : Config),
        Code.Trace natives code frame code.start h ps c h' →
        c.stack.length ≤ code.maxStack ∧
        ∀ op, code.ops[c.pc]? = some op →
          ∃ before behind b, calls = before ++ .emit op :: behind ∧
            (after name before).emit op = .ok b ∧
            (after name before).ops.length = c.pc ∧
            (after name before).depth = c.stack.length := by
  refine ⟨fun natives code frame c op h h' out hpops hrun => ?_,
    fun name calls code hfinish hs natives frame h h' ps c ht => ?_⟩
  · have hy : Code.Yields code c op out := Code.yields_step h out h' hrun
    exact ⟨hy.ne_operandMissing hpops, fun c' hout => (hout ▸ hy).stack⟩
  · have hheight := (finished_of_after hfinish).heightAt_of_trace hs ht
    obtain ⟨-, hops, -, -⟩ := finish_eq_ok hfinish
    rw [Code.heightAt, hops] at hheight
    refine ⟨?_, fun op hop => ?_⟩
    · rw [maxStack_of_finish hfinish]
      exact topped_after name calls _ _ hheight
    · obtain ⟨before, behind, b, hcalls, hemit, htake, hlen⟩ := exists_emit (hops ▸ hop)
      refine ⟨before, behind, b, hcalls, hemit, hlen, ?_⟩
      -- the count of the builder before the call is the height of the text before the instruction
      have hcount := (Tallied.after name before).height
      rw [htake, hheight] at hcount
      exact (Option.some.inj hcount).symm

namespace Sample

/-- A body with instructions behind its first return, which no run comes to. -/
def afterReturn : List BuilderCall :=
  [.emit .loadReceiver, .emit .ret, .emit .loadNull, .emit .loadNull, .emit .ret, .emit .ret]

def afterReturnCode : Code where
  name := "early"
  ops := [.loadReceiver, .ret, .loadNull, .loadNull, .ret, .ret]
  labels := []
  localCount := 0
  maxStack := 2

/-- Storing a local takes one value of two, and the return that the run comes to
finds the one value that was counted when it was written, although the text goes
on to a height of two. -/
theorem heights_afterReturn :
    let natives : Natives := fun _ _ => pure .null
    let atStore : Config := { stack := [.null, .int32 1], locals := [.null] }
    let stored : Config := { stack := [.int32 1], locals := [.null] }
    let atReturn : Config := { pc := 1, stack := [.null] }
    (Op.storeLocal 0).effect.1 ≤ atStore.stack.length ∧
      (Code.step natives afterReturnCode default atStore (.storeLocal 0)).run default =
        some (.ok (.next stored), default) ∧
      stored.stack.length = 1 ∧
      (CodeBuilder.after "early" afterReturn).finish = .ok afterReturnCode ∧
      (∀ op ∈ afterReturnCode.ops, op.IsStraight) ∧
      Code.Trace natives afterReturnCode default afterReturnCode.start default [0] atReturn
        default ∧
      atReturn.stack.length ≤ 2 ∧
      ∃ before behind b, afterReturn = before ++ .emit .ret :: behind ∧
        (CodeBuilder.after "early" before).emit .ret = .ok b ∧
        (CodeBuilder.after "early" before).ops.length = 1 ∧
        (CodeBuilder.after "early" before).depth = 1 := by
  intro natives atStore stored atReturn
  have hpops : (Op.storeLocal 0).effect.1 ≤ atStore.stack.length := by decide
  have hstep : (Code.step natives afterReturnCode default atStore (.storeLocal 0)).run default =
      some (.ok (.next stored), default) := rfl
  have hfinish : (CodeBuilder.after "early" afterReturn).finish = .ok afterReturnCode := rfl
  have hs : ∀ op ∈ afterReturnCode.ops, op.IsStraight := by
    intro op hop
    simp only [afterReturnCode, List.mem_cons, List.not_mem_nil, or_false] at hop
    rcases hop with rfl | rfl | rfl | rfl | rfl | rfl <;> rfl
  have htrace : Code.Trace natives afterReturnCode default afterReturnCode.start default [0]
      atReturn default := .cons rfl rfl (.nil ..)
  obtain ⟨hone, hmany⟩ := CodeBuilder.heights_of_run
  obtain ⟨-, hstack⟩ :=
    hone natives afterReturnCode default atStore (.storeLocal 0) default default _ hpops hstep
  obtain ⟨hmax, hcount⟩ :=
    hmany "early" afterReturn afterReturnCode hfinish hs natives default default default [0]
      atReturn htrace
  exact ⟨hpops, hstep, (hstack stored rfl).1, hfinish, hs, htrace, hmax, hcount .ret rfl⟩

end Sample

end MemberAccess
