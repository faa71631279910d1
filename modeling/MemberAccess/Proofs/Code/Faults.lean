import MemberAccess.Proofs.Code.Calls
import MemberAccess.Proofs.Code.Steps
/-!
# Code — what a finished body can still be wrong in

Finishing a body checks that every jump leads somewhere, that the text is
balanced and that its end is closed. It counts along the text and not along the
jumps, it does not look at locals, and a label may stand behind the last
instruction. `Code.Slip` lists what that leaves open: a local that was never
declared, a jump out of the body, and a jump between places where the stack is
not equally high. `CodeBuilder.slip_of_malformed` says that this is all: a run
of a finished body is malformed in no other way.
-/

namespace MemberAccess

namespace Code

/-- The height of the stack before an instruction, counted along the text. -/
def heightAt (code : Code) (i : Nat) : Option Nat := Op.heightAfter (code.ops.take i) 0

/-- **What finishing a body does not see**, and the fault that a run can then
end in. -/
inductive Slip (code : Code) : CodeFault → Prop where
  /-- A local was not declared. -/
  | unknownLocal {op : Op} {i : Nat} : op ∈ code.ops → op.local? = some i → code.localCount ≤ i →
      Slip code (.unknownLocal i)
  /-- A jump leads behind the last instruction. -/
  | ranPastEnd {op : Op} {l : Label} : op ∈ code.ops → op.target? = some l →
      code.labels[l.id]? = some code.ops.length → Slip code (.ranPastEnd code.name)
  /-- A jump leads to where the text has the stack at another height. -/
  | operandMissing {i d pc : Nat} {op : Op} {l : Label} : code.ops[i]? = some op →
      op.target? = some l → code.labels[l.id]? = some pc → code.heightAt i = some d →
      code.heightAt pc ≠ some (d - op.effect.1) → Slip code .operandMissing

variable {natives : Natives} {code : Code} {frame : Frame} {c c' : Config} {op : Op} {f : CodeFault}

/-! ## Heights along the text -/

namespace Finished

/-- The stack has a height everywhere in a finished body. -/
theorem exists_heightAt (hf : code.Finished) (i : Nat) : ∃ d, code.heightAt i = some d := by
  have hheight := hf.height
  rw [← List.take_append_drop i code.ops, Op.heightAfter_append, Option.bind_eq_some_iff] at hheight
  obtain ⟨d, hd, -⟩ := hheight
  exact ⟨d, hd⟩

/-- **The text never takes more than there is.** -/
theorem heightAt_succ (hf : code.Finished) {i d : Nat} (hop : code.ops[i]? = some op)
    (hd : code.heightAt i = some d) :
    op.effect.1 ≤ d ∧ code.heightAt (i + 1) = some (d - op.effect.1 + op.effect.2) := by
  have htake : code.ops.take (i + 1) = code.ops.take i ++ [op] := by
    rw [List.take_add_one, hop]
    rfl
  have hsucc : code.heightAt (i + 1) =
      if d < op.effect.1 then none else some (d - op.effect.1 + op.effect.2) := by
    rw [heightAt, htake, Op.heightAfter_append]
    rw [heightAt] at hd
    rw [hd, Option.bind_some, Op.heightAfter_cons]
    rfl
  obtain ⟨d', hd'⟩ := hf.exists_heightAt (i + 1)
  rw [hsucc] at hd'
  split at hd'
  · cases hd'
  · rename_i hle
    rw [if_neg hle] at hsucc
    exact ⟨Nat.not_lt.1 hle, hsucc⟩

/-- Behind an instruction that does not end the run there is another one. -/
theorem succ_lt (hf : code.Finished) {i : Nat} (hop : code.ops[i]? = some op)
    (ht : op.isTerminator = false) : i + 1 < code.ops.length := by
  obtain ⟨hi, -⟩ := List.getElem?_eq_some_iff.1 hop
  refine Nat.not_le.1 fun hend => ?_
  -- otherwise the instruction is the last one, and the last one ends the run
  have hlast : code.ops.getLast? = some op := by
    rw [List.getLast?_eq_getElem?, show code.ops.length - 1 = i by omega]
    exact hop
  have hterm := hf.last
  rw [hlast, Option.any_some, ht] at hterm
  cases hterm

end Finished

/-! ## Along a run -/

/-- **A run that has gone as the text says**, as far as the text can tell: where
it has left the text, the body has the slip that explains it. -/
structure OnCourse (code : Code) (c : Config) : Prop where
  locals : c.locals.length = code.localCount
  position : c.pc < code.ops.length ∨ code.Slip (.ranPastEnd code.name)
  height : code.heightAt c.pc = some c.stack.length ∨ code.Slip .operandMissing

namespace OnCourse

/-- **One instruction stays on course.** -/
theorem next (hf : code.Finished) (hc : code.OnCourse c) (hop : code.ops[c.pc]? = some op)
    (hy : Yields code { c with pc := c.pc + 1 } op (.ok (.next c'))) : code.OnCourse c' := by
  have hmem := List.mem_of_getElem? hop
  cases hy with
  | next pushed locals ht hpops hpushed hlocals =>
    refine ⟨hlocals.trans hc.locals, .inl (hf.succ_lt hop ht), ?_⟩
    refine hc.height.imp_left fun hheight => ?_
    rw [(hf.heightAt_succ hop hheight).2, List.length_append, List.length_drop, hpushed,
      Nat.add_comm]
  | jump l pc hl hpc hpops =>
    obtain ⟨place, hplace, hle⟩ := hf.lands op hmem l hl
    obtain rfl : place = pc := Option.some.inj (hplace.symm.trans hpc)
    refine ⟨hc.locals, ?_, ?_⟩
    · rcases Nat.lt_or_eq_of_le hle with hlt | heq
      · exact .inl hlt
      · exact .inr (.ranPastEnd hmem hl (heq ▸ hpc))
    · rcases hc.height with hheight | hslip
      · rw [List.length_drop]
        by_cases hsame : code.heightAt place = some (c.stack.length - op.effect.1)
        · exact .inl hsame
        · exact .inr (.operandMissing hop hl hpc hheight hsame)
      · exact .inr hslip

/-- The text ends only for a run that has jumped there. -/
theorem slip_of_end (hc : code.OnCourse c) (hend : code.ops[c.pc]? = none) :
    code.Slip (.ranPastEnd code.name) :=
  hc.position.resolve_left (Nat.not_lt.2 (List.getElem?_eq_none_iff.1 hend))

/-- **An instruction that is malformed has its reason in the body.** -/
theorem slip (hf : code.Finished) (hc : code.OnCourse c) (hop : code.ops[c.pc]? = some op)
    (hy : Yields code { c with pc := c.pc + 1 } op (.error (.malformed f))) : code.Slip f := by
  have hmem := List.mem_of_getElem? hop
  cases hy with
  | fault e hno => exact absurd rfl (hno f)
  | operandMissing hfew =>
    refine hc.height.resolve_left fun hheight => ?_
    have hle := (hf.heightAt_succ hop hheight).1
    exact absurd hfew (Nat.not_lt.2 hle)
  | unknownLabel l hl hnone =>
    obtain ⟨pc, hpc, -⟩ := hf.lands op hmem l hl
    rw [hnone] at hpc
    cases hpc
  | unknownLocal i hi hle => exact .unknownLocal hmem hi (hc.locals ▸ hle)

end OnCourse

/-- **A run that is on course is malformed only where the body has a slip.**
The bound is used up by one instruction at a time. -/
theorem Finished.slip_of_runFrom (hf : code.Finished) {bound : Nat} (hc : code.OnCourse c)
    {h h' : Heap}
    (hrun : (code.runFrom natives frame bound c).run h = some (.error (.malformed f), h')) :
    code.Slip f := by
  induction bound generalizing c h with
  | zero =>
    cases hop : code.ops[c.pc]? with
    | none =>
      rw [runFrom_end hop] at hrun
      cases hrun
      exact hc.slip_of_end hop
    | some op =>
      rw [runFrom, hop] at hrun
      cases hrun
  | succ bound ih =>
    cases hop : code.ops[c.pc]? with
    | none =>
      rw [runFrom_end hop] at hrun
      cases hrun
      exact hc.slip_of_end hop
    | some op =>
      rw [runFrom_succ op hop] at hrun
      rcases Exec.run_bind_cases hrun with ⟨e, hfault, he⟩ | ⟨p, h₁, hstep, hrest⟩
      · cases he
        exact hc.slip hf hop (yields_step h _ h' hfault)
      · cases p with
        | next c₁ => exact ih (hc.next hf hop (yields_step h _ h₁ hstep)) hrest
        | done v => cases hrest

end Code

/-- **A finished body is malformed only where it has a slip.** Whatever the
calls of a builder were, whatever members do and on whatever frame and heap the
body runs: it meets a fault of the code only if a local was not declared, a jump
leads out of the body, or a jump leads to where the stack is not as high. -/
theorem CodeBuilder.slip_of_malformed {name : String} {calls : List BuilderCall} {code : Code}
    (hfinish : (after name calls).finish = .ok code) (natives : Natives) (bound : Nat)
    (frame : Frame) {h h' : Heap} {f : CodeFault}
    (hrun : (code.run natives bound frame).run h = some (.error (.malformed f), h')) :
    code.Slip f := by
  have hf := finished_of_after hfinish
  have hpositive : 0 < code.ops.length := by
    refine List.length_pos_iff.2 fun hnil => ?_
    have hlast := hf.last
    rw [hnil] at hlast
    cases hlast
  exact hf.slip_of_runFrom ⟨List.length_replicate, .inl hpositive, .inl rfl⟩ hrun

namespace Sample

/-- A body that reads a local which nobody has declared. -/
def undeclared : List BuilderCall := [.emit (.loadLocal 0), .emit .ret]

def undeclaredCode : Code where
  name := "local"
  ops := [.loadLocal 0, .ret]
  labels := []
  localCount := 0
  maxStack := 1

/-- The body is finished all the same, and its run meets the local that is
missing. -/
theorem slip_undeclared :
    (CodeBuilder.after "local" undeclared).finish = .ok undeclaredCode ∧
      (undeclaredCode.run (fun _ _ => pure .null) 2 default).run default =
        some (.error (.malformed (.unknownLocal 0)), default) ∧
      undeclaredCode.Slip (.unknownLocal 0) := by
  have hfinish : (CodeBuilder.after "local" undeclared).finish = .ok undeclaredCode := rfl
  have hrun : (undeclaredCode.run (fun _ _ => pure .null) 2 default).run default =
      some (.error (.malformed (.unknownLocal 0)), default) := rfl
  have hslip := CodeBuilder.slip_of_malformed hfinish (fun _ _ => pure .null) 2 default hrun
  exact ⟨hfinish, hrun, hslip⟩

/-- A body that jumps over the instruction which pushes what it returns. -/
def skip : List BuilderCall :=
  [.defineLabel, .emit (.branch ⟨0⟩), .emit .loadNull, .mark ⟨0⟩, .emit .ret]

def skipCode : Code where
  name := "skip"
  ops := [.branch ⟨0⟩, .loadNull, .ret]
  labels := [2]
  localCount := 0
  maxStack := 1

/-- Along the text the stack is never short, so the body is finished. Its run
takes the jump, and there is nothing to return. -/
theorem skip_underflows :
    (CodeBuilder.after "skip" skip).finish = .ok skipCode ∧
      (skipCode.run (fun _ _ => pure .null) 3 default).run default =
        some (.error (.malformed .operandMissing), default) :=
  ⟨rfl, rfl⟩

end Sample

end MemberAccess
