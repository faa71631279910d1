import MemberAccess.Proofs.Code.Steps
/-!
# Code — the instructions that a run executes

A run is a sequence of instructions, each at its position. `Code.Trace` is a
part of a run with the positions it comes through, whatever the bound, and
`Trace.runFrom_eq` says that the machine goes along it. A property of
configurations that every instruction keeps holds along a trace
(`Trace.keeps`), and every run has a trace that is as long as wanted or comes
to where the run stops (`exists_trace`).
-/

namespace MemberAccess

namespace Code

/-- **Where a run starts**: before the first instruction, with nothing on the
stack and with null in every local. -/
def start (code : Code) : Config := { locals := List.replicate code.localCount .null }

/-- **A part of a run**: from one configuration and heap to another, through
the instructions at the positions listed. -/
inductive Trace (natives : Natives) (code : Code) (frame : Frame) :
    Config → Heap → List Nat → Config → Heap → Prop where
  | nil (c : Config) (h : Heap) : Trace natives code frame c h [] c h
  | cons {c c₁ c' : Config} {h h₁ h' : Heap} {op : Op} {ps : List Nat} :
      code.ops[c.pc]? = some op →
      (step natives code frame { c with pc := c.pc + 1 } op).run h = some (.ok (.next c₁), h₁) →
      Trace natives code frame c₁ h₁ ps c' h' →
      Trace natives code frame c h (c.pc :: ps) c' h'

/-- **A run does not get past here**: the code ends, or the instruction leads
to no other. -/
def Stops (natives : Natives) (code : Code) (frame : Frame) (c : Config) (h : Heap) : Prop :=
  ∀ op, code.ops[c.pc]? = some op →
    ∀ c' h', (step natives code frame { c with pc := c.pc + 1 } op).run h ≠
      some (.ok (.next c'), h')

variable {natives : Natives} {code : Code} {frame : Frame} {c c' : Config} {h h' : Heap}
  {ps : List Nat}

namespace Trace

/-- **The machine goes along a trace**, and goes on with what is left of its
bound. -/
theorem runFrom_eq (ht : Trace natives code frame c h ps c' h') (bound : Nat) :
    (code.runFrom natives frame (ps.length + bound) c).run h =
      (code.runFrom natives frame bound c').run h' := by
  induction ht with
  | nil c h => rw [List.length_nil, Nat.zero_add]
  | @cons c c₁ c' h h₁ h' op ps hop hstep _ ih =>
    rw [List.length_cons, show ps.length + 1 + bound = ps.length + bound + 1 by omega,
      runFrom_succ op hop, Exec.run_bind, hstep]
    exact ih

/-- **What every instruction keeps, a trace keeps.** -/
theorem keeps {P : Config → Prop} (ht : Trace natives code frame c h ps c' h')
    (hP : ∀ c c' op, P c → code.ops[c.pc]? = some op →
      Yields code { c with pc := c.pc + 1 } op (.ok (.next c')) → P c')
    (hc : P c) : P c' := by
  induction ht with
  | nil c h => exact hc
  | cons hop hstep _ ih => exact ih (hP _ _ _ hc hop (yields_step _ _ _ hstep))

end Trace

/-- **Every run has a trace of any length, or one to where the run stops.** -/
theorem exists_trace (natives : Natives) (code : Code) (frame : Frame) (n : Nat) (c : Config)
    (h : Heap) :
    ∃ ps c' h', Trace natives code frame c h ps c' h' ∧
      (ps.length = n ∨ Stops natives code frame c' h') := by
  induction n generalizing c h with
  | zero => exact ⟨[], c, h, .nil c h, .inl rfl⟩
  | succ n ih =>
    by_cases hnext : ∃ op c₁ h₁, code.ops[c.pc]? = some op ∧
        (step natives code frame { c with pc := c.pc + 1 } op).run h = some (.ok (.next c₁), h₁)
    · obtain ⟨op, c₁, h₁, hop, hstep⟩ := hnext
      obtain ⟨ps, c', h', ht, hend⟩ := ih c₁ h₁
      refine ⟨c.pc :: ps, c', h', .cons hop hstep ht, hend.imp_left fun hlen => ?_⟩
      rw [List.length_cons, hlen]
    · exact ⟨[], c, h, .nil c h, .inr fun op hop c₁ h₁ hstep => hnext ⟨op, c₁, h₁, hop, hstep⟩⟩

end Code

end MemberAccess
