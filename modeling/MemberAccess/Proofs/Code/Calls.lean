import Mathlib.Data.List.Induction
import MemberAccess.Proofs.Code.Assembly
/-!
# Code — bodies written by hand

A builder takes calls in any order and any number, and a call that fails
leaves a builder to go on with. `CodeBuilder.after` is the builder behind a
list of calls. What the builder counts agrees with what it has written at every
point (`Tallied`), so a body that it finishes is balanced along its text, closes
with an instruction that nothing follows, and has a place for every jump
(`Code.Finished`).
-/

namespace MemberAccess

/-- **One call of a builder.** -/
inductive BuilderCall where
  | emit (op : Op)
  | defineLabel
  | mark (l : Label)
  | declareLocal
deriving DecidableEq, Inhabited

namespace CodeBuilder

/-- **The builder behind one call**, whether the call fails or not. An
instruction that is refused leaves it as it was. -/
def perform (b : CodeBuilder) : BuilderCall → CodeBuilder
  | .emit op =>
    match b.emit op with
    | .ok b' => b'
    | .error _ => b
  | .defineLabel => b.defineLabel.2
  | .mark l => (b.mark l).1
  | .declareLocal => b.declareLocal.2

/-- **The builder behind a list of calls**, from the first one on. -/
def after (name : String) (calls : List BuilderCall) : CodeBuilder :=
  calls.foldl perform { name := name }

/-- The builder behind further calls. -/
def performAll (b : CodeBuilder) (calls : List BuilderCall) : CodeBuilder := calls.foldl perform b

variable {b b' : CodeBuilder} {op : Op} {code : Code}

@[simp]
theorem performAll_cons (b : CodeBuilder) (call : BuilderCall) (later : List BuilderCall) :
    b.performAll (call :: later) = (b.perform call).performAll later := rfl

theorem after_append (name : String) (calls later : List BuilderCall) :
    after name (calls ++ later) = (after name calls).performAll later :=
  List.foldl_append

/-- Behind one call more. -/
theorem after_concat (name : String) (calls : List BuilderCall) (call : BuilderCall) :
    after name (calls ++ [call]) = (after name calls).perform call :=
  after_append name calls [call]

/-- **An instruction is taken when the stack holds what it needs**, and is
then the last one. -/
theorem emit_eq_ok : b.emit op = .ok b' ↔
    op.effect.1 ≤ b.depth ∧ b' = { b with
      ops := b.ops ++ [op]
      depth := b.depth - op.effect.1 + op.effect.2
      maxDepth := max b.maxDepth (b.depth - op.effect.1 + op.effect.2)
      used := b.used ++ op.target?.toList } := by
  unfold emit
  by_cases hlt : b.depth < op.effect.1
  · simp only [hlt, if_true]
    exact ⟨nofun, fun h => absurd h.1 (Nat.not_le.2 hlt)⟩
  · simp only [hlt, if_false, Except.ok.injEq]
    exact ⟨fun h => ⟨Nat.not_lt.1 hlt, h.symm⟩, fun h => h.2.symm⟩

/-! ## What a builder counts -/

/-- **What a builder has counted is what it has written.** -/
structure Tallied (b : CodeBuilder) : Prop where
  height : Op.heightAfter b.ops 0 = some b.depth
  used : b.used = b.ops.filterMap (·.target?)
  /-- Only labels that were defined stand somewhere. -/
  defined : ∀ p ∈ b.positions, p.1 < b.labelCount
  /-- A label stands before an instruction, or behind the last one. -/
  within : ∀ p ∈ b.positions, p.2 ≤ b.ops.length

namespace Tallied

theorem new (name : String) : Tallied { name := name } where
  height := rfl
  used := rfl
  defined := nofun
  within := nofun

theorem emit (hb : b.Tallied) (h : b.emit op = .ok b') : b'.Tallied := by
  obtain ⟨hle, rfl⟩ := emit_eq_ok.1 h
  refine ⟨?_, ?_, hb.defined, fun p hp => ?_⟩
  · rw [Op.heightAfter_append, hb.height]
    simp [Op.heightAfter_cons, Nat.not_lt.2 hle]
  · rw [List.filterMap_append, ← hb.used]
    cases htarget : op.target? <;> simp [htarget]
  · have hplace := hb.within p hp
    simp only [List.length_append, List.length_singleton]
    omega

theorem mark (hb : b.Tallied) (l : Label) : (b.mark l).1.Tallied := by
  unfold CodeBuilder.mark
  split
  · rename_i hdefined
    -- the label is at its new place, all others are where they were
    have hcases : ∀ p ∈ (l.id, b.ops.length) :: b.positions.filter (·.1 != l.id),
        p = (l.id, b.ops.length) ∨ p ∈ b.positions := by
      intro p hp
      exact (List.mem_cons.1 hp).imp_right fun hp => (List.mem_filter.1 hp).1
    refine ⟨hb.height, hb.used, fun p hp => ?_, fun p hp => ?_⟩
    · rcases hcases p hp with rfl | hp
      · exact hdefined
      · exact hb.defined p hp
    · rcases hcases p hp with rfl | hp
      · exact Nat.le_refl _
      · exact hb.within p hp
  · exact hb

/-- **Every call keeps the count.** -/
theorem perform (hb : b.Tallied) (call : BuilderCall) : (b.perform call).Tallied := by
  cases call with
  | emit op =>
    simp only [CodeBuilder.perform]
    split
    · rename_i b' hemit
      exact hb.emit hemit
    · exact hb
  | defineLabel =>
    exact ⟨hb.height, hb.used, fun p hp => Nat.lt_succ_of_lt (hb.defined p hp), hb.within⟩
  | mark l => exact hb.mark l
  | declareLocal => exact ⟨hb.height, hb.used, hb.defined, hb.within⟩

/-- The count is right behind any calls. -/
theorem after (name : String) (calls : List BuilderCall) : (after name calls).Tallied := by
  induction calls using List.reverseRecOn with
  | nil => exact .new name
  | append_singleton calls call ih => exact after_concat name calls call ▸ ih.perform call

/-- A label that stands somewhere was defined, and stands within the text. -/
theorem bounds_of_lookup (hb : b.Tallied) {id pc : Nat} (hpc : b.positions.lookup id = some pc) :
    id < b.labelCount ∧ pc ≤ b.ops.length := by
  obtain ⟨before, behind, hsplit, -⟩ := List.lookup_eq_some_iff.1 hpc
  have hmem : (id, pc) ∈ b.positions := by simp [hsplit]
  exact ⟨hb.defined _ hmem, hb.within _ hmem⟩

end Tallied

/-! ## What is finished -/

/-- **A body is finished as it was written**, with a place for every jump. -/
theorem finish_eq_ok (h : b.finish = .ok code) :
    (∀ l ∈ b.used, ∃ pc, b.positions.lookup l.id = some pc) ∧
      code.ops = b.ops ∧ code.localCount = b.localCount ∧
      code.labels = (List.range b.labelCount).map fun id => (b.positions.lookup id).getD 0 := by
  unfold finish at h
  split at h
  · rename_i hflaws
    cases h
    simp only [flaws, List.append_eq_nil_iff, List.map_eq_nil_iff, List.filter_eq_nil_iff] at hflaws
    refine ⟨fun l hl => ?_, rfl, rfl, rfl⟩
    have hplaced := hflaws.1.1 l hl
    rwa [Option.isNone_iff_eq_none, ← ne_eq, Option.ne_none_iff_exists'] at hplaced
  · cases h

end CodeBuilder

/-- **What finishing a body vouches for**: along its text the stack suffices and
ends empty, nothing follows the last instruction, and every jump has a place to
lead to. -/
structure Code.Finished (code : Code) : Prop where
  height : Op.heightAfter code.ops 0 = some 0
  last : code.ops.getLast?.any (·.isTerminator) = true
  lands : ∀ op ∈ code.ops, ∀ l, op.target? = some l →
    ∃ pc, code.labels[l.id]? = some pc ∧ pc ≤ code.ops.length

/-- A label that stands somewhere is found among the labels of the body. -/
theorem CodeBuilder.Tallied.getElem?_labels {b : CodeBuilder} (hb : b.Tallied) {id pc : Nat}
    (hpc : b.positions.lookup id = some pc) :
    ((List.range b.labelCount).map fun id => (b.positions.lookup id).getD 0)[id]? = some pc ∧
      pc ≤ b.ops.length := by
  obtain ⟨hid, hwithin⟩ := hb.bounds_of_lookup hpc
  refine ⟨?_, hwithin⟩
  simp [hid, hpc]

/-- **Whatever the calls were, a body that is finished is balanced, closed and
has its jumps placed.** -/
theorem CodeBuilder.finished_of_after {name : String} {calls : List BuilderCall} {code : Code}
    (h : (after name calls).finish = .ok code) : code.Finished := by
  have htallied := Tallied.after name calls
  obtain ⟨hplaced, hops, -, hlabels⟩ := finish_eq_ok h
  obtain ⟨hdepth, hlast⟩ := balanced_of_finish h
  refine ⟨?_, hops ▸ hlast, fun op hop l hl => ?_⟩
  · rw [hops, htallied.height, hdepth]
  · have hused : l ∈ (after name calls).used := by
      rw [htallied.used]
      exact List.mem_filterMap.2 ⟨op, hops ▸ hop, hl⟩
    obtain ⟨pc, hpc⟩ := hplaced l hused
    refine ⟨pc, ?_⟩
    rw [hlabels, hops]
    exact htallied.getElem?_labels hpc

end MemberAccess
