import MemberAccess.Accessor.Guard
import MemberAccess.Proofs.Code.Walk
/-!
# Code — what a listing is assembled to

The builder accepts instructions as long as the stack holds what they take.
`heightAfter` is that condition on a list of instructions alone: how high the
stack stands behind it. A list that starts and ends on the empty stack and
closes with a return is assembled as it is written, with or without the checks
of a guard before it (`assemble_straight`, `assemble_guarded`); nothing about
the values it works on enters.
-/

namespace MemberAccess

namespace Op

/-- **The height of the stack behind instructions**, unless one of them takes
more than there is. -/
def heightAfter : List Op → Nat → Option Nat
  | [], d => some d
  | op :: ops, d =>
    if d < op.effect.1 then none else heightAfter ops (d - op.effect.1 + op.effect.2)

@[simp] theorem heightAfter_nil (d : Nat) : heightAfter [] d = some d := rfl

theorem heightAfter_cons (op : Op) (ops : List Op) (d : Nat) :
    heightAfter (op :: ops) d =
      if d < op.effect.1 then none else heightAfter ops (d - op.effect.1 + op.effect.2) := rfl

theorem heightAfter_append (xs ys : List Op) (d : Nat) :
    heightAfter (xs ++ ys) d = (heightAfter xs d).bind (heightAfter ys) := by
  induction xs generalizing d with
  | nil => rfl
  | cons op xs ih =>
    rw [List.cons_append, heightAfter_cons, heightAfter_cons]
    split
    · rfl
    · exact ih _

/-- Instructions that end a run of their own accord leave the stack balanced. -/
structure Balanced (ops : List Op) : Prop where
  straight : ∀ op ∈ ops, op.IsStraight
  height : heightAfter ops 0 = some 0
  last : ops.getLast?.any (·.isTerminator) = true

theorem Balanced.target? {ops : List Op} (h : Balanced ops) : ops.filterMap (·.target?) = [] :=
  List.filterMap_eq_nil_iff.2 h.straight

end Op

namespace CodeBuilder

/-- **Instructions are appended as they stand** when the stack is high enough
for each. -/
theorem emitAll_eq {ops : List Op} {b : CodeBuilder} {d : Nat}
    (hd : Op.heightAfter ops b.depth = some d) :
    ∃ m, b.emitAll ops = .ok { b with
      ops := b.ops ++ ops
      depth := d
      maxDepth := m
      used := b.used ++ ops.filterMap (·.target?) } := by
  induction ops generalizing b with
  | nil =>
    cases hd
    exact ⟨b.maxDepth, by simp [emitAll, pure, Except.pure]⟩
  | cons op ops ih =>
    rw [Op.heightAfter_cons] at hd
    split at hd
    · cases hd
    · rename_i hle
      -- the builder behind the first instruction
      let b₁ : CodeBuilder := { b with
        ops := b.ops ++ [op]
        depth := b.depth - op.effect.1 + op.effect.2
        maxDepth := max b.maxDepth (b.depth - op.effect.1 + op.effect.2)
        used := b.used ++ op.target?.toList }
      have hemit : b.emit op = .ok b₁ := by
        simp only [emit, hle, if_false]
        rfl
      obtain ⟨m, hm⟩ := ih (b := b₁) hd
      refine ⟨m, ?_⟩
      have hcons : b.emitAll (op :: ops) = b₁.emitAll ops := by
        simp only [emitAll, List.foldlM_cons, hemit]
        rfl
      rw [hcons, hm]
      cases ht : op.target? <;> simp [b₁, ht]

/-- Nothing is finished with values left over or with an open end. -/
theorem balanced_of_finish {b : CodeBuilder} {code : Code} (h : b.finish = .ok code) :
    b.depth = 0 ∧ b.ops.getLast?.any (·.isTerminator) = true := by
  unfold finish at h
  split at h
  · rename_i hflaws
    simp only [flaws, List.append_eq_nil_iff, ite_eq_left_iff, List.cons_ne_self, imp_false,
      Decidable.not_not] at hflaws
    exact ⟨hflaws.1.2, hflaws.2⟩
  · cases h

/-- Instructions are appended only when the stack is high enough for each. -/
theorem heightAfter_of_emitAll {ops : List Op} {b b' : CodeBuilder} (h : b.emitAll ops = .ok b') :
    Op.heightAfter ops b.depth = some b'.depth := by
  induction ops generalizing b with
  | nil =>
    cases h
    rfl
  | cons op ops ih =>
    rw [Op.heightAfter_cons]
    rw [emitAll, List.foldlM_cons] at h
    cases hlt : decide (b.depth < op.effect.1) with
    | true =>
      simp only [emit, of_decide_eq_true hlt, if_true] at h
      cases h
    | false =>
      simp only [emit, of_decide_eq_false hlt, if_false] at h ⊢
      exact ih h

/-- **What is refused is an instruction that takes more than there is.** -/
theorem emitAll_eq_error {ops : List Op} {b : CodeBuilder} {e : CodeFault}
    (h : b.emitAll ops = .error e) : ∃ i op, e = .stackUnderflow i op b.name := by
  induction ops generalizing b with
  | nil => cases h
  | cons op ops ih =>
    rw [emitAll, List.foldlM_cons] at h
    by_cases hlt : b.depth < op.effect.1
    · simp only [emit, hlt, if_true] at h
      cases h
      exact ⟨_, _, rfl⟩
    · simp only [emit, hlt, if_false] at h
      obtain ⟨i, op', he⟩ := @ih { b with
        ops := b.ops ++ [op]
        depth := b.depth - op.effect.1 + op.effect.2
        maxDepth := max b.maxDepth (b.depth - op.effect.1 + op.effect.2)
        used := b.used ++ op.target?.toList } h
      exact ⟨i, op', he⟩

end CodeBuilder

namespace Listing

/-- A listing's instructions are emitted one after the other. -/
theorem foldlM_addLine_ops (ops : List Op) (b : CodeBuilder) :
    (ops.map Line.op).foldlM addLine b = b.emitAll ops := by
  rw [List.foldlM_map]
  rfl

/-- **A balanced list of instructions is a body.** -/
theorem assemble_straight {ops : List Op} (h : Op.Balanced ops) (locals : Nat) (name : String) :
    ∃ code, (straight ops locals).assemble name = .ok code ∧ code.Unguarded name ops locals := by
  obtain ⟨m, hm⟩ := CodeBuilder.emitAll_eq
    (b := { name := name, labelCount := 0, localCount := locals }) h.height
  let code : Code := {
    name := name
    ops := ops
    labels := []
    localCount := locals
    maxStack := m }
  refine ⟨code, ?_, rfl, rfl, rfl⟩
  simp only [assemble, straight, foldlM_addLine_ops, hm]
  simp [bind, Except.bind, CodeBuilder.finish, CodeBuilder.flaws, h.target?, h.last, code]

/-- A list of instructions with nothing to take at some point is refused
there. -/
theorem underflow_of_assemble {ops : List Op} {locals : Nat} {name : String} {e : CodeFault}
    (hops : Op.heightAfter ops 0 = none) (h : (straight ops locals).assemble name = .error e) :
    ∃ i op, e = .stackUnderflow i op name := by
  let b₀ : CodeBuilder := { name := name, labelCount := 0, localCount := locals }
  simp only [assemble, straight, foldlM_addLine_ops] at h
  cases hb : b₀.emitAll ops with
  | error e' =>
    rw [hb] at h
    cases h
    exact CodeBuilder.emitAll_eq_error hb
  | ok b =>
    have hheight := CodeBuilder.heightAfter_of_emitAll hb
    rw [show b₀.depth = 0 from rfl, hops] at hheight
    cases hheight

/-- **Only a balanced list of instructions is a body**, if none of them
jumps. -/
theorem unguarded_of_assemble {ops : List Op} {locals : Nat} {name : String} {code : Code}
    (hs : ∀ op ∈ ops, op.IsStraight) (h : (straight ops locals).assemble name = .ok code) :
    Op.Balanced ops ∧ code.Unguarded name ops locals := by
  have hbalanced : Op.Balanced ops := by
    let b₀ : CodeBuilder := { name := name, labelCount := 0, localCount := locals }
    simp only [assemble, straight, foldlM_addLine_ops] at h
    cases hb : b₀.emitAll ops with
    | error e =>
      rw [hb] at h
      cases h
    | ok b =>
      rw [hb] at h
      obtain ⟨hdepth, hlast⟩ := CodeBuilder.balanced_of_finish h
      have hheight := CodeBuilder.heightAfter_of_emitAll hb
      obtain ⟨m, hm⟩ := CodeBuilder.emitAll_eq hheight
      have hops : b.ops = ops := by rw [Except.ok.inj (hb.symm.trans hm)]; rfl
      exact ⟨hs, by rw [hheight, hdepth], by rwa [hops] at hlast⟩
  obtain ⟨code', hcode, hbody⟩ := assemble_straight hbalanced locals name
  rw [h] at hcode
  cases hcode
  exact ⟨hbalanced, hbody⟩

end Listing

/-! ## Bodies behind a guard -/

/-- The instruction on a line, if it is not a label. -/
def Line.op? : Line → Option Op
  | .op o => some o
  | .mark _ => none

namespace Guard

variable (g : Guard)

/-- The instructions of a guard's checks. -/
def ops : List Op := g.lines.filterMap Line.op?

/-- Where the labels of a guard stand. -/
def labels : List Nat :=
  if g.isTrivial then []
  else
    g.ops.length :: (if g.receiver then [3] else []) ++
      (if 0 < g.parameterCount then [if g.receiver then 5 else 2] else [])

end Guard

/-- **A body that is a list of instructions behind a guard.** The guard's own
instructions come first, and its last label stands before the list. -/
structure Code.Guarded (code : Code) (name : String) (g : Guard) (ops : List Op) : Prop where
  name_eq : code.name = name
  ops_eq : code.ops = g.ops ++ ops
  labels_eq : code.labels = g.labels
  localCount_eq : code.localCount = 0

namespace Guard

variable (g : Guard)

/-- **A guard leaves an empty stack and every one of its labels in place.** -/
theorem foldlM_addLine_lines (name : String) :
    ∃ b : CodeBuilder,
      g.lines.foldlM Listing.addLine { name := name, labelCount := g.labelCount } = .ok b ∧
      b.name = name ∧ b.ops = g.ops ∧ b.localCount = 0 ∧ b.depth = 0 ∧
      (b.used.all fun l => (b.positions.lookup l.id).isSome) = true ∧
      ((List.range b.labelCount).map fun id => (b.positions.lookup id).getD 0) = g.labels := by
  obtain ⟨receiver, n⟩ := g
  cases receiver with
  | false =>
    cases n with
    | zero => exact ⟨_, rfl, rfl, rfl, rfl, rfl, rfl, rfl⟩
    | succ n => exact ⟨_, rfl, rfl, rfl, rfl, rfl, rfl, rfl⟩
  | true =>
    cases n with
    | zero => exact ⟨_, rfl, rfl, rfl, rfl, rfl, rfl, rfl⟩
    | succ n => exact ⟨_, rfl, rfl, rfl, rfl, rfl, rfl, rfl⟩

/-- **A balanced list of instructions is a body behind every guard.** -/
theorem assemble_guarded {ops : List Op} (h : Op.Balanced ops) (name : String) :
    ∃ code, Listing.assemble { lines := g.lines ++ ops.map .op, labelCount := g.labelCount } name =
      .ok code ∧ code.Guarded name g ops := by
  obtain ⟨b, hb, hname, hops, hlocals, hdepth, hused, hlabels⟩ := g.foldlM_addLine_lines name
  obtain ⟨m, hm⟩ := CodeBuilder.emitAll_eq (b := b) (d := 0) (by rw [hdepth]; exact h.height)
  have hlast : (g.ops ++ ops).getLast?.any (·.isTerminator) = true := by
    have hlast := h.last
    rw [List.getLast?_append]
    cases hl : ops.getLast? with
    | none => simp [hl] at hlast
    | some op => simpa [hl] using hlast
  -- the body uses no label, and the guard's are all in place
  have hflaws : (b.used.filter fun l => (b.positions.lookup l.id).isNone) = [] := by
    refine List.filter_eq_nil_iff.2 fun l hl hnone => ?_
    have hsome := List.all_eq_true.1 hused l hl
    rw [Option.isNone_iff_eq_none] at hnone
    simp [hnone] at hsome
  let code : Code := {
    name := name
    ops := g.ops ++ ops
    labels := g.labels
    localCount := 0
    maxStack := m }
  refine ⟨code, ?_, rfl, rfl, rfl, rfl⟩
  simp only [Listing.assemble, List.foldlM_append, hb, bind, Except.bind,
    Listing.foldlM_addLine_ops, hm, hops, hname, hlocals]
  simp only [CodeBuilder.finish, CodeBuilder.flaws, h.target?, List.append_nil, hflaws,
    List.map_nil, if_true, hlast, hlabels, code]

end Guard

end MemberAccess
