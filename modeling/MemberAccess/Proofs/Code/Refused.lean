import MemberAccess.Proofs.Code.Calls
/-!
# Code — calls that a builder refuses

An instruction that is refused leaves its builder alone, and so does a label
that was never defined. Marking a label twice is refused as well, but the label
is at its new place by then. `AgreesBut` compares two builders in all but the
places of some labels; every call keeps that, with the same reply to both
(`AgreesBut.perform`, `AgreesBut.reply`). So a refused call goes unnoticed by
everything that follows, but for the place of a label that it has moved
(`CodeBuilder.agreesBut_of_refused`).
-/

namespace MemberAccess

/-- **What a builder answers** to a call that it does not refuse. -/
inductive BuilderReply where
  | done
  | label (l : Label)
  | index (i : Nat)
deriving DecidableEq, Inhabited

namespace CodeBuilder

/-- **The reply to one call**, or its refusal. -/
def reply (b : CodeBuilder) : BuilderCall → Except CodeFault BuilderReply
  | .emit op => (b.emit op).map fun _ => .done
  | .defineLabel => .ok (.label b.defineLabel.1)
  | .mark l =>
    match (b.mark l).2 with
    | none => .ok .done
    | some fault => .error fault
  | .declareLocal => .ok (.index b.declareLocal.1)

/-- The replies to further calls, one after the other. -/
def replies : CodeBuilder → List BuilderCall → List (Except CodeFault BuilderReply)
  | _, [] => []
  | b, call :: calls => b.reply call :: (b.perform call).replies calls

/-- **The call moves a label**: it stands at another place already. -/
def Moves (b : CodeBuilder) (call : BuilderCall) (id : Nat) : Prop :=
  call = .mark ⟨id⟩ ∧ ∃ pc, b.positions.lookup id = some pc ∧ pc ≠ b.ops.length

variable {b b' : CodeBuilder} {call : BuilderCall} {fault : CodeFault} {P : Nat → Prop}

/-- **Where labels stand behind a mark**: the one marked before the next
instruction, the others where they stood. -/
theorem lookup_mark {l : Label} (hl : l.id < b.labelCount) (id : Nat) :
    (b.mark l).1.positions.lookup id =
      if id = l.id then some b.ops.length else b.positions.lookup id := by
  simp only [mark, hl, if_true, List.lookup_cons]
  by_cases hid : id = l.id
  · simp only [hid, beq_self_eq_true, if_true]
  · simp only [beq_false_of_ne hid, hid, if_false, lookup_filter_ne hid]

/-! ## Builders that differ in the places of labels -/

/-- **Two builders agree in all but the places of some labels**, and have the
same labels marked. -/
structure AgreesBut (P : Nat → Prop) (b b' : CodeBuilder) : Prop where
  rest : b' = { b with positions := b'.positions }
  marked : ∀ id, (b'.positions.lookup id).isSome = (b.positions.lookup id).isSome
  places : ∀ id, ¬ P id → b'.positions.lookup id = b.positions.lookup id

namespace AgreesBut

theorem refl (P : Nat → Prop) (b : CodeBuilder) : AgreesBut P b b :=
  ⟨rfl, fun _ => rfl, fun _ _ => rfl⟩

/-- The reply to a call does not tell them apart. -/
theorem reply (h : AgreesBut P b b') (call : BuilderCall) : b'.reply call = b.reply call := by
  obtain ⟨hrest, hmarked, -⟩ := h
  rw [hrest]
  cases call with
  | emit op =>
    by_cases hlt : b.depth < op.effect.1
    · simp only [CodeBuilder.reply, CodeBuilder.emit, hlt, if_true]
    · simp only [CodeBuilder.reply, CodeBuilder.emit, hlt, if_false]
      rfl
  | mark l =>
    by_cases hl : l.id < b.labelCount
    · simp only [CodeBuilder.reply, CodeBuilder.mark, hl, if_true, hmarked]
    · simp only [CodeBuilder.reply, CodeBuilder.mark, hl, if_false]
  | defineLabel | declareLocal => rfl

/-- **Every call keeps the agreement.** -/
theorem perform (h : AgreesBut P b b') (call : BuilderCall) :
    AgreesBut P (b.perform call) (b'.perform call) := by
  obtain ⟨hrest, hmarked, hplaces⟩ := h
  generalize b'.positions = positions at hrest hmarked hplaces
  subst hrest
  cases call with
  | emit op =>
    by_cases hlt : b.depth < op.effect.1
    · simp only [CodeBuilder.perform, CodeBuilder.emit, hlt, if_true]
      exact ⟨rfl, hmarked, hplaces⟩
    · simp only [CodeBuilder.perform, CodeBuilder.emit, hlt, if_false]
      exact ⟨rfl, hmarked, hplaces⟩
  | defineLabel | declareLocal => exact ⟨rfl, hmarked, hplaces⟩
  | mark l =>
    by_cases hl : l.id < b.labelCount
    · -- the label marked now is at one place in both
      refine ⟨?_, fun id => ?_, fun id hid => ?_⟩
      · simp only [CodeBuilder.perform, CodeBuilder.mark, hl, if_true]
      · simp only [CodeBuilder.perform, lookup_mark, hl]
        split
        · rfl
        · exact hmarked id
      · simp only [CodeBuilder.perform, lookup_mark, hl]
        split
        · rfl
        · exact hplaces id hid
    · simp only [CodeBuilder.perform, CodeBuilder.mark, hl, if_false]
      exact ⟨rfl, hmarked, hplaces⟩

/-- **Any further calls keep the agreement.** -/
theorem performAll (h : AgreesBut P b b') (calls : List BuilderCall) :
    AgreesBut P (b.performAll calls) (b'.performAll calls) := by
  induction calls generalizing b b' with
  | nil => exact h
  | cons call calls ih => exact ih (h.perform call)

/-- Further calls are answered alike. -/
theorem replies (h : AgreesBut P b b') (calls : List BuilderCall) :
    b'.replies calls = b.replies calls := by
  induction calls generalizing b b' with
  | nil => rfl
  | cons call calls ih => simp only [CodeBuilder.replies, h.reply call, ih (h.perform call)]

/-- What keeps one from being finished keeps the other. -/
theorem flaws (h : AgreesBut P b b') : b'.flaws = b.flaws := by
  obtain ⟨hrest, hmarked, -⟩ := h
  have hnone : ∀ id, (b'.positions.lookup id).isNone = (b.positions.lookup id).isNone := by
    intro id
    rw [← Option.not_isSome, ← Option.not_isSome, hmarked]
  rw [hrest]
  simp only [CodeBuilder.flaws, hnone]

/-- **They are finished alike**, up to where labels lead. -/
theorem finish (h : AgreesBut P b b') :
    (∀ fault, b'.finish = .error fault ↔ b.finish = .error fault) ∧
      ∀ code, b.finish = .ok code → ∃ labels, b'.finish = .ok { code with labels := labels } ∧
        ∀ id, ¬ P id → labels[id]? = code.labels[id]? := by
  have hflaws := h.flaws
  obtain ⟨hrest, -, hplaces⟩ := h
  unfold CodeBuilder.finish
  rw [hflaws]
  cases hb : b.flaws with
  | nil =>
    refine ⟨fun fault => ⟨nofun, nofun⟩, fun code hcode => ?_⟩
    cases hcode
    refine ⟨(List.range b.labelCount).map fun id => (b'.positions.lookup id).getD 0, ?_,
      fun id hid => ?_⟩
    · rw [hrest]
    · by_cases hlt : id < b.labelCount
      · simp [hlt, hplaces id hid]
      · simp [Nat.not_lt.1 hlt]
  | cons flaw flaws =>
    refine ⟨fun fault => ?_, nofun⟩
    rw [hrest]

/-- **Where no place differs, they are finished as one body.** -/
theorem finish_eq (h : AgreesBut P b b') (hP : ∀ id, ¬ P id) : b'.finish = b.finish := by
  obtain ⟨herror, hok⟩ := h.finish
  cases hb : b.finish with
  | error fault => exact (herror fault).2 hb
  | ok code =>
    obtain ⟨labels, hlabels, hsame⟩ := hok code hb
    have heq : labels = code.labels := List.ext_getElem? fun id => hsame id (hP id)
    rw [hlabels, heq]

end AgreesBut

/-! ## One call that is refused -/

/-- A mark that is refused is of a label that was not defined, or stands
somewhere. -/
theorem mark_of_refused {l : Label} (h : b.reply (.mark l) = .error fault) :
    b.labelCount ≤ l.id ∨ l.id < b.labelCount ∧ ∃ pc, b.positions.lookup l.id = some pc := by
  by_cases hl : l.id < b.labelCount
  · refine .inr ⟨hl, Option.isSome_iff_exists.1 ?_⟩
    cases hmarked : (b.positions.lookup l.id).isSome with
    | true => rfl
    | false =>
      simp only [reply, mark, hl, if_true, hmarked] at h
      cases h
  · exact .inl (Nat.not_lt.1 hl)

/-- **A refused call changes no more than the place of the label it moves.** -/
theorem agreesBut_perform (h : b.reply call = .error fault) :
    AgreesBut (b.Moves call) b (b.perform call) := by
  cases call with
  | defineLabel | declareLocal => cases h
  | emit op =>
    cases hemit : b.emit op with
    | ok b' => simp [reply, hemit, Except.map] at h
    | error e =>
      simp only [perform, hemit]
      exact .refl _ b
  | mark l =>
    rcases mark_of_refused h with hge | ⟨hl, pc, hpc⟩
    · simp only [perform, mark, Nat.not_lt.2 hge, if_false]
      exact .refl _ b
    · refine ⟨?_, fun id => ?_, fun id hstays => ?_⟩
      · simp only [perform, mark, hl, if_true]
      · simp only [perform, lookup_mark hl]
        split
        · rename_i hid
          simp [hid, hpc]
        · rfl
      · simp only [perform, lookup_mark hl]
        split
        · -- the label stood before the next instruction already
          rename_i hid
          subst hid
          by_cases hplace : pc = b.ops.length
          · rw [hpc, hplace]
          · exact absurd ⟨rfl, pc, hpc, hplace⟩ hstays
        · rfl

/-- A label that a call moves is put before the next instruction. -/
theorem Tallied.lookup_moved (hb : b.Tallied) {id : Nat} (hm : b.Moves call id) :
    (b.perform call).positions.lookup id = some b.ops.length := by
  obtain ⟨rfl, pc, hpc, -⟩ := hm
  simp only [CodeBuilder.perform, lookup_mark (hb.bounds_of_lookup hpc).1, if_true]

end CodeBuilder

open CodeBuilder in
/-- **A call that is refused leaves no trace but a label it has moved.** The
builder is as it was in its instructions, the labels that jumps use, the height,
the greatest height and the labels and locals it has counted. A label that stood
elsewhere when it was marked again is now before the next instruction; all others
are where they were. Further calls are answered as if the refused one had not been
made, and what is finished differs at most in where such a label leads. -/
theorem CodeBuilder.agreesBut_of_refused (name : String) (calls : List BuilderCall)
    (call : BuilderCall) (fault : CodeFault) (h : (after name calls).reply call = .error fault) :
    AgreesBut ((after name calls).Moves call) (after name calls)
        ((after name calls).perform call) ∧
      (∀ id, (after name calls).Moves call id →
        ((after name calls).perform call).positions.lookup id =
          some (after name calls).ops.length) ∧
      ∀ later : List BuilderCall,
        ((after name calls).perform call).replies later = (after name calls).replies later ∧
        (∀ fault, (((after name calls).perform call).performAll later).finish = .error fault ↔
          ((after name calls).performAll later).finish = .error fault) ∧
        (∀ code, ((after name calls).performAll later).finish = .ok code →
          ∃ labels, (((after name calls).perform call).performAll later).finish =
              .ok { code with labels := labels } ∧
            ∀ id, ¬ (after name calls).Moves call id → labels[id]? = code.labels[id]?) ∧
        ((∀ id, ¬ (after name calls).Moves call id) →
          (((after name calls).perform call).performAll later).finish =
            ((after name calls).performAll later).finish) := by
  have hagrees := agreesBut_perform h
  refine ⟨hagrees, fun id hm => (Tallied.after name calls).lookup_moved hm, fun later => ?_⟩
  have hlater := hagrees.performAll later
  obtain ⟨herror, hok⟩ := hlater.finish
  exact ⟨hagrees.replies later, herror, hok, hlater.finish_eq⟩

namespace Sample

/-- A body whose label is marked, and then marked again behind a return. -/
def hop : List BuilderCall :=
  [.defineLabel, .emit (.branch ⟨0⟩), .mark ⟨0⟩, .emit .retVoid]

def hopLater : List BuilderCall := [.emit (.loadInt32 7), .emit .ret]

def hopCode : Code where
  name := "hop"
  ops := [.branch ⟨0⟩, .retVoid, .loadInt32 7, .ret]
  labels := [1]
  localCount := 0
  maxStack := 1

/-- The second mark is refused, and the jump leads there all the same. -/
theorem hop_refused :
    (CodeBuilder.after "hop" hop).reply (.mark ⟨0⟩) = .error (.labelMarkedTwice 0) ∧
      ((CodeBuilder.after "hop" hop).performAll hopLater).finish = .ok hopCode ∧
      (CodeBuilder.after "hop" hop).Moves (.mark ⟨0⟩) 0 ∧
      ((CodeBuilder.after "hop" hop).perform (.mark ⟨0⟩)).positions.lookup 0 = some 2 ∧
      ∃ labels, (((CodeBuilder.after "hop" hop).perform (.mark ⟨0⟩)).performAll hopLater).finish =
        .ok { hopCode with labels := labels } := by
  have hreply : (CodeBuilder.after "hop" hop).reply (.mark ⟨0⟩) = .error (.labelMarkedTwice 0) :=
    rfl
  have hfinish : ((CodeBuilder.after "hop" hop).performAll hopLater).finish = .ok hopCode := rfl
  have hmoves : (CodeBuilder.after "hop" hop).Moves (.mark ⟨0⟩) 0 := ⟨rfl, 1, rfl, by decide⟩
  obtain ⟨-, hplace, hlater⟩ := CodeBuilder.agreesBut_of_refused "hop" hop (.mark ⟨0⟩) _ hreply
  obtain ⟨-, -, hok, -⟩ := hlater hopLater
  obtain ⟨labels, hlabels, -⟩ := hok hopCode hfinish
  exact ⟨hreply, hfinish, hmoves, hplace 0 hmoves, labels, hlabels⟩

/-- **What is finished is not what it would be without the refused call**: the
jump leads past the return that it was to lead to. -/
theorem hop_not_same : ¬ ∀ (name : String) (calls later : List BuilderCall) (call : BuilderCall)
    (fault : CodeFault), (CodeBuilder.after name calls).reply call = .error fault →
      (((CodeBuilder.after name calls).perform call).performAll later).finish =
        ((CodeBuilder.after name calls).performAll later).finish := by
  intro hsame
  have h := hsame "hop" hop hopLater (.mark ⟨0⟩) (.labelMarkedTwice 0) rfl
  have hfinish : ((CodeBuilder.after "hop" hop).performAll hopLater).finish = .ok hopCode := rfl
  have hmoved : (((CodeBuilder.after "hop" hop).perform (.mark ⟨0⟩)).performAll hopLater).finish =
      .ok { hopCode with labels := [2] } := rfl
  rw [hfinish, hmoved] at h
  exact absurd (congrArg Code.labels (Except.ok.inj h)) (by decide)

end Sample

end MemberAccess
