import MemberAccess.Proofs.Heap.Copy
/-!
# Heap — locations, and writing to one of them

A location is a slot of an object or the cell of a static field. `WritesOnly`
says that a heap has changed at one location and nowhere else; a copy made
before the write only adds to it (`WritesOnly.after_growth`). New boxes keep
their contents through a write to something that was there before them.
-/

namespace MemberAccess

/-- **A place that holds a value.** -/
inductive Location where
  | slot (o : ObjectRef) (i : Nat)
  | cell (c : CellRef)
deriving DecidableEq

namespace Heap

variable {h h₁ h₂ : Heap} {o p : ObjectRef} {i : Nat} {c : CellRef} {v : Value} {l : Location}

/-- The value at a location, if the location exists. -/
def at? (h : Heap) : Location → Option Value
  | .slot o i => (h.slotsAt o)[i]?
  | .cell c => h.cells[c.index]?

/-- A cell that is there reads as what is at it. -/
theorem at?_cell {k : CellRef} (hk : k.index < h.cells.size) :
    h.at? (.cell k) = some (h.readCell k) := by
  simp [at?, readCell, Array.getD_eq_getD_getElem?, hk]

theorem readCell_of_at? {k : CellRef} (hk : h.at? (.cell k) = some v) : h.readCell k = v := by
  simp only [at?] at hk
  simp [readCell, Array.getD_eq_getD_getElem?, hk]

/-- **Nothing dangles** when nothing does at any location. -/
theorem closed_iff : h.Closed ↔ ∀ l v, h.at? l = some v → h.Reaches v := by
  constructor
  · rintro hc (⟨o, i⟩ | k) v hv
    · exact hc.slots o v (List.mem_of_getElem? hv)
    · exact readCell_of_at? hv ▸ hc.cells k
  · intro hall
    refine ⟨fun o v hv => ?_, fun k => ?_⟩
    · obtain ⟨i, hi⟩ := List.getElem?_of_mem hv
      exact hall (.slot o i) v hi
    · by_cases hk : k.index < h.cells.size
      · exact hall (.cell k) _ (at?_cell hk)
      · rw [readCell_eq_null (Nat.le_of_not_lt hk)]
        exact h.reaches_null

/-- **Nothing that was there changes but some locations**: objects remain,
with their types and as many slots, and so do cells. -/
structure ChangesOnly (h h' : Heap) (L : Location → Prop) : Prop where
  others : ∀ l, ¬ L l → (h.at? l).isSome = true → h'.at? l = h.at? l
  lengths : ∀ o, h.Has o → (h'.slotsAt o).length = (h.slotsAt o).length
  keeps : h.Keeps h'

namespace ChangesOnly

variable {L : Location → Prop}

theorem mono {M : Location → Prop} (hc : h.ChangesOnly h₁ L) (hLM : ∀ l, L l → M l) :
    h.ChangesOnly h₁ M where
  others l hl := hc.others l fun hL => hl (hLM l hL)
  lengths := hc.lengths
  keeps := hc.keeps

theorem trans (h₁₂ : h.ChangesOnly h₁ L) (h₂₃ : h₁.ChangesOnly h₂ L) : h.ChangesOnly h₂ L where
  others l hl hsome := by
    have hsame := h₁₂.others l hl hsome
    rw [h₂₃.others l hl (by rwa [hsame]), hsame]
  lengths o ho := (h₂₃.lengths o (h₁₂.keeps.has ho)).trans (h₁₂.lengths o ho)
  keeps := h₁₂.keeps.trans h₂₃.keeps

/-- An object of which no slot changes stays as it is. -/
theorem instanceAt_eq (hc : h.ChangesOnly h₁ L) (ho : h.Has o) (hL : ∀ i, ¬ L (.slot o i)) :
    h₁.instanceAt o = h.instanceAt o := by
  have htype : (h₁.instanceAt o).type = (h.instanceAt o).type := hc.keeps.typeAt_eq o ho
  have hslots : (h₁.instanceAt o).slots = (h.instanceAt o).slots := by
    have hlen := hc.lengths o ho
    refine List.ext_getElem? fun j => ?_
    by_cases hj : j < (h.slotsAt o).length
    · exact hc.others (.slot o j) (hL j) (by simpa [at?] using hj)
    · rw [slotsAt, slotsAt] at hlen
      rw [slotsAt] at hj
      rw [List.getElem?_eq_none (by omega), List.getElem?_eq_none (by omega)]
  cases hx : h₁.instanceAt o
  cases hy : h.instanceAt o
  simp_all

end ChangesOnly

theorem has_of_at? {o : ObjectRef} (ho : (h.at? (.slot o i)).isSome = true) : h.Has o := by
  by_contra hnot
  simp [at?, slotsAt_of_not_has hnot] at ho

/-- What is at a location stays there when the heap grows. -/
theorem Grows.at?_eq (hg : h.Grows h₁) (hl : (h.at? l).isSome = true) : h₁.at? l = h.at? l := by
  cases l with
  | slot o i => rw [at?, at?, hg.slotsAt_eq (has_of_at? hl)]
  | cell c => rw [at?, at?, hg.cells_eq]

/-- **Growing changes nothing.** -/
theorem Grows.changesOnly (hg : h.Grows h₁) (L : Location → Prop) : h.ChangesOnly h₁ L where
  others _ _ hsome := hg.at?_eq hsome
  lengths _ ho := by rw [hg.slotsAt_eq ho]
  keeps := hg.keeps

/-- **One location is written, and nothing else that was there changes.** -/
structure WritesOnly (h h' : Heap) (l : Location) (v : Value) : Prop
    extends ChangesOnly h h' (· = l) where
  there : (h.at? l).isSome = true
  written : h'.at? l = some v

/-- What a heap grew by before the write does not count. -/
theorem WritesOnly.after_growth (hg : h.Grows h₁) (hw : h₁.WritesOnly h₂ l v)
    (hl : (h.at? l).isSome = true) : h.WritesOnly h₂ l v where
  toChangesOnly := (hg.changesOnly _).trans hw.toChangesOnly
  there := hl
  written := hw.written

/-- **A write and nothing else**: there is nothing new either. -/
structure Overwrites (h h' : Heap) (l : Location) (v : Value) : Prop
    extends WritesOnly h h' l v where
  objects_size : h'.objects.size = h.objects.size
  cells_size : h'.cells.size = h.cells.size

/-- **Storing into a slot** writes that slot only. -/
theorem overwrites_setSlots (hi : i < (h.slotsAt o).length) (v : Value) :
    h.Overwrites (h.setSlots o ((h.slotsAt o).set i v)) (.slot o i) v := by
  have ho : h.Has o := by
    by_contra hnot
    simp [slotsAt_of_not_has hnot] at hi
  have hslots : ∀ p, (h.setSlots o ((h.slotsAt o).set i v)).slotsAt p =
      if p = o then (h.slotsAt o).set i v else h.slotsAt p := by
    intro p
    rw [slotsAt, instanceAt_setSlots ho]
    split <;> rfl
  refine ⟨⟨⟨?_, ?_, keeps_setSlots h o _⟩, by simpa [at?] using hi, by simp [at?, hslots, hi]⟩,
    size_setSlots h o _, rfl⟩
  · intro l' hne _
    cases l' with
    -- the same object may still be meant, in another slot
    | slot p j =>
      rw [at?, at?, hslots]
      by_cases hp : p = o
      · subst hp
        have hj : i ≠ j := by
          rintro rfl
          exact hne rfl
        rw [if_pos rfl, List.getElem?_set_ne hj]
      · rw [if_neg hp]
    | cell c => rfl
  · intro p _
    rw [hslots]
    split
    · rename_i hp
      rw [hp, List.length_set]
    · rfl

/-- **Writing a cell** writes that cell only. -/
theorem overwrites_writeCell (hc : c.index < h.cells.size) (v : Value) :
    h.Overwrites (h.writeCell c v) (.cell c) v where
  there := by simpa [at?] using hc
  written := by simp [at?, writeCell, hc]
  others l' hne _ := by
    cases l' with
    | slot p j => rfl
    | cell d =>
      have hd : c.index ≠ d.index := by
        intro heq
        obtain ⟨i⟩ := c
        obtain ⟨j⟩ := d
        obtain rfl : i = j := heq
        exact hne rfl
      simp [at?, writeCell, hd]
  lengths _ _ := rfl
  keeps := ⟨Nat.le_refl _, fun _ _ => rfl, by simp [writeCell]⟩
  objects_size := rfl
  cells_size := by simp [writeCell]

namespace Overwrites

theorem has_iff (hw : h.Overwrites h₁ l v) : h₁.Has o ↔ h.Has o := by
  rw [Has, Has, hw.objects_size]

/-- **What is anywhere after a write** is what was written there, or was there
before. -/
theorem at?_cases {l' : Location} {w : Value} (hw : h.Overwrites h₁ l v)
    (hl : h₁.at? l' = some w) : l' = l ∧ w = v ∨ h.at? l' = some w := by
  by_cases heq : l' = l
  · subst heq
    exact .inl ⟨rfl, Option.some.inj (hl.symm.trans hw.written)⟩
  · have hthere : (h.at? l').isSome = true := by
      cases l' with
      | slot o i =>
        have hlen := hw.lengths o (hw.has_iff.1 (has_of_at? (by rw [hl]; rfl)))
        obtain ⟨hlt, -⟩ := List.getElem?_eq_some_iff.1 hl
        simp only [at?, isSome_getElem?]
        omega
      | cell k =>
        obtain ⟨hlt, -⟩ := Array.getElem?_eq_some_iff.1 hl
        simp only [at?, isSome_getElem?]
        rwa [← hw.cells_size]
    exact .inr ((hw.others l' heq hthere).symm.trans hl)

/-- **Writing what does not dangle leaves nothing dangling.** -/
theorem closed (hw : h.Overwrites h₁ l v) (hc : h.Closed) (hv : h.Reaches v) : h₁.Closed := by
  refine closed_iff.2 fun l' w hl => ?_
  rcases hw.at?_cases hl with ⟨-, rfl⟩ | hl
  · exact hw.keeps.reaches hv
  · exact hw.keeps.reaches (closed_iff.1 hc l' w hl)

end Overwrites

/-- **A copy keeps its contents** when something is written that was there
before it. -/
theorem WritesOnly.contents?_eq {n : Nat} {cs : Contents} {v' w : Value}
    (hp : h.Placed h₁ n cs v v') (hw : h₁.WritesOnly h₂ l w)
    (hl : ∀ o i, l = .slot o i → h.Has o) (m : Nat) :
    h₂.contents? m v' = h₁.contents? m v' := by
  refine contents?_congr (S := fun p => ¬ h.Has p ∧ h₁.Has p) ?_ ?_ ?_
  · rintro p ⟨hnew, hp₁⟩
    exact hw.instanceAt_eq hp₁ fun i heq => hnew (hl p i heq.symm)
  · rintro p ⟨hnew, hp₁⟩ x hx q rfl
    have hq : h₁.Has q := Nat.lt_trans (hp.copies.older p q hnew hx) hp₁
    exact ⟨hw.keeps.isBoxAt_iff hq, fun hqbox => ⟨hp.copies.apart p q hnew hx hqbox, hq⟩⟩
  · rintro o rfl
    have ho := hp.reaches o rfl
    refine ⟨hw.keeps.isBoxAt_iff ho, fun hobox => ⟨?_, ho⟩⟩
    rcases hp.copy with ⟨hnone, -⟩ | ⟨q, hq, hnew, -⟩
    · exact absurd hobox (box?_eq_none.1 hnone o rfl)
    · cases hq
      exact hnew

end Heap

end MemberAccess
