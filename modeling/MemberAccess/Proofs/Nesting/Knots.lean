import MemberAccess.Proofs.Heap.Writes
/-!
# Nesting — when a write makes a box nest itself

A value ties a knot at an object when it is that very object, as a box, or a
box that nests it (`Heap.Ties`). Where no box nests itself, a write to a slot
keeps it so exactly when what is written ties no knot at the object
(`Overwrites.acyclic_iff`). A copy ties none at anything that was there before
it, so copying first makes no difference (`Copies.ties_iff`).
-/

namespace MemberAccess

namespace Heap

variable {h h₁ : Heap} {o p q : ObjectRef} {i : Nat} {v : Value} {l : Location}

/-- **A value ties a knot at an object**: it is that object, as a box, or a box
that nests it. -/
def Ties (h : Heap) (v : Value) (o : ObjectRef) : Prop :=
  ∃ p, v = .object p ∧ h.IsBoxAt p ∧ Relation.ReflTransGen h.Nests p o

/-- Knots are tied at boxes only. -/
theorem Ties.isBoxAt (ht : h.Ties v o) : h.IsBoxAt o := by
  obtain ⟨p, -, hbox, hpath⟩ := ht
  cases hpath with
  | refl => exact hbox
  | tail _ hn => exact hn.2

/-- What nests a box still does when the heap has grown. -/
theorem Grows.nests (hg : h.Grows h₁) (hn : h.Nests p q) : h₁.Nests p q := by
  obtain ⟨hmem, hbox⟩ := hn
  refine ⟨?_, (hg.keeps.isBoxAt_iff (has_of_isValueType hbox)).2 hbox⟩
  rw [hg.slotsAt_eq (has_of_mem_slotsAt hmem)]
  exact hmem

/-- What an old value nests is old. -/
theorem Grows.has_of_ties (hg : h.Grows h₁) (hc : h.Closed) (hv : h.Reaches v)
    (ho : h₁.Ties v o) : h.Has o := by
  obtain ⟨p, rfl, -, hpath⟩ := ho
  have hp := hv p rfl
  rcases Relation.reflTransGen_iff_eq_or_transGen.1 hpath with rfl | hpath
  · exact hp
  · exact (hg.transGen_nests hc hp hpath).2

/-- **Copying ties and loosens no knot** at what was there before. -/
theorem Copies.ties_iff (hk : h.Copies h₁) (hc : h.Closed) (ho : h.Has o) :
    h₁.Ties v o ↔ h.Ties v o := by
  constructor
  · rintro ⟨p, rfl, hbox, hpath⟩
    by_cases hp : h.Has p
    · refine ⟨p, rfl, (hk.keeps.isBoxAt_iff hp).1 hbox, ?_⟩
      rcases Relation.reflTransGen_iff_eq_or_transGen.1 hpath with rfl | hpath
      · exact .refl
      · exact (hk.toGrows.transGen_nests hc hp hpath).1.to_reflTransGen
    · -- a new box nests nothing that was there
      exfalso
      rcases Relation.reflTransGen_iff_eq_or_transGen.1 hpath with rfl | hpath
      · exact hp ho
      · exact (hk.transGen_nests hp hpath).2 ho
  · rintro ⟨p, rfl, hbox, hpath⟩
    exact ⟨p, rfl, (hk.keeps.isBoxAt_iff (has_of_isValueType hbox)).2 hbox,
      Relation.ReflTransGen.mono (fun _ _ => hk.toGrows.nests) _ _ hpath⟩

/-! ## Fewer boxes nested -/

/-- Where nothing more is nested, no box comes to nest itself. -/
theorem Acyclic.of_nests (ha : h.Acyclic) (hn : ∀ p q, h₁.Nests p q → h.Nests p q) :
    h₁.Acyclic :=
  fun o hcycle => ha o (Relation.TransGen.mono hn _ _ hcycle)

/-- **A new object on top nests no box in itself**: nothing refers to it. -/
theorem acyclic_alloc {x : Instance} (hc : h.Closed) (ha : h.Acyclic)
    (hx : ∀ v ∈ x.slots, h.Reaches v) : (h.alloc x).2.Acyclic := by
  have hg := grows_alloc h x
  have hold : ∀ p q, (h.alloc x).2.Nests p q → h.Has q := by
    rintro p q ⟨hmem, -⟩
    rcases alloc_cases (has_of_mem_slotsAt hmem) with hp | ⟨-, hnew⟩
    · rw [hg.slotsAt_eq hp] at hmem
      exact hc.slots p _ hmem q rfl
    · rw [slotsAt, hnew] at hmem
      exact hx _ hmem q rfl
  intro o hcycle
  have ho : h.Has o := by
    cases hcycle with
    | single hn => exact hold _ _ hn
    | tail _ hn => exact hold _ _ hn
  exact ha o (hg.transGen_nests hc ho hcycle).1

/-! ## Writes -/

namespace Overwrites

theorem isBoxAt_iff (hw : h.Overwrites h₁ l v) : h₁.IsBoxAt p ↔ h.IsBoxAt p := by
  constructor
  · exact fun hbox => (hw.keeps.isBoxAt_iff (hw.has_iff.1 (has_of_isValueType hbox))).1 hbox
  · exact fun hbox => (hw.keeps.isBoxAt_iff (has_of_isValueType hbox)).2 hbox

/-- After a write an object nests what it did, or what has been written. -/
theorem nests_cases (hw : h.Overwrites h₁ l v) (hn : h₁.Nests p q) :
    h.Nests p q ∨ (∃ i, l = .slot p i) ∧ v = .object q ∧ h.IsBoxAt q := by
  obtain ⟨hmem, hbox⟩ := hn
  rw [hw.isBoxAt_iff] at hbox
  obtain ⟨j, hj⟩ := List.getElem?_of_mem hmem
  have hat : h₁.at? (.slot p j) = some (.object q) := hj
  rcases hw.at?_cases hat with ⟨heq, hv⟩ | hold
  · exact .inr ⟨⟨j, heq.symm⟩, hv.symm, hbox⟩
  · exact .inl ⟨List.mem_of_getElem? hold, hbox⟩

/-- What is written to a cell is not nested. -/
theorem acyclic_of_cell {k : CellRef} (hw : h.Overwrites h₁ (.cell k) v) (ha : h.Acyclic) :
    h₁.Acyclic := by
  refine ha.of_nests fun p q hn => ?_
  rcases hw.nests_cases hn with hn | ⟨⟨i, heq⟩, -⟩
  · exact hn
  · cases heq

/-- Another object than the one written to nests what it did. -/
theorem nests_of_ne (hw : h.Overwrites h₁ (.slot o i) v) (hp : p ≠ o) (hn : h.Nests p q) :
    h₁.Nests p q := by
  obtain ⟨hmem, hbox⟩ := hn
  refine ⟨?_, hw.isBoxAt_iff.2 hbox⟩
  have hsame := hw.instanceAt_eq (has_of_mem_slotsAt hmem) (o := p) fun j heq => by
    cases heq
    exact hp rfl
  rw [slotsAt, hsame]
  exact hmem

/-- A path to the object written to is still there: up to where it first
arrives, it starts from other objects only. -/
theorem reflTransGen_nests (hw : h.Overwrites h₁ (.slot o i) v)
    (hpath : Relation.ReflTransGen h.Nests p o) : Relation.ReflTransGen h₁.Nests p o := by
  induction hpath using Relation.ReflTransGen.head_induction_on with
  | refl => exact .refl
  | @head p q hn _ ih =>
    by_cases hp : p = o
    · rw [hp]
    · exact .head (hw.nests_of_ne hp hn) ih

/-- A path after the write was there before, or goes through the slot written:
to its object first, and on from what has been written. -/
theorem transGen_nests_cases (hw : h.Overwrites h₁ (.slot o i) v)
    (hpath : Relation.TransGen h₁.Nests p q) :
    Relation.TransGen h.Nests p q ∨ ∃ r, v = .object r ∧ h.IsBoxAt r ∧
      Relation.ReflTransGen h.Nests p o ∧ Relation.ReflTransGen h.Nests r q := by
  induction hpath with
  | single hn =>
    rcases hw.nests_cases hn with hn | ⟨⟨j, heq⟩, hv, hbox⟩
    · exact .inl (.single hn)
    · cases heq
      exact .inr ⟨_, hv, hbox, .refl, .refl⟩
  | tail _ hn ih =>
    rcases hw.nests_cases hn with hn | ⟨⟨j, heq⟩, hv, hbox⟩
    · rcases ih with hpath | ⟨r, hr, hrbox, hto, hon⟩
      · exact .inl (hpath.tail hn)
      · exact .inr ⟨r, hr, hrbox, hto, hon.tail hn⟩
    · cases heq
      refine .inr ⟨_, hv, hbox, ?_, .refl⟩
      rcases ih with hpath | ⟨_, _, _, hto, _⟩
      · exact hpath.to_reflTransGen
      · exact hto

/-- **A write makes a box nest itself exactly when what is written ties a knot**
at the object that is written to. -/
theorem acyclic_iff (hw : h.Overwrites h₁ (.slot o i) v) (ha : h.Acyclic) :
    h₁.Acyclic ↔ ¬ h.Ties v o := by
  constructor
  · rintro ha₁ ⟨p, rfl, hbox, hpath⟩
    have hn : h₁.Nests o p := ⟨List.mem_of_getElem? hw.written, hw.isBoxAt_iff.2 hbox⟩
    exact ha₁ o (.head' hn (hw.reflTransGen_nests hpath))
  · intro hties q hcycle
    rcases hw.transGen_nests_cases hcycle with hcycle | ⟨p, hv, hbox, hto, hon⟩
    · exact ha q hcycle
    · exact hties ⟨p, hv, hbox, hon.trans hto⟩

end Overwrites

end Heap

end MemberAccess
