import MemberAccess.Proofs.Heap.Sound
/-!
# Ownership — boxes that only struct fields of class instances refer to

A class instance owns the structs in its struct-typed fields. `Private` is the
invariant that makes them its own: there is a set of boxes, closed under
nesting, that holds every struct so owned, and nothing outside the set refers
into it but the owning slots themselves. As long as nothing inside the set is
written, an owned struct keeps its contents (`Private.structAt?_eq`).

New boxes may be taken into the set or left outside (`Private.newBoxes`), new
instances keep to it (`Private.alloc`), and so do writes to what is outside
(`Private.writes`).
-/

namespace MemberAccess

/-- **Whether instances of a type own what a slot of theirs holds**: the type
is not copied itself, and the slot's field is of a struct type. -/
def TypeDef.OwnsAt (t : TypeDef) (c : Catalog) (i : Nat) : Prop :=
  t.isValueType = false ∧
    ∃ f s, t.layout[i]? = some f ∧ c.find? f.type = some s ∧ s.kind = .structType

namespace Heap

/-- **Whether a value may be where it is**: a private box only in a slot that
owns it, and such a slot holds no other box. -/
def Suits (h : Heap) (P : ObjectRef → Prop) (owned : Prop) (v : Value) : Prop :=
  ∀ o, v = .object o → (P o → owned) ∧ (owned → h.IsBoxAt o → P o)

/-- **A set of private boxes.** -/
structure Private (c : Catalog) (h : Heap) (P : ObjectRef → Prop) : Prop where
  box : ∀ o, P o → h.IsBoxAt o
  /-- What private boxes nest is private, and older than they are. -/
  nested : ∀ o p, P o → Value.object p ∈ h.slotsAt o → h.IsBoxAt p → P p ∧ p.index < o.index
  slots : ∀ o i v, ¬ P o → (h.slotsAt o)[i]? = some v → h.Suits P ((h.typeAt o).OwnsAt c i) v
  cells : ∀ k, h.Suits P False (h.readCell k)

/-- Two sets that differ in boxes that are yet to come. -/
def Widens (h : Heap) (P P' : ObjectRef → Prop) : Prop := ∀ o, h.Has o → (P' o ↔ P o)

/-- **Every object remains, and those of a set stay as they are.** -/
structure Spares (h h' : Heap) (P : ObjectRef → Prop) : Prop where
  keeps : h.Keeps h'
  intact : ∀ o, P o → h'.instanceAt o = h.instanceAt o

variable {c : Catalog} {h h₁ h₂ : Heap} {P P' : ObjectRef → Prop} {v : Value} {l : Location}
  {L : Location → Prop} {owned : Prop} {t : TypeDef}

theorem Widens.refl (h : Heap) (P : ObjectRef → Prop) : h.Widens P P := fun _ _ => .rfl

theorem Widens.trans {P'' : ObjectRef → Prop} (hw : h.Widens P P') (hk : h.Keeps h₁)
    (hw₁ : h₁.Widens P' P'') : h.Widens P P'' :=
  fun o ho => (hw₁ o (hk.has ho)).trans (hw o ho)

namespace Spares

theorem refl (h : Heap) (P : ObjectRef → Prop) : h.Spares h P := ⟨.refl h, fun _ _ => rfl⟩

theorem trans (h₁₂ : h.Spares h₁ P) (h₂₃ : h₁.Spares h₂ P) : h.Spares h₂ P where
  keeps := h₁₂.keeps.trans h₂₃.keeps
  intact o ho := (h₂₃.intact o ho).trans (h₁₂.intact o ho)

theorem mono (hs : h.Spares h₁ P') (hP : ∀ o, P o → P' o) : h.Spares h₁ P :=
  ⟨hs.keeps, fun o ho => hs.intact o (hP o ho)⟩

end Spares

/-- A value stays suited when there are more objects and more private boxes
among the new ones. -/
theorem Suits.widen (hs : h.Suits P owned v) (hv : h.Reaches v) (hk : h.Keeps h₁)
    (hw : h.Widens P P') : h₁.Suits P' owned v := by
  rintro o rfl
  have ho := hv o rfl
  obtain ⟨hprivate, howned⟩ := hs o rfl
  refine ⟨fun hP => hprivate ((hw o ho).1 hP), fun hyes hbox => (hw o ho).2 (howned hyes ?_)⟩
  exact (hk.isBoxAt_iff ho).1 hbox

namespace Private

theorem has (hp : h.Private c P) {o : ObjectRef} (ho : P o) : h.Has o :=
  has_of_isValueType (hp.box o ho)

/-- A wider set has more boxes. -/
theorem subset_of_widens (hp : h.Private c P) (hw : h.Widens P P') {o : ObjectRef} (ho : P o) :
    P' o :=
  (hw o (hp.has ho)).2 ho

/-- What changes elsewhere spares private boxes. -/
theorem spares (hp : h.Private c P) (hch : h.ChangesOnly h₁ L)
    (hL : ∀ o i, L (.slot o i) → ¬ P o) : h.Spares h₁ P :=
  ⟨hch.keeps, fun o ho => hch.instanceAt_eq (hp.has ho) fun i hi => hL o i hi ho⟩

/-- Nothing is private on a heap without objects and cells. -/
theorem empty (c : Catalog) : ({} : Heap).Private c fun _ => False where
  box _ := False.elim
  nested _ _ := False.elim
  slots o i v _ hv :=
    absurd (has_of_mem_slotsAt (List.mem_of_getElem? hv)) (Nat.not_lt_zero _)
  cells k o ho := by simp [readCell] at ho

/-- **New boxes may be taken into the set or left outside it.** -/
theorem newBoxes (hp : h.Private c P) (hc : h.Closed) (hk : h.NewBoxes h₁) (into : Prop) :
    h₁.Private c (fun o => P o ∨ into ∧ ¬ h.Has o ∧ h₁.Has o) ∧
      h.Widens P fun o => P o ∨ into ∧ ¬ h.Has o ∧ h₁.Has o := by
  have hwidens : h.Widens P fun o => P o ∨ into ∧ ¬ h.Has o ∧ h₁.Has o :=
    fun o ho => ⟨fun hP => hP.resolve_right fun hnew => hnew.2.1 ho, .inl⟩
  refine ⟨⟨?_, ?_, ?_, ?_⟩, hwidens⟩
  · rintro o (ho | ⟨-, hnot, ho⟩)
    · exact (hk.keeps.isBoxAt_iff (hp.has ho)).2 (hp.box o ho)
    · exact hk.boxes o hnot ho
  · rintro o p (ho | ⟨hinto, hnot, -⟩) hmem hbox
    · rw [hk.slotsAt_eq (hp.has ho)] at hmem
      have hpo := hc.slots o _ hmem p rfl
      exact (hp.nested o p ho hmem ((hk.keeps.isBoxAt_iff hpo).1 hbox)).imp_left .inl
    · have hlt := hk.older o p hnot hmem
      have hnew := hk.apart o p hnot hmem hbox
      exact ⟨.inr ⟨hinto, hnew, has_of_isValueType hbox⟩, hlt⟩
  · intro o i v ho hv
    by_cases hold : h.Has o
    · rw [hk.slotsAt_eq hold] at hv
      rw [hk.typeAt_eq hold]
      exact (hp.slots o i v (fun hP => ho (.inl hP)) hv).widen
        (hc.slots o v (List.mem_of_getElem? hv)) hk.keeps hwidens
    · -- a new box outside the set holds nothing private and owns nothing
      have hhas := has_of_mem_slotsAt (List.mem_of_getElem? hv)
      have hvalue : (h₁.typeAt o).isValueType = true := hk.boxes o hold hhas
      rintro p rfl
      constructor
      · rintro (hP | ⟨hinto, -⟩)
        · have hbox := (hk.keeps.isBoxAt_iff (hp.has hP)).2 (hp.box p hP)
          exact absurd (hp.has hP) (hk.apart o p hold (List.mem_of_getElem? hv) hbox)
        · exact absurd (.inr ⟨hinto, hold, hhas⟩) ho
      · rintro ⟨hnot, -⟩
        rw [hvalue] at hnot
        cases hnot
  · intro k
    rw [hk.readCell_eq]
    exact (hp.cells k).widen (hc.cells k) hk.keeps hwidens

/-- **A new instance keeps to the set** when its slots do. -/
theorem alloc (hp : h.Private c P) (hc : h.Closed) {vs : List Value}
    (hvs : ∀ i v, vs[i]? = some v → h.Reaches v ∧ h.Suits P (t.OwnsAt c i) v) :
    (h.alloc ⟨t, vs⟩).2.Private c P := by
  have hg := grows_alloc h ⟨t, vs⟩
  have hwiden : h.Widens P P := .refl h P
  refine ⟨?_, ?_, ?_, ?_⟩
  · intro o ho
    exact (hg.keeps.isBoxAt_iff (hp.has ho)).2 (hp.box o ho)
  · intro o p ho hmem hbox
    rw [hg.slotsAt_eq (hp.has ho)] at hmem
    exact hp.nested o p ho hmem ((hg.keeps.isBoxAt_iff (hc.slots o _ hmem p rfl)).1 hbox)
  · intro o i v ho hv
    rcases alloc_cases (has_of_mem_slotsAt (List.mem_of_getElem? hv)) with hold | ⟨-, hnew⟩
    · rw [hg.slotsAt_eq hold] at hv
      rw [hg.typeAt_eq hold]
      exact (hp.slots o i v ho hv).widen (hc.slots o v (List.mem_of_getElem? hv)) hg.keeps hwiden
    · rw [slotsAt, hnew] at hv
      rw [typeAt, hnew]
      obtain ⟨hreach, hsuits⟩ := hvs i v hv
      exact hsuits.widen hreach hg.keeps hwiden
  · exact fun k => (hp.cells k).widen (hc.cells k) hg.keeps hwiden

/-- Whether a value may be written to a location: private boxes are not
written, and what is written suits its slot. -/
def Admits (c : Catalog) (h : Heap) (P : ObjectRef → Prop) (v : Value) : Location → Prop
  | .slot o i => ¬ P o ∧ h.Suits P ((h.typeAt o).OwnsAt c i) v
  | .cell _ => h.Suits P False v

/-- **A write keeps to the set** where it is admitted. -/
theorem writes (hp : h.Private c P) (hc : h.Closed) (hw : h.Overwrites h₁ l v)
    (hv : h.Reaches v) (hl : Admits c h P v l) : h₁.Private c P := by
  have hwiden : h.Widens P P := .refl h P
  -- what is private is not written
  have hintact := (hp.spares hw.toChangesOnly fun o i hi => by
    subst hi
    exact hl.1).intact
  refine ⟨fun o ho => (hw.keeps.isBoxAt_iff (hp.has ho)).2 (hp.box o ho), ?_, ?_, ?_⟩
  · intro o p ho hmem hpbox
    rw [slotsAt, hintact o ho] at hmem
    exact hp.nested o p ho hmem ((hw.keeps.isBoxAt_iff (hc.slots o _ hmem p rfl)).1 hpbox)
  · intro o i w ho hat
    have hold := hw.has_iff.1 (has_of_mem_slotsAt (List.mem_of_getElem? hat))
    have hat : h₁.at? (.slot o i) = some w := hat
    rw [hw.keeps.typeAt_eq o hold]
    rcases hw.at?_cases hat with ⟨rfl, rfl⟩ | hsame
    · exact hl.2.widen hv hw.keeps hwiden
    · exact (hp.slots o i w ho hsame).widen (closed_iff.1 hc _ w hsame) hw.keeps hwiden
  · intro k
    by_cases hlt : k.index < h₁.cells.size
    · rcases hw.at?_cases (at?_cell hlt) with ⟨rfl, heq⟩ | hsame
      · rw [heq]
        exact Suits.widen hl hv hw.keeps hwiden
      · rw [← readCell_of_at? hsame]
        exact (hp.cells k).widen (hc.cells k) hw.keeps hwiden
    · rw [readCell_eq_null (Nat.le_of_not_lt hlt)]
      intro o ho
      cases ho

end Private

/-! ## Owned structs -/

/-- **The struct that an instance holds in a slot**, as contents. -/
def structAt? (h : Heap) (o : ObjectRef) (i : Nat) : Option Contents :=
  (h.at? (.slot o i)).bind (h.contents? h.objects.size)

namespace Private

/-- **Private boxes have contents**: each nests older ones only. -/
theorem hasContents (hp : h.Private c P) {o : ObjectRef} (ho : P o) :
    h.HasContents (.object o) := by
  obtain ⟨i⟩ := o
  induction i using Nat.strongRecOn with
  | ind i ih =>
    refine .of_slots fun w hw => ?_
    cases hbox : h.box? w with
    | none => exact .of_box?_eq_none hbox
    | some x =>
      obtain ⟨⟨j⟩, rfl, hpbox, -⟩ := box?_eq_some.1 hbox
      obtain ⟨hpp, hlt⟩ := hp.nested ⟨i⟩ ⟨j⟩ ho hw hpbox
      exact ih j hlt hpp

/-- **What nests only private boxes has contents.** -/
theorem hasContents_of_suits (hp : h.Private c P) (hs : h.Suits P True v) : h.HasContents v := by
  cases hbox : h.box? v with
  | none => exact .of_box?_eq_none hbox
  | some x =>
    obtain ⟨p, rfl, hpbox, -⟩ := box?_eq_some.1 hbox
    exact hp.hasContents ((hs p rfl).2 trivial hpbox)

/-- **It keeps its contents** as long as nothing private changes. -/
theorem contents?_eq (hp : h.Private c P) (hc : h.Closed) (hsp : h.Spares h₁ P)
    (hs : h.Suits P True v) (hv : h.Reaches v) (n : Nat) :
    h₁.contents? n v = h.contents? n v := by
  refine contents?_congr (S := P) hsp.intact ?_ ?_
  · rintro o ho w hw p rfl
    exact ⟨hsp.keeps.isBoxAt_iff (hc.slots o _ hw p rfl),
      fun hpbox => (hp.nested o p ho hw hpbox).1⟩
  · rintro o rfl
    exact ⟨hsp.keeps.isBoxAt_iff (hv o rfl), fun hobox => (hs o rfl).2 trivial hobox⟩

/-- **An owned struct is there and stays as it is**, as long as neither its
slot nor anything private changes. -/
theorem structAt?_eq (hp : h.Private c P) (hc : h.Closed) (hch : h.ChangesOnly h₁ L)
    (hL : ∀ o i, L (.slot o i) → ¬ P o) {o : ObjectRef} {i : Nat}
    (ho : (h.typeAt o).OwnsAt c i) (hthere : (h.at? (.slot o i)).isSome = true)
    (hnot : ¬ L (.slot o i)) :
    ∃ cs, h.structAt? o i = some cs ∧ h₁.structAt? o i = some cs := by
  obtain ⟨v, hv⟩ := Option.isSome_iff_exists.1 hthere
  -- a private box owns nothing, so an owner is not private
  have howner : ¬ P o := by
    intro hP
    have hvalue : (h.typeAt o).isValueType = true := hp.box o hP
    rw [ho.1] at hvalue
    cases hvalue
  have hsuits : h.Suits P True v := by
    intro p hvp
    obtain ⟨-, howned⟩ := hp.slots o i v howner hv p hvp
    exact ⟨fun _ => trivial, fun _ => howned ho⟩
  have hreach := hc.slots o v (List.mem_of_getElem? hv)
  obtain ⟨cs, hcs⟩ := (hp.hasContents_of_suits hsuits).exists_contents
  have hcs₁ := (hp.contents?_eq hc (hp.spares hch hL) hsuits hreach _).trans hcs
  refine ⟨cs, ?_, ?_⟩
  · rw [structAt?, hv]
    exact hcs
  · rw [structAt?, hch.others _ hnot hthere, hv]
    exact contents?_mono hcs₁ hch.keeps.size_le

end Private

end Heap

end MemberAccess
