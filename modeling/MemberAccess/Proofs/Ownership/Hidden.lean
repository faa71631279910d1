import MemberAccess.Proofs.Heap.Instances
import MemberAccess.Proofs.Ownership.Defining
/-!
# Ownership — boxes that nobody refers to

A heap may have boxes that nothing on it refers to but other such boxes: the
defaults of its types, which are known to the types alone. `Hides` is what
keeps them so. Nothing that is read off such a heap leads to a hidden box
(`Hides.free_slot`), and new boxes, new instances and writes of what is free
leave it hiding what it hides (`Hides.newBoxes`, `Hides.zeroed`,
`Hides.writes`), with nothing hidden changed (`Spares`).
-/

namespace MemberAccess

namespace Heap

variable {ts : List TypeDef} {held : List ObjectRef} {h h₁ h' : Heap} {P : ObjectRef → Prop}
  {v v' : Value} {t : TypeDef} {o : ObjectRef} {l : Location} {c : Catalog}

/-! ## Values that may be passed around -/

theorem free_of_not_object (hv : ∀ o, v ≠ .object o) : h.Free P v :=
  fun o ho => absurd ho (hv o)

theorem free_null (h : Heap) (P : ObjectRef → Prop) : h.Free P .null := free_of_not_object nofun

theorem free_int32 (h : Heap) (P : ObjectRef → Prop) (i : Int32) : h.Free P (.int32 i) :=
  free_of_not_object nofun

/-- What is free stays free. -/
theorem Free.keeps (hf : h.Free P v) (hk : h.Keeps h₁) : h₁.Free P v := hf.widen hk (.refl h P)

/-- What is new is free. -/
theorem Fresh.free (hf : h.Fresh h' v) (hv : h'.Reaches v) (hp : h.Private c P)
    (hk : h.Keeps h') : h'.Free P v := by
  intro o ho
  refine ⟨hv o ho, fun hP => hf o ho ?_ (hp.has hP)⟩
  exact (hk.isBoxAt_iff (hp.has hP)).2 (hp.box o hP)

/-! ## Hiding -/

/-- Without types nobody owns anything. -/
theorem not_ownsAt_nil (t : TypeDef) (i : Nat) : ¬ t.OwnsAt ⟨[]⟩ i := by
  rintro ⟨-, f, s, -, hs, -⟩
  cases hs

/-- **A heap that hides boxes**: nothing refers to them but they themselves, and
they are none of the objects that somebody holds. There are the defaults of the
types that instances are made of. -/
structure Hides (h : Heap) (ts : List TypeDef) (held : List ObjectRef) (P : ObjectRef → Prop) :
    Prop where
  closed : h.Closed
  hidden : h.Private ⟨[]⟩ P
  defaults : ∀ t ∈ ts, ∀ v ∈ t.defaults, h.Reaches v
  held : ∀ o ∈ held, h.Free P (.object o)

namespace Hides

/-- **What an object holds is free**, unless the object is hidden. -/
theorem free_slot (hh : h.Hides ts held P) (ho : ¬ P o) (hv : v ∈ h.slotsAt o) : h.Free P v := by
  obtain ⟨i, hi⟩ := List.getElem?_of_mem hv
  have hsuits := hh.hidden.slots o i v ho hi
  have hreach := hh.closed.slots o v hv
  exact fun p hp => ⟨hreach p hp, fun hP => not_ownsAt_nil _ i ((hsuits p hp).1 hP)⟩

/-- What a cell holds is free. -/
theorem free_cell (hh : h.Hides ts held P) (k : CellRef) : h.Free P (h.readCell k) :=
  free_of_suits (hh.closed.cells k) (hh.hidden.cells k)

/-- **New boxes may be hidden or not.** -/
theorem newBoxes (hh : h.Hides ts held P) (hk : h.NewBoxes h₁) (into : Prop) :
    h₁.Hides ts held (fun o => P o ∨ into ∧ ¬ h.Has o ∧ h₁.Has o) ∧
      h.Widens P (fun o => P o ∨ into ∧ ¬ h.Has o ∧ h₁.Has o) ∧ h.Spares h₁ P := by
  obtain ⟨hidden, hwidens⟩ := hh.hidden.newBoxes hh.closed hk into
  refine ⟨⟨hk.closed hh.closed, hidden, ?_, ?_⟩, hwidens,
    hk.keeps, fun o ho => hk.instanceAt_eq o (hh.hidden.has ho)⟩
  · exact fun t ht v hv => hk.keeps.reaches (hh.defaults t ht v hv)
  · exact fun o ho => (hh.held o ho).widen hk.keeps hwidens

/-- **New boxes that are not hidden.** -/
theorem newBoxes_outside (hh : h.Hides ts held P) (hk : h.NewBoxes h₁) :
    h₁.Hides ts held P ∧ h.Spares h₁ P := by
  have hsame : (fun o => P o ∨ False ∧ ¬ h.Has o ∧ h₁.Has o) = P := by simp
  obtain ⟨hh₁, -, hspares⟩ := hh.newBoxes hk False
  rw [hsame] at hh₁
  exact ⟨hh₁, hspares⟩

/-- **A new instance** that holds what is free. -/
theorem alloc {vs : List Value} (hh : h.Hides ts held P) (hvs : ∀ v ∈ vs, h.Free P v) :
    (h.alloc ⟨t, vs⟩).2.Hides ts held P ∧ h.Spares (h.alloc ⟨t, vs⟩).2 P := by
  have hg := grows_alloc h ⟨t, vs⟩
  refine ⟨⟨hh.closed.alloc fun v hv => (hvs v hv).reaches, hh.hidden.alloc hh.closed ?_, ?_, ?_⟩,
    hg.keeps, fun o ho => hg.instanceAt_eq o (hh.hidden.has ho)⟩
  · intro i v hv
    have hfree := hvs v (List.mem_of_getElem? hv)
    refine ⟨hfree.reaches, fun p hp => ⟨fun hP => absurd hP (hfree p hp).2, fun howns => ?_⟩⟩
    exact absurd howns (not_ownsAt_nil t i)
  · exact fun u hu v hv => hg.keeps.reaches (hh.defaults u hu v hv)
  · exact fun o ho => (hh.held o ho).keeps hg.keeps

/-- **A write** of what is free, to what is not hidden. -/
theorem writes (hh : h.Hides ts held P) (hw : h.Overwrites h₁ l v) (hv : h.Free P v)
    (hl : ∀ o i, l = .slot o i → ¬ P o) : h₁.Hides ts held P ∧ h.Spares h₁ P := by
  have hadmits : Private.Admits ⟨[]⟩ h P v l := by
    cases l with
    | slot o i =>
      refine ⟨hl o i rfl, fun p hp => ⟨fun hP => absurd hP (hv p hp).2, fun howns => ?_⟩⟩
      exact absurd howns (not_ownsAt_nil _ i)
    | cell k => exact hv.suits
  have hhidden := hh.hidden.writes hh.closed hw hv.reaches hadmits
  refine ⟨⟨hw.closed hh.closed hv.reaches, hhidden, ?_, ?_⟩,
    hh.hidden.spares hw.toChangesOnly fun o i hi => hl o i hi.symm⟩
  · exact fun t ht u hu => hw.keeps.reaches (hh.defaults t ht u hu)
  · exact fun o ho => (hh.held o ho).keeps hw.keeps

/-- A write to a slot. -/
theorem store {i : Nat} (hh : h.Hides ts held P) (ho : ¬ P o) (hv : h.Free P v)
    (hrun : h.store o i v = .ok h') : h'.Hides ts held P ∧ h.Spares h' P := by
  obtain ⟨hlt, rfl⟩ := store_eq_ok.1 hrun
  refine hh.writes (overwrites_setSlots hlt v) hv fun p j hp => ?_
  cases hp
  exact ho

/-- A write to a cell, if there is one. -/
theorem writeCell (hh : h.Hides ts held P) (k : CellRef) (hv : h.Free P v) :
    (h.writeCell k v).Hides ts held P ∧ h.Spares (h.writeCell k v) P := by
  by_cases hk : k.index < h.cells.size
  · exact hh.writes (overwrites_writeCell hk v) hv nofun
  · have hsame : h.writeCell k v = h := by
      rw [Heap.writeCell, Array.setIfInBounds, dif_neg hk]
    rw [hsame]
    exact ⟨hh, .refl h P⟩

/-- **A new cell** that holds what is free. -/
theorem allocCell (hh : h.Hides ts held P) (hv : h.Free P v) :
    (h.allocCell v).2.Hides ts held P ∧ h.Spares (h.allocCell v).2 P := by
  have hchanges := changesOnly_allocCell h v fun _ => False
  refine ⟨⟨hh.closed.allocCell hv.reaches, ⟨hh.hidden.box, hh.hidden.nested, hh.hidden.slots, ?_⟩,
    hh.defaults, fun o ho => (hh.held o ho).keeps hchanges.keeps⟩,
    hh.hidden.spares hchanges fun _ _ hnot => hnot.elim⟩
  intro k
  rw [readCell_allocCell]
  split
  · exact hv.suits
  · exact hh.hidden.cells k

/-- **A detached copy is free.** -/
theorem detach (hh : h.Hides ts held P) (hv : h.Free P v) (hd : h.detach? v = some (v', h')) :
    h'.Hides ts held P ∧ h.Spares h' P ∧ h'.Free P v' := by
  obtain ⟨cs, -, hplaced⟩ := placed_of_detach? hh.closed hv.reaches hd
  obtain ⟨hh', hspares⟩ := hh.newBoxes_outside hplaced.copies.newBoxes
  exact ⟨hh', hspares, hplaced.derived.free hv hh.hidden⟩

/-- **A zeroed instance is free**, and so is all that it holds. -/
theorem zeroed (hh : h.Hides ts held P) (ht : t ∈ ts) (hz : h.zeroed? t = some (o, h')) :
    h'.Hides ts held P ∧ h.Spares h' P ∧ h'.Free P (.object o) := by
  have hcreates := creates_of_zeroed? hh.closed (hh.defaults t ht) hz
  obtain ⟨vs, h₁, hvs, rfl, rfl⟩ := zeroed?_eq_some hz
  obtain ⟨hk, hclones⟩ := cloned_of_detachAll? hh.closed (hh.defaults t ht) hvs
  obtain ⟨hh₁, hspares₁⟩ := hh.newBoxes_outside hk.newBoxes
  have hfree : ∀ v ∈ vs, h₁.Free P v := by
    intro v hv
    obtain ⟨w, -, hclone⟩ := exists_partner hclones hv
    exact hclone.fresh.free hclone.reaches hh.hidden hk.keeps
  obtain ⟨hh', hspares'⟩ := hh₁.alloc hfree
  refine ⟨hh', hspares₁.trans hspares', ?_⟩
  rintro p ⟨⟩
  exact ⟨hcreates.has, fun hP => hcreates.fresh (hh.hidden.has hP)⟩

/-- The zero value of a type is free. -/
theorem zeroOf (hh : h.Hides ts held P) (ht : t ∈ ts) (hz : h.zeroOf? t = some (v, h')) :
    h'.Hides ts held P ∧ h.Spares h' P ∧ h'.Free P v := by
  rcases zeroOf?_eq_some hz with ⟨o, rfl, hzeroed⟩ | ⟨rfl, hv⟩
  · exact hh.zeroed ht hzeroed
  · exact ⟨hh, .refl h' P, free_of_not_object hv⟩

end Hides

end Heap

end MemberAccess
