import MemberAccess.Proofs.Catalog.Built
import MemberAccess.Proofs.Coercion
import MemberAccess.Proofs.Heap.Writes
/-!
# Heap — heaps that fit a catalog

A heap is `Sound` for a catalog when its objects are laid out as their types
say and its static cells are there. On such a heap the slot of a field is
found in everything that passes for the field's declaring type, and what
passes for a struct is a box. A heap is `Typed` by a catalog when, moreover,
every object is of a type of the catalog; copies, new instances and writes
keep it so.
-/

namespace MemberAccess

namespace Heap

/-- **A heap that fits a catalog**: no reference dangles, objects have a value
for each slot of their layout, what is a kind of a defined type is of a type
of the catalog, and static fields have their cells. -/
structure Sound (h : Heap) (c : Catalog) : Prop where
  closed : h.Closed
  types : ∀ o, h.Has o → ∀ t ∈ c.types, t.handle.isBuiltin = false →
    t.handle ∈ (h.typeAt o).ancestors → h.typeAt o ∈ c.types
  slots : ∀ o, h.Has o → (h.slotsAt o).length = (h.typeAt o).layout.length
  cells : ∀ t ∈ c.types, ∀ f ∈ t.fields, ∀ k, f.storage = .cell k → k.index < h.cells.size

/-- **A heap whose objects are of the types of a catalog.** -/
structure Typed (h : Heap) (c : Catalog) : Prop where
  closed : h.Closed
  types : ∀ o, h.Has o → h.typeAt o ∈ c.types
  slots : ∀ o, h.Has o → (h.slotsAt o).length = (h.typeAt o).layout.length
  cells : ∀ t ∈ c.types, ∀ f ∈ t.fields, ∀ k, f.storage = .cell k → k.index < h.cells.size
  defaults : ∀ t ∈ c.types, ∀ v ∈ t.defaults, h.Reaches v

namespace Typed

variable {h h₁ : Heap} {c : Catalog} {l : Location} {v : Value}

theorem sound (ht : h.Typed c) : h.Sound c :=
  ⟨ht.closed, fun o ho _ _ _ _ => ht.types o ho, ht.slots, ht.cells⟩

/-- The empty heap is typed by the built-in types. -/
theorem standard (ids : Supply) : ({} : Heap).Typed (Catalog.standard ids).1 where
  closed := ⟨fun o v hv => absurd (has_of_mem_slotsAt hv) (Nat.not_lt_zero _),
    fun k => by simp [readCell, Reaches]⟩
  types _ ho := absurd ho (Nat.not_lt_zero _)
  slots _ ho := absurd ho (Nat.not_lt_zero _)
  cells := Catalog.forall_mem_standard fun _ _ _ _ _ f hf => absurd hf List.not_mem_nil
  defaults := Catalog.forall_mem_standard fun _ _ _ _ _ v hv => absurd hv List.not_mem_nil

/-- **Copies are of types that were there before.** -/
theorem copies (ht : h.Typed c) (hk : h.Copies h₁) : h₁.Typed c where
  closed := hk.closed ht.closed
  types o ho := by
    obtain ⟨p, hp, htype, -⟩ := hk.exists_like ho
    exact htype ▸ ht.types p hp
  slots o ho := by
    obtain ⟨p, hp, htype, hlen⟩ := hk.exists_like ho
    rw [htype, hlen, ht.slots p hp]
  cells := by
    rw [hk.cells_eq]
    exact ht.cells
  defaults t hmem v hv := hk.keeps.reaches (ht.defaults t hmem v hv)

/-- **A new instance** of a type of the catalog. -/
theorem alloc (ht : h.Typed c) {t : TypeDef} (hmem : t ∈ c.types) {vs : List Value}
    (hlen : vs.length = t.layout.length) (hvs : ∀ v ∈ vs, h.Reaches v) :
    (h.alloc ⟨t, vs⟩).2.Typed c := by
  have hg := grows_alloc h ⟨t, vs⟩
  refine ⟨ht.closed.alloc hvs, ?_, ?_, ht.cells, ?_⟩
  · intro o ho
    rcases alloc_cases ho with ho | ⟨-, hnew⟩
    · rw [hg.typeAt_eq ho]
      exact ht.types o ho
    · rw [typeAt, hnew]
      exact hmem
  · intro o ho
    rcases alloc_cases ho with ho | ⟨-, hnew⟩
    · rw [hg.typeAt_eq ho, hg.slotsAt_eq ho]
      exact ht.slots o ho
    · rw [typeAt, slotsAt, hnew]
      exact hlen
  · exact fun u hu v hv => hg.keeps.reaches (ht.defaults u hu v hv)

/-- **A write** of something that does not dangle. -/
theorem writes (ht : h.Typed c) (hw : h.Overwrites h₁ l v) (hv : h.Reaches v) : h₁.Typed c := by
  refine ⟨hw.closed ht.closed hv, ?_, ?_, ?_, ?_⟩
  · intro o ho
    have hold := hw.has_iff.1 ho
    rw [hw.keeps.typeAt_eq o hold]
    exact ht.types o hold
  · intro o ho
    have hold := hw.has_iff.1 ho
    rw [hw.keeps.typeAt_eq o hold, hw.lengths o hold]
    exact ht.slots o hold
  · rw [hw.cells_size]
    exact ht.cells
  · exact fun t hmem w hw' => hw.keeps.reaches (ht.defaults t hmem w hw')

end Typed

end Heap

namespace Catalog

variable {c : Catalog} {ids : Supply} {t u : TypeDef} {f : Field}

/-- Types are found under their handles. -/
theorem WellFormed.find?_eq (hc : c.WellFormed ids) (ht : t ∈ c.types) :
    c.find? t.handle = some t := by
  have hsome : (c.find? t.handle).isSome = true := by
    rw [find?, List.find?_isSome]
    exact ⟨t, ht, by simp⟩
  obtain ⟨u, hu⟩ := Option.isSome_iff_exists.1 hsome
  have hmem := List.mem_of_find?_eq_some hu
  rw [hu, hc.eq_of_handle hmem ht (handle_of_find? hu)]

/-- **A field of a built catalog** is declared by one of its types, under
whose handle that type is found. -/
theorem WellFormed.exists_declaring (hc : c.WellFormed ids) (ht : t ∈ c.types)
    (hf : f ∈ t.allFields) :
    ∃ u ∈ c.types, f ∈ u.fields ∧ u.handle = f.declaringType ∧ u.handle.isBuiltin = false ∧
      c.find? f.declaringType = some u := by
  obtain ⟨u, hu, hfu⟩ := hc.fields t ht f hf
  obtain ⟨hdeclaring, -, hbuiltin⟩ := hc.declares u hu f hfu
  exact ⟨u, hu, hfu, hdeclaring.symm, hbuiltin, hdeclaring ▸ hc.find?_eq hu⟩

/-- **The slot of a field is there** in everything that is a kind of its
declaring type. -/
theorem WellFormed.slot_lt (hc : c.WellFormed ids) {h : Heap} (hs : h.Sound c) (hu : u ∈ c.types)
    (hf : f ∈ u.fields) {i : Nat} (hi : f.storage = .slot i) {o : ObjectRef}
    (ho : f.declaringType ∈ (h.typeAt o).ancestors) :
    (h.typeAt o).layout[i]? = some f ∧ i < (h.slotsAt o).length := by
  obtain ⟨hdeclaring, -, hbuiltin⟩ := hc.declares u hu f hf
  -- a reference to nothing reads as of a built-in type, which declares no field
  have hhas : h.Has o := by
    by_contra hnot
    rw [Heap.typeAt, Heap.instanceAt_of_not_has hnot] at ho
    rw [← hdeclaring, List.mem_singleton.1 ho] at hbuiltin
    cases hbuiltin
  have htype := hs.types o hhas u hu hbuiltin (hdeclaring ▸ ho)
  have hlayout := hc.slots u hu f hf i (by rw [Field.slot?, hi]) _ htype ho
  refine ⟨hlayout, ?_⟩
  rw [hs.slots o hhas]
  exact (List.getElem?_eq_some_iff.1 hlayout).1

/-- **What passes for a struct is a box.** -/
theorem WellFormed.isBox_of_struct (hc : c.WellFormed ids) {h : Heap} (hs : h.Sound c)
    (ht : t ∈ c.types) (hkind : t.kind = .structType) {v : Value} (hr : h.Reaches v)
    (hv : h.isInstance v t.handle = true) : h.isBox v = true := by
  have hbuiltin := hc.structs t ht hkind
  obtain ⟨o, rfl, ho⟩ := Heap.exists_object_of_isInstance hbuiltin hv
  have htype := hs.types o (hr o rfl) t ht hbuiltin ho
  have hvalue : t.isValueType = true := by rw [TypeDef.isValueType, hkind]; rfl
  rw [Heap.isBox_object, hc.values t ht hvalue _ htype ho]
  exact hvalue

end Catalog

namespace Sample

theorem has_desk {o : ObjectRef} (ho : desk.Has o) : o = ⟨0⟩ ∨ o = ⟨1⟩ := by
  obtain ⟨i⟩ := o
  have hlt : i < 2 := ho
  have hi : i = 0 ∨ i = 1 := by omega
  rcases hi with rfl | rfl
  · exact .inl rfl
  · exact .inr rfl

theorem desk_sound : desk.Sound registry.toCatalog where
  closed := by
    refine ⟨fun o v hv => ?_, fun k => by simp [desk, Heap.readCell, Heap.Reaches]⟩
    rcases has_desk (Heap.has_of_mem_slotsAt hv) with rfl | rfl
    · obtain rfl := List.mem_singleton.1 hv
      intro p hp
      cases hp
    · obtain rfl := List.mem_singleton.1 hv
      intro p hp
      cases hp
      exact Nat.zero_lt_two
  types o ho _ _ _ _ := by
    rcases has_desk ho with rfl | rfl
    · decide
    · decide
  slots o ho := by
    rcases has_desk ho with rfl | rfl
    · rfl
    · rfl
  cells t ht f hf k hk := by
    have hslots : ∀ t ∈ registry.types, ∀ f ∈ t.fields, f.isStatic = false := by decide
    have hstatic := hslots t ht f hf
    rw [Field.isStatic, hk] at hstatic
    cases hstatic

theorem desk_acyclic : desk.Acyclic := by
  refine Heap.acyclic_of_older fun o p hp => ?_
  rcases has_desk (Heap.has_of_mem_slotsAt hp) with rfl | rfl
  · cases List.mem_singleton.1 hp
  · cases List.mem_singleton.1 hp
    decide

end Sample

end MemberAccess
