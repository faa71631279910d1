import MemberAccess.Proofs.Catalog.Lineage
import MemberAccess.Proofs.Catalog.Contracts
/-!
# Catalog — layouts go on from the layouts of bases

Slots are numbered in the order in which instance fields are declared, those of
the base first, whatever static fields come in between. So a field in a layout
names the slot that it is in (`Layouts.numbered`), the layout of a base is where
the layout of a derived type starts (`Layouts.base_prefix`), and every instance
field of a type, declared or inherited, has the slot that it names to itself
(`Layouts.getElem?_of_slot`, `Layouts.eq_of_slot`).
-/

namespace MemberAccess

/-- An element of a list with one more is an element of the list, or that
one. -/
theorem getElem?_concat_cases {α : Type} {xs : List α} {x y : α} {i : Nat}
    (hy : (xs ++ [x])[i]? = some y) : xs[i]? = some y ∨ i = xs.length ∧ y = x := by
  rw [List.getElem?_append] at hy
  split at hy
  · exact .inl hy
  · rename_i hge
    rw [List.getElem?_singleton] at hy
    split at hy
    · cases hy
      exact .inr ⟨by omega, rfl⟩
    · cases hy

/-- **Each field of a layout names the slot that it is in.** -/
def TypeDef.Numbered (t : TypeDef) : Prop :=
  ∀ (i : Nat) (f : Field), t.layout[i]? = some f → f.storage = .slot i

namespace Draft

variable {d : TypeDefinition} {dr dr' : Draft}

/-- The field that a definition of one adds, given where it is stored. -/
def newField (dr : Draft) (f : FieldDefinition) (s : Storage) : Field where
  id := dr.nextId.1
  name := f.name
  declaringType := dr.type.handle
  type := f.type
  visibility := f.visibility
  storage := s

/-- An instance field goes to the end of the layout, its value to the end of
the defaults. -/
theorem appendField_instance (dr : Draft) (f : FieldDefinition) (initial : Value) :
    (dr.appendField f initial none).type = { dr.type with
      fields := dr.type.fields ++ [dr.newField f (.slot dr.type.layout.length)]
      layout := dr.type.layout ++ [dr.newField f (.slot dr.type.layout.length)]
      defaults := dr.type.defaults ++ [initial] } := rfl

/-- A new instance field is numbered by how many there are before it. -/
theorem numbered_appendField (hn : dr.type.Numbered) (f : FieldDefinition) (initial : Value)
    (cell : Option CellRef) : (dr.appendField f initial cell).type.Numbered := by
  cases cell with
  | some k => exact hn
  | none =>
    intro i g hg
    rw [appendField_instance] at hg
    rcases getElem?_concat_cases hg with hg | ⟨rfl, rfl⟩
    · exact hn i g hg
    · rfl

/-- **Steps keep a layout numbered.** -/
theorem numbered_of_steps (hs : Steps d dr dr') (hn : dr.type.Numbered) : dr'.type.Numbered := by
  refine chain_invariant (P := fun x => x.type.Numbered) (fun x y hs hx => ?_) hs hn
  cases hs with
  | field f initial cell hkind => exact numbered_appendField hx f initial cell
  | member hs =>
    have hlayout := (MemberSteps.storage_eq (.single hs)).2.1
    rwa [TypeDef.Numbered, hlayout]

end Draft

namespace Catalog

variable {c : Catalog} {ids : Supply} {t b : TypeDef} {f g : Field} {i : Nat}

/-- **What holds of the layouts of every built catalog.** -/
structure Layouts (c : Catalog) : Prop where
  numbered : ∀ t ∈ c.types, t.Numbered
  base_prefix : ∀ t ∈ c.types, ∀ b ∈ c.types, t.base = some b.handle → b.layout <+: t.layout
  /-- A type is a kind of whatever declares one of its fields. -/
  declaring : ∀ t ∈ c.types, ∀ f ∈ t.allFields, f.declaringType ∈ t.ancestors

/-- **A type joins** whose layout goes on from that of its base. -/
theorem Layouts.add (hl : c.Layouts) (hfresh : ∀ u ∈ c.types, u.handle ≠ t.handle)
    (hold : ∀ u ∈ c.types, ∀ h, u.base = some h → ∃ b ∈ c.types, b.handle = h)
    (hself : t.base ≠ some t.handle) (hn : t.Numbered)
    (hbase : ∀ b ∈ c.types, t.base = some b.handle → b.layout <+: t.layout)
    (hdeclaring : ∀ f ∈ t.allFields, f.declaringType ∈ t.ancestors) :
    Layouts ⟨c.types ++ [t]⟩ where
  numbered := forall_mem_concat hl.numbered hn
  base_prefix := by
    refine forall_mem_concat (fun u hu => forall_mem_concat (hl.base_prefix u hu) fun hub => ?_)
      (forall_mem_concat hbase fun hub => absurd hub hself)
    -- what an older type derives from is not the new one
    obtain ⟨v, hv, hhandle⟩ := hold u hu _ hub
    exact absurd hhandle (hfresh v hv)
  declaring := forall_mem_concat hl.declaring hdeclaring

/-- The built-in types have no fields. -/
theorem Layouts.standard (ids : Supply) : (standard ids).1.Layouts := by
  have hnone : ∀ t ∈ (Catalog.standard ids).1.types, t.layout = [] ∧ t.allFields = [] :=
    forall_mem_standard fun _ _ _ _ _ => ⟨rfl, rfl⟩
  refine ⟨fun t ht i f hf => ?_, fun t ht b hb _ => ?_, fun t ht f hf => ?_⟩
  · simp [(hnone t ht).1] at hf
  · rw [(hnone b hb).1]
    exact List.nil_prefix
  · simp [(hnone t ht).2] at hf

/-- **Every built catalog has its layouts in order.** -/
theorem Built.layouts (hb : c.Built ids) : c.Layouts := by
  induction hb with
  | standard ids h => exact .standard ids
  | @define c ids ids' d _ _ _ hc hids hrun ih =>
    obtain ⟨base, is, t, dr, hin, hsteps, hhandle, hcatalog, -⟩ := exists_of_define hrun
    obtain ⟨hinherited, hlayout, -⟩ := hin.fields_eq
    have hwf := hc.wellFormed
    have hfits := fits_of_define hwf hids hin hsteps
    have hx := hin.extends hwf hsteps
    have hbase : ∀ h, dr.type.base = some h →
        ∃ b ∈ c.types, b.handle = h ∧ base = some b := by
      intro h hh
      rw [hsteps.sameHead.base, hin.base_handle] at hh
      obtain ⟨b, hb, hbh⟩ := Option.map_eq_some_iff.1 hh
      exact ⟨b, (hin.mem_base hb).2.1, hbh, hb⟩
    rw [hcatalog]
    refine ih.add hfits.fresh (fun u hu h hh => hc.exists_base hu hh) ?_ ?_ ?_ ?_
    · intro hself
      obtain ⟨b, hb, hbh, -⟩ := hbase _ hself
      exact hfits.fresh b hb hbh
    · refine Draft.numbered_of_steps hsteps fun i f hf => ?_
      rw [hlayout] at hf
      cases hb : base with
      | none => simp [hb] at hf
      | some b =>
        rw [hb] at hf
        exact ih.numbered b (hin.mem_base hb).2.1 i f hf
    · intro b hb hdr
      obtain ⟨b', hb', hhandle', hbase'⟩ := hbase _ hdr
      obtain rfl := hwf.eq_of_handle hb' hb hhandle'
      have hgoesOn := hx.layout
      rwa [hlayout, hbase'] at hgoesOn
    · intro f hf
      rcases List.mem_append.1 hf with hf | hf
      · rw [(hfits.fields f hf).1]
        exact hfits.self
      · rw [hx.inheritedFields, hinherited] at hf
        cases hb : base with
        | none => simp [hb] at hf
        | some b =>
          rw [hb] at hf
          rw [hx.ancestors, hin.mem_ancestors]
          exact .inr (.inr ⟨b, hb, ih.declaring b (hin.mem_base hb).2.1 f hf⟩)

namespace Layouts

/-- **An instance field sits in the slot that it names**, declared or
inherited. -/
theorem getElem?_of_slot (hl : c.Layouts) (hc : c.WellFormed ids) (ht : t ∈ c.types)
    (hf : f ∈ t.allFields) (hi : f.storage = .slot i) : t.layout[i]? = some f := by
  obtain ⟨u, hu, hfu⟩ := hc.fields t ht f hf
  exact hc.slots u hu f hfu i (by rw [Field.slot?, hi]) t ht (hl.declaring t ht f hf)

/-- **No two fields of a type share a slot.** -/
theorem eq_of_slot (hl : c.Layouts) (hc : c.WellFormed ids) (ht : t ∈ c.types)
    (hf : t.layout[i]? = some f) (hg : g ∈ t.allFields) (hi : g.storage = .slot i) : g = f :=
  Option.some.inj ((hl.getElem?_of_slot hc ht hg hi).symm.trans hf)

end Layouts

end Catalog

end MemberAccess
