import MemberAccess.Proofs.Catalog.Layout
/-!
# Catalog — every field has a storage of its own

A new instance field takes the slot behind all others, a new static field a
cell behind all that are there. Cells are never given back, whatever else
happens to a heap between two definitions. So no two fields that a type
declares, hides or inherits are stored in one place
(`Catalog.BuiltOn.storesApart`).

`Catalog.BuiltOn` is `Catalog.Built` with the heap that the definitions have
laid cells out on.
-/

namespace MemberAccess

/-- **A field as it was defined**, wherever it is stored. -/
structure Field.DefinedBy (g : Field) (f : FieldDefinition) : Prop where
  name : g.name = f.name
  type : g.type = f.type
  visibility : g.visibility = f.visibility
  isStatic : g.isStatic = f.isStatic

/-- **No two fields of a type share a storage**: the next slot is not taken,
nor is any cell that is not there yet. -/
structure TypeDef.StoresApart (t : TypeDef) (h : Heap) : Prop where
  nodup : (t.allFields.map (·.storage)).Nodup
  slots : ∀ f ∈ t.allFields, ∀ i, f.storage = .slot i → i < t.layout.length
  cells : ∀ f ∈ t.allFields, ∀ k, f.storage = .cell k → k.index < h.cells.size

namespace TypeDef.StoresApart

variable {t : TypeDef} {h h' : Heap} {f g : Field}

theorem keeps (ht : t.StoresApart h) (hk : h.Keeps h') : t.StoresApart h' where
  nodup := ht.nodup
  slots := ht.slots
  cells f hf k hs := Nat.lt_of_lt_of_le (ht.cells f hf k hs) hk.cells_le

/-- A storage tells a field from the others. -/
theorem eq_of_storage (ht : t.StoresApart h) (hf : f ∈ t.allFields) (hg : g ∈ t.allFields)
    (heq : f.storage = g.storage) : f = g :=
  List.inj_on_of_nodup_map ht.nodup hf hg heq

/-- A type that inherits nothing but fields of its base stores them as its base
does. -/
theorem of_inherited {b : TypeDef} (hb : b.StoresApart h) (hfields : t.allFields = b.allFields)
    (hlayout : t.layout = b.layout) : t.StoresApart h where
  nodup := hfields ▸ hb.nodup
  slots := by
    rw [hfields, hlayout]
    exact hb.slots
  cells := hfields ▸ hb.cells

/-- A type without fields. -/
theorem of_no_fields (hnone : t.allFields = []) : t.StoresApart h where
  nodup := by simp [hnone]
  slots := by simp [hnone]
  cells := by simp [hnone]

/-- **A field joins** whose storage no other field has. -/
theorem append (ht : t.StoresApart h) {t' : TypeDef} (hown : t'.fields = t.fields ++ [g])
    (hinherited : t'.inheritedFields = t.inheritedFields)
    (hnew : ∀ f ∈ t.allFields, f.storage ≠ g.storage) (hlayout : t.layout <+: t'.layout)
    (hslot : ∀ i, g.storage = .slot i → i < t'.layout.length) (hk : h.Keeps h')
    (hcell : ∀ k, g.storage = .cell k → k.index < h'.cells.size) : t'.StoresApart h' := by
  have hmem : ∀ f, f ∈ t'.allFields ↔ f = g ∨ f ∈ t.allFields := by
    intro f
    simp only [allFields, hown, hinherited, List.mem_append, List.mem_singleton]
    tauto
  have hkept := ht.keeps hk
  refine ⟨?_, fun f hf i hi => ?_, fun f hf k hs => ?_⟩
  · have hfresh : g.storage ∉ t.allFields.map (·.storage) := by
      simpa using hnew
    have hnodup := List.nodup_cons.2 ⟨hfresh, ht.nodup⟩
    simpa only [allFields, hown, hinherited, List.map_append, List.map_cons, List.map_nil,
      List.append_assoc, List.singleton_append, List.nodup_middle] using hnodup
  · rcases (hmem f).1 hf with rfl | hf
    · exact hslot i hi
    · exact Nat.lt_of_lt_of_le (ht.slots f hf i hi) hlayout.length_le
  · rcases (hmem f).1 hf with rfl | hf
    · exact hcell k hs
    · exact hkept.cells f hf k hs

end TypeDef.StoresApart

/-! ## Definitions store fields apart -/

namespace Draft

/-- **Only fields add to the fields of a type**, and nothing makes it an
interface. -/
theorem MemberSteps.allFields_eq {dr dr' : Draft} (hs : MemberSteps dr dr') :
    dr'.type.allFields = dr.type.allFields ∧ dr'.type.isInterface = dr.type.isInterface := by
  have hhead := hs.sameHead
  exact ⟨by rw [TypeDef.allFields, TypeDef.allFields, hs.storage_eq.1, hhead.inheritedFields],
    by rw [TypeDef.isInterface, TypeDef.isInterface, hhead.kind]⟩

end Draft

namespace Catalog

variable {c : Catalog} {d : TypeDefinition} {ids : Supply} {h h' : Heap} {o : Defined}
  {dr dr' : Draft} {t : TypeDef}

/-- An initial value is made without touching what is there. -/
theorem grows_of_initialValue {f : FieldDefinition} {v : Value}
    (hrun : (c.initialValue f).run h = some (.ok v, h')) : h.Grows h' := by
  rcases initialValue_cases hrun with
    ⟨u, w, -, hdetach, -⟩ | ⟨⟨e, herror⟩, -⟩ | ⟨t, w, -, hzero, -⟩
  · exact Heap.grows_detach? hdetach
  · cases herror
  · exact Heap.grows_zeroOf? hzero

/-- **A field that is added** is stored apart from all others. -/
theorem storesApart_of_addField {f : FieldDefinition} (ha : dr.type.StoresApart h)
    (hrun : (c.addField d dr f).run h = some (.ok dr', h')) :
    dr'.type.StoresApart h' ∧ h.Keeps h' ∧
      ∃ g, dr'.type.fields = dr.type.fields ++ [g] ∧ g.DefinedBy f := by
  obtain ⟨-, v, h₁, hv, hrest⟩ := addField_eq_ok hrun
  have hk := (grows_of_initialValue hv).keeps
  cases hs : f.isStatic with
  | true =>
    rw [hs, if_pos rfl] at hrest
    obtain ⟨rfl, rfl⟩ := hrest
    have hsize : (h₁.allocCell v).2.cells.size = h₁.cells.size + 1 := Array.size_push v
    have hk' : h₁.Keeps (h₁.allocCell v).2 :=
      ⟨Nat.le_refl _, fun _ _ => rfl, hsize ▸ Nat.le_succ _⟩
    -- the cell is the first that was not there
    refine ⟨ha.append (g := dr.newField f (.cell ⟨h₁.cells.size⟩)) rfl rfl ?_ (List.prefix_refl _)
      nofun (hk.trans hk') ?_, hk.trans hk', _, rfl, rfl, rfl, rfl, hs.symm⟩
    · intro g hg heq
      exact Nat.lt_irrefl _ ((ha.keeps hk).cells g hg _ heq)
    · intro k hcell
      cases hcell
      exact hsize ▸ Nat.lt_succ_self _
  | false =>
    rw [hs, if_neg Bool.false_ne_true] at hrest
    obtain ⟨rfl, rfl⟩ := hrest
    refine ⟨ha.append (g := dr.newField f (.slot dr.type.layout.length)) rfl rfl ?_
      (List.prefix_append _ _) ?_ hk nofun, hk, _, rfl, rfl, rfl, rfl, hs.symm⟩
    · intro g hg heq
      exact Nat.lt_irrefl _ (ha.slots g hg _ heq)
    · intro i hslot
      cases hslot
      simp [Draft.appendField_instance]

/-- **The fields of a definition** become fields of the type, in their order. -/
theorem storesApart_of_addFields {fs : List FieldDefinition} (ha : dr.type.StoresApart h)
    (hrun : (fs.foldlM (c.addField d) dr).run h = some (.ok dr', h')) :
    (dr'.type.StoresApart h' ∧ h.Keeps h') ∧
      ∃ gs, dr'.type.fields = dr.type.fields ++ gs ∧
        List.Forall₂ (fun f g => g.DefinedBy f) fs gs := by
  refine Exec.forall₂_of_foldlM (I := fun x h₁ => x.type.StoresApart h₁ ∧ h.Keeps h₁)
    (fun x => x.type.fields) (fun x f h₁ y h₂ hx hf => ?_) ⟨ha, .refl h⟩ hrun
  obtain ⟨hy, hk, hnew⟩ := storesApart_of_addField hx.1 hf
  exact ⟨⟨hy, hx.2.trans hk⟩, hnew⟩

/-! ## Catalogs and the heaps they were built on -/

/-- **A catalog that definitions have led to, and the heap after them.** In
between anything may happen to the heap that keeps its objects and cells. -/
inductive BuiltOn : Catalog → Supply → Heap → Prop
  | standard (ids : Supply) (hids : TypeHandle.firstUser ≤ ids.next) (h : Heap) :
      BuiltOn (standard ids).1 (standard ids).2 h
  | define {c : Catalog} {ids ids' : Supply} {d : TypeDefinition} {h₀ h h' : Heap} {o : Defined}
      (hc : BuiltOn c ids h₀) (hids : ids.next ≤ ids'.next) (hk : h₀.Keeps h)
      (hrun : (c.define d ids').run h = some (.ok o, h')) : BuiltOn o.catalog o.supply h'

theorem BuiltOn.built (hb : c.BuiltOn ids h) : c.Built ids := by
  induction hb with
  | standard ids hids => exact .standard ids hids
  | define _ hids _ hrun ih => exact .define ih hids hrun

/-- **A definition stores the fields of its type apart**, if the types that it
can inherit from do so. -/
theorem storesApart_of_define (hold : ∀ t ∈ c.types, t.StoresApart h)
    (hrun : (c.define d ids).run h = some (.ok o, h')) :
    h.Keeps h' ∧ ∃ t, o.catalog.types = c.types ++ [t] ∧ t.StoresApart h' ∧
      List.Forall₂ (fun f g => g.DefinedBy f) d.storedFields t.fields := by
  obtain ⟨t, dr, dr', -, hinherit, hfields, hmembers, rfl⟩ := define_eq_ok hrun
  obtain ⟨base, is, hin⟩ := inherits_of_inherit hinherit
  obtain ⟨-, -, -, -, hnone, -⟩ := hin.head
  obtain ⟨hinherited, hlayout, -⟩ := hin.fields_eq
  have hstart : (Draft.mk t ⟨ids.next + 1⟩).type.StoresApart h := by
    cases hbase : base with
    | none => exact .of_no_fields (by simp [TypeDef.allFields, hnone, hinherited, hbase])
    | some b =>
      refine .of_inherited (hold b (hin.mem_base hbase).2.1) ?_ (by simp [hlayout, hbase])
      simp [TypeDef.allFields, hnone, hinherited, hbase]
  obtain ⟨⟨hapart, hk⟩, gs, hgs, hdefined⟩ := storesApart_of_addFields hstart hfields
  have hsteps := Draft.steps_of_addMembers hmembers
  obtain ⟨hown, hsame, -⟩ := hsteps.storage_eq
  refine ⟨hk, dr'.type, rfl, hapart.of_inherited hsteps.allFields_eq.1 hsame, ?_⟩
  rw [hown, hgs, hnone]
  exact hdefined

/-- **Every type stores its fields apart.** -/
theorem BuiltOn.storesApart (hb : c.BuiltOn ids h) : ∀ t ∈ c.types, t.StoresApart h := by
  induction hb with
  | standard ids hids h => exact forall_mem_standard fun _ _ _ _ _ => .of_no_fields rfl
  | define _ hids hk hrun ih =>
    have hold := fun t ht => (ih t ht).keeps hk
    obtain ⟨hk', t, htypes, hapart, -⟩ := storesApart_of_define hold hrun
    rw [htypes]
    exact forall_mem_concat (fun u hu => (hold u hu).keeps hk') hapart

end Catalog

end MemberAccess
