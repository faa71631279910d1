import MemberAccess.Proofs.Ownership.Orderly
/-!
# Ownership — definitions keep a heap orderly

A definition touches the heap for the initial values of fields alone. Those
are copies of what it is given or new zeros, so defaults and static cells
share nothing with anybody (`Orderly.define`), whether the definition succeeds
or is rejected halfway.
-/

namespace MemberAccess

namespace Heap

variable {c₀ c : Catalog} {ids : Supply} {h h₁ h' : Heap} {P : ObjectRef → Prop} {v : Value}
  {d : TypeDefinition} {dr dr' : Draft} {f : FieldDefinition}

/-- A new cell leaves everything where it was. -/
theorem changesOnly_allocCell (h : Heap) (v : Value) (L : Location → Prop) :
    h.ChangesOnly (h.allocCell v).2 L where
  others l _ hsome := by
    cases l with
    | slot o i => rfl
    | cell k =>
      have hlt : k.index < h.cells.size := by simpa [at?] using hsome
      have hne : k.index ≠ h.cells.size := Nat.ne_of_lt hlt
      simp [at?, allocCell, Array.getElem?_push, hne]
  lengths _ _ := rfl
  keeps := ⟨Nat.le_refl _, fun _ _ => rfl, by simp [allocCell]⟩

theorem readCell_allocCell (h : Heap) (v : Value) (k : CellRef) :
    (h.allocCell v).2.readCell k = if k.index = h.cells.size then v else h.readCell k := by
  simp only [readCell, allocCell, Array.getD_eq_getD_getElem?, Array.getElem?_push]
  split <;> rfl

/-- A new cell does not dangle where its value does not. -/
theorem Closed.allocCell (hc : h.Closed) (hv : h.Reaches v) : (h.allocCell v).2.Closed where
  slots := hc.slots
  cells k := by
    rw [readCell_allocCell]
    split
    · exact hv
    · exact hc.cells k

namespace Orderly

/-- **A new cell** for a free value. -/
theorem allocCell (ho : h.Orderly c₀ c P) (hv : h.Free P v) :
    (h.allocCell v).2.Orderly c₀ c P := by
  have hsize : h.cells.size ≤ (h.allocCell v).2.cells.size := by simp [Heap.allocCell]
  refine ⟨⟨ho.closed.allocCell hv.reaches, ho.typed.types, ho.typed.slots, ?_, ho.typed.defaults⟩,
    ⟨ho.owned.box, ho.owned.nested, ho.owned.slots, fun k => ?_⟩⟩
  · exact fun t ht f hf k hk => Nat.lt_of_lt_of_le (ho.typed.cells t ht f hf k hk) hsize
  · rw [readCell_allocCell]
    split
    · exact hv.suits
    · exact ho.owned.cells k

/-- **Initial values are free.** -/
theorem initialValue {out : Except DefinitionError Value} (ho : h.Orderly c₀ c P)
    (hc : c₀.WellFormed ids) (hf : ∀ v, f.initial = some v → h.Free P v)
    (hrun : (c₀.initialValue f).run h = some (out, h')) :
    ∃ P', h'.Orderly c₀ c P' ∧ h.Widens P P' ∧ h.Grows h' ∧ ∀ v, out = .ok v → h'.Free P' v := by
  rcases Catalog.initialValue_cases hrun with
    ⟨v, w, hinitial, hdetach, rfl⟩ | ⟨⟨e, rfl⟩, rfl⟩ | ⟨t, w, hfind, hz, rfl⟩
  · have hfree := hf v hinitial
    obtain ⟨cs, -, hplaced⟩ := placed_of_detach? ho.closed hfree.reaches hdetach
    -- a given value is copied, and nobody owns the copy
    refine ⟨P, ho.copies_outside hplaced.copies, .refl h P, hplaced.copies.toGrows, fun w' hw => ?_⟩
    cases hw
    exact hplaced.derived.free hfree ho.owned
  · refine ⟨P, ho, .refl h' P, .refl h', fun v hv => ?_⟩
    cases hv
  · have ht := List.mem_of_find?_eq_some hfind
    obtain ⟨P', ho', hwidens, hgrows, hfree⟩ := ho.zeroOf ht (hc.defaults t ht) hz
    refine ⟨P', ho', hwidens, hgrows, fun w' hw => ?_⟩
    cases hw
    exact hfree

end Orderly

/-- **A heap on which a type is being defined**: orderly, with all that was
there before unchanged, and with whatever the draft refers to. -/
structure Hosts (c₀ c : Catalog) (P : ObjectRef → Prop) (h : Heap) (h' : Heap) (dr : Draft) :
    Prop where
  orderly : ∃ P', h'.Orderly c₀ c P' ∧ h.Widens P P'
  changes : h.ChangesOnly h' fun _ => False
  defaults : ∀ v ∈ dr.type.defaults, h'.Reaches v
  cells : ∀ f ∈ dr.type.fields, ∀ k, f.storage = .cell k → k.index < h'.cells.size

namespace Hosts

/-- A heap hosts what it hosted before it grew and got new cells. -/
theorem of_keeps {P' : ObjectRef → Prop} (hh : Hosts c₀ c P h h₁ dr) (ho : h'.Orderly c₀ c P')
    (hw : h.Widens P P') (hc : h₁.ChangesOnly h' fun _ => False) : Hosts c₀ c P h h' dr where
  orderly := ⟨P', ho, hw⟩
  changes := hh.changes.trans hc
  defaults v hv := hc.keeps.reaches (hh.defaults v hv)
  cells f hf k hk := Nat.lt_of_lt_of_le (hh.cells f hf k hk) hc.keeps.cells_le

/-- A new static field brings a cell with its initial value. -/
theorem append_static {P' : ObjectRef → Prop} (hh : Hosts c₀ c P h h₁ dr)
    (ho : h₁.Orderly c₀ c P') (hw : h.Widens P P') (hv : h₁.Free P' v) :
    Hosts c₀ c P h (h₁.allocCell v).2 dr ∧
      Hosts c₀ c P h (h₁.allocCell v).2 (dr.appendField f v (some (h₁.allocCell v).1)) := by
  have hh' := hh.of_keeps (ho.allocCell hv) hw (changesOnly_allocCell h₁ v _)
  refine ⟨hh', { hh' with cells := fun g hg k hk => ?_ }⟩
  rcases mem_concat_cases hg with hg | rfl
  · exact hh'.cells g hg k hk
  · cases hk
    simp [Heap.allocCell]

/-- A new instance field brings its initial value as a default. -/
theorem append_instance (hh : Hosts c₀ c P h h₁ dr) (hv : h₁.Reaches v) :
    Hosts c₀ c P h h₁ (dr.appendField f v none) := by
  exact
    { hh with
      defaults := forall_mem_concat hh.defaults hv
      cells := forall_mem_concat hh.cells nofun }

/-- **One field**, added or rejected. -/
theorem addField {out : Except DefinitionError Draft} (hh : Hosts c₀ c P h h₁ dr)
    (hc : c₀.WellFormed ids) (hf : ∀ v, f.initial = some v → h.Free P v)
    (hrun : (c₀.addField d dr f).run h₁ = some (out, h')) :
    Hosts c₀ c P h h' dr ∧ ∀ dr', out = .ok dr' → Hosts c₀ c P h h' dr' := by
  obtain ⟨P₁, ho₁, hwidens₁⟩ := hh.orderly
  have hfree : ∀ v, f.initial = some v → h₁.Free P₁ v :=
    fun v hv => (hf v hv).widen hh.changes.keeps hwidens₁
  rcases Catalog.addField_cases hrun with
    ⟨⟨e, rfl⟩, rfl⟩ | ⟨e, e', rfl, hnone⟩ | ⟨v, h₂, hsome, hrest⟩
  · exact ⟨hh, nofun⟩
  · obtain ⟨P₂, ho₂, hwidens₂, hgrows, -⟩ := ho₁.initialValue hc hfree hnone
    exact ⟨hh.of_keeps ho₂ (hwidens₁.trans hh.changes.keeps hwidens₂) (hgrows.changesOnly _), nofun⟩
  · obtain ⟨P₂, ho₂, hwidens₂, hgrows, hv⟩ := ho₁.initialValue hc hfree hsome
    have hwidens := hwidens₁.trans hh.changes.keeps hwidens₂
    have hh₂ : Hosts c₀ c P h h₂ dr := hh.of_keeps ho₂ hwidens (hgrows.changesOnly _)
    split at hrest
    · obtain ⟨rfl, rfl⟩ := hrest
      obtain ⟨hh₃, happended⟩ := hh₂.append_static ho₂ hwidens (hv v rfl)
      refine ⟨hh₃, fun dr' hdr => ?_⟩
      cases hdr
      exact happended
    · obtain ⟨rfl, rfl⟩ := hrest
      refine ⟨hh₂, fun dr' hdr => ?_⟩
      cases hdr
      exact hh₂.append_instance (hv v rfl).reaches

/-- **All fields**, up to the first that is rejected. -/
theorem addFields {fs : List FieldDefinition} {out : Except DefinitionError Draft}
    (hh : Hosts c₀ c P h h₁ dr) (hc : c₀.WellFormed ids)
    (hfs : ∀ f ∈ fs, ∀ v, f.initial = some v → h.Free P v)
    (hrun : (fs.foldlM (c₀.addField d) dr).run h₁ = some (out, h')) :
    (∃ dr', Hosts c₀ c P h h' dr') ∧ ∀ dr', out = .ok dr' → Hosts c₀ c P h h' dr' := by
  refine Exec.outcome_of_foldlM (I := fun dr h₁ => Hosts c₀ c P h h₁ dr)
    (E := fun h₁ => ∃ dr', Hosts c₀ c P h h₁ dr') (fun dr _ hh => ⟨dr, hh⟩)
    (fun f hf dr h₁ out h' hh hfield => ?_) hh hrun
  obtain ⟨hold, hnew⟩ := hh.addField hc (hfs f hf) hfield
  exact ⟨⟨dr, hold⟩, hnew⟩

end Hosts

namespace Orderly

/-- A finished type joins the catalog of a heap that hosts it. -/
theorem extend {t : TypeDef} (ho : h.Orderly c₀ c P) (hdefaults : ∀ v ∈ t.defaults, h.Reaches v)
    (hcells : ∀ f ∈ t.fields, ∀ k, f.storage = .cell k → k.index < h.cells.size) :
    h.Orderly ⟨c₀.types ++ [t]⟩ c P := by
  refine ⟨{ ho.typed with types := ?_, cells := ?_, defaults := ?_ }, ho.owned⟩
  · exact fun o hhas => List.mem_append_left _ (ho.typed.types o hhas)
  · exact forall_mem_concat ho.typed.cells hcells
  · exact forall_mem_concat ho.typed.defaults hdefaults

/-- **A definition keeps a heap orderly**, also when it is rejected, and
changes nothing that was there. -/
theorem define {out : Except DefinitionError Defined} {ids' : Supply} (ho : h.Orderly c₀ c P)
    (hc : c₀.WellFormed ids) (hd : ∀ f ∈ d.storedFields, ∀ v, f.initial = some v → h.Free P v)
    (hrun : (c₀.define d ids').run h = some (out, h')) :
    ∃ P', h'.Orderly c₀ c P' ∧ h.Widens P P' ∧ (h.ChangesOnly h' fun _ => False) ∧
      ∀ o, out = .ok o → c₀.types <+: o.catalog.types ∧ h'.Orderly o.catalog c P' := by
  rcases Catalog.define_cases hrun with
    ⟨⟨e, rfl⟩, rfl⟩ | ⟨base, is, t, out₁, hin, hfields, hok⟩
  · exact ⟨P, ho, .refl _ P, (Grows.refl _).changesOnly _, nofun⟩
  -- what is inherited has no fields of its own, and its defaults are the base's
  have hhosts : Hosts c₀ c P h h ⟨t, ids'.take.2⟩ := by
    obtain ⟨-, -, -, -, hnone, -⟩ := hin.head
    obtain ⟨-, -, hdefaults⟩ := hin.fields_eq
    refine ⟨⟨P, ho, .refl h P⟩, (Grows.refl h).changesOnly _, fun v hv => ?_, by simp [hnone]⟩
    cases hb : base with
    | none => simp [hdefaults, hb] at hv
    | some b =>
      rw [hdefaults, hb] at hv
      exact ho.typed.defaults b (hin.mem_base hb).2.1 v hv
  obtain ⟨⟨dr₀, hh₀⟩, hdr⟩ := hhosts.addFields hc hd hfields
  cases out with
  | error e =>
    obtain ⟨P', ho', hwidens⟩ := hh₀.orderly
    exact ⟨P', ho', hwidens, hh₀.changes, nofun⟩
  | ok o =>
    obtain ⟨dr, dr', rfl, hsteps, hcatalog⟩ := hok o rfl
    have hh := hdr dr rfl
    obtain ⟨P', ho', hwidens⟩ := hh.orderly
    -- members other than fields leave the layout as it is
    obtain ⟨hfieldsEq, -, hdefaultsEq⟩ := hsteps.storage_eq
    refine ⟨P', ho', hwidens, hh.changes, fun o' hout => ?_⟩
    cases hout
    rw [hcatalog]
    exact ⟨List.prefix_append _ _, ho'.extend (hdefaultsEq ▸ hh.defaults) (hfieldsEq ▸ hh.cells)⟩

end Orderly

end Heap

end MemberAccess
