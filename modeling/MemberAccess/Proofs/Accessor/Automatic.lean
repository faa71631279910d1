import MemberAccess.Proofs.Accessor.Backing
import MemberAccess.Proofs.Catalog.Kept
/-!
# Accessor — properties that are kept for their type

A property that no field is named for is kept in a hidden field, one for each.
The hidden field is found again by its name, among the fields that are declared
and those that are hidden, so the property has it to itself as long as its name
is not given away: a declared field may have it, another property may be named
alike, and yet another may be kept in it by name
(`TypeDefinition.LeavesName`). Where that is so, no field and no property shares
the storage, and what is written there is seen nowhere else
(`Catalog.BuiltOn.kept_alone`). Nothing ensures it
(`Sample.valve_not_kept_alone`).
-/

namespace MemberAccess

/-! ## Writing one storage and reading another -/

namespace Heap

variable {h h' : Heap} {l : Location} {v : Value}

namespace Overwrites

/-- Another cell reads as before. -/
theorem readCell_eq (hw : h.Overwrites h' l v) {k : CellRef} (hne : l ≠ .cell k) :
    h'.readCell k = h.readCell k := by
  by_cases hk : k.index < h.cells.size
  · have hsome := at?_cell hk
    have hsame := hw.others (.cell k) hne.symm (by simp [hsome])
    exact readCell_of_at? (hsame.trans hsome)
  · have hk' : h'.cells.size ≤ k.index := hw.cells_size ▸ Nat.le_of_not_lt hk
    rw [readCell_eq_null hk', readCell_eq_null (Nat.le_of_not_lt hk)]

theorem length_slotsAt (hw : h.Overwrites h' l v) (o : ObjectRef) :
    (h'.slotsAt o).length = (h.slotsAt o).length := by
  by_cases ho : h.Has o
  · exact hw.lengths o ho
  · rw [slotsAt_of_not_has ho, slotsAt_of_not_has fun ho' => ho (hw.has_iff.1 ho')]

/-- Another slot is loaded as before, also where there is none. -/
theorem load_eq (hw : h.Overwrites h' l v) {o : ObjectRef} {i : Nat} (hne : l ≠ .slot o i) :
    h'.load o i = h.load o i := by
  have hlength := hw.length_slotsAt o
  have hslot : (h'.slotsAt o)[i]? = (h.slotsAt o)[i]? := by
    by_cases hi : i < (h.slotsAt o).length
    · exact hw.others (.slot o i) hne.symm (by simpa [at?] using hi)
    · rw [List.getElem?_eq_none (by omega), List.getElem?_eq_none (by omega)]
  rw [load, load, hslot, hlength]

end Overwrites

end Heap

/-- **One body spares another**: whatever either is run on, the second gives
after the first what it gives before, and changes nothing. -/
def MemberBody.Spares (b b' : MemberBody) : Prop :=
  ∀ (natives : Natives) (inv inv' : Invocation) (h h' : Heap) (out : Except RuntimeFault Value),
    (b.run natives inv).run h = some (out, h') →
    ∃ x, (b'.run natives inv').run h = some (x, h) ∧ (b'.run natives inv').run h' = some (x, h')

namespace Storage

variable {s s' : Storage} {natives : Natives} {inv : Invocation} {h h' : Heap}

/-- **What a writer does to a heap**: nothing, or one write to its location. -/
theorem writer_overwrites {out : Except RuntimeFault Value}
    (hrun : (s.writer.run natives inv).run h = some (out, h')) :
    h' = h ∨ ∃ l v, s.location? inv.this = some l ∧ h.Overwrites h' l v := by
  by_cases hcell : ∀ k, s = .cell k → k.index < h.cells.size
  · rcases writer_cases hcell hrun with ⟨-, rfl⟩ | ⟨l, v, hl, -, hw⟩
    · exact .inl rfl
    · exact .inr ⟨l, v, hl, hw⟩
  · -- a cell that is not there is not written either
    obtain ⟨k, hnot⟩ := not_forall.1 hcell
    obtain ⟨rfl, hk⟩ := Classical.not_imp.1 hnot
    rcases Exec.run_bind_cases hrun with ⟨e, hv, rfl⟩ | ⟨v, h₁, hv, hwrite⟩
    · exact .inl (Exec.run_ofExcept_eq.1 hv).2.symm
    · obtain ⟨-, rfl⟩ := Exec.run_ofExcept_eq.1 hv
      cases hwrite
      left
      rw [Heap.writeCell, Array.setIfInBounds_eq_of_size_le (Nat.le_of_not_lt hk)]

/-- Two storages have no location in common, on whatever objects. -/
theorem location?_ne (hne : s ≠ s') {this : Option ObjectRef} {l : Location}
    (hl : s.location? this = some l) (this' : Option ObjectRef) :
    s'.location? this' ≠ some l := by
  intro hl'
  cases s with
  | cell k =>
    cases hl
    cases s' with
    | cell k' =>
      cases hl'
      exact hne rfl
    | slot i =>
      obtain ⟨o, -, hslot⟩ := Option.map_eq_some_iff.1 hl'
      cases hslot
  | slot i =>
    obtain ⟨o, -, rfl⟩ := Option.map_eq_some_iff.1 hl
    cases s' with
    | cell k => cases hl'
    | slot j =>
      obtain ⟨o', -, hslot⟩ := Option.map_eq_some_iff.1 hl'
      cases hslot
      exact hne rfl

/-- **Writing one storage spares the reading of any other.** -/
theorem spares_of_ne (hne : s ≠ s') : s.writer.Spares s'.reader := by
  intro natives inv inv' h h' out hrun
  have hothers := writer_overwrites hrun
  cases s' with
  | cell k =>
    refine ⟨.ok (h.readCell k), rfl, ?_⟩
    show some (Except.ok (h'.readCell k), h') = some (Except.ok (h.readCell k), h')
    rcases hothers with rfl | ⟨l, v, hl, hw⟩
    · rfl
    · have hl' := location?_ne hne hl none
      rw [hw.readCell_eq fun heq => hl' (by rw [heq]; rfl)]
  | slot i =>
    cases hthis : inv'.this with
    | none =>
      have hnull : ∀ h₁ : Heap, ((Storage.slot i).reader.run natives inv').run h₁ =
          some (.error .nullReference, h₁) := by
        intro h₁
        simp [reader, MemberBody.run, Invocation.receiver, hthis]
      exact ⟨_, hnull h, hnull h'⟩
    | some o =>
      have hload : ∀ h₁ : Heap, ((Storage.slot i).reader.run natives inv').run h₁ =
          some (h₁.load o i, h₁) := by
        intro h₁
        simp [reader, MemberBody.run, Invocation.receiver, hthis, Exec.load]
      refine ⟨_, hload h, ?_⟩
      rw [hload]
      rcases hothers with rfl | ⟨l, v, hl, hw⟩
      · rfl
      · have hl' := location?_ne hne hl (some o)
        rw [hw.load_eq fun heq => hl' (by rw [heq]; rfl)]

end Storage

/-! ## Hidden fields -/

open PropertyDefinition (hiddenName)

/-- Hidden names tell properties apart. -/
theorem PropertyDefinition.hiddenName_inj {a b : String} (h : hiddenName a = hiddenName b) :
    a = b := by
  have hlists := congrArg String.toList h
  exact String.toList_inj.1 (by simpa [hiddenName] using hlists)

/-- **A definition leaves its hidden name to a property**: no declared field
has it, no other property hides a field under it, and none is kept in it by
name. -/
structure TypeDefinition.LeavesName (d : TypeDefinition) (i : Nat) (q : PropertyDefinition) :
    Prop where
  fields : ∀ f ∈ d.fields, f.name ≠ hiddenName q.name
  hidden : ∀ q' ∈ d.properties.eraseIdx i, q'.backing = .auto → q'.name ≠ q.name
  named : ∀ q' ∈ d.properties.eraseIdx i, q'.backing ≠ .field (hiddenName q.name)

/-- **A property is kept in a field alone**: in the hidden one that is defined
for it, which nothing else of the type is kept in. -/
structure TypeDef.KeepsAlone (t : TypeDef) (d : TypeDefinition) (i : Nat) (q : PropertyDefinition)
    (p : Property) (f : Field) : Prop where
  /-- The field comes after those that are declared. -/
  hidden : f ∈ t.fields.drop d.fields.length
  definedBy : f.DefinedBy q.hiddenField
  isStatic : ∀ m, p.getter = some m ∨ p.setter = some m → m.isStatic = f.isStatic
  getter : ∀ a, q.getter = some a → a.body = .generated →
    ∃ m, p.getter = some m ∧ m.body = some f.storage.reader
  setter : ∀ a, q.setter = some a → a.body = .generated →
    ∃ m, p.setter = some m ∧ m.body = some f.storage.writer
  uses : ∀ s, p.Uses s → s = f.storage
  /-- No two fields, declared, hidden or inherited, are stored in one place. -/
  fields : (t.allFields.map (·.storage)).Nodup
  properties : ∀ p' ∈ t.allProperties.eraseIdx i, ¬ p'.Uses f.storage
  spares : ∀ g ∈ t.allFields, g ≠ f → f.storage.writer.Spares g.storage.reader
  sparesProperties : ∀ p' ∈ t.allProperties.eraseIdx i, ∀ m, p'.getter = some m →
    ∀ s : Storage, m.body = some s.reader → f.storage.writer.Spares s.reader

namespace TypeDefinition.LeavesName

variable {d : TypeDefinition} {i : Nat} {q q' : PropertyDefinition} {t : TypeDef}

/-- No other property goes by the hidden name. -/
theorem fieldName?_ne (hn : d.LeavesName i q) (hq : q' ∈ d.properties.eraseIdx i) :
    q'.fieldName? ≠ some (hiddenName q.name) := by
  unfold PropertyDefinition.fieldName?
  cases hbacking : q'.backing with
  | none => exact nofun
  | auto =>
    intro hname
    exact hn.hidden q' hq hbacking (PropertyDefinition.hiddenName_inj (Option.some.inj hname))
  | field name =>
    intro hname
    exact hn.named q' hq (hbacking.trans (congrArg _ (Option.some.inj hname)))

/-- **What goes by the hidden name is the hidden field**: it is behind the
declared ones, and it is what was defined for the property. -/
theorem exists_hidden (hn : d.LeavesName i q) (hkind : d.kind ≠ .interfaceType)
    (hq : d.properties[i]? = some q) (hauto : q.backing = .auto)
    (hdefined : List.Forall₂ (fun f g => g.DefinedBy f) d.storedFields t.fields) :
    ∃ f ∈ t.fields.drop d.fields.length, f.DefinedBy q.hiddenField ∧
      t.field? (hiddenName q.name) = some f := by
  have hmem : q ∈ d.properties := List.mem_of_getElem? hq
  have hstored : d.storedFields =
      d.fields ++ (d.properties.filter (·.backing = .auto)).map (·.hiddenField) := by
    rw [storedFields, if_neg hkind]
  -- there is a field of that name, and the first is found
  obtain ⟨f₀, hf₀, hdefined₀⟩ : ∃ f ∈ t.fields, f.DefinedBy q.hiddenField := by
    refine exists_image hdefined ?_
    rw [hstored]
    exact List.mem_append_right _ (List.mem_map_of_mem (by simp [hmem, hauto]))
  obtain ⟨f, hfind⟩ : ∃ f, t.fields.find? (·.name == hiddenName q.name) = some f := by
    have hname₀ : f₀.name = hiddenName q.name := hdefined₀.name
    exact Option.isSome_iff_exists.1 (List.find?_isSome.2 ⟨f₀, hf₀, by simpa using hname₀⟩)
  have hf := List.mem_of_find?_eq_some hfind
  have hname : f.name = hiddenName q.name := by simpa using List.find?_some hfind
  refine ⟨f, ?_, ?_, by rw [TypeDef.field?, TypeDef.allFields, List.find?_append, hfind]; rfl⟩
  · -- no declared field has the name
    rw [← List.take_append_drop d.fields.length t.fields] at hf
    refine (List.mem_append.1 hf).resolve_left fun htake => ?_
    have hdeclared := List.forall₂_take d.fields.length hdefined
    rw [hstored, List.take_left] at hdeclared
    obtain ⟨g, hg, hfg⟩ := exists_partner hdeclared htake
    exact hn.fields g hg (hfg.name.symm.trans hname)
  · obtain ⟨g, hg, hfg⟩ := exists_partner hdefined hf
    rw [hstored] at hg
    rcases List.mem_append.1 hg with hg | hg
    · exact absurd (hfg.name.symm.trans hname) (hn.fields g hg)
    · obtain ⟨q', hq', rfl⟩ := List.mem_map.1 hg
      obtain ⟨hmem', hauto'⟩ := List.mem_filter.1 hq'
      -- the property that the field was hidden for is no other
      obtain ⟨j, hj⟩ := List.getElem?_of_mem hmem'
      have hsame : q'.name = q.name :=
        PropertyDefinition.hiddenName_inj (hfg.name.symm.trans hname)
      by_cases hij : j = i
      · subst hij
        obtain rfl : q' = q := Option.some.inj (hj.symm.trans hq)
        exact hfg
      · have hother : q' ∈ d.properties.eraseIdx i := List.mem_eraseIdx_iff_getElem?.2 ⟨j, hij, hj⟩
        exact absurd hsame (hn.hidden q' hother (by simpa using hauto'))

end TypeDefinition.LeavesName

namespace Catalog

variable {c : Catalog} {ids ids' : Supply} {h₀ h h' : Heap} {d : TypeDefinition} {o : Defined}
  {i : Nat} {q : PropertyDefinition}

/-- **A property that is kept for its type is kept alone**, if its hidden name
is left to it, in whatever catalog its type is defined. -/
theorem BuiltOn.kept_alone (hb : c.BuiltOn ids h₀) (hids : ids.next ≤ ids'.next)
    (hk : h₀.Keeps h) (hrun : (c.define d ids').run h = some (.ok o, h'))
    (hkind : d.kind = .classType ∨ d.kind = .structType) (hq : d.properties[i]? = some q)
    (hauto : q.backing = .auto) (hname : d.LeavesName i q) :
    ∃ t p f, o.catalog.types = c.types ++ [t] ∧
      List.Forall₂ (fun a g => g.DefinedBy a) d.storedFields t.fields ∧
      t.properties[i]? = some p ∧ t.KeepsAlone d i q p f := by
  have hinterface : d.kind ≠ .interfaceType := by
    rcases hkind with hkind | hkind <;> simp [hkind]
  obtain ⟨-, t, htypes, hapart, hdefined⟩ :=
    storesApart_of_define (fun t ht => (hb.storesApart t ht).keeps hk) hrun
  obtain ⟨t', htypes', hkept⟩ := hb.built.keptAs_of_define hinterface hrun
  obtain rfl : t = t' := by simpa [htypes] using htypes'
  have huses : t.UsesFields := by
    have hbuilt := Built.define hb.built hids hrun
    exact hbuilt.usesFields t (by simp [htypes])
  obtain ⟨f, hf, hfq, hfind⟩ := hname.exists_hidden hinterface hq hauto hdefined
  have hown : f ∈ t.fields := List.mem_of_mem_drop hf
  have hall : f ∈ t.allFields := List.mem_append_left _ hown
  have hplace : t.place? q = some f.storage := by
    simp [TypeDef.place?, PropertyDefinition.fieldName?, hauto, hfind]
  obtain ⟨p, hp, hpq⟩ := exists_getElem?_of_forall₂ hkept.flip hq
  have hlt : i < t.properties.length := (List.getElem?_eq_some_iff.1 hp).1
  have hothers : ∀ p' ∈ t.allProperties.eraseIdx i, ¬ p'.Uses f.storage := by
    intro p' hp' hu
    rw [TypeDef.allProperties, List.eraseIdx_append_of_lt_length hlt] at hp'
    rcases List.mem_append.1 hp' with hp' | hp'
    · -- another declared property goes by another name
      obtain ⟨j, hij, hj⟩ := List.mem_eraseIdx_iff_getElem?.1 hp'
      obtain ⟨q', hq', hkept'⟩ := exists_getElem?_of_forall₂ hkept hj
      obtain ⟨g, hg, hgname, hsame⟩ := TypeDef.exists_of_place? (hkept'.stored.eq_of_uses hu)
      obtain rfl := hapart.eq_of_storage hg hall hsame
      refine hname.fieldName?_ne (List.mem_eraseIdx_iff_getElem?.2 ⟨j, hij, hq'⟩) ?_
      rw [hgname, hfq.name]
      rfl
    · -- an inherited one uses inherited fields
      obtain ⟨g, hg, hsame⟩ := huses.inherited p' hp' _ hu
      have hnodup := hapart.nodup
      rw [TypeDef.allFields, List.map_append, List.nodup_append] at hnodup
      exact hnodup.2.2 _ (List.mem_map_of_mem hown) _ (List.mem_map_of_mem hg) hsame.symm
  refine ⟨t, p, f, htypes, hdefined, hp, ?_⟩
  exact
    { hidden := hf
      definedBy := hfq
      isStatic := fun m hm => (hpq.isStatic m hm).trans hfq.isStatic.symm
      getter := fun a ha hgenerated => by
        obtain ⟨m, s, hm, hs, hbody⟩ := hpq.getter a ha hgenerated
        obtain rfl := Option.some.inj (hplace.symm.trans hs)
        exact ⟨m, hm, hbody⟩
      setter := fun a ha hgenerated => by
        obtain ⟨m, s, hm, hs, hbody⟩ := hpq.setter a ha hgenerated
        obtain rfl := Option.some.inj (hplace.symm.trans hs)
        exact ⟨m, hm, hbody⟩
      uses := fun s hu => Option.some.inj ((hpq.stored.eq_of_uses hu).symm.trans hplace)
      fields := hapart.nodup
      properties := hothers
      spares := fun g hg hne => Storage.spares_of_ne fun heq =>
        hne (hapart.eq_of_storage hg hall heq.symm)
      sparesProperties := fun p' hp' m hm s hbody => Storage.spares_of_ne fun heq =>
        hothers p' hp' ⟨m, .inl hm, .inl (heq ▸ hbody)⟩ }

end Catalog

namespace Sample

/-! ## Hidden fields that are found, and one that is not -/

/-- **A dial has its level to itself**, though the meter that it derives from
hides one under the same name. -/
theorem kept_alone_dialLevel : ∃ p, dial.properties[0]? = some p ∧
    dial.KeepsAlone dialDefinition 0 { levelDefinition with dispatch := .override, setter := none }
      p dialLevel := by
  have hmeter : Catalog.BuiltOn ⟨(Catalog.standard {}).1.types ++ [meter]⟩ ⟨73⟩ {} :=
    .define (.standard {} (by decide) {}) (Nat.le_refl _) (.refl _) define_meter
  have hname : dialDefinition.LeavesName 0
      { levelDefinition with dispatch := .override, setter := none } :=
    ⟨by decide, by decide, by decide⟩
  obtain ⟨t, p, f, htypes, -, hp, halone⟩ := hmeter.kept_alone (Nat.le_refl _) (.refl _) define_dial
    (.inl rfl) rfl rfl hname
  obtain rfl : dial = t := by simpa [dashboard] using htypes
  obtain rfl : f = dialLevel := List.mem_singleton.1 halone.hidden
  exact ⟨p, hp, halone⟩

/-- A valve has a field under the very name that its level is kept under. -/
def valveDefinition : TypeDefinition where
  name := "Valve"
  kind := .classType
  fields := [{ name := "<level>backing", type := .int32 }]
  properties := [PropertyDefinition.auto "level" .int32]

/-- The hidden field, which nothing finds. -/
def valveHidden : Field := { meterLevel with id := ⟨67⟩, storage := .slot 1 }

def getValve : Method := { getLevel with slot := none }

def setValve : Method := { setLevel with id := ⟨69⟩, slot := none }

def valve : TypeDef :=
  { TypeDef.blank ⟨65⟩ "Valve" .classType with
    base := some .object
    fields := [gaugeLevel, valveHidden]
    layout := [gaugeLevel, valveHidden]
    defaults := [.int32 0, .int32 0]
    properties := [⟨⟨70⟩, "level", ⟨65⟩, .int32, some getValve, some setValve, []⟩]
    methods := [getValve, setValve]
    constructors := [⟨⟨71⟩, ⟨65⟩, [], .anyone, none⟩] }

theorem define_valve :
    ((Catalog.standard {}).1.define valveDefinition (Catalog.standard {}).2).run {} =
      some (.ok ⟨⟨65⟩, ⟨(Catalog.standard {}).1.types ++ [valve]⟩, ⟨72⟩⟩, {}) := by rfl

/-- **A valve keeps its level in the declared field**: what its get method reads
is in the first slot, and the hidden field has the second. -/
theorem valve_not_kept_alone : ¬ ∀ (c : Catalog) (ids ids' : Supply) (h₀ h h' : Heap)
    (d : TypeDefinition) (o : Defined) (i : Nat) (q : PropertyDefinition), c.BuiltOn ids h₀ →
    ids.next ≤ ids'.next → h₀.Keeps h → (c.define d ids').run h = some (.ok o, h') →
    d.kind = .classType ∨ d.kind = .structType → d.properties[i]? = some q → q.backing = .auto →
    ∃ t p f, o.catalog.types = c.types ++ [t] ∧ t.properties[i]? = some p ∧
      t.KeepsAlone d i q p f := by
  intro hall
  obtain ⟨t, p, f, htypes, hp, halone⟩ := hall _ _ _ {} {} {} valveDefinition _ 0
    (PropertyDefinition.auto "level" .int32) (.standard {} (by decide) {}) (Nat.le_refl _) (.refl _)
    define_valve (.inl rfl) rfl rfl
  obtain rfl : valve = t := by simpa using htypes
  obtain rfl : f = valveHidden := List.mem_singleton.1 halone.hidden
  obtain ⟨m, hm, hbody⟩ := halone.getter { body := .generated } rfl rfl
  cases hp
  cases hm
  cases hbody

end Sample

end MemberAccess
