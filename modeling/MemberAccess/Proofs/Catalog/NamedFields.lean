import MemberAccess.Proofs.Catalog.Layout
/-!
# Catalog — fields by name

A name leads to a field in two ways. `TypeDef.field?` goes through the declared
fields and then through those that the bases declare, and
`TypeDef.instanceSlot?` goes through the layout from its end. Both follow the
lineage of the type (`Catalog.LaidOut`), so that they come to the same
declaring type, whatever is hidden on the way. Among the fields of that one
type they go in opposite directions, and so they lead to one field exactly if
no other instance field of its type has its name (`TypeDef.Sole`,
`Built.instanceSlot?_eq_iff`).
-/

namespace MemberAccess

/-- **What is found first from either end** is the only one to be found. -/
theorem eq_of_find?_of_find?_reverse {α : Type} {l : List α} {p : α → Bool} {a : α}
    (hl : l.Nodup) (h : l.find? p = some a) (h' : l.reverse.find? p = some a) :
    ∀ b ∈ l, p b = true → b = a := by
  induction l with
  | nil => simp
  | cons x l ih =>
    obtain ⟨hx, hl⟩ := List.nodup_cons.1 hl
    rw [List.reverse_cons, List.find?_append] at h'
    intro b hb hpb
    cases hpx : p x with
    | true =>
      obtain rfl : x = a := by simpa [hpx] using h
      cases hrest : l.reverse.find? p with
      | some y =>
        obtain rfl : y = x := by simpa [hrest] using h'
        exact absurd (List.mem_reverse.1 (List.mem_of_find?_eq_some hrest)) hx
      | none =>
        rcases List.mem_cons.1 hb with rfl | hb
        · rfl
        · exact absurd hpb (List.find?_eq_none.1 hrest b (List.mem_reverse.2 hb))
    | false =>
      rcases List.mem_cons.1 hb with rfl | hb
      · rw [hpx] at hpb
        cases hpb
      · exact ih hl (by simpa [hpx] using h) (by simpa [hpx] using h') b hb hpb

namespace TypeDef

variable {t : TypeDef} {f : Field}

/-- The instance fields that a type declares itself. -/
def instanceFields (t : TypeDef) : List Field := t.fields.filter (!·.isStatic)

theorem mem_instanceFields : f ∈ t.instanceFields ↔ f ∈ t.fields ∧ f.isStatic = false := by
  simp [instanceFields]

/-- An instance field that is found among all fields is found among these. -/
theorem find?_instanceFields {p : Field → Bool} (hfind : t.fields.find? p = some f)
    (hf : f.isStatic = false) : t.instanceFields.find? p = some f := by
  obtain ⟨hp, as, bs, happend, hbefore⟩ := List.find?_eq_some_iff_append.1 hfind
  refine List.find?_eq_some_iff_append.2 ⟨hp, as.filter (!·.isStatic), bs.filter (!·.isStatic),
    by simp [instanceFields, happend, hf], fun a ha => ?_⟩
  exact hbefore a (List.mem_filter.1 ha).1

/-- **A field has its name for itself** among the instance fields of the type
that declares it. -/
def Sole (t : TypeDef) (f : Field) : Prop :=
  ∀ g ∈ t.allFields, g.declaringType = f.declaringType → g.name = f.name →
    g.isStatic = false → g = f

instance (t : TypeDef) (f : Field) : Decidable (t.Sole f) :=
  inferInstanceAs (Decidable (∀ g ∈ t.allFields, _ → _ → _ → g = f))

/-- In a layout with numbers no field is twice. -/
theorem Numbered.nodup (hn : t.Numbered) : t.layout.Nodup := by
  refine List.nodup_iff_getElem?_ne_getElem?.2 fun i j hij hj heq => ?_
  have hstorage := hn j _ (List.getElem?_eq_getElem hj)
  rw [hn i _ (heq.trans (List.getElem?_eq_getElem hj))] at hstorage
  cases hstorage
  exact Nat.lt_irrefl _ hij

end TypeDef

/-- **What is declared goes to the end of the layout**, static fields apart. -/
theorem Draft.layout_of_steps {d : TypeDefinition} {dr dr' : Draft} (hs : Steps d dr dr')
    (hnew : dr.type.fields = []) :
    dr'.type.layout = dr.type.layout ++ dr'.type.instanceFields := by
  refine chain_invariant
    (P := fun x => x.type.layout = dr.type.layout ++ x.type.instanceFields)
    (fun x y hs hx => ?_) hs (by simp [TypeDef.instanceFields, hnew])
  cases hs with
  | field f initial cell hkind =>
    cases cell with
    | some k =>
      have hsame : (x.appendField f initial (some k)).type.instanceFields =
          x.type.instanceFields ++ [x.newField f (.cell k)].filter (!·.isStatic) :=
        List.filter_append _ _
      rw [hsame]
      exact hx.trans (congrArg _ (List.append_nil _).symm)
    | none =>
      have hsame : (x.appendField f initial none).type.instanceFields =
          x.type.instanceFields ++ [x.newField f (.slot x.type.layout.length)] :=
        List.filter_append _ _
      rw [hsame, ← List.append_assoc, ← hx]
      rfl
  | member hs =>
    have hstorage := MemberSteps.storage_eq (.single hs)
    rw [TypeDef.instanceFields, hstorage.1, hstorage.2.1]
    exact hx

namespace Catalog

variable {c : Catalog} {ids : Supply} {t u : TypeDef} {f : Field} {name : String}

/-- **A type has the fields of its lineage**: listed from the most derived type
on, and laid out from the least derived one on. -/
structure LaidOut (c : Catalog) (t : TypeDef) : Prop where
  allFields : t.allFields = (c.lineage t.handle).flatMap (·.fields)
  layout : t.layout.reverse = (c.lineage t.handle).flatMap (·.instanceFields.reverse)

/-- Built-in types have no fields. -/
theorem laidOut_standard (ht : t ∈ (standard ids).1.types) : (standard ids).1.LaidOut t := by
  have hnone : ∀ u ∈ (standard ids).1.types, u.fields = [] ∧ u.allFields = [] ∧ u.layout = [] :=
    forall_mem_standard fun _ _ _ _ _ => ⟨rfl, rfl, rfl⟩
  constructor
  · rw [(hnone t ht).2.1]
    refine (List.flatMap_eq_nil_iff.2 fun u hu => ?_).symm
    exact (hnone u (mem_types_of_mem_lineage hu)).1
  · rw [(hnone t ht).2.2]
    refine (List.flatMap_eq_nil_iff.2 fun u hu => ?_).symm
    simp [TypeDef.instanceFields, (hnone u (mem_types_of_mem_lineage hu)).1]

/-- **Every built catalog lays fields out along lineages.** -/
theorem Built.laidOut (hb : c.Built ids) (ht : t ∈ c.types) : c.LaidOut t := by
  induction hb generalizing t with
  | standard ids h => exact laidOut_standard ht
  | @define c _ _ _ _ _ _ hc hids hrun ih =>
    obtain ⟨base, is, t₀, dr, hin, hsteps, -, hcatalog, -⟩ := exists_of_define hrun
    have hfresh := (fits_of_define hc.wellFormed hids hin hsteps).fresh
    rw [hcatalog] at ht ⊢
    rcases mem_concat_cases ht with ht | rfl
    · have hsame := lineage_add_of_ne (c := c) (hfresh t ht).symm
      exact ⟨hsame ▸ (ih ht).allFields, hsame ▸ (ih ht).layout⟩
    · obtain ⟨hfields, hlayout, -⟩ := hin.fields_eq
      have hbase : dr.type.base = base.map (·.handle) :=
        hsteps.sameHead.base.trans hin.base_handle
      have hinherited := (hin.extends hc.wellFormed hsteps).inheritedFields
      have hown := Draft.layout_of_steps hsteps hin.head.2.2.2.2.1
      constructor
      · rw [lineage_add_self, hbase, TypeDef.allFields, hinherited, hfields, List.flatMap_cons]
        cases hb : base with
        | none => rfl
        | some b => exact congrArg _ (ih (hin.mem_base hb).2.1).allFields
      · rw [lineage_add_self, hbase, hown, hlayout, List.reverse_append, List.flatMap_cons]
        cases hb : base with
        | none => rfl
        | some b => exact congrArg _ (ih (hin.mem_base hb).2.1).layout

/-- A field is declared by the type that it names. -/
theorem WellFormed.mem_fields (hc : c.WellFormed ids) (ht : t ∈ c.types) (hf : f ∈ t.allFields)
    (hu : u ∈ c.types) (hdeclaring : f.declaringType = u.handle) : f ∈ u.fields := by
  obtain ⟨v, hv, hfv⟩ := hc.fields t ht f hf
  obtain rfl := hc.eq_of_handle hv hu ((hc.declares v hv f hfv).1.symm.trans hdeclaring)
  exact hfv

/-- No type declares an instance field twice. -/
theorem Built.nodup_instanceFields (hb : c.Built ids) (ht : t ∈ c.types) :
    t.instanceFields.Nodup := by
  have hlayout := (hb.laidOut ht).layout
  rw [hb.lineage_eq ht, List.flatMap_cons] at hlayout
  have hnodup := List.nodup_reverse.2 (hb.layouts.numbered t ht).nodup
  rw [hlayout] at hnodup
  exact List.nodup_reverse.1 (List.nodup_append.1 hnodup).1

/-- **Both ways lead to one declaring type**: the first of the lineage to
declare a field of the name, among whose instance fields the layout leads to
the last of the name. -/
theorem Built.exists_first (hb : c.Built ids) (ht : t ∈ c.types) (hf : t.field? name = some f)
    (hinstance : f.isStatic = false) :
    ∃ u ∈ c.lineage t.handle, u.fields.find? (·.name == name) = some f ∧
      t.layout.reverse.find? (·.name == name) =
        u.instanceFields.reverse.find? (·.name == name) := by
  have hl := hb.laidOut ht
  rw [TypeDef.field?, hl.allFields, List.find?_flatMap] at hf
  obtain ⟨as, u, bs, hlineage, hfind, hbefore⟩ := List.findSome?_eq_some_iff.1 hf
  refine ⟨u, by simp [hlineage], hfind, ?_⟩
  -- the types before it declare no field of the name, static or not
  have hskipped : ∀ a ∈ as, a.instanceFields.reverse.find? (·.name == name) = none := by
    intro a ha
    refine List.find?_eq_none.2 fun g hg => ?_
    have hg := (TypeDef.mem_instanceFields.1 (List.mem_reverse.1 hg)).1
    exact List.find?_eq_none.1 (hbefore a ha) g hg
  have hfound : (u.instanceFields.reverse.find? (·.name == name)).isSome = true := by
    rw [List.find?_isSome]
    have hmem := TypeDef.mem_instanceFields.2 ⟨List.mem_of_find?_eq_some hfind, hinstance⟩
    exact ⟨f, List.mem_reverse.2 hmem, by simpa using List.find?_some hfind⟩
  obtain ⟨g, hg⟩ := Option.isSome_iff_exists.1 hfound
  rw [hl.layout, List.find?_flatMap, hg]
  exact List.findSome?_eq_some_iff.2 ⟨as, u, bs, hlineage, hg, hskipped⟩

/-- **The field that the layout leads to** has the same declaring type, and is
the same if no other instance field of that type has the name. -/
theorem Built.exists_named (hb : c.Built ids) (ht : t ∈ c.types) (hf : t.field? name = some f)
    (hinstance : f.isStatic = false) :
    ∃ g ∈ t.allFields, t.layout.reverse.find? (·.name == name) = some g ∧
      g.declaringType = f.declaringType ∧ g.name = name ∧ g.isStatic = false ∧
      (g = f ↔ t.Sole f) := by
  have hwf := hb.wellFormed
  have hl := hb.laidOut ht
  obtain ⟨u, hu, hfind, hlayout⟩ := hb.exists_first ht hf hinstance
  have hut := mem_types_of_mem_lineage hu
  have hfu := List.mem_of_find?_eq_some hfind
  have hfname : f.name = name := by simpa using List.find?_some hfind
  have hmem := TypeDef.mem_instanceFields.2 ⟨hfu, hinstance⟩
  cases hlast : u.instanceFields.reverse.find? (·.name == name) with
  | none => simpa [hfname] using List.find?_eq_none.1 hlast f (List.mem_reverse.2 hmem)
  | some g =>
    have hgname : g.name = name := by simpa using List.find?_some hlast
    obtain ⟨hgu, hgstatic⟩ := TypeDef.mem_instanceFields.1
      (List.mem_reverse.1 (List.mem_of_find?_eq_some hlast))
    have hdeclaring : ∀ k ∈ u.fields, k.declaringType = u.handle :=
      fun k hk => (hwf.declares u hut k hk).1
    have hg : g ∈ t.allFields := hl.allFields ▸ List.mem_flatMap.2 ⟨u, hu, hgu⟩
    have hsame : g.declaringType = f.declaringType :=
      (hdeclaring g hgu).trans (hdeclaring f hfu).symm
    refine ⟨g, hg, hlayout.trans hlast, hsame, hgname, hgstatic, ?_, ?_⟩
    · rintro rfl k hk hkdeclaring hkname hkstatic
      -- the field is first and last of its name where it is declared
      have hfirst := TypeDef.find?_instanceFields hfind hinstance
      have hku := hwf.mem_fields ht hk hut (hkdeclaring.trans (hdeclaring g hfu))
      exact eq_of_find?_of_find?_reverse (hb.nodup_instanceFields hut) hfirst hlast k
        (TypeDef.mem_instanceFields.2 ⟨hku, hkstatic⟩) (by simp [hkname, hgname])
    · exact fun hsole => hsole g hg hsame (hgname.trans hfname.symm) hgstatic

/-- **The slot of a name is the slot of its field** exactly if no other
instance field of the declaring type has the name. -/
theorem Built.instanceSlot?_eq_iff (hb : c.Built ids) (ht : t ∈ c.types)
    (hf : t.field? name = some f) (hinstance : f.isStatic = false) :
    t.instanceSlot? name = f.slot? ↔ t.Sole f := by
  obtain ⟨g, hg, hfind, -, -, hgstatic, hiff⟩ := hb.exists_named ht hf hinstance
  rw [← hiff, TypeDef.instanceSlot?, hfind, Option.bind_some]
  refine ⟨fun hslot => ?_, fun heq => heq ▸ rfl⟩
  cases hstorage : g.storage with
  | cell k =>
    rw [Field.isStatic, hstorage] at hgstatic
    cases hgstatic
  | slot i =>
    have hfi : f.storage = .slot i := by
      rw [Field.slot?, Field.slot?, hstorage] at hslot
      cases hf : f.storage with
      | cell k =>
        rw [hf] at hslot
        cases hslot
      | slot j =>
        rw [hf] at hslot
        cases hslot
        rfl
    have hat := hb.layouts.getElem?_of_slot hb.wellFormed ht (List.mem_of_find?_eq_some hf) hfi
    exact hb.layouts.eq_of_slot hb.wellFormed ht hat hg hstorage

end Catalog

end MemberAccess
