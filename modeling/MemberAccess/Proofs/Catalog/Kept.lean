import MemberAccess.Proofs.Catalog.Properties
import MemberAccess.Proofs.Catalog.Storage
/-!
# Catalog — what a property is kept in

A definition says how a property is kept: not at all, in a hidden field, or in
a field that it names. Either way the field is found by its name, among all
fields that the type has by then (`TypeDef.place?`), and generated accessors are
the ones that its storage generates (`Draft.keptAs_of_addProperty`). So whatever
storage a property uses belongs to a field of the type, declared or inherited
(`Catalog.Built.usesFields`).
-/

namespace MemberAccess

/-- The name of the field that a property is kept in, if it is kept. -/
def PropertyDefinition.fieldName? (q : PropertyDefinition) : Option String :=
  match q.backing with
  | .none => none
  | .auto => some (hiddenName q.name)
  | .field name => some name

/-- **Where a type keeps a property**: with the first field of the name. -/
def TypeDef.place? (t : TypeDef) (q : PropertyDefinition) : Option Storage :=
  (q.fieldName?.bind t.field?).map (·.storage)

/-- **A property uses a storage** if one of its accessors was generated over
it. -/
def Property.Uses (p : Property) (s : Storage) : Prop :=
  ∃ m, (p.getter = some m ∨ p.setter = some m) ∧ (m.body = some s.reader ∨ m.body = some s.writer)

/-- **What a definition has made of a property** that it keeps in a place, if
in any. -/
structure Property.KeptAs (p : Property) (q : PropertyDefinition) (place : Option Storage) :
    Prop where
  stored : p.Stored place
  isStatic : ∀ m, p.getter = some m ∨ p.setter = some m → m.isStatic = q.isStatic
  getter : ∀ a, q.getter = some a → a.body = .generated →
    ∃ m s, p.getter = some m ∧ place = some s ∧ m.body = some s.reader
  setter : ∀ a, q.setter = some a → a.body = .generated →
    ∃ m s, p.setter = some m ∧ place = some s ∧ m.body = some s.writer

/-- **A property uses no storage but the one it is kept in.** -/
theorem Property.Stored.eq_of_uses {p : Property} {place : Option Storage} {s : Storage}
    (hp : p.Stored place) (hu : p.Uses s) : place = some s := by
  obtain ⟨m, hget | hset, hbody | hbody⟩ := hu
  · rcases hp.getter m _ hget hbody with ⟨token, h⟩ | ⟨s', hs, h⟩
    · cases s <;> cases h
    · rw [hs, Storage.reader_inj h]
  · rcases hp.getter m _ hget hbody with ⟨token, h⟩ | ⟨s', hs, h⟩
    · cases s <;> cases h
    · cases s <;> cases s' <;> cases h
  · rcases hp.setter m _ hset hbody with ⟨token, h⟩ | ⟨s', hs, h⟩
    · cases s <;> cases h
    · cases s <;> cases s' <;> cases h
  · rcases hp.setter m _ hset hbody with ⟨token, h⟩ | ⟨s', hs, h⟩
    · cases s <;> cases h
    · rw [hs, Storage.writer_inj h]

/-- **Properties use the storages of fields**, inherited ones those of inherited
fields. -/
structure TypeDef.UsesFields (t : TypeDef) : Prop where
  own : ∀ p ∈ t.properties, ∀ s, p.Uses s → ∃ f ∈ t.allFields, f.storage = s
  inherited : ∀ p ∈ t.inheritedProperties, ∀ s, p.Uses s → ∃ f ∈ t.inheritedFields, f.storage = s

namespace TypeDef

variable {t u : TypeDef} {q : PropertyDefinition} {s : Storage}

theorem UsesFields.exists_field (ht : t.UsesFields) {p : Property} (hp : p ∈ t.allProperties)
    (hu : p.Uses s) : ∃ f ∈ t.allFields, f.storage = s := by
  rcases List.mem_append.1 hp with hp | hp
  · exact ht.own p hp s hu
  · obtain ⟨f, hf, hs⟩ := ht.inherited p hp s hu
    exact ⟨f, List.mem_append_right _ hf, hs⟩

/-- A place is looked for among all fields. -/
theorem place?_congr (h : t.allFields = u.allFields) : t.place? q = u.place? q := by
  have hfield : t.field? = u.field? := by
    funext name
    rw [field?, field?, h]
  rw [place?, place?, hfield]

/-- **A place is that of a field** with the name asked for. -/
theorem exists_of_place? (h : t.place? q = some s) :
    ∃ f ∈ t.allFields, q.fieldName? = some f.name ∧ f.storage = s := by
  obtain ⟨f, hfound, hs⟩ := Option.map_eq_some_iff.1 h
  obtain ⟨name, hname, hfind⟩ := Option.bind_eq_some_iff.1 hfound
  have hsame : f.name = name := by simpa using List.find?_some hfind
  exact ⟨f, List.mem_of_find?_eq_some hfind, hsame ▸ hname, hs⟩

end TypeDef

namespace Draft

variable {d : TypeDefinition} {dr dr' : Draft} {m : MethodDefinition} {q : PropertyDefinition}

/-- **Outside interfaces a property is kept where its field is**, and is refused
if it names a field that there is not. -/
theorem backingStorage_eq_ok {place : Option Storage} (hi : dr.type.isInterface = false)
    (h : dr.backingStorage q = .ok place) : place = dr.type.place? q := by
  unfold backingStorage at h
  unfold TypeDef.place? PropertyDefinition.fieldName?
  cases hbacking : q.backing with
  | none =>
    rw [hbacking] at h
    cases h
    rfl
  | auto =>
    simp only [hbacking, hi, Bool.false_eq_true, if_false] at h
    cases h
    rfl
  | field name =>
    simp only [hbacking] at h
    split at h
    · cases h
    · rename_i f hfind
      split at h
      · cases h
        simp [hfind]
      · cases h

/-- **A generated accessor** has the body that the storage generates; without
one it is refused. -/
theorem exists_of_addAccessor {a : AccessorDefinition} {generated : Option MemberBody}
    {o : Option Method} (hi : dr.type.isInterface = false)
    (h : dr.addAccessor q (some a) generated m = .ok (o, dr')) (ha : a.body = .generated) :
    ∃ k b, o = some k ∧ generated = some b ∧ k.body = some b := by
  rcases addAccessor_cases h with ⟨hnone, -⟩ | ⟨b, body, k, hb, hbody, hadd, rfl⟩
  · cases hnone
  · cases hb
    simp only [accessorBody, ha, hi, Bool.false_eq_true, if_false] at hbody
    split at hbody
    · cases hbody
    · split at hbody
      · cases hbody
        exact ⟨k, _, rfl, rfl, (adds_of_addMethod hadd).body⟩
      · cases hbody

/-- **A property is added** as it was defined, and kept where its field is. -/
theorem keptAs_of_addProperty (hi : dr.type.isInterface = false)
    (h : dr.addProperty q = .ok dr') :
    ∃ p : Property, dr'.type.properties = dr.type.properties ++ [p] ∧
      p.KeptAs q (dr.type.place? q) := by
  obtain ⟨place, dr₁, dr₂, p, hp⟩ := addsProperty_of_addProperty h
  have hget := hp.getter
  have hset := hp.setter
  obtain rfl := backingStorage_eq_ok hi hp.backing
  have hi₁ : dr₁.type.isInterface = false := (steps_of_addAccessor hget).allFields_eq.2.trans hi
  refine ⟨p, hp.properties_eq, hp.stored, ?_, ?_, ?_⟩
  · rintro m (hm | hm)
    · exact isStatic_of_addAccessor hget m hm
    · exact isStatic_of_addAccessor hset m hm
  · intro a ha hgenerated
    rw [ha] at hget
    obtain ⟨m, b, hm, hb, hbody⟩ := exists_of_addAccessor hi hget hgenerated
    obtain ⟨s, hs, rfl⟩ := Option.map_eq_some_iff.1 hb
    exact ⟨m, s, hm, hs, hbody⟩
  · intro a ha hgenerated
    rw [ha] at hset
    obtain ⟨m, b, hm, hb, hbody⟩ := exists_of_addAccessor hi₁ hset hgenerated
    obtain ⟨s, hs, rfl⟩ := Option.map_eq_some_iff.1 hb
    exact ⟨m, s, hm, hs, hbody⟩

/-- **Every property of a definition** is kept where its field is. -/
theorem keptAs_of_addMembers {c : Catalog} (hi : dr.type.isInterface = false)
    (hnone : dr.type.properties = []) (h : c.addMembers d dr = .ok dr') :
    List.Forall₂ (fun q p => p.KeptAs q (dr.type.place? q)) d.properties dr'.type.properties := by
  obtain ⟨dr₁, dr₂, t, hmethods, hproperties, hbind, hconstructors⟩ := addMembers_eq_ok h
  have hframe := (steps_of_addMethods hmethods).allFields_eq
  obtain ⟨-, ps, hps, hkept⟩ := forall₂_of_foldlM
    (P := fun x : Draft => x.type.allFields = dr.type.allFields ∧ x.type.isInterface = false)
    (R := fun q (p : Property) => p.KeptAs q (dr.type.place? q)) (fun x => x.type.properties)
    (fun x q y hx hadd => by
      obtain ⟨hfields, hx⟩ := hx
      obtain ⟨hsame, hinterface⟩ := (steps_of_addProperty hadd).allFields_eq
      obtain ⟨p, hp, hkept⟩ := keptAs_of_addProperty hx hadd
      rw [TypeDef.place?_congr hfields] at hkept
      exact ⟨⟨hsame.trans hfields, hinterface.trans hx⟩, p, hp, hkept⟩)
    hproperties ⟨hframe.1, hframe.2.trans hi⟩
  rw [properties_of_bindAll hbind hconstructors, hps, properties_of_addMethods hmethods, hnone]
  exact hkept

end Draft

namespace Catalog

variable {c : Catalog} {ids : Supply} {t : TypeDef} {p : Property} {s : Storage}

/-- **A property of an interface uses nothing**: its accessors have no
bodies. -/
theorem Contracts.not_uses (hk : c.Contracts) (ht : t ∈ c.types) (hi : t.isInterface = true)
    (hp : p ∈ t.allProperties) : ¬ p.Uses s := by
  obtain ⟨i, hmem, hii, -, hp⟩ := hk.properties t ht hi p hp
  have hregular := hk.regular i hmem
  have haccessors := hregular.properties p hp
  rintro ⟨m, hm, hbody⟩
  have hmethod : m ∈ i.methods := by
    rcases hm with hm | hm
    · exact (haccessors.getter m hm).1
    · exact (haccessors.setter m hm).1
  rw [(hregular.contracts hii m hmethod).body] at hbody
  rcases hbody with hbody | hbody <;> cases hbody

/-- **A definition keeps its properties** with fields of the type that it adds,
declared or inherited. -/
theorem Built.keptAs_of_define {ids' : Supply} {d : TypeDefinition} {h h' : Heap} {o : Defined}
    (hb : c.Built ids) (hkind : d.kind ≠ .interfaceType)
    (hrun : (c.define d ids').run h = some (.ok o, h')) :
    ∃ t, o.catalog.types = c.types ++ [t] ∧
      List.Forall₂ (fun q p => p.KeptAs q (t.place? q)) d.properties t.properties := by
  obtain ⟨t, dr, dr', -, hinherit, hfields, hmembers, rfl⟩ := define_eq_ok hrun
  obtain ⟨base, is, hin⟩ := inherits_of_inherit hinherit
  obtain ⟨-, -, hsame, -, -, -, hnone, -⟩ := hin.head
  have hi : dr.type.isInterface = false := by
    rw [TypeDef.isInterface, (hin.extends hb.wellFormed (steps_of_addFields hfields)).kind, hsame]
    simpa using hkind
  have hkept := Draft.keptAs_of_addMembers hi ((properties_of_addFields hfields).trans hnone)
    hmembers
  have hfieldsEq := (Draft.steps_of_addMembers hmembers).allFields_eq.1
  exact ⟨dr'.type, rfl, hkept.imp fun q p hp => TypeDef.place?_congr hfieldsEq ▸ hp⟩

/-- **Whatever storage a property uses** is that of a field of the type, and of
an inherited field if the property is inherited. -/
theorem Built.usesFields (hb : c.Built ids) : ∀ t ∈ c.types, t.UsesFields := by
  induction hb with
  | standard ids h =>
    exact forall_mem_standard fun _ _ _ _ _ =>
      ⟨fun p hp => absurd hp List.not_mem_nil, fun p hp => absurd hp List.not_mem_nil⟩
  | @define c ids ids' d _ _ _ hc hids hrun ih =>
    have hcontracts := (Built.define hc hids hrun).contracts
    obtain ⟨base, is, t, dr, hin, hsteps, -, hcatalog, -⟩ := exists_of_define hrun
    have hextends := hin.extends hc.wellFormed hsteps
    rw [hcatalog] at hcontracts ⊢
    refine forall_mem_concat ih ⟨fun p hp s huses => ?_, fun p hp s huses => ?_⟩
    · by_cases hkind : d.kind = .interfaceType
      · refine absurd huses (hcontracts.not_uses (by simp) ?_ (List.mem_append_left _ hp))
        rw [TypeDef.isInterface, hextends.kind, hin.head.2.2.1, hkind]
        rfl
      · obtain ⟨t', htypes, hkept⟩ := hc.keptAs_of_define hkind hrun
        obtain rfl : dr.type = t' := by simpa [hcatalog] using htypes
        obtain ⟨q, -, hq⟩ := exists_partner hkept hp
        obtain ⟨f, hf, -, hs⟩ := TypeDef.exists_of_place? (hq.stored.eq_of_uses huses)
        exact ⟨f, hf, hs⟩
    · rcases hin.mem_inheritedProperties (Draft.inheritedProperties_of_steps hsteps hp) with
        ⟨i, hi, hp⟩ | ⟨b, rfl, hp⟩
      · obtain ⟨hmem, hinterface⟩ := hin.mem_interfaces hi
        exact absurd huses (hc.contracts.not_uses hmem hinterface hp)
      · -- what a property of the base uses is inherited with it
        obtain ⟨f, hf, hs⟩ := (ih b (hin.mem_base rfl).2.1).exists_field hp huses
        refine ⟨f, ?_, hs⟩
        rwa [hextends.inheritedFields, hin.fields_eq.1]

end Catalog

end MemberAccess
