import MemberAccess.Proofs.Catalog.Additions
import MemberAccess.Proofs.Catalog.Contracts
/-!
# Catalog — one storage is behind both accessors of a property

A property that a type declares is kept in at most one place: an accessor that
has a body has a native one, or the one that reads or writes that place
(`Property.Stored`). What is set is the last argument of the set method, and of
the type of the property. Two accessors of one declared property, generated
both, therefore meet in one place (`Property.Stored.storage_eq`); accessors of two
properties need not, even if one property overrides the other.
-/

namespace MemberAccess

/-- **A property kept in one place**, if in any. -/
structure Property.Stored (p : Property) (place : Option Storage) : Prop where
  getter : ∀ m b, p.getter = some m → m.body = some b →
    (∃ token, b = .native token) ∨ ∃ s, place = some s ∧ b = s.reader
  setter : ∀ m b, p.setter = some m → m.body = some b →
    (∃ token, b = .native token) ∨ ∃ s, place = some s ∧ b = s.writer
  /-- The value to be set comes after the index. -/
  input : ∀ m, p.setter = some m →
    m.parameterTypes = p.indexParameters.map (·.type) ++ [p.type]

/-- What a storage generates tells it from any other. -/
theorem Storage.reader_inj {s s' : Storage} (h : s.reader = s'.reader) : s = s' := by
  cases s <;> cases s' <;> cases h <;> rfl

theorem Storage.writer_inj {s s' : Storage} (h : s.writer = s'.writer) : s = s' := by
  cases s <;> cases s' <;> cases h <;> rfl

/-- **Generated accessors of one property meet in one place.** -/
theorem Property.Stored.storage_eq {p : Property} {place : Option Storage} (hp : p.Stored place)
    {m n : Method} {s s' : Storage} (hm : p.getter = some m) (hn : p.setter = some n)
    (hread : m.body = some s.reader) (hwrite : n.body = some s'.writer) : s = s' := by
  have hreader : place = some s := by
    rcases hp.getter m _ hm hread with ⟨token, hnative⟩ | ⟨x, hx, hsame⟩
    · cases s <;> cases hnative
    · rw [hx, Storage.reader_inj hsame]
  have hwriter : place = some s' := by
    rcases hp.setter n _ hn hwrite with ⟨token, hnative⟩ | ⟨x, hx, hsame⟩
    · cases s' <;> cases hnative
    · rw [hx, Storage.writer_inj hsame]
  exact Option.some.inj (hreader.symm.trans hwriter)

/-- **Every property that a type declares is kept in one place.** -/
def TypeDef.KeepsProperties (t : TypeDef) : Prop := ∀ p ∈ t.properties, ∃ place, p.Stored place

namespace Draft

variable {d : TypeDefinition} {dr dr' : Draft} {m : MethodDefinition} {n : Method}
  {p : PropertyDefinition}

/-- Methods bring no properties. -/
theorem properties_of_addMethod (h : dr.addMethod m = .ok (n, dr')) :
    dr'.type.properties = dr.type.properties := by
  rw [(adds_of_addMethod h).type_eq]
  rfl

/-- **The body of an accessor** is native or generated, if it has one. -/
theorem accessorBody_cases {a : AccessorDefinition} {generated body : Option MemberBody}
    (h : dr.accessorBody p a generated = .ok body) :
    ∀ b, body = some b → (∃ token, b = .native token) ∨ generated = some b := by
  intro b hb
  unfold accessorBody at h
  split at h
  · cases h
    cases hb
  · cases h
    cases hb
    exact .inl ⟨_, rfl⟩
  · split at h
    · cases h
      cases hb
    · split at h
      · cases h
      · split at h
        · cases h
          exact .inr hb
        · cases h

/-- **An accessor is a method** with such a body. -/
theorem accessor_of_addAccessor {a : Option AccessorDefinition} {generated : Option MemberBody}
    {o : Option Method} (h : dr.addAccessor p a generated m = .ok (o, dr')) :
    dr'.type.properties = dr.type.properties ∧ ∀ k, o = some k →
      k.parameterTypes = m.parameterTypes ∧
      ∀ b, k.body = some b → (∃ token, b = .native token) ∨ generated = some b := by
  rcases addAccessor_cases h with ⟨-, rfl, rfl⟩ | ⟨a, body, n, -, hbody, hadd, rfl⟩
  · exact ⟨rfl, by simp⟩
  · have hadds := adds_of_addMethod hadd
    refine ⟨properties_of_addMethod hadd, fun k hk => ?_⟩
    cases hk
    exact ⟨hadds.parameterTypes, fun b hb => accessorBody_cases hbody b (hadds.body.symm.trans hb)⟩

namespace AddsProperty

variable {place : Option Storage} {dr₁ dr₂ : Draft} {q : Property}

/-- **The properties of a type grow by one.** -/
theorem properties_eq (hq : dr.AddsProperty p place dr₁ dr₂ q dr') :
    dr'.type.properties = dr.type.properties ++ [q] := by
  rw [hq.result, ← (accessor_of_addAccessor hq.getter).1, ← (accessor_of_addAccessor hq.setter).1]

/-- **Both accessors go to the storage** that the property is added with. -/
theorem stored (hq : dr.AddsProperty p place dr₁ dr₂ q dr') : q.Stored place := by
  obtain ⟨-, hgetter⟩ := accessor_of_addAccessor hq.getter
  obtain ⟨-, hsetter⟩ := accessor_of_addAccessor hq.setter
  refine ⟨fun m b hm hb => ?_, fun m b hm hb => ?_, fun m hm => ?_⟩
  · refine ((hgetter m hm).2 b hb).imp_right fun hgenerated => ?_
    obtain ⟨s, hs, rfl⟩ := Option.map_eq_some_iff.1 hgenerated
    exact ⟨s, hs, rfl⟩
  · refine ((hsetter m hm).2 b hb).imp_right fun hgenerated => ?_
    obtain ⟨s, hs, rfl⟩ := Option.map_eq_some_iff.1 hgenerated
    exact ⟨s, hs, rfl⟩
  · rw [(hsetter m hm).1, hq.type, hq.indexParameters]
    simp [MethodDefinition.parameterTypes, setMethod, types_numberParameters]

end AddsProperty

/-- **A property is added** with both accessors over its storage. -/
theorem keeps_addProperty (hk : dr.type.KeepsProperties) (h : dr.addProperty p = .ok dr') :
    dr'.type.KeepsProperties := by
  obtain ⟨place, dr₁, dr₂, q, hq⟩ := addsProperty_of_addProperty h
  rw [TypeDef.KeepsProperties, hq.properties_eq]
  exact forall_mem_concat hk ⟨place, hq.stored⟩

theorem properties_of_addMethods {ms : List MethodDefinition}
    (h : ms.foldlM (fun dr m => (·.2) <$> dr.addMethod m) dr = .ok dr') :
    dr'.type.properties = dr.type.properties :=
  invariant_of_addMethods (P := fun x : Draft => x.type.properties = dr.type.properties)
    (fun _ _ _ _ hx hadd => (properties_of_addMethod hadd).trans hx) h rfl

/-- Binding interfaces and adding constructors bring no properties either. -/
theorem properties_of_bindAll {is : List TypeDef} {t : TypeDef} (hbind : dr.type.bindAll is = .ok t)
    (h : addConstructors { dr with type := t } d = .ok dr') :
    dr'.type.properties = dr.type.properties := by
  obtain ⟨ks, hks⟩ := addConstructors_eq_ok h
  rw [hks, TypeDef.type_eq_of_bindAll hbind]

/-- **All members** but fields. -/
theorem keeps_addMembers {c : Catalog} (hk : dr.type.KeepsProperties)
    (h : c.addMembers d dr = .ok dr') : dr'.type.KeepsProperties := by
  obtain ⟨dr₁, dr₂, t, hmethods, hproperties, hbind, hconstructors⟩ := addMembers_eq_ok h
  have hk₁ : dr₁.type.KeepsProperties := fun p hp => hk p (properties_of_addMethods hmethods ▸ hp)
  have hk₂ : dr₂.type.KeepsProperties :=
    invariant_of_foldlM (P := fun dr : Draft => dr.type.KeepsProperties)
      (fun dr p _ dr' hk hadd => keeps_addProperty hk hadd) hproperties hk₁
  exact fun p hp => hk₂ p (properties_of_bindAll hbind hconstructors ▸ hp)

end Draft

namespace Catalog

variable {c : Catalog} {ids : Supply} {t : TypeDef}

/-- Fields bring no properties. -/
theorem properties_of_addFields {d : TypeDefinition} {fs : List FieldDefinition} {dr dr' : Draft}
    {h h' : Heap} (hrun : (fs.foldlM (c.addField d) dr).run h = some (.ok dr', h')) :
    dr'.type.properties = dr.type.properties := by
  let R : Draft → Draft → Prop := fun x y => y.type.properties = x.type.properties
  have hchain : Relation.ReflTransGen R dr dr' := by
    refine Exec.chain_of_foldlM (fun dr _ => dr) (fun x f h y h' hf => .single ?_) hrun
    obtain ⟨-, initial, h₁, -, hrest⟩ := addField_eq_ok hf
    split at hrest <;> rw [hrest.1] <;> rfl
  exact chain_invariant (P := fun x : Draft => x.type.properties = dr.type.properties)
    (fun _ _ hR hx => Eq.trans hR hx) hchain rfl

/-- **Every type of a built catalog keeps each of its properties in one
place.** -/
theorem Built.keepsProperties (hb : c.Built ids) : ∀ t ∈ c.types, t.KeepsProperties := by
  induction hb with
  | standard ids h =>
    exact forall_mem_standard fun _ _ _ _ _ p hp => absurd hp List.not_mem_nil
  | define hc hids hrun ih =>
    obtain ⟨t, dr, dr', -, hinherit, hfields, hmembers, rfl⟩ := define_eq_ok hrun
    obtain ⟨base, is, hin⟩ := inherits_of_inherit hinherit
    obtain ⟨-, -, -, -, -, -, hnone, -⟩ := hin.head
    have hdr : dr.type.KeepsProperties := by
      intro p hp
      rw [properties_of_addFields hfields] at hp
      simp [hnone] at hp
    exact forall_mem_concat ih (Draft.keeps_addMembers hdr hmembers)

/-- **A method names the type that declares it.** -/
theorem Built.methods_declaring (hb : c.Built ids) :
    ∀ t ∈ c.types, ∀ m ∈ t.methods, m.declaringType = t.handle := by
  induction hb with
  | standard ids h =>
    exact forall_mem_standard fun _ _ _ _ _ m hm => absurd hm List.not_mem_nil
  | define hc hids hrun ih =>
    obtain ⟨base, is, t, dr, hin, hsteps, -, hcatalog, -⟩ := exists_of_define hrun
    have hfits := fits_of_define hc.wellFormed hids hin hsteps
    rw [hcatalog]
    exact forall_mem_concat ih fun m hm => (hfits.methods m hm).1

end Catalog

end MemberAccess
