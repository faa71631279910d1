import MemberAccess.Proofs.Accessor.PropertyRoundTrip
import MemberAccess.Proofs.Catalog.NamedFields
/-!
# Accessor — fields by name and by accessor

An object can be read and written by the name of a field, without coercion and
without a copy. A name stands for a location of the object (`Heap.Names`); it
is the location that the accessors of the field work on if the field has its
name for itself among the instance fields of its declaring type
(`Reflector.named_access`). Where a type declares two instance fields of one
name, the name stands for the last of them and the accessors of the field found
under the name work on the first (`Sample.twin_slots_differ`).
-/

namespace MemberAccess

namespace Heap

variable {h : Heap} {o : ObjectRef} {name : String} {i : Nat}

/-- **A name stands for a location** of an object: what is read by the name is
what is there, and what is written by the name goes there and nowhere else. -/
structure Names (h : Heap) (o : ObjectRef) (name : String) (l : Location) : Prop where
  there : (h.at? l).isSome = true
  get : h.get? o name = h.at? l
  set : ∀ v, ∃ h', h.set? o name v = some h' ∧ h.Overwrites h' l v

/-- A write by name is a store into the slot of the name. -/
theorem set?_eq_some (hslot : (h.typeAt o).instanceSlot? name = some i) {v : Value} {h' : Heap} :
    h.set? o name v = some h' ↔ h.store o i v = .ok h' := by
  rw [set?, hslot, Option.bind_some]
  cases h.store o i v <;> simp [Except.toOption]

/-- **The name of a slot** stands for that slot. -/
theorem names_of_slot (hslot : (h.typeAt o).instanceSlot? name = some i)
    (hi : i < (h.slotsAt o).length) : h.Names o name (.slot o i) where
  there := by simpa [at?] using hi
  get := by rw [get?, hslot, Option.bind_some, at?]
  set v := ⟨_, (set?_eq_some hslot).2 (store_eq_ok.2 ⟨hi, rfl⟩), overwrites_setSlots hi v⟩

end Heap

namespace Field

variable {f : Field} {s : FieldTypes} {u : TypeDef} {h : Heap} {o : ObjectRef} {name : String}
  {i : Nat}

/-- **To put a value is to write it by name** where the name stands for the
slot of the field. -/
theorem run_put_eq_ok_iff (hs : s.receiver = [u]) (hbuiltin : u.handle.isBuiltin = false)
    (ho : u.handle ∈ (h.typeAt o).ancestors) (hi : f.storage = .slot i)
    (hslot : (h.typeAt o).instanceSlot? name = some i) {v : Value} {h' : Heap} :
    (f.put s (.object o) v).run h = some (.ok (), h') ↔ h.set? o name v = some h' := by
  rw [Heap.set?_eq_some hslot, put, hi]
  simp only [Exec.run_bind, run_holder hs hbuiltin ho, Exec.store, Exec.run_change]
  cases h.store o i v <;> simp

/-- **To write a field** is to coerce the input and to write that by name. -/
theorem run_write_eq_ok_iff {type : TypeDef} (hinput : s.input = [type]) (hs : s.receiver = [u])
    (hbuiltin : u.handle.isBuiltin = false) (hhas : h.Has o)
    (ho : u.handle ∈ (h.typeAt o).ancestors) (hi : f.storage = .slot i)
    (hslot : (h.typeAt o).instanceSlot? name = some i) {v : Value} {h' : Heap} :
    (f.write s (.object o) v).run h = some (.ok (), h') ↔
      ∃ w h₁, (Exec.castValue v type).run h = some (.ok w, h₁) ∧ h₁.set? o name w = some h' := by
  rw [write, hinput, Exec.castValues_singleton, Exec.run_bind_eq_ok]
  refine exists_congr fun w => exists_congr fun h₁ => and_congr_right fun hcast => ?_
  -- coercion leaves the object what it is
  have htype := (Exec.within_castValue v type h _ h₁ hcast).typeAt_eq hhas
  exact run_put_eq_ok_iff hs hbuiltin (by rwa [htype]) hi (by rwa [htype])

end Field

namespace Reflector

variable {r : Reflector} {t : TypeDef} {f : Field} {name : String}

/-- **A name and the accessors of its field agree** if the field has its name
for itself. A name that leads to an instance field of a type also leads to the
slot of an instance field that the same type declares, the field itself exactly
if no other instance field declared by that type has the name. In that case, on
every object of the type with a value in each slot, which stores and accessors
leave it, the name stands for the location of the field: the compiled getter
hands out what is read by name there, and the compiled setter succeeds just
where the input can be coerced, with the effect of a write by name of what it
is coerced to. -/
theorem named_access (hr : r.registry.Built) (ht : t ∈ r.registry.types)
    (hf : t.field? name = some f) (hinstance : f.isStatic = false) :
    (∃ g ∈ t.allFields, g.name = name ∧ g.declaringType = f.declaringType ∧
      g.isStatic = false ∧ t.instanceSlot? name = g.slot?) ∧
    (t.instanceSlot? name = f.slot? ↔ t.Sole f) ∧
    (t.Sole f → ∀ type, r.registry.find? f.type = some type →
      (∃ setter, r.Compiles (.fieldSetter (some f) none) setter) ∧
      (∃ getter, r.Compiles (.fieldGetter (some f) none) getter) ∧
      ∀ setter getter, r.Compiles (.fieldSetter (some f) none) setter →
        r.Compiles (.fieldGetter (some f) none) getter → ∀ natives h o, h.typeAt o = t →
        (h.slotsAt o).length = t.layout.length →
        ∃ l, f.location? (.object o) = some l ∧ h.Names o name l ∧
          (∀ v, h.get? o name = some v → (getter.get natives (.object o)).run h =
            (Exec.mapFault .runtime (Exec.handOut type v)).run h) ∧
          ∀ v h', (setter.set natives (.object o) v).run h = some (.ok (), h') ↔
            ∃ w h₁, (Exec.castValue v type).run h = some (.ok w, h₁) ∧
              h₁.set? o name w = some h') := by
  have hmem : f ∈ t.allFields := List.mem_of_find?_eq_some hf
  obtain ⟨ids, hb⟩ := hr
  have hiff := hb.instanceSlot?_eq_iff ht hf hinstance
  refine ⟨?_, hiff, fun hsole type htype => ?_⟩
  · obtain ⟨g, hg, hfind, hdeclaring, hname, hstatic, -⟩ := hb.exists_named ht hf hinstance
    exact ⟨g, hg, hname, hdeclaring, hstatic, by rw [TypeDef.instanceSlot?, hfind]; rfl⟩
  · obtain ⟨u, hu, s, hs, -, hhandle, hbuiltin, htype', hinput, hreceiver⟩ :=
      Registry.Built.fieldTypes? ⟨ids, hb⟩ ht hmem htype
    refine ⟨exists_set hs, exists_get hs, fun setter getter hset hget natives h o ho hlen => ?_⟩
    obtain ⟨s₁, hs₁, hset⟩ := set_eq_write hset
    obtain rfl : s = s₁ := Option.some.inj (hs.symm.trans hs₁)
    obtain ⟨s₂, hs₂, hget⟩ := get_eq_read hget
    obtain rfl : s = s₂ := Option.some.inj (hs.symm.trans hs₂)
    subst ho
    -- the name leads to the slot that the field names
    obtain ⟨i, hi⟩ : ∃ i, f.storage = .slot i := by
      cases hstorage : f.storage with
      | cell k =>
        rw [Field.isStatic, hstorage] at hinstance
        cases hinstance
      | slot i => exact ⟨i, rfl⟩
    have hslot : (h.typeAt o).instanceSlot? name = some i := by
      rw [hiff.2 hsole, Field.slot?, hi]
    have hlt : i < (h.slotsAt o).length := by
      have hat := hb.layouts.getElem?_of_slot hb.wellFormed ht hmem hi
      rw [hlen]
      exact (List.getElem?_eq_some_iff.1 hat).1
    have hnames := Heap.names_of_slot hslot hlt
    have hl : f.location? (.object o) = some (.slot o i) := by
      rw [Field.location?, hi]
      rfl
    have ha : u.handle ∈ (h.typeAt o).ancestors :=
      hhandle ▸ hb.layouts.declaring _ ht f hmem
    refine ⟨.slot o i, hl, hnames, fun v hv => ?_, fun v h' => ?_⟩
    · have hfetch := Field.run_fetch hreceiver hbuiltin (fun _ => ⟨o, rfl, ha⟩) hl
        (hnames.get ▸ hv)
      rw [hget]
      refine Exec.run_mapFault_congr ?_
      rw [Field.read, Exec.run_bind, hfetch, htype']
    · rw [hset, Exec.run_mapFault_eq_ok]
      exact Field.run_write_eq_ok_iff hinput (hreceiver hinstance) hbuiltin
        (Heap.has_of_at? hnames.there) ha hi hslot

end Reflector

namespace Sample

/-- On a dial the name of the hidden level stands for the dial's own, not for
that of the meter that it derives from. -/
theorem dial_named : dial.Sole dialLevel ∧ ∃ setter getter,
    Reflector.Compiles ⟨dashboardRegistry, {}⟩ (.fieldSetter (some dialLevel) none) setter ∧
    Reflector.Compiles ⟨dashboardRegistry, {}⟩ (.fieldGetter (some dialLevel) none) getter ∧
    panel.Names ⟨1⟩ "<level>backing" (.slot ⟨1⟩ 1) ∧
    ∀ natives, ∃ h', (setter.set natives (.object ⟨1⟩) (.int32 5)).run panel =
      some (.ok (), h') ∧ panel.set? ⟨1⟩ "<level>backing" (.int32 5) = some h' := by
  have hsole : dial.Sole dialLevel := by decide
  have ht : dial ∈ (Reflector.registry ⟨dashboardRegistry, {}⟩).types := by decide
  have hf : dial.field? "<level>backing" = some dialLevel := by decide
  obtain ⟨-, -, hagree⟩ := Reflector.named_access dashboardRegistry_built ht hf rfl
  obtain ⟨⟨setter, hset⟩, ⟨getter, hget⟩, hrun⟩ := hagree hsole _ rfl
  have hobject := fun natives => hrun setter getter hset hget natives panel ⟨1⟩ rfl rfl
  obtain ⟨l, hl, hnames, -⟩ := hobject fun _ _ => pure .null
  obtain rfl : Location.slot ⟨1⟩ 1 = l := Option.some.inj hl
  refine ⟨hsole, setter, getter, hset, hget, hnames, fun natives => ?_⟩
  obtain ⟨-, -, -, -, hwrite⟩ := hobject natives
  obtain ⟨h', hset', -⟩ := hnames.set (.int32 5)
  exact ⟨h', (hwrite _ _).2 ⟨_, _, rfl, hset'⟩, hset'⟩

/-! ## Two fields of one name -/

def twinDefinition : TypeDefinition where
  name := "Twin"
  kind := .classType
  fields := [{ name := "x", type := .int32 }, { name := "x", type := .int32 }]

def firstX : Field where
  id := ⟨66⟩
  name := "x"
  declaringType := ⟨65⟩
  type := .int32
  visibility := .anyone
  storage := .slot 0

def twin : TypeDef :=
  { TypeDef.blank ⟨65⟩ "Twin" .classType with
    base := some .object
    fields := [firstX, { firstX with id := ⟨67⟩, storage := .slot 1 }]
    layout := [firstX, { firstX with id := ⟨67⟩, storage := .slot 1 }]
    defaults := [.int32 0, .int32 0]
    constructors := [⟨⟨68⟩, ⟨65⟩, [], .anyone, none⟩] }

theorem define_twin :
    ((Catalog.standard {}).1.define twinDefinition (Catalog.standard {}).2).run {} =
      some (.ok ⟨⟨65⟩, ⟨(Catalog.standard {}).1.types ++ [twin]⟩, ⟨69⟩⟩, {}) := by rfl

/-- **A name need not lead to the slot of its field**: of two instance fields
that one type declares under one name, the first is found as a field and the
last by slot. -/
theorem twin_slots_differ : ¬ ∀ (r : Registry) (t : TypeDef) (name : String) (f : Field),
    r.Built → t ∈ r.types → t.field? name = some f → f.isStatic = false →
    t.instanceSlot? name = f.slot? := by
  intro hall
  have hbuilt : Catalog.Built ⟨(Catalog.standard {}).1.types ++ [twin]⟩ ⟨69⟩ :=
    .define (.standard {} (by decide)) (Nat.le_refl _) define_twin
  have hslot := hall (Catalog.freeze ⟨(Catalog.standard {}).1.types ++ [twin]⟩ ⟨69⟩).1 twin "x"
    firstX ⟨_, hbuilt⟩ (by decide) (by decide) rfl
  exact absurd hslot (by decide)

end Sample

end MemberAccess
