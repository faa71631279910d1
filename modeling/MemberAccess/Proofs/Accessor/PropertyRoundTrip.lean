import MemberAccess.Proofs.Accessor.Generated
import MemberAccess.Proofs.Accessor.RoundTrip
import MemberAccess.Proofs.Catalog.Accessors
import MemberAccess.Proofs.Catalog.Layout
import MemberAccess.Proofs.Heap.Equal
/-!
# Accessor — what is written to a property is read back

A get method and a set method are dispatched each on its own, so on instances
of one type they may end at generated bodies over different fields
(`Property.ReadsFrom`, `Property.WritesTo`). Over one field they make a round
trip; over two, a write is nothing that a read would see
(`Reflector.property_set_get`). They are over one field whenever both have been
resolved to the accessors of one declared property.
-/

namespace MemberAccess

/-- **A method accesses a field** on instances of a type: what it resolves to
there has a body generated over the field. Static methods are called on nothing,
so their field has to be static too. -/
structure Method.Accesses (m : Method) (t : TypeDef) (f : Field) (body : MemberBody) : Prop where
  resolved : ∃ n, t.resolve? m = some n ∧ n.body = some body
  isStatic : m.isStatic = true → f.isStatic = true

namespace Property

/-- **A property is read from a field** on instances of a type. -/
def ReadsFrom (p : Property) (t : TypeDef) (f : Field) : Prop :=
  ∃ m, p.getter = some m ∧ m.Accesses t f f.storage.reader

/-- **A property is written to a field** on instances of a type. -/
def WritesTo (p : Property) (t : TypeDef) (f : Field) : Prop :=
  ∃ m, p.setter = some m ∧ m.Accesses t f f.storage.writer

end Property

/-- Different storages have different locations in one object. -/
theorem Storage.location?_inj {s s' : Storage} {o : ObjectRef} {l : Location}
    (h : s.location? (some o) = some l) (h' : s'.location? (some o) = some l) : s = s' := by
  cases s <;> cases s' <;> cases h <;> cases h' <;> rfl

/-- What a field's accessor is called on holds the field. -/
theorem Method.Accesses.location? {m : Method} {t : TypeDef} {f : Field} {body : MemberBody}
    (hm : m.Accesses t f body) (o : ObjectRef) :
    f.storage.location? (m.this? o) = f.location? (.object o) := by
  rw [Field.location?_object, Method.this?]
  cases hstatic : m.isStatic with
  | false => rfl
  | true =>
    have hf := hm.isStatic hstatic
    unfold Field.isStatic at hf
    cases hs : f.storage with
    | cell k => rfl
    | slot i =>
      rw [hs] at hf
      cases hf

/-! ## Equal to what was written -/

namespace Field

variable {t : TypeDef} {h h₁ h₂ : Heap} {v w stored : Value} {l : Location}

/-- **What is read back is equal to what was written**, unless there was a NaN
in it, or the write has changed the very value that was written. -/
theorem ReadBack.eq? (hback : ReadBack t h v h₁ h₂ w) (hw : h.WritesOnly h₁ l stored)
    (hgrows : h₁.Grows h₂) (hc : h.Closed) (hc₁ : h₁.Closed) (hv : h.Reaches v)
    (hread : t.isValueType = true → ∃ c, h.contents? h.objects.size v = some c ∧
      h₂.contents? h₁.objects.size w = some c) (hnan : h.NaNFree v)
    (hties : ∀ o i, l = .slot o i → t.isValueType = true → ¬ h.Ties v o) :
    h₂.eq? w v = some true := by
  cases hvalue : t.isValueType with
  | false =>
    rw [hback.same (.inl hvalue)]
    exact hnan.eq?_self h₂
  | true =>
    obtain ⟨c, hv₀, hw₂⟩ := hread hvalue
    -- neither the write nor the copy of what is handed out shows in the value
    have hv₁ : h₁.contents? h.objects.size v = some c := by
      rw [hw.toChangesOnly.contents?_eq_of_not_ties hc hv fun o i hl => hties o i hl.symm hvalue]
      exact hv₀
    have hv₂ := (hgrows.contents?_eq hc₁ (hw.keeps.reaches hv)).trans hv₁
    exact Heap.eq?_of_contents hw₂ hv₂ hgrows.keeps.size_le (hnan _ c hv₀)

end Field

/-! ## Accesses to a property over a field -/

/-- **An accessor method and the types of an access** go together: an instance
method takes the receiver as an instance of a defined type. -/
structure Method.TakesReceiver (m : Method) (s : FieldTypes) (u : TypeDef) : Prop where
  slot : m.isStatic = true → m.slot = none
  receiver : m.isStatic = false → s.receiver = [u]
  builtin : u.handle.isBuiltin = false

namespace Property

variable {m : Method} {s : FieldTypes} {t u : TypeDef} {f : Field} {h h' : Heap} {o : ObjectRef}
  {v w : Value} {l : Location} (natives : Natives)

/-- **A write succeeds**: the value is coerced, and then one location is
written. -/
theorem run_write (hm : m.Accesses (h.typeAt o) f f.storage.writer) (htakes : m.TakesReceiver s u)
    (hs : s.input = [t]) (ha : u.handle ∈ (h.typeAt o).ancestors) (ho : h.Has o) (hc : h.Closed)
    (hacyclic : h.Acyclic) (hv : h.Reaches v) (hadmissible : h.isAdmissible v t = true)
    (hl : f.location? (.object o) = some l) (hthere : (h.at? l).isSome = true) :
    ∃ v' h₁ h', (write natives m s (.object o) v).run h = some (.ok (), h') ∧
      h.Coerced h₁ t v v' ∧ h₁.Overwrites h' l v' := by
  obtain ⟨v', h₁, hcast, hcoerced⟩ :=
    Exec.run_castValue hc (fun _ => hacyclic.hasContents v) hv hadmissible
  have hgrows := hcoerced.copies.toGrows
  have htype := hgrows.typeAt_eq ho
  obtain ⟨n, hn, hbody⟩ := hm.resolved
  have hl' := (hm.location? o).trans hl
  obtain ⟨h', hwrite, hoverwrites⟩ := Storage.run_writer natives
    ⟨m.this? o, [v']⟩ hl' (by rwa [hgrows.at?_eq hthere]) rfl
  refine ⟨v', h₁, h', ?_, hcoerced, hoverwrites⟩
  have hinvocation := Method.run_invocation (h := h₁) [v'] htakes.receiver htakes.builtin
    (by rwa [htype])
  have hrun := Method.run_runBody_of_resolve? (h := h₁) natives [v'] htakes.slot
    (by rwa [htype]) hbody
  unfold write
  rw [hs, Exec.castValues_singleton]
  refine Exec.run_bind_eq_ok.2 ⟨v', h₁, hcast, Exec.run_bind_eq_ok.2 ⟨_, h₁, hinvocation, ?_⟩⟩
  exact Exec.run_bind_eq_ok.2 ⟨.null, h', hrun.trans hwrite, rfl⟩

/-- **A read hands out** what is at the location. -/
theorem run_read (hm : m.Accesses (h.typeAt o) f f.storage.reader) (htakes : m.TakesReceiver s u)
    (ha : u.handle ∈ (h.typeAt o).ancestors) (hl : f.location? (.object o) = some l)
    (hw : h.at? l = some w) :
    (read natives m s (.object o)).run h = (Exec.handOut s.type w).run h := by
  obtain ⟨n, hn, hbody⟩ := hm.resolved
  have hread := Storage.run_reader natives ⟨m.this? o, []⟩ ((hm.location? o).trans hl) hw
  have hrun := Method.run_runBody_of_resolve? natives [] htakes.slot hn hbody
  have hinvocation := Method.run_invocation [] htakes.receiver htakes.builtin ha
  unfold read
  simp only [Exec.run_bind, hinvocation, hrun.trans hread]

end Property

namespace Registry

variable {r : Registry} {p : Property} {m : Method} {u type : TypeDef} {s s' : FieldTypes}

/-- An access works with one choice of types. -/
theorem HasPropertyTypes.unique {owner value : Option TypeHandle}
    (hs : r.HasPropertyTypes p m owner value s) (hs' : r.HasPropertyTypes p m owner value s') :
    s = s' := by
  obtain ⟨ts, is, t⟩ := s
  obtain ⟨ts', is', t'⟩ := s'
  obtain rfl : t = t' := Option.some.inj (hs.type.symm.trans hs'.type)
  obtain rfl : is = is' := Option.some.inj (hs.input.symm.trans hs'.input)
  have hreceiver := hs.receiver
  have hreceiver' := hs'.receiver
  cases hstatic : m.isStatic with
  | true =>
    simp only [hstatic, if_true] at hreceiver hreceiver'
    rw [hreceiver, hreceiver']
  | false =>
    simp only [hstatic, Bool.false_eq_true, if_false] at hreceiver hreceiver'
    rw [Option.some.inj (hreceiver.symm.trans hreceiver')]

/-- **The types of an access without a view** to a property, by a method of the
declaring type. -/
theorem Built.exists_propertyTypes (hr : r.Built) (hu : u ∈ r.types) (hm : m ∈ u.methods)
    (htype : r.find? p.type = some type) :
    ∃ s, r.HasPropertyTypes p m none none s ∧ m.TakesReceiver s u ∧ s.type = type ∧
      s.input = [type] := by
  obtain ⟨ids, hb⟩ := hr
  have hc := hb.wellFormed
  have hdeclaring := hb.methods_declaring u hu m hm
  obtain ⟨hbuiltin, hslot⟩ := hc.methods u hu m (List.mem_append_left _ hm)
  have hreceiver : r.receiverTypes m.declaringType none = some [u] := by
    simp [receiverTypes, hdeclaring, hc.find?_eq hu]
  refine ⟨⟨if m.isStatic then [] else [u], [type], type⟩, ⟨htype, by simp [inputTypes], ?_⟩,
    ⟨hslot, fun hstatic => by simp [hstatic], hdeclaring ▸ hbuiltin⟩, rfl, rfl⟩
  cases hstatic : m.isStatic with
  | true => simp
  | false => simpa using hreceiver

/-- **A field has a location** in every instance of a type that has the
field. -/
theorem Built.exists_location_of_mem (hr : r.Built) {t : TypeDef} {f : Field} {h : Heap}
    {o : ObjectRef} (hs : h.Sound r.toCatalog) (ht : t ∈ r.types) (hf : f ∈ t.allFields)
    (ho : h.typeAt o = t) : ∃ l, f.location? (.object o) = some l ∧ (h.at? l).isSome = true := by
  obtain ⟨ids, hb⟩ := hr
  obtain ⟨a, ha, hfa, hhandle, -⟩ := hb.wellFormed.exists_declaring ht hf
  refine Built.exists_location ⟨ids, hb⟩ hs ha hfa hhandle fun _ => ⟨o, rfl, ?_⟩
  rw [ho, hhandle]
  exact hb.layouts.declaring t ht f hf

end Registry

namespace Reflector

variable {r : Reflector} {p : Property} {f g : Field} {t u type : TypeDef}

/-- **What is written to a property is read back if both accessors are over one
field.** The property is declared by a type or by any ancestor of it, and on
instances of that type its accessors are generated, over one field or over two.
Then it has a setter and a getter. The setter stores every value that the type
of the property admits; over two fields that changes nothing that the getter
reads. Over one field the getter hands out what was written, which is equal to
the value passed unless that holds a NaN, or is a struct that itself nests the
object written to. And it is one field whenever both methods resolve to the
accessors of one declared property. -/
theorem property_set_get (hr : r.registry.Built) (ht : t ∈ r.registry.types)
    (hu : u ∈ r.registry.types) (ha : u.handle ∈ t.ancestors) (hp : p ∈ u.properties)
    (hindex : p.indexParameters = []) (htype : r.registry.find? p.type = some type)
    (hf : f ∈ t.allFields) (hg : g ∈ t.allFields) (hreads : p.ReadsFrom t f)
    (hwrites : p.WritesTo t g) :
    (∃ setter, r.Compiles (.propertySetter (some p) (some true) none) setter) ∧
    (p.type ≠ .void → ∃ getter, r.Compiles (.propertyGetter (some p) (some true) none) getter) ∧
    ((∃ a ∈ r.registry.types, ∃ q ∈ a.properties, p.getter.bind t.resolve? = q.getter ∧
      p.setter.bind t.resolve? = q.setter) → f.storage = g.storage) ∧
    ∀ choice setter choice' getter, r.Compiles (.propertySetter (some p) choice none) setter →
      r.Compiles (.propertyGetter (some p) choice' none) getter → ∀ natives h o v,
      h.Sound r.registry.toCatalog → h.Acyclic → h.Has o → h.typeAt o = t → h.Reaches v →
      h.isAdmissible v type = true →
      ∃ h', (setter.set natives (.object o) v).run h = some (.ok (), h') ∧
        (f.storage ≠ g.storage → ∀ l, f.location? (.object o) = some l → h'.at? l = h.at? l) ∧
        (f.storage = g.storage → ∃ w h'',
          (getter.get natives (.object o)).run h' = some (.ok w, h'') ∧
          Field.ReadBack type h v h' h'' w ∧
          (h.NaNFree v →
            (∀ i, f.storage = .slot i → type.isValueType = true → ¬ h.Ties v o) →
            h''.eq? w v = some true)) := by
  obtain ⟨m, hgetter, hm⟩ := hreads
  obtain ⟨k, hsetter, hk⟩ := hwrites
  have haccessors : p.AccessorsIn u.methods := by
    obtain ⟨ids, hb⟩ := hr
    exact (hb.contracts.regular u hu).properties p hp
  have hmu := (haccessors.getter m hgetter).1
  have hku := (haccessors.setter k hsetter).1
  have hslot : ∀ m ∈ u.methods, m.isStatic = true → m.slot = none := by
    obtain ⟨ids, hb⟩ := hr
    exact fun m hm => hb.wellFormed.slot_eq_none hu hm
  obtain ⟨s, hs, hstakes, hstype, -⟩ := hr.exists_propertyTypes hu hmu htype
  obtain ⟨s', hs', hstakes', -, hsinput⟩ := hr.exists_propertyTypes hu hku htype
  refine ⟨exists_set_property haccessors hindex hsetter hs',
    exists_get_property haccessors hindex hgetter hs, ?_, ?_⟩
  · rintro ⟨a, hamem, q, hq, hget, hset⟩
    obtain ⟨ids, hb⟩ := hr
    obtain ⟨place, hplace⟩ := hb.keepsProperties a hamem q hq
    obtain ⟨n, hn, hread⟩ := hm.resolved
    obtain ⟨n', hn', hwrite⟩ := hk.resolved
    rw [hgetter, Option.bind_some, hn] at hget
    rw [hsetter, Option.bind_some, hn'] at hset
    exact hplace.storage_eq hget.symm hset.symm hread hwrite
  · intro choice setter choice' getter hset hget natives h o v hsound hacyclic ho htypeAt hv
      hadmissible
    obtain ⟨k₁, s₁, hk₁, hs₁, hset⟩ := set_eq_write_property haccessors hslot hset
    obtain rfl : k = k₁ := Option.some.inj (hsetter.symm.trans hk₁)
    obtain rfl := hs'.unique hs₁
    obtain ⟨m₁, s₂, hm₁, hs₂, hget⟩ := get_eq_read_property haccessors hslot hget
    obtain rfl : m = m₁ := Option.some.inj (hgetter.symm.trans hm₁)
    obtain rfl := hs.unique hs₂
    obtain ⟨l, hl, hthere⟩ := hr.exists_location_of_mem hsound ht hg htypeAt
    subst htypeAt
    obtain ⟨v', h₁, h', hrun, hcoerced, hover⟩ := Property.run_write natives hk
      hstakes' hsinput ha ho hsound.closed hacyclic hv hadmissible hl hthere
    have hover' := hover.after_growth hcoerced.copies.toGrows hthere
    rw [hset]
    refine ⟨h', Exec.run_mapFault_eq_ok.2 hrun, fun hne l' hl' => ?_, fun heq => ?_⟩
    · obtain ⟨l'', hl'', hthere'⟩ := hr.exists_location_of_mem hsound ht hf rfl
      obtain rfl : l'' = l' := Option.some.inj (hl''.symm.trans hl')
      refine hover'.others l'' (fun hsame => hne ?_) hthere'
      rw [Field.location?_object] at hl hl'
      exact Storage.location?_inj hl' (hsame ▸ hl)
    · have hlf : f.location? (.object o) = some l := by
        rw [Field.location?_object, heq, ← Field.location?_object]
        exact hl
      have htypeAt := hover'.keeps.typeAt_eq o ho
      have hread := Property.run_read (h := h') (s := s) natives (by rwa [htypeAt])
        hstakes (by rwa [htypeAt]) hlf hover.written
      obtain ⟨w, h'', hout, hgrows, hback, hcontents⟩ :=
        Field.run_handOut_of_written hsound.closed hcoerced hover hthere
      refine ⟨w, h'', ?_, hback, fun hnan hties => ?_⟩
      · rw [hget]
        exact Exec.run_mapFault_eq_ok.2 (hread.trans (hstype ▸ hout))
      · have hclosed := hover.closed (hcoerced.copies.closed hsound.closed) hcoerced.reaches
        refine hback.eq? hover' hgrows hsound.closed hclosed hv hcontents hnan ?_
        rintro o' i rfl hvalue
        obtain ⟨hslot, heq⟩ := Field.location?_eq_slot hlf
        cases heq
        exact hties i hslot hvalue

end Reflector

namespace Sample

/-! ## A property of which one accessor is overridden -/

/-- A level that is kept for it. -/
def levelDefinition : PropertyDefinition :=
  { PropertyDefinition.auto "level" .int32 with dispatch := .virtual }

def meterDefinition : TypeDefinition where
  name := "Meter"
  kind := .classType
  properties := [levelDefinition]

/-- A dial shows a level of its own, which cannot be set. -/
def dialDefinition : TypeDefinition where
  name := "Dial"
  kind := .classType
  base := some ⟨65⟩
  properties := [{ levelDefinition with dispatch := .override, setter := none }]

def meterLevel : Field where
  id := ⟨66⟩
  name := "<level>backing"
  declaringType := ⟨65⟩
  type := .int32
  visibility := .owner
  storage := .slot 0

def dialLevel : Field := { meterLevel with id := ⟨74⟩, declaringType := ⟨73⟩, storage := .slot 1 }

def getLevel : Method where
  id := ⟨68⟩
  name := "get_level"
  declaringType := ⟨65⟩
  parameters := []
  returnType := .int32
  visibility := .anyone
  isStatic := false
  slot := some ⟨67⟩
  body := some (.readSlot 0)

def setLevel : Method where
  id := ⟨70⟩
  name := "set_level"
  declaringType := ⟨65⟩
  parameters := [⟨"value", .int32, 0⟩]
  returnType := .void
  visibility := .anyone
  isStatic := false
  slot := some ⟨69⟩
  body := some (.writeSlot 0)

def dialGetLevel : Method :=
  { getLevel with id := ⟨75⟩, declaringType := ⟨73⟩, body := some (.readSlot 1) }

def level : Property := ⟨⟨71⟩, "level", ⟨65⟩, .int32, some getLevel, some setLevel, []⟩

def meter : TypeDef :=
  { TypeDef.blank ⟨65⟩ "Meter" .classType with
    base := some .object
    fields := [meterLevel]
    layout := [meterLevel]
    defaults := [.int32 0]
    properties := [level]
    methods := [getLevel, setLevel]
    constructors := [⟨⟨72⟩, ⟨65⟩, [], .anyone, none⟩]
    dispatch := ⟨[(⟨69⟩, setLevel), (⟨67⟩, getLevel)]⟩ }

def dial : TypeDef :=
  { TypeDef.blank ⟨73⟩ "Dial" .classType with
    base := some ⟨65⟩
    ancestors := [.object, ⟨73⟩, ⟨65⟩]
    fields := [dialLevel]
    inheritedFields := [meterLevel]
    layout := [meterLevel, dialLevel]
    defaults := [.int32 0, .int32 0]
    properties := [⟨⟨76⟩, "level", ⟨73⟩, .int32, some dialGetLevel, none, []⟩]
    methods := [dialGetLevel]
    inheritedMethods := [setLevel]
    constructors := [⟨⟨77⟩, ⟨73⟩, [], .anyone, none⟩]
    dispatch := ⟨[(⟨67⟩, dialGetLevel), (⟨69⟩, setLevel)]⟩ }

def dashboard : Catalog := ⟨(Catalog.standard {}).1.types ++ [meter] ++ [dial]⟩

theorem define_meter :
    ((Catalog.standard {}).1.define meterDefinition (Catalog.standard {}).2).run {} =
      some (.ok ⟨⟨65⟩, ⟨(Catalog.standard {}).1.types ++ [meter]⟩, ⟨73⟩⟩, {}) := by rfl

theorem define_dial :
    (Catalog.define ⟨(Catalog.standard {}).1.types ++ [meter]⟩ dialDefinition ⟨73⟩).run {} =
      some (.ok ⟨⟨73⟩, dashboard, ⟨78⟩⟩, {}) := by rfl

theorem dashboard_built : dashboard.Built ⟨78⟩ :=
  .define (.define (.standard {} (by decide)) (Nat.le_refl _) define_meter) (Nat.le_refl _)
    define_dial

def dashboardRegistry : Registry := (dashboard.freeze ⟨78⟩).1

theorem dashboardRegistry_built : dashboardRegistry.Built := ⟨⟨78⟩, dashboard_built⟩

/-- A meter and a dial. -/
def panel : Heap where
  objects := #[⟨meter, [.int32 0]⟩, ⟨dial, [.int32 0, .int32 0]⟩]

theorem panel_cases {o : ObjectRef} (ho : panel.Has o) :
    panel.typeAt o ∈ dashboardRegistry.types ∧
      (panel.slotsAt o).length = (panel.typeAt o).layout.length ∧
      ∀ v ∈ panel.slotsAt o, v = .int32 0 := by
  obtain ⟨i⟩ := o
  have hlt : i < 2 := ho
  have hi : i = 0 ∨ i = 1 := by omega
  rcases hi with rfl | rfl <;> decide

theorem panel_sound : panel.Sound dashboardRegistry.toCatalog where
  closed := by
    refine ⟨fun o v hv p hp => ?_, fun k => by simp [panel, Heap.readCell, Heap.Reaches]⟩
    rw [(panel_cases (Heap.has_of_mem_slotsAt hv)).2.2 v hv] at hp
    cases hp
  types o ho _ _ _ _ := (panel_cases ho).1
  slots o ho := (panel_cases ho).2.1
  cells t ht f hf k hk := by
    have hslots : ∀ t ∈ dashboardRegistry.types, ∀ f ∈ t.fields, f.isStatic = false := by decide
    have hstatic := hslots t ht f hf
    rw [Field.isStatic, hk] at hstatic
    cases hstatic

theorem panel_acyclic : panel.Acyclic := by
  refine Heap.acyclic_of_older fun o p hp => ?_
  cases (panel_cases (Heap.has_of_mem_slotsAt hp)).2.2 _ hp

/-- A meter is set to a level, which it then shows. -/
theorem meter_set_get : ∃ setter getter,
    Reflector.Compiles ⟨dashboardRegistry, {}⟩ (.propertySetter (some level) (some true) none)
      setter ∧
    Reflector.Compiles ⟨dashboardRegistry, {}⟩ (.propertyGetter (some level) (some true) none)
      getter ∧
    ∀ natives, ∃ h' w h'',
      (setter.set natives (.object ⟨0⟩) (.int32 5)).run panel = some (.ok (), h') ∧
      (getter.get natives (.object ⟨0⟩)).run h' = some (.ok w, h'') ∧
      h''.eq? w (.int32 5) = some true := by
  have ht : meter ∈ (Reflector.registry ⟨dashboardRegistry, {}⟩).types := by decide
  obtain ⟨⟨setter, hset⟩, hgetter, -, hrun⟩ := Reflector.property_set_get
    (f := meterLevel) (g := meterLevel) dashboardRegistry_built ht ht (by decide)
    (show level ∈ meter.properties by decide) rfl rfl (by decide) (by decide)
    ⟨getLevel, rfl, ⟨getLevel, by decide, rfl⟩, by decide⟩
    ⟨setLevel, rfl, ⟨setLevel, by decide, rfl⟩, by decide⟩
  obtain ⟨getter, hget⟩ := hgetter (by decide)
  refine ⟨setter, getter, hset, hget, fun natives => ?_⟩
  obtain ⟨h', hwritten, -, hback⟩ := hrun _ _ _ _ hset hget natives panel ⟨0⟩ (.int32 5)
    panel_sound panel_acyclic (by decide : 0 < 2) rfl nofun rfl
  obtain ⟨w, h'', hread, -, heq⟩ := hback rfl
  refine ⟨h', w, h'', hwritten, hread, heq (Heap.naNFree_of_box?_eq_none rfl nofun) ?_⟩
  rintro _ _ _ ⟨p, hp, -⟩
  cases hp

/-- **A dial does not show the level that it is set to**: it is set as a meter
is, and shows a level of its own. -/
theorem dial_not_set : ¬ ∀ (r : Reflector) (t u type : TypeDef) (p : Property) (f g : Field),
    r.registry.Built → t ∈ r.registry.types → u ∈ r.registry.types → u.handle ∈ t.ancestors →
    p ∈ u.properties → p.indexParameters = [] → r.registry.find? p.type = some type →
    f ∈ t.allFields → g ∈ t.allFields → p.ReadsFrom t f → p.WritesTo t g → f.type = p.type →
    g.type = p.type →
    ∀ setter getter, r.Compiles (.propertySetter (some p) (some true) none) setter →
      r.Compiles (.propertyGetter (some p) (some true) none) getter → ∀ natives h o v,
      h.Sound r.registry.toCatalog → h.Acyclic → h.Has o → h.typeAt o = t → h.Reaches v →
      h.isAdmissible v type = true → h.NaNFree v →
      ∃ h' w h'', (setter.set natives (.object o) v).run h = some (.ok (), h') ∧
        (getter.get natives (.object o)).run h' = some (.ok w, h'') ∧ h''.eq? w v = some true := by
  intro hall
  have hset : Reflector.Compiles ⟨dashboardRegistry, {}⟩
    (.propertySetter (some level) (some true) none) _ := ⟨{}, rfl⟩
  have hget : Reflector.Compiles ⟨dashboardRegistry, {}⟩
    (.propertyGetter (some level) (some true) none) _ := ⟨{}, rfl⟩
  let natives : Natives := fun _ _ => pure .null
  obtain ⟨h', w, h'', hwritten, hread, heq⟩ := hall ⟨dashboardRegistry, {}⟩ dial meter _ level
    dialLevel meterLevel dashboardRegistry_built (by decide) (by decide) (by decide) (by decide) rfl
    rfl (by decide) (by decide) ⟨getLevel, rfl, ⟨dialGetLevel, by decide, rfl⟩, by decide⟩
    ⟨setLevel, rfl, ⟨setLevel, by decide, rfl⟩, by decide⟩ rfl rfl _ _ hset hget natives panel ⟨1⟩
    (.int32 5) panel_sound panel_acyclic (by decide : 1 < 2) rfl nofun rfl
    (Heap.naNFree_of_box?_eq_none rfl nofun)
  cases hwritten
  cases hread
  cases heq

end Sample

end MemberAccess
