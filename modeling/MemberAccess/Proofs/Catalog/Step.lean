import MemberAccess.Catalog.Define
import MemberAccess.Proofs.Exec
import MemberAccess.Proofs.Partial
/-!
# Catalog — what a definition does to a draft, step by step

What adding one member comes to is said once, for a method, an accessor, a
property, the constructors and all members (`Draft.addMethod_cases` to
`Draft.addMembers_eq_ok`); whatever else is known of an addition follows from
that. A definition that succeeds is a chain of steps, each of which appends one
member or binds one slot (`Draft.Step`). What holds of a type under construction
is proved step by step and carried along the chain, beginning with what no step
touches (`TypeDef.SameHead`).
-/

namespace MemberAccess

/-- **What is settled about a type before members are added to it.** -/
structure TypeDef.SameHead (t t' : TypeDef) : Prop where
  handle : t.handle = t'.handle
  name : t.name = t'.name
  kind : t.kind = t'.kind
  declaredAbstract : t.declaredAbstract = t'.declaredAbstract
  isSealed : t.isSealed = t'.isSealed
  base : t.base = t'.base
  interfaces : t.interfaces = t'.interfaces
  ancestors : t.ancestors = t'.ancestors
  inheritedFields : t.inheritedFields = t'.inheritedFields

theorem TypeDef.SameHead.trans {t t' t'' : TypeDef} (h : t.SameHead t') (h' : t'.SameHead t'') :
    t.SameHead t'' where
  handle := h.handle.trans h'.handle
  name := h.name.trans h'.name
  kind := h.kind.trans h'.kind
  declaredAbstract := h.declaredAbstract.trans h'.declaredAbstract
  isSealed := h.isSealed.trans h'.isSealed
  base := h.base.trans h'.base
  interfaces := h.interfaces.trans h'.interfaces
  ancestors := h.ancestors.trans h'.ancestors
  inheritedFields := h.inheritedFields.trans h'.inheritedFields

namespace Draft

variable {d : TypeDefinition} {dr dr' : Draft} {m : MethodDefinition} {n : Method}
  {p : PropertyDefinition}

/-- **A member other than a field is added**, or a slot is bound. -/
inductive MemberStep : Draft → Draft → Prop
  | method {dr dr' : Draft} {m : MethodDefinition} {n : Method}
      (h : dr.addMethod m = .ok (n, dr')) : MemberStep dr dr'
  /-- A property is appended and hides what is inherited under its name. -/
  | property (dr : Draft) (p : Property) (h : p.declaringType = dr.type.handle) :
      MemberStep dr { dr.nextId.2 with
        type := { dr.type with
          inheritedProperties := dr.type.inheritedProperties.filter (·.name != p.name)
          properties := dr.type.properties ++ [p] } }
  /-- A slot that an interface requires is bound. -/
  | bind (dr : Draft) (s : VirtualSlot) (m : Method) :
      MemberStep dr { dr with type := { dr.type with dispatch := dr.type.dispatch.bind s m } }
  | constructor (dr : Draft) (k : ConstructorDefinition) : MemberStep dr (dr.addConstructor k)

def MemberSteps : Draft → Draft → Prop := Relation.ReflTransGen MemberStep

/-- **One step of a definition.** -/
inductive Step (d : TypeDefinition) : Draft → Draft → Prop
  /-- A field is appended; interfaces have none. -/
  | field (dr : Draft) (f : FieldDefinition) (initial : Value) (cell : Option CellRef)
      (h : d.kind ≠ .interfaceType) : Step d dr (dr.appendField f initial cell)
  | member {dr dr' : Draft} (h : MemberStep dr dr') : Step d dr dr'

/-- **The steps of a definition**, in order. -/
def Steps (d : TypeDefinition) : Draft → Draft → Prop := Relation.ReflTransGen (Step d)

theorem MemberSteps.steps (h : MemberSteps dr dr') : Steps d dr dr' := by
  induction h with
  | refl => exact .refl
  | tail _ hstep ih => exact ih.tail (.member hstep)

/-! ## What one addition comes to -/

/-- A slot is chosen without touching the type. -/
theorem chooseSlot_eq_ok {slot : Option VirtualSlot} (h : dr.chooseSlot m = .ok (slot, dr')) :
    dr'.type = dr.type ∧ dr.supply.next ≤ dr'.supply.next := by
  unfold chooseSlot at h
  split at h
  · cases h
    exact ⟨rfl, Nat.le_succ _⟩
  · split at h
    · split at h
      · cases h
        exact ⟨rfl, Nat.le_refl _⟩
      · cases h
    · cases h
      exact ⟨rfl, Nat.le_refl _⟩

/-- A static method gets no slot. -/
theorem slot_of_static {slot : Option VirtualSlot} (hflaw : dr.type.methodFlaw? m = none)
    (hs : m.isStatic = true) (h : dr.chooseSlot m = .ok (slot, dr')) : slot = none := by
  -- a static method is neither an interface's nor virtual
  have hnot : dr.type.isInterface = false ∧ m.dispatch = .direct := by
    unfold TypeDef.methodFlaw? at hflaw
    cases hi : dr.type.isInterface <;> cases hd : m.dispatch <;> cases hb : m.body <;> simp_all
  unfold chooseSlot at h
  rw [hnot.1, hnot.2] at h
  cases h
  rfl

/-- **What adding a method comes to**: nothing is wrong with it, its slot is
chosen, and the method in that slot is appended under the next identity. -/
theorem addMethod_cases (h : dr.addMethod m = .ok (n, dr')) :
    dr.type.methodFlaw? m = none ∧ ∃ slot dr₁, dr.chooseSlot m = .ok (slot, dr₁) ∧
      n = {
        id := dr₁.nextId.1
        name := m.name
        declaringType := dr₁.type.handle
        parameters := numberParameters m.parameters
        returnType := m.returnType
        visibility := m.visibility
        isStatic := m.isStatic
        slot := slot
        body := m.body } ∧
      dr' = { dr₁.nextId.2 with type := dr₁.type.appendMethod m.dispatch n } := by
  unfold addMethod at h
  cases hflaw : dr.type.methodFlaw? m with
  | some flaw => simp [hflaw, invalid] at h
  | none =>
    simp only [hflaw] at h
    obtain ⟨⟨slot, dr₁⟩, hslot, h⟩ := bind_eq_ok.1 h
    cases h
    exact ⟨rfl, slot, dr₁, hslot, rfl, rfl⟩

/-- **A method that is added** is declared by the type and has a fresh
identity; a static one has no slot. -/
theorem addMethod_eq_ok (h : dr.addMethod m = .ok (n, dr')) :
    n.declaringType = dr.type.handle ∧ (n.isStatic = true → n.slot = none) ∧
      dr'.type = dr.type.appendMethod m.dispatch n ∧ dr.supply.next ≤ dr'.supply.next := by
  obtain ⟨hflaw, slot, dr₁, hslot, rfl, rfl⟩ := addMethod_cases h
  obtain ⟨htype, hnext⟩ := chooseSlot_eq_ok hslot
  refine ⟨congrArg TypeDef.handle htype, fun hs => slot_of_static hflaw hs hslot, ?_, ?_⟩
  · rw [htype]
  · exact Nat.le_succ_of_le hnext

/-- **An accessor is added as a method**, if the property has it. -/
theorem addAccessor_cases {a : Option AccessorDefinition} {generated : Option MemberBody}
    {o : Option Method} (h : dr.addAccessor p a generated m = .ok (o, dr')) :
    (a = none ∧ o = none ∧ dr' = dr) ∨
      ∃ b body n, a = some b ∧ dr.accessorBody p b generated = .ok body ∧
        dr.addMethod { m with visibility := b.visibility, body := body } = .ok (n, dr') ∧
        o = some n := by
  cases a with
  | none =>
    cases h
    exact .inl ⟨rfl, rfl, rfl⟩
  | some b =>
    obtain ⟨body, hbody, h⟩ := bind_eq_ok.1 h
    obtain ⟨⟨n, dr₁⟩, hadd, h⟩ := bind_eq_ok.1 h
    cases h
    exact .inr ⟨b, body, n, rfl, hbody, hadd, rfl⟩

/-- **What adding a property comes to**: its storage is resolved, its accessors
become methods one after the other, and the property that has them is appended
and hides what is inherited under its name. -/
structure AddsProperty (dr : Draft) (p : PropertyDefinition) (place : Option Storage)
    (dr₁ dr₂ : Draft) (q : Property) (dr' : Draft) : Prop where
  backing : dr.backingStorage p = .ok place
  getter : dr.addAccessor p p.getter (place.map (·.reader)) (getMethod p) = .ok (q.getter, dr₁)
  setter : dr₁.addAccessor p p.setter (place.map (·.writer)) (setMethod p) = .ok (q.setter, dr₂)
  declaringType : q.declaringType = dr₂.type.handle
  type : q.type = p.type
  indexParameters : q.indexParameters = numberParameters p.indexParameters
  result : dr' = { dr₂.nextId.2 with
    type := { dr₂.type with
      inheritedProperties := dr₂.type.inheritedProperties.filter (·.name != q.name)
      properties := dr₂.type.properties ++ [q] } }

theorem addsProperty_of_addProperty (h : dr.addProperty p = .ok dr') :
    ∃ place dr₁ dr₂ q, dr.AddsProperty p place dr₁ dr₂ q dr' := by
  obtain ⟨place, hplace, h⟩ := bind_eq_ok.1 h
  obtain ⟨⟨getter, dr₁⟩, hget, h⟩ := bind_eq_ok.1 h
  obtain ⟨⟨setter, dr₂⟩, hset, h⟩ := bind_eq_ok.1 h
  cases h
  exact ⟨place, dr₁, dr₂, _, hplace, hget, hset, rfl, rfl, rfl, rfl⟩

/-- Constructors are added one after the other: those of the definition, or the
one that a class without any gets. -/
theorem addConstructors_eq_foldl (h : dr.addConstructors d = .ok dr') :
    ∃ ks : List ConstructorDefinition, dr' = ks.foldl addConstructor dr := by
  unfold addConstructors at h
  split at h
  · split at h
    · cases h
      exact ⟨[], rfl⟩
    · cases h
  · split at h
    · cases h
      exact ⟨[_], rfl⟩
    · cases h
      exact ⟨d.constructors, rfl⟩

/-- **What adding members comes to**: methods, properties, the interfaces that
the methods are bound to, and constructors. -/
theorem addMembers_eq_ok {c : Catalog} (h : c.addMembers d dr = .ok dr') :
    ∃ dr₁ dr₂ t, d.methods.foldlM (fun dr m => (·.2) <$> dr.addMethod m) dr = .ok dr₁ ∧
      d.properties.foldlM addProperty dr₁ = .ok dr₂ ∧
      dr₂.type.bindAll (c.interfacesOf dr₂.type) = .ok t ∧
      addConstructors { dr₂ with type := t } d = .ok dr' := by
  obtain ⟨dr₁, hmethods, h⟩ := bind_eq_ok.1 h
  obtain ⟨dr₂, hproperties, h⟩ := bind_eq_ok.1 h
  obtain ⟨t, hbind, h⟩ := bind_eq_ok.1 h
  exact ⟨dr₁, dr₂, t, hmethods, hproperties, hbind, h⟩

/-! ## What no step touches -/

theorem MemberStep.sameHead (hs : MemberStep dr dr') : dr'.type.SameHead dr.type := by
  cases hs with
  | method hadd =>
    rw [(addMethod_eq_ok hadd).2.2.1]
    constructor <;> rfl
  | property p hp => constructor <;> rfl
  | bind s m => constructor <;> rfl
  | constructor k => constructor <;> rfl

theorem Step.sameHead (hs : Step d dr dr') : dr'.type.SameHead dr.type := by
  cases hs with
  | field f initial cell hkind => cases cell <;> constructor <;> rfl
  | member hs => exact hs.sameHead

/-- **Members leave the head of a type alone.** -/
theorem Steps.sameHead (hs : Steps d dr dr') : dr'.type.SameHead dr.type := by
  induction hs with
  | refl => constructor <;> rfl
  | tail _ hstep ih => exact hstep.sameHead.trans ih

theorem MemberSteps.sameHead (hs : MemberSteps dr dr') : dr'.type.SameHead dr.type :=
  Steps.sameHead (d := default) hs.steps

/-- **Only fields take storage.** -/
theorem MemberSteps.storage_eq (h : MemberSteps dr dr') :
    dr'.type.fields = dr.type.fields ∧ dr'.type.layout = dr.type.layout ∧
      dr'.type.defaults = dr.type.defaults := by
  induction h with
  | refl => exact ⟨rfl, rfl, rfl⟩
  | tail _ hstep ih =>
    obtain ⟨hfields, hlayout, hdefaults⟩ := ih
    rw [← hfields, ← hlayout, ← hdefaults]
    cases hstep with
    | method hadd =>
      rw [(addMethod_eq_ok hadd).2.2.1]
      exact ⟨rfl, rfl, rfl⟩
    | property p hp => exact ⟨rfl, rfl, rfl⟩
    | bind s m => exact ⟨rfl, rfl, rfl⟩
    | constructor k => exact ⟨rfl, rfl, rfl⟩

/-! ## Members are added in a chain of steps -/

/-- What each method keeps, all methods keep. -/
theorem invariant_of_addMethods {P : Draft → Prop}
    (hP : ∀ dr m n dr', P dr → dr.addMethod m = .ok (n, dr') → P dr') {ms : List MethodDefinition}
    (h : ms.foldlM (fun dr m => (·.2) <$> dr.addMethod m) dr = .ok dr') (hdr : P dr) : P dr' := by
  refine invariant_of_foldlM (P := P) (fun dr m _ dr' hdr hstep => ?_) h hdr
  obtain ⟨⟨n, dr₁⟩, hadd, rfl⟩ := map_eq_ok.1 hstep
  exact hP dr m n dr₁ hdr hadd

theorem steps_of_addMethods {ms : List MethodDefinition}
    (h : ms.foldlM (fun dr m => (·.2) <$> dr.addMethod m) dr = .ok dr') : MemberSteps dr dr' := by
  refine chain_of_foldlM id (fun dr m dr' hstep => ?_) h
  obtain ⟨⟨n, dr₁⟩, hadd, rfl⟩ := map_eq_ok.1 hstep
  exact .single (.method hadd)

theorem steps_of_addAccessor {a : Option AccessorDefinition} {generated : Option MemberBody}
    {o : Option Method} (h : dr.addAccessor p a generated m = .ok (o, dr')) :
    MemberSteps dr dr' := by
  rcases addAccessor_cases h with ⟨-, -, rfl⟩ | ⟨b, body, n, -, -, hadd, -⟩
  · exact .refl
  · exact .single (.method hadd)

theorem steps_of_addProperty (h : dr.addProperty p = .ok dr') : MemberSteps dr dr' := by
  obtain ⟨place, dr₁, dr₂, q, hq⟩ := addsProperty_of_addProperty h
  rw [hq.result]
  exact ((steps_of_addAccessor hq.getter).trans (steps_of_addAccessor hq.setter)).tail
    (.property dr₂ q hq.declaringType)

/-- Binding the slots of interfaces touches the dispatch table alone. -/
theorem steps_of_bindAll {is : List TypeDef} {t : TypeDef} (h : dr.type.bindAll is = .ok t) :
    MemberSteps dr { dr with type := t } := by
  have hmethod : ∀ (i : String) (t : TypeDef) (required : Method) (t' : TypeDef),
      TypeDef.bindMethod i t required = .ok t' →
      MemberSteps { dr with type := t } { dr with type := t' } := by
    intro i t required t' hb
    unfold TypeDef.bindMethod at hb
    split at hb
    · cases hb
      exact .refl
    · split at hb
      · cases hb
        exact .single (.bind { dr with type := t } _ _)
      · cases hb
        exact .refl
      · split at hb
        · cases hb
          exact .refl
        · cases hb
  unfold TypeDef.bindAll at h
  split at h
  · cases h
    exact .refl
  · let view : TypeDef → Draft := fun t => { dr with type := t }
    refine chain_of_foldlM view (fun t i t' hi => ?_) h
    exact chain_of_foldlM view (hmethod i.name) hi

theorem steps_of_addConstructors (h : dr.addConstructors d = .ok dr') : MemberSteps dr dr' := by
  obtain ⟨ks, rfl⟩ := addConstructors_eq_foldl h
  clear h
  induction ks generalizing dr with
  | nil => exact .refl
  | cons k ks ih => exact .head (.constructor dr k) ih

theorem steps_of_addMembers {c : Catalog} (h : c.addMembers d dr = .ok dr') :
    MemberSteps dr dr' := by
  obtain ⟨dr₁, dr₂, t, hmethods, hproperties, hbind, hconstructors⟩ := addMembers_eq_ok h
  have hp : MemberSteps dr₁ dr₂ :=
    chain_of_foldlM id (fun _ _ _ hp => steps_of_addProperty hp) hproperties
  exact (((steps_of_addMethods hmethods).trans hp).trans (steps_of_bindAll hbind)).trans
    (steps_of_addConstructors hconstructors)

end Draft

end MemberAccess
