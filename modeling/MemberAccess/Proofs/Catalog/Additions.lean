import MemberAccess.Proofs.Catalog.Binding
import MemberAccess.Proofs.Catalog.Lineage
/-!
# Catalog — how a definition comes by its methods

Methods and the accessors of properties are added one by one, and between them
a definition only does what no method notices. `Draft.Adds` says everything
about one addition: where the slot comes from, what the new method is and what
it changes. `Catalog.Phases` takes a definition apart into what is inherited, a
chain of additions, and the binding of interfaces.
-/

namespace MemberAccess

namespace Draft

variable {d : TypeDefinition} {dr dr' : Draft} {m : MethodDefinition} {n : Method}

/-- **Where the slot of a new method comes from**, and the supply that is left
of it. -/
inductive SlotSource (dr : Draft) (m : MethodDefinition) : Option VirtualSlot → Supply → Prop
  /-- Outside interfaces a method may stay out of dispatch. -/
  | direct (hi : dr.type.isInterface = false) (hd : m.dispatch = .direct) :
      SlotSource dr m none dr.supply
  /-- A method of an interface and a virtual one open a slot. -/
  | opened (hd : dr.type.isInterface = true ∨ m.dispatch = .virtual) :
      SlotSource dr m (some ⟨dr.supply.next⟩) ⟨dr.supply.next + 1⟩
  /-- An override takes over the slot of what it overrides. -/
  | takenOver {k : Method} {s : VirtualSlot} (hi : dr.type.isInterface = false)
      (hd : m.dispatch = .override) (hk : dr.type.overridden? m = some k)
      (hs : k.slot = some s) : SlotSource dr m (some s) dr.supply

/-- **What it is to add a method.** -/
structure Adds (dr : Draft) (m : MethodDefinition) (n : Method) (dr' : Draft) : Prop where
  flawless : dr.type.methodFlaw? m = none
  name : n.name = m.name
  parameterTypes : n.parameterTypes = m.parameterTypes
  isStatic : n.isStatic = m.isStatic
  body : n.body = m.body
  /-- The identity is the next after the slot. -/
  source : ∃ ids, SlotSource dr m n.slot ids ∧ n.id = ⟨ids.next⟩ ∧ dr'.supply = ⟨ids.next + 1⟩
  type_eq : dr'.type = dr.type.appendMethod m.dispatch n

/-- Numbering parameters keeps their types. -/
theorem types_numberParameters (ps : List ParameterDefinition) :
    (numberParameters ps).map (·.type) = ps.map (·.type) := by
  refine List.ext_getElem? fun i => ?_
  simp [numberParameters, Function.comp_def]

/-- A slot that has been chosen has a source. -/
theorem source_of_chooseSlot {slot : Option VirtualSlot}
    (h : dr.chooseSlot m = .ok (slot, dr')) : SlotSource dr m slot dr'.supply := by
  unfold chooseSlot at h
  split at h
  · rename_i hopens
    cases h
    exact .opened (by simpa using hopens)
  · rename_i hnot
    obtain ⟨hi, hvirtual⟩ : dr.type.isInterface = false ∧ m.dispatch ≠ .virtual := by
      simpa using hnot
    split at h
    · rename_i hd
      split at h
      · rename_i s hs
        cases h
        obtain ⟨k, hk, hs⟩ := Option.bind_eq_some_iff.1 hs
        exact .takenOver hi hd hk hs
      · cases h
    · rename_i hoverride
      cases h
      refine .direct hi ?_
      cases hd : m.dispatch with
      | direct => rfl
      | virtual => exact absurd hd hvirtual
      | override => exact absurd hd hoverride

/-- **A method that is added is as it was defined.** -/
theorem adds_of_addMethod (h : dr.addMethod m = .ok (n, dr')) : dr.Adds m n dr' := by
  obtain ⟨hflaw, slot, dr₁, hslot, rfl, rfl⟩ := addMethod_cases h
  refine ⟨hflaw, rfl, types_numberParameters m.parameters, rfl, rfl, ?_, ?_⟩
  · exact ⟨dr₁.supply, source_of_chooseSlot hslot, rfl, rfl⟩
  · rw [(chooseSlot_eq_ok hslot).1]

namespace Adds

/-- Interfaces have no bodies. -/
theorem isInterface_of_body (h : dr.Adds m n dr') (hb : n.body.isSome = true) :
    dr.type.isInterface = false := by
  have hflaw := h.flawless
  rw [h.body] at hb
  unfold TypeDef.methodFlaw? at hflaw
  cases hi : dr.type.isInterface with
  | false => rfl
  | true => simp [hi, hb] at hflaw

/-- **Outside any slot a method has a body.** -/
theorem body_of_slot (h : dr.Adds m n dr') (hs : n.slot = none) : n.body.isSome = true := by
  obtain ⟨ids, hsource, -⟩ := h.source
  rw [hs] at hsource
  cases hsource with
  | direct hi hd =>
    have hflaw := h.flawless
    rw [h.body]
    unfold TypeDef.methodFlaw? at hflaw
    cases hb : m.body with
    | some body => rfl
    | none => simp [hi, hd, hb] at hflaw

/-- In a slot it is an instance method. -/
theorem isStatic_of_slot (h : dr.Adds m n dr') (hs : n.slot.isSome = true) :
    n.isStatic = false := by
  cases hstatic : n.isStatic with
  | false => rfl
  | true =>
    -- a static method is neither an interface's nor virtual
    have hnot : dr.type.isInterface = false ∧ m.dispatch = .direct := by
      have hflaw := h.flawless
      rw [h.isStatic] at hstatic
      unfold TypeDef.methodFlaw? at hflaw
      cases hi : dr.type.isInterface <;> cases hd : m.dispatch <;> cases hb : m.body <;> simp_all
    obtain ⟨ids, hsource, -⟩ := h.source
    generalize n.slot = slot at hs hsource
    cases hsource with
    | direct hi hd => cases hs
    | opened hd => simp [hnot] at hd
    | takenOver hi hd hk hs => simp [hnot] at hd

/-- The supply is used from where it stood. -/
theorem id_lt (h : dr.Adds m n dr') :
    dr.supply.next ≤ n.id.raw ∧ n.id.raw < dr'.supply.next := by
  obtain ⟨ids, hsource, hid, hsupply⟩ := h.source
  rw [hid, hsupply]
  generalize n.slot = slot at hsource
  cases hsource with
  | direct hi hd => exact ⟨Nat.le_refl _, Nat.lt_succ_self _⟩
  | opened hd => exact ⟨Nat.le_succ _, Nat.lt_succ_self _⟩
  | takenOver hi hd hk hs => exact ⟨Nat.le_refl _, Nat.lt_succ_self _⟩

/-- **A slot is new, or an inherited method with the signature carries it.** -/
theorem slot_cases (h : dr.Adds m n dr') {s : VirtualSlot} (hs : n.slot = some s) :
    (dr.supply.next ≤ s.raw ∧ s.raw < dr'.supply.next) ∨
      dr.type.isInterface = false ∧ m.dispatch = .override ∧
        ∃ k ∈ dr.type.inheritedMethods, k.slot = some s ∧ k.name = n.name ∧
          k.parameterTypes = n.parameterTypes := by
  obtain ⟨ids, hsource, -, hsupply⟩ := h.source
  rw [hs] at hsource
  cases hsource with
  | opened hd =>
    refine .inl ⟨Nat.le_refl _, ?_⟩
    rw [hsupply]
    exact Nat.lt_succ_of_lt (Nat.lt_succ_self _)
  | takenOver hi hd hk hs =>
    rename_i k
    have hsignature := List.find?_some hk
    obtain ⟨hname, htypes⟩ : k.name = m.name ∧ k.parameterTypes = m.parameterTypes := by
      simp only [Bool.and_eq_true, Method.hasSignature, beq_iff_eq] at hsignature
      exact hsignature.2
    exact .inr ⟨hi, hd, k, List.mem_of_find?_eq_some hk, hs, hname.trans h.name.symm,
      htypes.trans h.parameterTypes.symm⟩

/-- **What the type becomes**: the method is its last, and inherited methods
only disappear. -/
theorem methods_eq (h : dr.Adds m n dr') :
    dr'.type.methods = dr.type.methods ++ [n] ∧
      dr'.type.isInterface = dr.type.isInterface ∧
      dr'.type.inheritedMethods.Sublist dr.type.inheritedMethods := by
  rw [h.type_eq]
  refine ⟨rfl, rfl, ?_⟩
  simp only [TypeDef.appendMethod]
  split
  · exact List.filter_sublist
  · exact .refl _

/-- **What becomes of the table**: a method with a body is installed in its
slot, and no other method is. -/
theorem dispatch_cases (h : dr.Adds m n dr') :
    ((n.slot = none ∨ n.body = none) ∧ dr'.type.dispatch = dr.type.dispatch) ∨
      ∃ s, n.slot = some s ∧ n.body.isSome = true ∧ dr'.type.dispatch = dr.type.install s n := by
  have hdispatch : dr'.type.dispatch = (dr.type.appendMethod m.dispatch n).dispatch := by
    rw [h.type_eq]
  cases hs : n.slot with
  | none => exact .inl ⟨.inl rfl, by simp [hdispatch, TypeDef.appendMethod, hs]⟩
  | some s =>
    cases hb : n.body with
    | none => exact .inl ⟨.inr rfl, by simp [hdispatch, TypeDef.appendMethod, hs, hb]⟩
    | some body =>
      have hi := h.isInterface_of_body (by simp [hb])
      exact .inr ⟨s, rfl, rfl, by simp [hdispatch, TypeDef.appendMethod, hs, hb, hi]⟩

/-- **What an override takes over is hidden.** -/
theorem hidden (h : dr.Adds m n dr') (hd : m.dispatch = .override) {s : VirtualSlot}
    (hs : n.slot = some s) {k : Method} (hk : k ∈ dr'.type.inheritedMethods) :
    k.slot ≠ some s := by
  rw [h.type_eq, TypeDef.appendMethod, if_pos hd] at hk
  have hne := (List.mem_filter.1 hk).2
  intro heq
  simp [hs, heq] at hne

end Adds

/-! ## What no method notices -/

/-- **Nothing happens to the methods of a type.** -/
structure KeepsMethods (dr dr' : Draft) : Prop where
  isInterface : dr'.type.isInterface = dr.type.isInterface
  ancestors : dr'.type.ancestors = dr.type.ancestors
  methods : dr'.type.methods = dr.type.methods
  inheritedMethods : dr'.type.inheritedMethods = dr.type.inheritedMethods
  dispatch : dr'.type.dispatch = dr.type.dispatch
  supply : dr.supply.next ≤ dr'.supply.next

theorem KeepsMethods.refl (dr : Draft) : dr.KeepsMethods dr :=
  ⟨rfl, rfl, rfl, rfl, rfl, Nat.le_refl _⟩

theorem KeepsMethods.trans {dr₁ dr₂ dr₃ : Draft} (h : dr₁.KeepsMethods dr₂)
    (h' : dr₂.KeepsMethods dr₃) : dr₁.KeepsMethods dr₃ where
  isInterface := h'.isInterface.trans h.isInterface
  ancestors := h'.ancestors.trans h.ancestors
  methods := h'.methods.trans h.methods
  inheritedMethods := h'.inheritedMethods.trans h.inheritedMethods
  dispatch := h'.dispatch.trans h.dispatch
  supply := Nat.le_trans h.supply h'.supply

/-- **A method is added**, or nothing happens to methods. -/
inductive MethodStep : Draft → Draft → Prop
  | adds {dr dr' : Draft} {m : MethodDefinition} {n : Method} (h : dr.Adds m n dr') :
      MethodStep dr dr'
  | keeps {dr dr' : Draft} (h : dr.KeepsMethods dr') : MethodStep dr dr'

def MethodSteps : Draft → Draft → Prop := Relation.ReflTransGen MethodStep

/-- Ancestors stay what was inherited. -/
theorem MethodSteps.ancestors_eq (hs : MethodSteps dr dr') :
    dr'.type.ancestors = dr.type.ancestors := by
  refine chain_invariant (P := fun x => x.type.ancestors = dr.type.ancestors)
    (fun x y hs hx => ?_) hs rfl
  cases hs with
  | adds ha => rw [ha.type_eq, ← hx]; rfl
  | keeps hk => exact hk.ancestors.trans hx

theorem keeps_appendField (dr : Draft) (f : FieldDefinition) (initial : Value)
    (cell : Option CellRef) : dr.KeepsMethods (dr.appendField f initial cell) := by
  cases cell <;> exact ⟨rfl, rfl, rfl, rfl, rfl, Nat.le_succ _⟩

theorem methodSteps_of_addAccessor {p : PropertyDefinition} {a : Option AccessorDefinition}
    {generated : Option MemberBody} {o : Option Method}
    (h : dr.addAccessor p a generated m = .ok (o, dr')) : MethodSteps dr dr' := by
  rcases addAccessor_cases h with ⟨-, -, rfl⟩ | ⟨b, body, n, -, -, hadd, -⟩
  · exact .refl
  · exact .single (.adds (adds_of_addMethod hadd))

theorem methodSteps_of_addProperty {p : PropertyDefinition} (h : dr.addProperty p = .ok dr') :
    MethodSteps dr dr' := by
  obtain ⟨place, dr₁, dr₂, q, hq⟩ := addsProperty_of_addProperty h
  have haccessors :=
    (methodSteps_of_addAccessor hq.getter).trans (methodSteps_of_addAccessor hq.setter)
  rw [hq.result]
  exact haccessors.tail (.keeps ⟨rfl, rfl, rfl, rfl, rfl, Nat.le_succ _⟩)

theorem keeps_addConstructors (h : dr.addConstructors d = .ok dr') : dr.KeepsMethods dr' := by
  obtain ⟨ks, rfl⟩ := addConstructors_eq_foldl h
  clear h
  induction ks generalizing dr with
  | nil => exact .refl dr
  | cons k ks ih =>
    have hstep : dr.KeepsMethods (dr.addConstructor k) :=
      ⟨rfl, rfl, rfl, rfl, rfl, Nat.le_succ _⟩
    exact hstep.trans ih

end Draft

namespace Catalog

variable {c : Catalog} {d : TypeDefinition} {ids : Supply} {h h' : Heap} {o : Defined}

/-- **The phases of a definition**: a type inherits, methods are added to it,
interfaces are bound, and the rest does not touch methods. -/
structure Phases (c : Catalog) (d : TypeDefinition) (n : Nat) (base : Option TypeDef)
    (is : List TypeDef) (t : TypeDef) (dr : Draft) (t' : TypeDef) (dr' : Draft) : Prop where
  inherits : c.Inherits d ⟨n⟩ base is t
  adds : Draft.MethodSteps ⟨t, ⟨n + 1⟩⟩ dr
  binds : dr.type.bindAll (c.interfacesOf dr.type) = .ok t'
  keeps : Draft.KeepsMethods ⟨t', dr.supply⟩ dr'
  steps : Draft.Steps d ⟨t, ⟨n + 1⟩⟩ dr'

/-! Fields, methods and properties are added in a chain of steps. -/

theorem methodSteps_of_addFields {fs : List FieldDefinition} {dr dr' : Draft}
    (hfields : (fs.foldlM (c.addField d) dr).run h = some (.ok dr', h')) :
    Draft.MethodSteps dr dr' := by
  refine Exec.chain_of_foldlM (fun dr _ => dr) (fun dr f h dr' h' hf => ?_) hfields
  obtain ⟨-, initial, h₁, -, hrest⟩ := addField_eq_ok hf
  split at hrest
  · exact hrest.1 ▸ .single (.keeps (dr.keeps_appendField f initial _))
  · exact hrest.1 ▸ .single (.keeps (dr.keeps_appendField f initial _))

theorem methodSteps_of_addMethods {ms : List MethodDefinition} {dr dr' : Draft}
    (hmethods : ms.foldlM (fun dr m => (·.2) <$> dr.addMethod m) dr = .ok dr') :
    Draft.MethodSteps dr dr' := by
  refine chain_of_foldlM id (fun dr m dr' hstep => ?_) hmethods
  obtain ⟨⟨n, dr₁⟩, hadd, rfl⟩ := map_eq_ok.1 hstep
  exact .single (.adds (Draft.adds_of_addMethod hadd))

theorem methodSteps_of_addProperties {ps : List PropertyDefinition} {dr dr' : Draft}
    (hproperties : ps.foldlM Draft.addProperty dr = .ok dr') : Draft.MethodSteps dr dr' :=
  chain_of_foldlM id (fun _ _ _ hp => Draft.methodSteps_of_addProperty hp) hproperties

/-- Every definition goes through the phases. -/
theorem phases_of_define (hrun : (c.define d ids).run h = some (.ok o, h')) :
    ∃ base is t dr t' dr', c.Phases d ids.next base is t dr t' dr' ∧
      o.catalog = ⟨c.types ++ [dr'.type]⟩ ∧ o.supply = dr'.supply := by
  obtain ⟨t, dr₀, dr', -, hinherit, hfields, hmembers, rfl⟩ := define_eq_ok hrun
  obtain ⟨base, is, hin⟩ := inherits_of_inherit hinherit
  have hsteps := (steps_of_addFields hfields).trans (Draft.steps_of_addMembers hmembers).steps
  obtain ⟨dr₁, dr₂, t', hmethods, hproperties, hbind, hconstructors⟩ :=
    Draft.addMembers_eq_ok hmembers
  have hadds := ((methodSteps_of_addFields hfields).trans
    (methodSteps_of_addMethods hmethods)).trans (methodSteps_of_addProperties hproperties)
  have hphases : c.Phases d ids.next base is t dr₂ t' dr' :=
    { inherits := hin, adds := hadds
      binds := hbind, keeps := Draft.keeps_addConstructors hconstructors, steps := hsteps }
  exact ⟨base, is, t, dr₂, t', dr', hphases, rfl, rfl⟩

namespace Phases

variable {n : Nat} {base : Option TypeDef} {is : List TypeDef} {t t' : TypeDef} {dr dr' : Draft}

/-- Past the additions only the table changes. -/
theorem methods_eq (hp : c.Phases d n base is t dr t' dr') :
    dr'.type.methods = dr.type.methods ∧
      dr'.type.inheritedMethods = dr.type.inheritedMethods ∧
      dr'.type.isInterface = dr.type.isInterface := by
  have hframe := TypeDef.type_eq_of_bindAll hp.binds
  rw [hp.keeps.methods, hp.keeps.inheritedMethods, hp.keeps.isInterface, hframe]
  exact ⟨rfl, rfl, rfl⟩

/-- Ancestors are inherited. -/
theorem ancestors_eq (hp : c.Phases d n base is t dr t' dr') :
    dr.type.ancestors = t.ancestors ∧ dr'.type.ancestors = t.ancestors := by
  have hframe := TypeDef.type_eq_of_bindAll hp.binds
  refine ⟨hp.adds.ancestors_eq, ?_⟩
  rw [hp.keeps.ancestors, hframe]
  exact hp.adds.ancestors_eq

theorem base_eq (hp : c.Phases d n base is t dr t' dr') :
    dr'.type.base = base.map (·.handle) :=
  hp.steps.sameHead.base.trans hp.inherits.base_handle

end Phases

end Catalog

end MemberAccess
