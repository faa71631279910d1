import MemberAccess.Proofs.Catalog.Binding
import MemberAccess.Proofs.Heap.Sound
/-!
# Catalog — contracts are kept

What an interface requires is an instance method in a slot, without a body,
and a property stands for methods that its type declares. A type that is
neither an interface nor abstract has every slot bound that an interface among
its ancestors requires; `Catalog.Contracts` is that invariant of building,
together with what it rests on: ancestors are closed, and an interface inherits
what its ancestors declare. So every required method resolves to a method with
a body (`Contracts.resolve?_required`).
-/

namespace MemberAccess

/-- **A property's accessors are methods of a list**, with the parameters and
the result that reading and writing call for. -/
structure Property.AccessorsIn (p : Property) (ms : List Method) : Prop where
  getter : ∀ m, p.getter = some m →
    m ∈ ms ∧ m.parameters.length = p.indexParameters.length ∧ m.returnType = p.type
  setter : ∀ m, p.setter = some m →
    m ∈ ms ∧ m.parameters.length = p.indexParameters.length + 1 ∧ m.returnType = .void

theorem Property.AccessorsIn.mono {p : Property} {ms ms' : List Method} (h : p.AccessorsIn ms)
    (hms : ms ⊆ ms') : p.AccessorsIn ms' where
  getter := fun m hm => (h.getter m hm).imp_left (hms ·)
  setter := fun m hm => (h.setter m hm).imp_left (hms ·)

/-- **A contract**: an instance method in a slot, without a body. -/
structure Method.IsContract (m : Method) : Prop where
  slot : m.slot.isSome = true
  body : m.body = none
  instance_ : m.isStatic = false

/-- **What holds of a type on its own**, finished or not. -/
structure TypeDef.Regular (t : TypeDef) : Prop where
  bodied : t.dispatch.Bodied
  /-- What an interface declares is a contract. -/
  contracts : t.isInterface = true → ∀ m ∈ t.methods, m.IsContract
  /-- A declared property stands for declared methods. -/
  properties : ∀ p ∈ t.properties, p.AccessorsIn t.methods

theorem TypeDef.Regular.binds {t t' : TypeDef} (h : t.Regular) (hb : t.Binds t') : t'.Regular where
  bodied := hb.bodied h.bodied
  contracts := by
    rw [hb.type_eq]
    exact h.contracts
  properties := by
    rw [hb.type_eq]
    exact h.properties

/-! ## Every step keeps a type regular -/

namespace Draft

variable {d : TypeDefinition} {dr dr' : Draft} {m : MethodDefinition} {n : Method}

/-- A method has the parameters and the result that it is defined with. -/
theorem signature_of_addMethod (h : dr.addMethod m = .ok (n, dr')) :
    n.parameters.length = m.parameters.length ∧ n.returnType = m.returnType := by
  obtain ⟨-, slot, dr₁, -, rfl, -⟩ := addMethod_cases h
  exact ⟨by simp [numberParameters], rfl⟩

/-- **An interface adds contracts.** -/
theorem contract_of_addMethod (hi : dr.type.isInterface = true)
    (h : dr.addMethod m = .ok (n, dr')) : n.IsContract := by
  obtain ⟨hflaw, slot, dr₁, hslot, rfl, -⟩ := addMethod_cases h
  have hmethod : m.body = none ∧ m.isStatic = false := by
    unfold TypeDef.methodFlaw? at hflaw
    cases hb : m.body <;> cases hs : m.isStatic <;> simp_all
  simp only [chooseSlot, hi, Bool.true_or, if_true] at hslot
  cases hslot
  exact ⟨rfl, hmethod.1, hmethod.2⟩

theorem regular_addMethod (hr : dr.type.Regular) (h : dr.addMethod m = .ok (n, dr')) :
    dr'.type.Regular := by
  obtain ⟨-, -, htype, -⟩ := addMethod_eq_ok h
  rw [htype]
  exact
    { bodied := TypeDef.bodied_appendMethod hr.bodied
      contracts := fun hi => forall_mem_concat (hr.contracts hi) (contract_of_addMethod hi h)
      properties := fun p hp => (hr.properties p hp).mono (List.subset_append_left _ _) }

/-- **An accessor is added as a method**, and nothing is lost. -/
theorem addAccessor_eq_ok {p : PropertyDefinition} {a : Option AccessorDefinition}
    {generated : Option MemberBody} {o : Option Method} (hr : dr.type.Regular)
    (h : dr.addAccessor p a generated m = .ok (o, dr')) :
    dr'.type.Regular ∧ dr.type.methods ⊆ dr'.type.methods ∧
      ∀ k, o = some k → k ∈ dr'.type.methods ∧
        k.parameters.length = m.parameters.length ∧ k.returnType = m.returnType := by
  rcases addAccessor_cases h with ⟨-, rfl, rfl⟩ | ⟨b, body, n, -, -, hadd, rfl⟩
  · exact ⟨hr, List.Subset.refl _, by simp⟩
  · have hmethods : dr'.type.methods = dr.type.methods ++ [n] := by
      rw [(addMethod_eq_ok hadd).2.2.1]
      rfl
    refine ⟨regular_addMethod hr hadd, ?_, fun k hk => ?_⟩
    · rw [hmethods]
      exact List.subset_append_left _ _
    · cases hk
      have hsignature := signature_of_addMethod hadd
      refine ⟨?_, hsignature⟩
      rw [hmethods]
      exact List.mem_append_right _ (List.mem_singleton.2 rfl)

theorem regular_addProperty {p : PropertyDefinition} (hr : dr.type.Regular)
    (h : dr.addProperty p = .ok dr') : dr'.type.Regular := by
  obtain ⟨place, dr₁, dr₂, q, hq⟩ := addsProperty_of_addProperty h
  obtain ⟨hr₁, -, hgetter⟩ := addAccessor_eq_ok hr hq.getter
  obtain ⟨hr₂, hsub, hsetter⟩ := addAccessor_eq_ok hr₁ hq.setter
  have hnew : q.AccessorsIn dr₂.type.methods := by
    refine ⟨fun k hk => ?_, fun k hk => ?_⟩
    · obtain ⟨hmem, hlen, hreturn⟩ := hgetter k hk
      refine ⟨hsub hmem, ?_, hreturn.trans hq.type.symm⟩
      simpa [hq.indexParameters, getMethod, numberParameters] using hlen
    · obtain ⟨hmem, hlen, hreturn⟩ := hsetter k hk
      refine ⟨hmem, ?_, hreturn⟩
      simpa [hq.indexParameters, setMethod, numberParameters] using hlen
  rw [hq.result]
  exact ⟨hr₂.bodied, hr₂.contracts, forall_mem_concat hr₂.properties hnew⟩

theorem addConstructors_eq_ok (h : dr.addConstructors d = .ok dr') :
    ∃ ks, dr'.type = { dr.type with constructors := ks } := by
  obtain ⟨ks, rfl⟩ := addConstructors_eq_foldl h
  clear h
  induction ks generalizing dr with
  | nil => exact ⟨_, rfl⟩
  | cons k ks ih => exact ih

/-- **A definition keeps a type regular**, and ends with its contracts met. -/
theorem regular_addMembers {c : Catalog} (hr : dr.type.Regular)
    (h : c.addMembers d dr = .ok dr') :
    dr'.type.Regular ∧ (dr'.type.isInterface = false →
      ∀ i ∈ c.interfacesOf dr'.type, ∀ m ∈ i.methods, dr'.type.Meets m) := by
  obtain ⟨dr₁, dr₂, t, hmethods, hproperties, hbind, hconstructors⟩ := addMembers_eq_ok h
  have hr₁ : dr₁.type.Regular :=
    invariant_of_addMethods (P := fun dr : Draft => dr.type.Regular)
      (fun _ _ _ _ hr hadd => regular_addMethod hr hadd) hmethods hr
  have hr₂ : dr₂.type.Regular :=
    invariant_of_foldlM (P := fun dr : Draft => dr.type.Regular)
      (fun dr p _ dr' hr hadd => regular_addProperty hr hadd) hproperties hr₁
  obtain ⟨ks, hks⟩ := addConstructors_eq_ok hconstructors
  cases hi : dr₂.type.isInterface with
  | true =>
    -- an interface is not bound to anything
    obtain rfl : dr₂.type = t := by simpa [TypeDef.bindAll, hi] using hbind
    rw [hks]
    refine ⟨⟨hr₂.bodied, hr₂.contracts, hr₂.properties⟩, fun hnot => ?_⟩
    exact absurd (hi.symm.trans hnot) (by simp)
  | false =>
    obtain ⟨hbinds, hmeets⟩ := TypeDef.binds_of_bindAll hi hbind
    have hr' := hr₂.binds hbinds
    have hancestors : dr'.type.ancestors = dr₂.type.ancestors := by
      rw [hks, hbinds.type_eq]
    refine ⟨?_, fun _ i hmem m hm => ?_⟩
    · rw [hks]
      exact ⟨hr'.bodied, hr'.contracts, hr'.properties⟩
    · rw [Catalog.interfacesOf, hancestors] at hmem
      have hmet := hmeets i hmem m hm
      rw [hks]
      exact hmet

/-- A property hides inherited ones, and nothing else touches them. -/
theorem inheritedProperties_of_steps (hs : Steps d dr dr') :
    dr'.type.inheritedProperties ⊆ dr.type.inheritedProperties := by
  refine chain_invariant
    (P := fun x => x.type.inheritedProperties ⊆ dr.type.inheritedProperties)
    (fun x y hs hx => ?_) hs (List.Subset.refl _)
  cases hs with
  | field f initial cell hkind => cases cell <;> exact hx
  | member hs =>
    cases hs with
    | method hadd =>
      rw [(addMethod_eq_ok hadd).2.2.1]
      exact hx
    | property p hp => exact fun q hq => hx (List.mem_of_mem_filter hq)
    | bind s m => exact hx
    | constructor k => exact hx

end Draft

/-! ## Building keeps contracts -/

namespace Catalog

/-- **What contracts come to in a catalog.** -/
structure Contracts (c : Catalog) : Prop where
  regular : ∀ t ∈ c.types, t.Regular
  root : ∀ t ∈ c.types, t.handle = .object → ∀ a ∈ t.ancestors, a = .object
  /-- Ancestors of ancestors are ancestors. -/
  closed : ∀ t ∈ c.types, ∀ u ∈ c.types, u.handle ∈ t.ancestors → u.ancestors ⊆ t.ancestors
  /-- What an interface requires, it or an interface it extends declares. -/
  methods : ∀ t ∈ c.types, t.isInterface = true → ∀ m ∈ t.allMethods,
    ∃ i ∈ c.types, i.isInterface = true ∧ i.handle ∈ t.ancestors ∧ m ∈ i.methods
  properties : ∀ t ∈ c.types, t.isInterface = true → ∀ p ∈ t.allProperties,
    ∃ i ∈ c.types, i.isInterface = true ∧ i.handle ∈ t.ancestors ∧ p ∈ i.properties
  /-- What an interface declares is bound in every type that it is an ancestor
  of, abstract types apart. -/
  bound : ∀ t ∈ c.types, t.isAbstract = false → ∀ i ∈ c.types, i.isInterface = true →
    i.handle ∈ t.ancestors → ∀ m ∈ i.methods, ∀ s, m.slot = some s →
    (t.dispatch.find? s).isSome = true

/-- **A new type that keeps the contracts of a catalog.** -/
structure Honours (c : Catalog) (t : TypeDef) : Prop where
  regular : t.Regular
  self : t.handle ∈ t.ancestors
  user : t.handle ≠ .object
  closed : ∀ u ∈ c.types, u.handle ∈ t.ancestors → u.ancestors ⊆ t.ancestors
  methods : t.isInterface = true → ∀ m ∈ t.inheritedMethods,
    ∃ u ∈ c.types, u.isInterface = true ∧ u.ancestors ⊆ t.ancestors ∧ m ∈ u.allMethods
  properties : t.isInterface = true → ∀ p ∈ t.inheritedProperties,
    ∃ u ∈ c.types, u.isInterface = true ∧ u.ancestors ⊆ t.ancestors ∧ p ∈ u.allProperties
  bound : t.isInterface = false → ∀ i ∈ c.types, i.isInterface = true →
    i.handle ∈ t.ancestors → ∀ m ∈ i.methods, t.Meets m

variable {c : Catalog} {ids : Supply} {t u : TypeDef}

/-- **A type that keeps contracts can be added**, when nothing is a kind of it
yet. -/
theorem Contracts.add (hk : c.Contracts) (ht : c.Honours t)
    (hnew : ∀ u ∈ c.types, t.handle ∉ u.ancestors) : Contracts ⟨c.types ++ [t]⟩ := by
  have hself : t ∈ c.types ++ [t] := by simp
  refine
    { regular := forall_mem_concat hk.regular ht.regular
      root := forall_mem_concat hk.root fun heq => absurd heq ht.user
      closed := forall_mem_concat (fun u hu => ?oldClosed) ?newClosed
      methods := forall_mem_concat
        (fun u hu hi m hm => exists_mem_concat (hk.methods u hu hi m hm)) ?methods
      properties := forall_mem_concat
        (fun u hu hi p hp => exists_mem_concat (hk.properties u hu hi p hp)) ?properties
      bound := forall_mem_concat (fun u hu habstract => ?oldBound) ?newBound }
  -- the new type is an ancestor of itself alone
  case oldClosed =>
    exact forall_mem_concat (hk.closed u hu) fun hmem => absurd hmem (hnew u hu)
  case newClosed => exact forall_mem_concat ht.closed fun _ => List.Subset.refl _
  case methods =>
    intro hi m hm
    rcases List.mem_append.1 hm with hm | hm
    · exact ⟨t, hself, hi, ht.self, hm⟩
    · obtain ⟨u, hu, hui, hsub, hm⟩ := ht.methods hi m hm
      obtain ⟨i, hmem, hi, ha, hm⟩ := hk.methods u hu hui m hm
      exact ⟨i, List.mem_append_left _ hmem, hi, hsub ha, hm⟩
  case properties =>
    intro hi p hp
    rcases List.mem_append.1 hp with hp | hp
    · exact ⟨t, hself, hi, ht.self, hp⟩
    · obtain ⟨u, hu, hui, hsub, hp⟩ := ht.properties hi p hp
      obtain ⟨i, hmem, hi, ha, hp⟩ := hk.properties u hu hui p hp
      exact ⟨i, List.mem_append_left _ hmem, hi, hsub ha, hp⟩
  case oldBound =>
    exact forall_mem_concat (hk.bound u hu habstract) fun _ hmem => absurd hmem (hnew u hu)
  case newBound =>
    intro habstract
    obtain ⟨habstract, hi⟩ := Bool.or_eq_false_iff.1 habstract
    refine forall_mem_concat
      (fun i hmem hii ha m hm => ht.bound hi i hmem hii ha m hm habstract) fun hii => ?_
    rw [hi] at hii
    cases hii

/-- Fields leave a type regular. -/
theorem regular_of_addFields {d : TypeDefinition} {fs : List FieldDefinition} {dr dr' : Draft}
    {h h' : Heap} (hr : dr.type.Regular)
    (hrun : (fs.foldlM (c.addField d) dr).run h = some (.ok dr', h')) : dr'.type.Regular := by
  have happend : ∀ (dr : Draft) (f : FieldDefinition) (v : Value) (cell : Option CellRef),
      dr.type.Regular → (dr.appendField f v cell).type.Regular := by
    intro dr f v cell hr
    cases cell <;> exact ⟨hr.bodied, hr.contracts, hr.properties⟩
  let R : Draft → Draft → Prop := fun dr dr' => dr.type.Regular → dr'.type.Regular
  have hchain : Relation.ReflTransGen R dr dr' := by
    refine Exec.chain_of_foldlM (fun dr _ => dr) (fun dr f h dr' h' hf => .single fun hr => ?_) hrun
    obtain ⟨-, initial, h₁, -, hrest⟩ := addField_eq_ok hf
    split at hrest
    · exact hrest.1 ▸ happend dr f initial _ hr
    · exact hrest.1 ▸ happend dr f initial _ hr
  exact chain_invariant (P := fun dr : Draft => dr.type.Regular) (fun _ _ hR => hR) hchain hr

/-- What is inherited is regular. -/
theorem Contracts.regular_of_inherits (hk : c.Contracts) {d : TypeDefinition} {n : TypeHandle}
    {base : Option TypeDef} {is : List TypeDef} (hin : c.Inherits d n base is t) : t.Regular := by
  obtain ⟨-, -, -, -, -, hmethods, hproperties, -⟩ := hin.head
  have hbodied : t.dispatch.Bodied := by
    rw [hin.dispatch_eq]
    cases hb : base with
    | none => exact .empty
    | some b => exact (hk.regular b (hin.mem_base hb).2.1).bodied
  exact ⟨hbodied, by simp [hmethods], by simp [hproperties]⟩

/-- Ancestors that come from types of the catalog bring theirs. -/
theorem Contracts.closed_of_inherits (hk : c.Contracts) {d : TypeDefinition} {n : TypeHandle}
    {base : Option TypeDef} {is : List TypeDef} (hin : c.Inherits d n base is t)
    (hfresh : ∀ u ∈ c.types, u.handle ≠ n) (hu : u ∈ c.types) (hmem : u.handle ∈ t.ancestors) :
    u.ancestors ⊆ t.ancestors := by
  intro a ha
  rw [hin.mem_ancestors] at hmem ⊢
  rcases hmem with hmem | ⟨i, hi, hmem⟩ | ⟨b, hb, hmem⟩
  · rcases eq_of_mem_blank d.name d.kind hmem with heq | heq
    · exact absurd heq (hfresh u hu)
    · rw [hk.root u hu heq a ha, ← heq]
      exact .inl hmem
  · exact .inr (.inl ⟨i, hi, hk.closed i (hin.mem_interfaces hi).1 u hu hmem ha⟩)
  · exact .inr (.inr ⟨b, hb, hk.closed b (hin.mem_base hb).2.1 u hu hmem ha⟩)

/-- **What a definition adds keeps the contracts of the catalog.** -/
theorem honours_of_define {d : TypeDefinition} {ids' : Supply} {h h' : Heap} {o : Defined}
    (hc : c.WellFormed ids) (hk : c.Contracts) (hids : ids.next ≤ ids'.next)
    (hrun : (c.define d ids').run h = some (.ok o, h')) :
    ∃ t, c.Honours t ∧ (∀ u ∈ c.types, t.handle ∉ u.ancestors) ∧
      o.catalog = ⟨c.types ++ [t]⟩ := by
  obtain ⟨t, dr, dr', -, hinherit, hfields, hmembers, rfl⟩ := define_eq_ok hrun
  obtain ⟨base, is, hin⟩ := inherits_of_inherit hinherit
  have hsteps := (steps_of_addFields hfields).trans (Draft.steps_of_addMembers hmembers).steps
  have hfits := fits_of_define hc hids hin hsteps
  have hx := hin.extends hc hsteps
  obtain ⟨hhandle, -, hkind, -⟩ := hin.head
  have hself : dr'.type.handle = ⟨ids'.next⟩ := hx.handle.trans hhandle
  have hr := regular_of_addFields (hk.regular_of_inherits hin) hfields
  obtain ⟨hregular, hmeets⟩ := Draft.regular_addMembers hr hmembers
  -- an interface has no base
  have hbase : dr'.type.isInterface = true → base = none := by
    intro hi
    cases hb : base with
    | none => rfl
    | some b =>
      rw [TypeDef.isInterface, hx.kind, hkind, (hin.mem_base hb).1] at hi
      cases hi
  have hbrings : ∀ i ∈ is, i.ancestors ⊆ dr'.type.ancestors := by
    intro i hi a ha
    rw [hx.ancestors, hin.mem_ancestors]
    exact .inr (.inl ⟨i, hi, ha⟩)
  refine ⟨dr'.type, ?_, fun u hu => hfits.not_mem_ancestors hc hu, rfl⟩
  refine
    { regular := hregular, self := hfits.self, user := TypeHandle.ne_object hfits.user
      closed := fun u hu hmem => ?closed, methods := fun hi m hm => ?methods
      properties := fun hi p hp => ?properties, bound := fun hi i hmem hii ha m hm => ?bound }
  case closed =>
    rw [hx.ancestors] at hmem ⊢
    exact hk.closed_of_inherits hin (hself ▸ hfits.fresh) hu hmem
  case methods =>
    rcases hin.mem_inheritedMethods (hx.inheritedMethods hm) with ⟨i, hmem, hm⟩ | ⟨b, hb, -⟩
    · obtain ⟨hic, hii⟩ := hin.mem_interfaces hmem
      exact ⟨i, hic, hii, hbrings i hmem, hm⟩
    · rw [hbase hi] at hb
      cases hb
  case properties =>
    rcases hin.mem_inheritedProperties (Draft.inheritedProperties_of_steps hsteps hp) with
      ⟨i, hmem, hp⟩ | ⟨b, hb, -⟩
    · obtain ⟨hic, hii⟩ := hin.mem_interfaces hmem
      exact ⟨i, hic, hii, hbrings i hmem, hp⟩
    · rw [hbase hi] at hb
      cases hb
  case bound =>
    refine hmeets hi i (List.mem_filter.2 ⟨List.mem_filterMap.2 ⟨i.handle, ha, ?_⟩, hii⟩) m hm
    exact hc.find?_eq hmem

/-- Built-in types have no members and require nothing. -/
theorem Contracts.standard (h : TypeHandle.firstUser ≤ ids.next) :
    (standard ids).1.Contracts where
  regular := forall_mem_standard fun _ _ _ _ _ =>
    ⟨.empty, fun _ m hm => absurd hm List.not_mem_nil, fun p hp => absurd hp List.not_mem_nil⟩
  root := by
    intro t ht heq a ha
    rcases eq_of_mem_ancestors_standard t ht ha with rfl | rfl
    · exact heq
    · rfl
  closed := by
    intro t ht u hu hmem a ha
    rcases eq_of_mem_ancestors_standard t ht hmem with heq | heq
    · exact (WellFormed.standard h).eq_of_handle hu ht heq ▸ ha
    · rcases eq_of_mem_ancestors_standard u hu ha with rfl | rfl
      · exact hmem
      · exact heq ▸ hmem
  methods := fun t ht hi => absurd (hi.symm.trans (isInterface_standard t ht)) (by simp)
  properties := fun t ht hi => absurd (hi.symm.trans (isInterface_standard t ht)) (by simp)
  bound := fun t _ _ i hi hii => absurd (hii.symm.trans (isInterface_standard i hi)) (by simp)

/-- **Every built catalog keeps its contracts.** -/
theorem Built.contracts (h : c.Built ids) : c.Contracts := by
  induction h with
  | standard ids h => exact .standard h
  | define hc hids hrun ih =>
    obtain ⟨t, ht, hnew, hcatalog⟩ := honours_of_define hc.wellFormed ih hids hrun
    rw [hcatalog]
    exact ih.add ht hnew

namespace Contracts

variable {i : TypeDef} {m n : Method} {p : Property}

/-- **What an interface requires is a contract** that an interface declares. -/
theorem isContract (hk : c.Contracts) (hi : i ∈ c.types) (hii : i.isInterface = true)
    (hm : m ∈ i.allMethods) : m.IsContract := by
  obtain ⟨j, hj, hji, -, hm⟩ := hk.methods i hi hii m hm
  exact (hk.regular j hj).contracts hji m hm

/-- **An interface's property stands for methods that the interface
requires.** -/
theorem accessors (hk : c.Contracts) (hi : i ∈ c.types) (hii : i.isInterface = true)
    (hp : p ∈ i.allProperties) : ∃ j ∈ c.types, j.isInterface = true ∧
      j.handle ∈ i.ancestors ∧ p.AccessorsIn j.methods := by
  obtain ⟨j, hj, hji, ha, hp⟩ := hk.properties i hi hii p hp
  exact ⟨j, hj, hji, ha, (hk.regular j hj).properties p hp⟩

/-- **A required method resolves to a method with a body** on every type that
is neither abstract nor an interface. -/
theorem resolve?_required (hk : c.Contracts) (ht : t ∈ c.types) (habstract : t.isAbstract = false)
    (hi : i ∈ c.types) (hii : i.isInterface = true) (ha : i.handle ∈ t.ancestors)
    (hm : m ∈ i.allMethods) : ∃ n, t.resolve? m = some n ∧ n.body.isSome = true := by
  obtain ⟨j, hj, hji, hja, hm⟩ := hk.methods i hi hii m hm
  obtain ⟨s, hs⟩ := Option.isSome_iff_exists.1 ((hk.regular j hj).contracts hji m hm).slot
  -- the interface that declares the method is an ancestor too
  have hjt : j.handle ∈ t.ancestors := hk.closed t ht i hi ha hja
  obtain ⟨n, hn⟩ := Option.isSome_iff_exists.1 (hk.bound t ht habstract j hj hji hjt m hm s hs)
  refine ⟨n, ?_, (hk.regular t ht).bodied s n hn⟩
  rw [TypeDef.resolve?, hs]
  simp [hn]

end Contracts

end Catalog

end MemberAccess
