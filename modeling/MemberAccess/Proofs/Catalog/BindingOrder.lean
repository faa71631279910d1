import MemberAccess.Proofs.Catalog.MostDerived
/-!
# Catalog — the order in which interfaces are bound does not matter

What a contract is bound to is read off the type's own methods, the slot of the
contract and the inherited methods, in this order (`TypeDef.provider?`); what
is found is the most derived already. Contracts have slots of their own, which
no class takes part in, so binding one changes the slot of that one alone and
gives none another provider (`TypeDef.Bound.bindMethod`). So the table comes to
the same in any order, slot by slot, and binding fails in any order or in none
(`Catalog.Built.bindAll_confluent`).
-/

namespace MemberAccess

namespace TypeDef

/-! ## All that interfaces require -/

/-- What interfaces require, in order. -/
def requiredBy (is : List TypeDef) : List Method := is.flatMap (·.methods)

/-- The same, each method under the name of the interface that requires it. -/
def demands (is : List TypeDef) : List (String × Method) :=
  is.flatMap fun i => i.methods.map (i.name, ·)

variable {t u v : TypeDef} {is js : List TypeDef} {q m : Method} {s : VirtualSlot} {i : String}
  {contracts : List Method}

theorem mem_requiredBy_of_mem_demands {p : String × Method} (hp : p ∈ demands is) :
    p.2 ∈ requiredBy is := by
  obtain ⟨j, hj, hp⟩ := List.mem_flatMap.1 hp
  obtain ⟨m, hm, rfl⟩ := List.mem_map.1 hp
  exact List.mem_flatMap.2 ⟨j, hj, hm⟩

theorem exists_mem_demands (hq : q ∈ requiredBy is) : ∃ i, (i, q) ∈ demands is := by
  obtain ⟨j, hj, hq⟩ := List.mem_flatMap.1 hq
  exact ⟨j.name, List.mem_flatMap.2 ⟨j, hj, List.mem_map_of_mem hq⟩⟩

/-- Binding interfaces is binding their demands one after the other. -/
theorem bindAll_eq_foldlM (ht : t.isInterface = false) :
    t.bindAll is = (demands is).foldlM (fun t p => bindMethod p.1 t p.2) t := by
  have hfold : ∀ (is : List TypeDef) (t : TypeDef), is.foldlM bindInterface t =
      (demands is).foldlM (fun t p => bindMethod p.1 t p.2) t := by
    intro is
    induction is with
    | nil => exact fun t => rfl
    | cons j is ih =>
      intro t
      have hdemands : demands (j :: is) = j.methods.map (j.name, ·) ++ demands is := rfl
      rw [hdemands, List.foldlM_append, List.foldlM_cons, List.foldlM_map, bindInterface]
      exact bind_congr ih
  rw [bindAll, ht, if_neg Bool.false_ne_true, hfold]

/-! ## One contract -/

/-- **What a contract in a slot is provided by**: a method that the type
declares, else what the slot is bound to, else a method that it inherits. -/
def provider? (t : TypeDef) (q : Method) (s : VirtualSlot) : Option Method :=
  (t.methods.find? (implements q)).or
    ((t.dispatch.find? s).or (t.inheritedMethods.find? (implements q)))

/-- **Every method of the type is the most derived in its slot**: looking it up
once more finds it again. -/
def Latest (t : TypeDef) : Prop :=
  ∀ m ∈ t.allMethods, m.body.isSome = true → t.mostDerived m = m

/-- What is bound to its provider keeps it. -/
theorem provider?_of_find? (hm : t.provider? q s = some m) (hmethods : u.methods = t.methods)
    (hinherited : u.inheritedMethods = t.inheritedMethods) (hfind : u.dispatch.find? s = some m) :
    u.provider? q s = some m := by
  unfold provider? at hm ⊢
  rw [hmethods, hinherited, hfind]
  cases hown : t.methods.find? (implements q) with
  | some n => simpa [hown] using hm
  | none => rfl

/-- **Binding a contract that is provided for** binds its slot to the provider,
and no other slot. -/
theorem bindMethod_of_provider? (ht : t.Latest) (hs : q.slot = some s)
    (hm : t.provider? q s = some m) : ∃ u, bindMethod i t q = .ok u ∧
      u = { t with dispatch := u.dispatch } ∧
      ∀ s', u.dispatch.find? s' = if s' = s then some m else t.dispatch.find? s' := by
  have hbind : ∀ n, t.implementation q s = .bind (t.mostDerived n) → n ∈ t.allMethods →
      n.body.isSome = true → n = m → ∃ u, bindMethod i t q = .ok u ∧
        u = { t with dispatch := u.dispatch } ∧
        ∀ s', u.dispatch.find? s' = if s' = s then some m else t.dispatch.find? s' := by
    rintro n hn hmem hbody rfl
    refine ⟨{ t with dispatch := t.dispatch.bind s n }, ?_, rfl, fun s' => ?_⟩
    · simp only [bindMethod, hs, hn, ht n hmem hbody]
    · exact DispatchTable.find?_bind
  unfold provider? at hm
  cases hown : t.methods.find? (implements q) with
  | some n =>
    rw [hown] at hm
    refine hbind n (by simp [implementation, hown]) ?_ (body_of_implements hown)
      (Option.some.inj hm)
    exact List.mem_append_left _ (List.mem_of_find?_eq_some hown)
  | none =>
    cases hslot : t.dispatch.find? s with
    | some n =>
      rw [hown, hslot] at hm
      obtain rfl : n = m := Option.some.inj hm
      refine ⟨t, by simp [bindMethod, hs, implementation, hown, hslot], rfl, fun s' => ?_⟩
      split
      · rename_i heq
        rw [heq, hslot]
      · rfl
    | none =>
      rw [hown, hslot] at hm
      have hinherited : t.inheritedMethods.find? (implements q) = some m := hm
      refine hbind m (by simp [implementation, hown, hslot, hinherited]) ?_
        (body_of_implements hinherited) rfl
      exact List.mem_append_right _ (List.mem_of_find?_eq_some hinherited)

/-- **A contract that nothing provides for** may stay open in an abstract type
alone. -/
theorem bindMethod_of_provider?_eq_none (hs : q.slot = some s) (hm : t.provider? q s = none) :
    bindMethod i t q = if t.declaredAbstract then .ok t
      else .error (.unimplementedMember t.name i q.name) := by
  obtain ⟨hown, hrest⟩ := Option.or_eq_none_iff.1 hm
  obtain ⟨hslot, hinherited⟩ := Option.or_eq_none_iff.1 hrest
  simp [bindMethod, hs, implementation, hown, hslot, hinherited]

/-! ## Many contracts -/

/-- **A type some of whose contracts have been bound**, and otherwise the type
it was: its slots that no contract has are as they were, and every contract has
the provider that it had. -/
structure Bound (contracts : List Method) (t u : TypeDef) : Prop where
  type_eq : u = { t with dispatch := u.dispatch }
  others : ∀ s, (∀ q ∈ contracts, q.slot ≠ some s) → u.dispatch.find? s = t.dispatch.find? s
  provider : ∀ q ∈ contracts, ∀ s, q.slot = some s → u.provider? q s = t.provider? q s

/-- The slot of a contract holds what provided for it at first. -/
def Provided (t : TypeDef) (q : Method) (u : TypeDef) : Prop :=
  ∀ s, q.slot = some s → u.dispatch.find? s = t.provider? q s

theorem Bound.refl (contracts : List Method) (t : TypeDef) : t.Bound contracts t :=
  ⟨rfl, fun _ _ => rfl, fun _ _ _ _ => rfl⟩

/-- **Binding one contract** sees to that one, and leaves alone what has been
seen to. -/
theorem Bound.bindMethod (h : t.Bound contracts u) (hu : u.Latest)
    (happart : ∀ q ∈ contracts, ∀ q' ∈ contracts, q.slot.isSome = true → q.slot = q'.slot → q = q')
    (hq : q ∈ contracts) (hbind : u.bindMethod i q = .ok v) :
    t.Bound contracts v ∧ t.Provided q v ∧
      ∀ q' ∈ contracts, t.Provided q' u → t.Provided q' v := by
  cases hs : q.slot with
  | none =>
    obtain rfl : u = v := by simpa [TypeDef.bindMethod, hs] using hbind
    exact ⟨h, by simp [Provided, hs], fun _ _ => id⟩
  | some s =>
    have hprovider := h.provider q hq s hs
    have hself : ∀ q' ∈ contracts, q'.slot = some s → q' = q := fun q' hq' hs' =>
      (happart q hq q' hq' (by simp [hs]) (hs.trans hs'.symm)).symm
    cases hm : u.provider? q s with
    | none =>
      -- nothing happens, and nothing is what the slot holds
      rw [bindMethod_of_provider?_eq_none hs hm] at hbind
      obtain rfl : u = v := by
        split at hbind
        · exact Except.ok.inj hbind
        · cases hbind
      refine ⟨h, fun s' hs' => ?_, fun _ _ => id⟩
      obtain rfl := Option.some.inj (hs.symm.trans hs')
      obtain ⟨-, hrest⟩ := Option.or_eq_none_iff.1 hm
      rw [← hprovider, hm]
      exact (Option.or_eq_none_iff.1 hrest).1
    | some m =>
      obtain ⟨w, hw, htype, hfind⟩ := bindMethod_of_provider? (i := i) hu hs hm
      obtain rfl : w = v := Except.ok.inj (hw.symm.trans hbind)
      have hne : ∀ {s'}, s' ≠ s → w.dispatch.find? s' = u.dispatch.find? s' := fun hs' => by
        rw [hfind, if_neg hs']
      have hnew : t.Provided q w := fun s' hs' => by
        obtain rfl := Option.some.inj (hs.symm.trans hs')
        rw [hfind, if_pos rfl, ← hprovider, hm]
      refine ⟨⟨?_, fun s' hs' => ?_, fun q' hq' s' hs' => ?_⟩, hnew, fun q' hq' hold => ?_⟩
      · rw [htype, h.type_eq]
      · have hother : s' ≠ s := by
          rintro rfl
          exact hs' q hq hs
        exact (hne hother).trans (h.others s' hs')
      · rw [← h.provider q' hq' s' hs']
        have hlists : w.methods = u.methods ∧ w.inheritedMethods = u.inheritedMethods := by
          rw [htype]
          exact ⟨rfl, rfl⟩
        by_cases heq : s' = s
        · obtain rfl := hself q' hq' (heq ▸ hs')
          rw [heq, hm]
          exact provider?_of_find? hm hlists.1 hlists.2 (by rw [hfind, if_pos rfl])
        · rw [provider?, hlists.1, hlists.2, hne heq]
          rfl
      · by_cases heq : q'.slot = some s
        · exact hself q' hq' heq ▸ hnew
        · intro s' hs'
          rw [hne fun h => heq (h ▸ hs'), hold s' hs']

end TypeDef

/-! ## Drafts -/

namespace Draft.Dispatches

open TypeDef (requiredBy)

variable {c : Catalog} {bases contracts : List Method} {dr : Draft} {is js : List TypeDef}
  {t u v : TypeDef} {q : Method} {i : String} {e : DefinitionError}

/-- A draft on its way through what interfaces require. -/
structure Binding (c : Catalog) (bases contracts : List Method) (is : List TypeDef) (dr : Draft)
    (u : TypeDef) : Prop where
  dispatches : Draft.Dispatches c bases contracts ⟨u, dr.supply⟩
  isInterface : u.isInterface = false
  bound : dr.type.Bound (requiredBy is) u

theorem Binding.latest (h : Binding c bases contracts is dr u) : u.Latest := fun _ hm hbody =>
  h.dispatches.mostDerived_eq_self h.isInterface hm hbody

theorem Binding.bindMethod (h : Binding c bases contracts is dr u) (hc : c.ContractsApart)
    (hsub : requiredBy is ⊆ contracts) (hq : q ∈ requiredBy is)
    (hbind : u.bindMethod i q = .ok v) :
    Binding c bases contracts is dr v ∧ dr.type.Provided q v ∧
      ∀ q' ∈ requiredBy is, dr.type.Provided q' u → dr.type.Provided q' v := by
  have hall : requiredBy is ⊆ c.required := List.Subset.trans hsub h.dispatches.required
  obtain ⟨hbound, hnew, hold⟩ := h.bound.bindMethod h.latest
    (fun q hq q' hq' => hc q (hall hq) q' (hall hq')) hq hbind
  refine ⟨⟨h.dispatches.bindMethod h.isInterface (hsub hq) hbind, ?_, hbound⟩, hnew, hold⟩
  rw [(TypeDef.binds_of_bindMethod hbind).1.type_eq]
  exact h.isInterface

/-- **Once interfaces are bound**, every slot that they require holds its
provider. -/
theorem provided_of_bindAll (h : dr.Dispatches c bases contracts)
    (hi : dr.type.isInterface = false) (hc : c.ContractsApart) (hsub : requiredBy is ⊆ contracts)
    (hbind : dr.type.bindAll is = .ok t) :
    dr.type.Bound (requiredBy is) t ∧ ∀ q ∈ requiredBy is, dr.type.Provided q t := by
  rw [TypeDef.bindAll_eq_foldlM hi] at hbind
  obtain ⟨hdone, hall, -⟩ := each_of_foldlM_of_invariant
    (P := Binding c bases contracts is dr)
    (Q := fun p u => p.2 ∈ requiredBy is → dr.type.Provided p.2 u)
    (fun u p hp v hu hstep => by
      obtain ⟨hv, hnew, hold⟩ :=
        hu.bindMethod hc hsub (TypeDef.mem_requiredBy_of_mem_demands hp) hstep
      exact ⟨hv, fun _ => hnew, fun p' hp' hq' => hold p'.2 hq' (hp' hq')⟩)
    hbind ⟨h, hi, .refl _ dr.type⟩
  refine ⟨hdone.bound, fun q hq => ?_⟩
  obtain ⟨i, hp⟩ := TypeDef.exists_mem_demands hq
  exact hall _ hp hq

/-- **Where binding interfaces fails**, something that they require has had no
provider from the start. -/
theorem unprovided_of_bindAll (h : dr.Dispatches c bases contracts)
    (hi : dr.type.isInterface = false) (hc : c.ContractsApart) (hsub : requiredBy is ⊆ contracts)
    (hbind : dr.type.bindAll is = .error e) :
    ∃ q ∈ requiredBy is, ∃ s, q.slot = some s ∧ dr.type.provider? q s = none ∧
      dr.type.declaredAbstract = false ∧
      ∃ i, e = .unimplementedMember dr.type.name i q.name := by
  rw [TypeDef.bindAll_eq_foldlM hi] at hbind
  obtain ⟨p, hp, u, hu, hfail⟩ := exists_of_foldlM_eq_error
    (P := Binding c bases contracts is dr)
    (fun u p hp v hu hstep =>
      (hu.bindMethod hc hsub (TypeDef.mem_requiredBy_of_mem_demands hp) hstep).1)
    hbind ⟨h, hi, .refl _ dr.type⟩
  have hq := TypeDef.mem_requiredBy_of_mem_demands hp
  have hframe : u.name = dr.type.name ∧ u.declaredAbstract = dr.type.declaredAbstract := by
    rw [hu.bound.type_eq]
    exact ⟨rfl, rfl⟩
  cases hs : p.2.slot with
  | none => simp [TypeDef.bindMethod, hs] at hfail
  | some s =>
    cases hm : u.provider? p.2 s with
    | some m =>
      obtain ⟨v, hv, -⟩ := TypeDef.bindMethod_of_provider? (i := p.1) hu.latest hs hm
      rw [hv] at hfail
      cases hfail
    | none =>
      rw [TypeDef.bindMethod_of_provider?_eq_none hs hm] at hfail
      split at hfail
      · cases hfail
      · rename_i habstract
        cases hfail
        refine ⟨p.2, hq, s, hs, ?_, ?_, p.1, by rw [hframe.1]⟩
        · rw [← hu.bound.provider p.2 hq s hs, hm]
        · rw [← hframe.2]
          exact Bool.not_eq_true _ ▸ habstract

/-! ### Two orders -/

/-- **Binding what is required** in two orders leads to one table. -/
theorem find?_eq_of_bindAll (h : dr.Dispatches c bases contracts)
    (hi : dr.type.isInterface = false) (hc : c.ContractsApart) (hsub : requiredBy is ⊆ contracts)
    (hperm : (requiredBy js).Perm (requiredBy is)) (ht : dr.type.bindAll is = .ok t)
    (hu : dr.type.bindAll js = .ok u) :
    u = { t with dispatch := u.dispatch } ∧ ∀ s, u.dispatch.find? s = t.dispatch.find? s := by
  obtain ⟨hboundt, hallt⟩ := h.provided_of_bindAll hi hc hsub ht
  obtain ⟨hboundu, hallu⟩ := h.provided_of_bindAll hi hc (List.Subset.trans hperm.subset hsub) hu
  refine ⟨by rw [hboundu.type_eq, hboundt.type_eq], fun s => ?_⟩
  by_cases hs : ∃ q ∈ requiredBy is, q.slot = some s
  · obtain ⟨q, hq, hs⟩ := hs
    rw [hallu q (hperm.mem_iff.2 hq) s hs, hallt q hq s hs]
  · have hnone : ∀ q ∈ requiredBy is, q.slot ≠ some s := fun q hq hqs => hs ⟨q, hq, hqs⟩
    rw [hboundu.others s fun q hq => hnone q (hperm.mem_iff.1 hq), hboundt.others s hnone]

/-- **It succeeds in both orders or in neither.** -/
theorem exists_bindAll_of_perm (h : dr.Dispatches c bases contracts)
    (hi : dr.type.isInterface = false) (hc : c.ContractsApart) (hsub : requiredBy is ⊆ contracts)
    (hperm : (requiredBy js).Perm (requiredBy is)) (ht : dr.type.bindAll is = .ok t) :
    ∃ u, dr.type.bindAll js = .ok u := by
  cases hu : dr.type.bindAll js with
  | ok u => exact ⟨u, rfl⟩
  | error e =>
    -- what one order has found nothing for, the other has not bound either
    obtain ⟨q, hq, s, hs, hnone, habstract, -⟩ :=
      h.unprovided_of_bindAll hi hc (List.Subset.trans hperm.subset hsub) hu
    obtain ⟨hbound, hall⟩ := h.provided_of_bindAll hi hc hsub ht
    have hq := hperm.mem_iff.1 hq
    obtain ⟨i, hmem, hqi⟩ := List.mem_flatMap.1 hq
    have hmeets := (TypeDef.binds_of_bindAll hi ht).2 i hmem q hqi
    have hisSome := hmeets (by rw [hbound.type_eq]; exact habstract) s hs
    rw [hall q hq s hs, hnone] at hisSome
    cases hisSome

end Draft.Dispatches

/-! ## Definitions -/

namespace Catalog

variable {c : Catalog} {d : TypeDefinition} {ids ids' : Supply} {h h' : Heap} {dr : Draft}
  {is js : List TypeDef}

open Exec in
/-- **What a definition comes to** before its interfaces are bound: a draft with
fields, methods and properties. -/
def draft (c : Catalog) (d : TypeDefinition) (ids : Supply) : Exec DefinitionError Draft := do
  ofExcept (c.checkHead d)
  let (n, ids) := ids.take
  let t ← ofExcept (c.inherit d (d.start ⟨n⟩))
  let dr ← d.storedFields.foldlM (c.addField d) ⟨t, ids⟩
  let dr ← ofExcept (d.methods.foldlM (fun dr m => (·.2) <$> dr.addMethod m) dr)
  ofExcept (d.properties.foldlM Draft.addProperty dr)

/-- **A definition drafts a type**, binds the interfaces of the draft and adds
constructors. -/
theorem define_eq_draft (c : Catalog) (d : TypeDefinition) (ids : Supply) :
    c.define d ids = c.draft d ids >>= fun dr => do
      let t ← Exec.ofExcept (dr.type.bindAll (c.interfacesOf dr.type))
      let dr ← Exec.ofExcept (Draft.addConstructors { dr with type := t } d)
      return { handle := ⟨ids.next⟩, catalog := ⟨c.types ++ [dr.type]⟩, supply := dr.supply } := by
  simp only [define, draft, addMembers, bind_assoc, Exec.ofExcept_bind]
  rfl

/-- **A draft is in order**, under all of its contracts. -/
theorem Dispatches.draft (hd : c.Dispatches ids) (hids : ids.next ≤ ids'.next)
    (hrun : (c.draft d ids').run h = some (.ok dr, h')) :
    ∃ bases, dr.Dispatches c bases (c.contracts dr.type) := by
  unfold Catalog.draft at hrun
  obtain ⟨_, h₁, -, hrun⟩ := Exec.run_bind_eq_ok.1 hrun
  obtain ⟨t, h₂, hinherit, hrun⟩ := Exec.run_bind_eq_ok.1 hrun
  obtain ⟨dr₁, h₃, hfields, hrun⟩ := Exec.run_bind_eq_ok.1 hrun
  obtain ⟨dr₂, h₄, hmethods, hproperties⟩ := Exec.run_bind_eq_ok.1 hrun
  obtain ⟨base, is, hin⟩ := inherits_of_inherit (Exec.run_ofExcept_eq.1 hinherit).1
  have hsteps := ((methodSteps_of_addFields hfields).trans
    (methodSteps_of_addMethods (Exec.run_ofExcept_eq.1 hmethods).1)).trans
    (methodSteps_of_addProperties (Exec.run_ofExcept_eq.1 hproperties).1)
  exact ⟨_, hd.drafted hin (Nat.le_succ_of_le hids) hsteps⟩

/-- **The order in which interfaces are bound does not matter.** Whatever a
definition has drafted over a built catalog, binding the interfaces of the
draft in any two orders leads to one type with one table, slot by slot, or
fails both times, for a method that is not implemented. -/
theorem Built.bindAll_confluent (hb : c.Built ids) (hids : ids.next ≤ ids'.next)
    (hrun : (c.draft d ids').run h = some (.ok dr, h')) (his : is.Perm (c.interfacesOf dr.type))
    (hjs : js.Perm (c.interfacesOf dr.type)) :
    (∃ t u, dr.type.bindAll is = .ok t ∧ dr.type.bindAll js = .ok u ∧
      u = { t with dispatch := u.dispatch } ∧ ∀ s, u.dispatch.find? s = t.dispatch.find? s) ∨
    ∃ i m j n, dr.type.bindAll is = .error (.unimplementedMember dr.type.name i m) ∧
      dr.type.bindAll js = .error (.unimplementedMember dr.type.name j n) := by
  have hd := hb.dispatches
  obtain ⟨bases, hdr⟩ := hd.draft hids hrun
  cases hi : dr.type.isInterface with
  | true =>
    have hnone : ∀ l, dr.type.bindAll l = .ok dr.type := fun l => by
      rw [TypeDef.bindAll, if_pos hi]
    exact .inl ⟨dr.type, dr.type, hnone is, hnone js, rfl, fun _ => rfl⟩
  | false =>
    have hsub : ∀ {l}, l.Perm (c.interfacesOf dr.type) →
        TypeDef.requiredBy l ⊆ c.contracts dr.type := by
      intro l hl q hq
      obtain ⟨i, hmem, hq⟩ := List.mem_flatMap.1 hq
      exact mem_contracts_of_mem_interfacesOf (hl.mem_iff.1 hmem) hq
    have hperm : (TypeDef.requiredBy js).Perm (TypeDef.requiredBy is) :=
      (hjs.trans his.symm).flatMap_right _
    cases ht : dr.type.bindAll is with
    | ok t =>
      obtain ⟨u, hu⟩ := hdr.exists_bindAll_of_perm hi hd.contractsApart (hsub his) hperm ht
      exact .inl ⟨t, u, rfl, hu,
        hdr.find?_eq_of_bindAll hi hd.contractsApart (hsub his) hperm ht hu⟩
    | error e =>
      cases hu : dr.type.bindAll js with
      | ok u =>
        obtain ⟨t, ht'⟩ := hdr.exists_bindAll_of_perm hi hd.contractsApart (hsub hjs) hperm.symm hu
        rw [ht] at ht'
        cases ht'
      | error e' =>
        obtain ⟨q, -, -, -, -, -, i, rfl⟩ :=
          hdr.unprovided_of_bindAll hi hd.contractsApart (hsub his) ht
        obtain ⟨q', -, -, -, -, -, j, rfl⟩ :=
          hdr.unprovided_of_bindAll hi hd.contractsApart (hsub hjs) hu
        exact .inr ⟨i, q.name, j, q'.name, rfl, rfl⟩

end Catalog

namespace Sample

/-! ## Two interfaces in two orders -/

/-- A class that reads, whichever interface asks. -/
def pipeDefinition : TypeDefinition where
  name := "Pipe"
  kind := .classType
  interfaces := [⟨65⟩, ⟨68⟩]
  methods := [{ readDefinition with body := some (.native ⟨1⟩) }]

/-- A class that is to read and does not. -/
def ductDefinition : TypeDefinition := { pipeDefinition with name := "Duct", methods := [] }

/-- A pipe before anything is bound. -/
def pipe : TypeDef :=
  { TypeDef.blank ⟨71⟩ "Pipe" .classType with
    base := some .object
    interfaces := [⟨65⟩, ⟨68⟩]
    ancestors := [.object, ⟨71⟩, ⟨65⟩, ⟨68⟩]
    methods := [streamRead] }

def duct : TypeDef := { pipe with name := "Duct", methods := [] }

theorem library_built : (library [reader, source]).Built ⟨71⟩ :=
  (Catalog.Built.define (.standard {} (by decide)) (Nat.le_refl _) define_reader).define
    (Nat.le_refl _) define_source

theorem draft_pipe : ((library [reader, source]).draft pipeDefinition ⟨71⟩).run {} =
    some (.ok ⟨pipe, ⟨73⟩⟩, {}) := by rfl

theorem draft_duct : ((library [reader, source]).draft ductDefinition ⟨71⟩).run {} =
    some (.ok ⟨duct, ⟨72⟩⟩, {}) := by rfl

/-- **A pipe comes to one table in both orders**, and a duct to none in
either. -/
theorem bindAll_confluent_pipe :
    (library [reader, source]).Built ⟨71⟩ ∧
      (library [reader, source]).interfacesOf pipe = [reader, source] ∧
      (∃ t u, pipe.bindAll [reader, source] = .ok t ∧ pipe.bindAll [source, reader] = .ok u ∧
        ∀ s, u.dispatch.find? s = t.dispatch.find? s) ∧
      (library [reader, source]).interfacesOf duct = [reader, source] ∧
      ∃ i m j n, duct.bindAll [reader, source] = .error (.unimplementedMember "Duct" i m) ∧
        duct.bindAll [source, reader] = .error (.unimplementedMember "Duct" j n) := by
  have hpipe : (library [reader, source]).interfacesOf pipe = [reader, source] := by rfl
  have hduct : (library [reader, source]).interfacesOf duct = [reader, source] := by rfl
  have hpipe₁ : [reader, source].Perm ((library [reader, source]).interfacesOf pipe) := by
    rw [hpipe]
  have hpipe₂ : [source, reader].Perm ((library [reader, source]).interfacesOf pipe) :=
    hpipe ▸ .swap reader source []
  have hduct₁ : [reader, source].Perm ((library [reader, source]).interfacesOf duct) := by
    rw [hduct]
  have hduct₂ : [source, reader].Perm ((library [reader, source]).interfacesOf duct) :=
    hduct ▸ .swap reader source []
  refine ⟨library_built, hpipe, ?_, hduct, ?_⟩
  · rcases Catalog.Built.bindAll_confluent library_built (Nat.le_refl _) draft_pipe hpipe₁ hpipe₂
      with ⟨t, u, ht, hu, -, hsame⟩ | ⟨i, m, j, n, hfail, -⟩
    · exact ⟨t, u, ht, hu, hsame⟩
    · cases hfail
  · rcases Catalog.Built.bindAll_confluent library_built (Nat.le_refl _) draft_duct hduct₁ hduct₂
      with ⟨t, u, ht, -⟩ | hfail
    · cases ht
    · exact hfail

end Sample

end MemberAccess
