import Mathlib.Data.List.Flatten
import Mathlib.Data.List.Perm.Basic
import MemberAccess.Proofs.Catalog.Contracts
import MemberAccess.Proofs.Code.Dispatched
/-!
# Catalog — one implementation for each signature

Contracts of one signature are bound one by one, each when it first comes to a
type, and what is looked for is a method that the type has. Along a lineage
that is the first method that can stand behind the contract, for as long as the
type has it (`TypeDef.Chooses`). So contracts of one signature come to one
method, unless that method has been hidden: a bodiless override hides what it
overrides, which stays bound to the contracts that it was bound to, and is
passed over by those that come later.
-/

namespace MemberAccess

/-- A search that is not disturbed by leaving elements out. -/
theorem find?_of_sublist {α : Type} {p : α → Bool} {xs ys : List α} {a : α} (h : xs.Sublist ys)
    (hnodup : ys.Nodup) (ha : a ∈ xs) (hfind : ys.find? p = some a) : xs.find? p = some a := by
  induction h with
  | slnil => cases ha
  | @cons xs ys y hsub ih =>
    obtain ⟨hy, hnodup⟩ := List.nodup_cons.1 hnodup
    cases hp : p y with
    | true =>
      rw [List.find?_cons_of_pos hp, Option.some.injEq] at hfind
      exact absurd (hsub.subset ha) (hfind ▸ hy)
    | false =>
      rw [List.find?_cons_of_neg (by simp [hp])] at hfind
      exact ih hnodup ha hfind
  | @cons_cons xs ys y hsub ih =>
    cases hp : p y with
    | true =>
      rw [List.find?_cons_of_pos hp] at hfind ⊢
      exact hfind
    | false =>
      rw [List.find?_cons_of_neg (by simp [hp])] at hfind ⊢
      refine ih (List.nodup_cons.1 hnodup).2 ?_ hfind
      refine (List.mem_cons.1 ha).resolve_left ?_
      rintro rfl
      simp [List.find?_some hfind] at hp

namespace TypeDef

/-- **A type chooses the first implementation** of a contract: what is bound to
it is the first method of the lineage that can stand behind it, if the type has
that method. -/
def Chooses (t : TypeDef) (lineage : List Method) (q : Method) : Prop :=
  ∀ s, q.slot = some s → ∀ f ∈ t.allMethods, lineage.find? (implements q) = some f →
    ∀ b, t.dispatch.find? s = some b → b = f

/-- The same for contracts that the type has no method of its own for. -/
def ChoosesInherited (t : TypeDef) (bases contracts : List Method) : Prop :=
  ∀ q ∈ contracts, t.methods.find? (implements q) = none → t.Chooses (t.methods ++ bases) q

/-- What is not found among own methods is inherited. -/
theorem inherited_of_find? {t : TypeDef} {bases : List Method} {p : Method → Bool} {f : Method}
    (hnone : t.methods.find? p = none) (hf : f ∈ t.allMethods)
    (hfind : (t.methods ++ bases).find? p = some f) :
    f ∈ t.inheritedMethods ∧ bases.find? p = some f := by
  rw [List.find?_append, hnone, Option.none_or] at hfind
  refine ⟨(List.mem_append.1 hf).resolve_left fun hown => ?_, hfind⟩
  exact List.find?_eq_none.1 hnone f hown (List.find?_some hfind)

end TypeDef

namespace Draft.Dispatches

open TypeDef

variable {c : Catalog} {bases contracts contracts' : List Method} {dr dr' : Draft} {n q : Method}
  {s : VirtualSlot}

/-! ## Methods are added -/

/-- **A binding stays** as long as what is bound stays inherited. -/
theorem find?_of_adds {m : MethodDefinition} (h : dr.Dispatches c bases contracts)
    (ha : dr.Adds m n dr') {f : Method} (hf : f ∈ dr'.type.inheritedMethods)
    (hb : dr.type.dispatch.find? s = some f) : dr'.type.dispatch.find? s = some f := by
  rcases ha.dispatch_cases with ⟨-, hd⟩ | ⟨s', hs', -, hd⟩
  · rwa [hd]
  · rw [hd]
    exact h.table.find?_install_of_slot_ne h.slotted h.lineage_subset (h.find?_slot_of_adds ha hs')
      hb (h.inherited_slot_ne ha hs' hf)

/-- A slot that the new method is not in is not bound by adding it. -/
theorem isSome_find?_of_adds {m : MethodDefinition} (ha : dr.Adds m n dr')
    (hs : n.slot ≠ some s) (hb : (dr'.type.dispatch.find? s).isSome = true) :
    (dr.type.dispatch.find? s).isSome = true := by
  rcases ha.dispatch_cases with ⟨-, hd⟩ | ⟨s', hs', -, hd⟩
  · rwa [hd] at hb
  · have hne : s ≠ s' := by
      rintro rfl
      exact hs hs'
    rw [hd, TypeDef.find?_install hne, Option.isSome_map] at hb
    exact hb

/-- **Adding a method leaves inherited choices alone.** -/
theorem choosesInherited_of_adds {m : MethodDefinition} (h : dr.Dispatches c bases contracts)
    (ha : dr.Adds m n dr') (hch : dr.type.ChoosesInherited bases contracts) :
    dr'.type.ChoosesInherited bases contracts := by
  obtain ⟨hm, -, hin⟩ := ha.methods_eq
  intro q hq hnone s hs f hf hfind b hb
  obtain ⟨hf, hfind⟩ := inherited_of_find? hnone hf hfind
  have hnone' : dr.type.methods.find? (implements q) = none := by
    rw [hm, List.find?_append, Option.or_eq_none_iff] at hnone
    exact hnone.1
  -- the new method is in another slot than the contract
  have hslot : n.slot ≠ some s := by
    intro hns
    have hmem : n ∈ dr'.type.methods ++ bases := by simp [hm]
    exact (h.adds ha).slot_ne_required hmem (h.required hq) (by simp [hns]) (hs.trans hns.symm)
  obtain ⟨x, hx⟩ := Option.isSome_iff_exists.1 (isSome_find?_of_adds ha hslot (by simp [hb]))
  have hfind' : (dr.type.methods ++ bases).find? (implements q) = some f := by
    rw [List.find?_append, hnone', Option.none_or, hfind]
  obtain rfl := hch q hq hnone' s hs f (List.mem_append_right _ (hin.subset hf)) hfind' x hx
  exact Option.some.inj (hb.symm.trans (h.find?_of_adds ha hf hx))

theorem choosesInherited_of_steps (h : dr.Dispatches c bases contracts) (hs : MethodSteps dr dr')
    (hch : dr.type.ChoosesInherited bases contracts) :
    dr'.type.ChoosesInherited bases contracts := by
  have hboth := chain_invariant
    (P := fun x => Draft.Dispatches c bases contracts x ∧ x.type.ChoosesInherited bases contracts)
    (fun x y hs hx => ?_) hs ⟨h, hch⟩
  · exact hboth.2
  · cases hs with
    | adds ha => exact ⟨hx.1.adds ha, hx.1.choosesInherited_of_adds ha hx.2⟩
    | keeps hk =>
      refine ⟨hx.1.keeps hk, ?_⟩
      have hall : y.type.allMethods = x.type.allMethods := by
        rw [allMethods, hk.methods, hk.inheritedMethods, allMethods]
      unfold ChoosesInherited Chooses
      rw [hk.methods, hall, hk.dispatch]
      exact hx.2

/-! ## Interfaces are bound -/

/-- **Contracts that are new to a draft** have not been bound yet. -/
theorem choosesInherited_mono (h : dr.Dispatches c bases contracts)
    (hc : c.ContractsApart) (hsub : contracts' ⊆ c.required)
    (hch : dr.type.ChoosesInherited bases contracts) :
    dr.type.ChoosesInherited bases contracts' := by
  intro q hq hnone s hs f hf hfind b hb
  obtain ⟨k, hk, hks, -⟩ := (h.table.binding s b hb).known
  rcases List.mem_append.1 hk with hk | hk
  · exact absurd (hs.trans hks.symm) (h.slot_ne_required hk (hsub hq) (by simp [hks]))
  · obtain rfl := hc k (h.required hk) q (hsub hq) (by simp [hks]) (hks.trans hs.symm)
    exact hch k hk hnone s hs f hf hfind b hb

/-- **Binding a contract chooses for it**, and leaves choices for others
alone. -/
theorem chooses_of_bindMethod (h : dr.Dispatches c bases contracts)
    (hi : dr.type.isInterface = false) (hnodup : (dr.type.methods ++ bases).Nodup)
    (hc : c.ContractsApart) (hch : dr.type.ChoosesInherited bases contracts) (hq : q ∈ contracts)
    {i : String} {t : TypeDef} (hbind : dr.type.bindMethod i q = .ok t) :
    t.Chooses (dr.type.methods ++ bases) q ∧ ∀ q' ∈ contracts,
      dr.type.Chooses (dr.type.methods ++ bases) q' → t.Chooses (dr.type.methods ++ bases) q' := by
  rcases bindMethod_eq_ok hbind with ⟨rfl, hnone⟩ | ⟨s, n, hs, hn, rfl⟩
  · exact ⟨fun s hs => hch q hq (hnone (by simp [hs])) s hs, fun _ _ => id⟩
  · have hself : Chooses { dr.type with dispatch := dr.type.dispatch.bind s n }
        (dr.type.methods ++ bases) q := by
      intro s' hs' f hf hfind b hb
      obtain rfl := Option.some.inj (hs.symm.trans hs')
      rw [DispatchTable.find?_bind, if_pos rfl] at hb
      cases hb
      obtain ⟨m, hm, rfl⟩ := implementation_eq_bind hn
      have hbody := body_of_implements hm
      rw [h.mostDerived_eq_self hi (List.mem_of_find?_eq_some hm) hbody]
      -- the first among the type's methods is the first along the lineage
      have hfirst := find?_of_sublist (h.allMethods_sublist hi) hnodup hf hfind
      exact Option.some.inj (hm.symm.trans hfirst)
    refine ⟨hself, fun q' hq' hch' => ?_⟩
    by_cases hslot : q'.slot = some s
    · rwa [← hc q (h.required hq) q' (h.required hq') (by simp [hs]) (hs.trans hslot.symm)]
    · intro s' hs' f hf hfind b hb
      have hne : s' ≠ s := by
        rintro rfl
        exact hslot hs'
      rw [DispatchTable.find?_bind, if_neg hne] at hb
      exact hch' s' hs' f hf hfind b hb

/-- A draft is on its way through its contracts: interfaces are being bound,
and it chooses for those that it has no method of its own for. -/
structure Choosing (c : Catalog) (bases contracts : List Method) (dr : Draft) (t : TypeDef) :
    Prop where
  dispatches : Draft.Dispatches c bases contracts ⟨t, dr.supply⟩
  isInterface : t.isInterface = false
  methods : t.methods = dr.type.methods
  inherited : t.ChoosesInherited bases contracts

theorem Choosing.bindMethod {t t' : TypeDef} {i : String} (h : Choosing c bases contracts dr t)
    (hnodup : (dr.type.methods ++ bases).Nodup) (hc : c.ContractsApart) (hq : q ∈ contracts)
    (hbind : t.bindMethod i q = .ok t') :
    Choosing c bases contracts dr t' ∧ t'.Chooses (dr.type.methods ++ bases) q ∧
      ∀ q' ∈ contracts, t.Chooses (dr.type.methods ++ bases) q' →
        t'.Chooses (dr.type.methods ++ bases) q' := by
  have hframe := (binds_of_bindMethod hbind).1.type_eq
  have hmethods : t'.methods = t.methods := by rw [hframe]
  have hchosen := h.dispatches.chooses_of_bindMethod h.isInterface (h.methods ▸ hnodup) hc
    h.inherited hq hbind
  rw [← h.methods]
  refine ⟨?_, hchosen⟩
  exact
    { dispatches := h.dispatches.bindMethod h.isInterface hq hbind
      isInterface := by
        rw [hframe]
        exact h.isInterface
      methods := hmethods.trans h.methods
      inherited := fun q' hq' hnone => by
        rw [hmethods] at hnone ⊢
        exact hchosen.2 q' hq' (h.inherited q' hq' hnone) }

/-- A contract of the draft that has been chosen for. -/
def Chosen (bases contracts : List Method) (dr : Draft) (q : Method) (t : TypeDef) : Prop :=
  q ∈ contracts → t.Chooses (dr.type.methods ++ bases) q

/-- Binding an interface chooses for all that it requires, and what has been
chosen stays chosen. -/
theorem Choosing.bindInterface {t t' i : TypeDef} (h : Choosing c bases contracts dr t)
    (hnodup : (dr.type.methods ++ bases).Nodup) (hc : c.ContractsApart)
    (his : i.methods ⊆ contracts) (hbind : t.bindInterface i = .ok t') :
    Choosing c bases contracts dr t' ∧ (∀ q ∈ i.methods, Chosen bases contracts dr q t') ∧
      ∀ q, Chosen bases contracts dr q t → Chosen bases contracts dr q t' := by
  refine each_of_foldlM_of_invariant (fun u q hq u' hu hbind => ?_) hbind h
  obtain ⟨hu', hown, hother⟩ := hu.bindMethod hnodup hc (his hq) hbind
  exact ⟨hu', fun _ => hown, fun q' hq' hmem => hother q' hmem (hq' hmem)⟩

/-- **Binding interfaces chooses for all that they require.** -/
theorem chooses_of_bindAll (h : dr.Dispatches c bases contracts)
    (hi : dr.type.isInterface = false) (hnodup : (dr.type.methods ++ bases).Nodup)
    (hc : c.ContractsApart) (hch : dr.type.ChoosesInherited bases contracts) {is : List TypeDef}
    (his : ∀ i ∈ is, i.methods ⊆ contracts) {t : TypeDef} (hbind : dr.type.bindAll is = .ok t) :
    ∀ i ∈ is, ∀ q ∈ i.methods, t.Chooses (dr.type.methods ++ bases) q := by
  rw [TypeDef.bindAll, hi, if_neg Bool.false_ne_true] at hbind
  obtain ⟨-, hall, -⟩ := each_of_foldlM_of_invariant
    (P := Choosing c bases contracts dr)
    (Q := fun (i : TypeDef) t => ∀ q ∈ i.methods, Chosen bases contracts dr q t)
    (fun u i hmem u' hu hstep => by
      obtain ⟨hu', hown, hkeep⟩ := hu.bindInterface hnodup hc (his i hmem) hstep
      exact ⟨hu', hown, fun j hj q hq => hkeep q (hj q hq)⟩)
    hbind ⟨h, hi, rfl, hch⟩
  exact fun i hmem q hq => hall i hmem q hq (his i hmem hq)

end Draft.Dispatches

namespace Catalog

variable {c : Catalog} {ids : Supply} {t u : TypeDef}

/-- No method is declared twice along a lineage. -/
theorem Dispatches.nodup_lineageMethods (hd : c.Dispatches ids) (h : TypeHandle) :
    (c.lineageMethods h).Nodup := by
  have hdeclared : c.declared.Nodup := List.Nodup.of_map _ hd.slotted.nodup
  have hperm : (c.types.reverse.flatMap (·.methods)).Perm c.declared :=
    (List.reverse_perm c.types).flatMap_right _
  exact (hperm.nodup_iff.2 hdeclared).sublist ((lineageIn_sublist _ h).flatMap _)

/-- **Every class and struct chooses for its contracts.** -/
def Chooses (c : Catalog) : Prop :=
  ∀ t ∈ c.types, t.isInterface = false → ∀ q ∈ c.contracts t,
    t.Chooses (c.lineageMethods t.handle) q

/-- What is inherited has been chosen by the base. -/
theorem Chooses.inherits (hch : c.Chooses) {d : TypeDefinition} {h : TypeHandle}
    {base : Option TypeDef} {is : List TypeDef} (hin : c.Inherits d h base is t)
    (hi : t.isInterface = false) :
    t.ChoosesInherited (c.baseMethods base) (c.baseContracts base) := by
  obtain ⟨-, -, -, -, -, hmethods, -, -⟩ := hin.head
  intro q hq _ s hs f hf hfind b hb
  have hf : f ∈ t.inheritedMethods := by simpa [TypeDef.allMethods, hmethods] using hf
  have hmem := (hin.inheritedMethods_sublist hi).subset hf
  rw [hmethods, List.nil_append] at hfind
  rw [hin.dispatch_eq] at hb
  cases base with
  | none => cases hmem
  | some u =>
    obtain ⟨-, hu, hkind⟩ := hin.mem_base rfl
    have hui : u.isInterface = false := by
      rw [TypeDef.isInterface, hkind]
      rfl
    exact hch u hu hui q hq s hs f hmem hfind b hb

/-- **A new class or struct chooses for its contracts.** -/
theorem Phases.chooses {d : TypeDefinition} {n : Nat} {base : Option TypeDef} {is : List TypeDef}
    {dr dr' : Draft} {t' : TypeDef} (hp : c.Phases d n base is t dr t' dr') (hch : c.Chooses)
    (hd : c.Dispatches ids) (hc : c.WellFormed ids) (hle : ids.next ≤ n)
    (hnodup : (dr'.type.methods ++ c.baseMethods base).Nodup)
    (hi : dr'.type.isInterface = false) {q : Method} (hq : q ∈ c.contracts dr'.type) :
    dr'.type.Chooses (dr'.type.methods ++ c.baseMethods base) q := by
  obtain ⟨hown, hinherited, hinterface⟩ := hp.methods_eq
  have hdri : dr.type.isInterface = false := hinterface.symm.trans hi
  have hti : t.isInterface = false := by
    rwa [TypeDef.isInterface, (hp.inherits.extends hc hp.steps).kind] at hi
  -- the base has chosen, and the additions leave that alone
  have hbase := (hd.inherits hp.inherits (Nat.le_succ_of_le hle)).choosesInherited_of_steps hp.adds
    (hch.inherits hp.inherits hti)
  have hchosen := (hp.added hd hle).choosesInherited_mono hd.contractsApart
    (contracts_subset_required (t := dr.type)) hbase
  rw [hown] at hnodup ⊢
  have hall := (hp.contracted hd hle).chooses_of_bindAll hdri hnodup hd.contractsApart hchosen
    (fun i hi q hq => mem_contracts_of_mem_interfacesOf hi hq) hp.binds
  have hlisted : dr'.type.allMethods = t'.allMethods := by
    rw [TypeDef.allMethods, hp.keeps.methods, hp.keeps.inheritedMethods, TypeDef.allMethods]
  obtain ⟨i, hic, hii, ha, hq⟩ := mem_contracts.1 hq
  have hmem : i ∈ c.interfacesOf dr.type := by
    refine List.mem_filter.2 ⟨List.mem_filterMap.2 ⟨i.handle, ?_, hc.find?_eq hic⟩, hii⟩
    rwa [hp.ancestors_eq.1, ← hp.ancestors_eq.2]
  unfold TypeDef.Chooses
  rw [hlisted, hp.keeps.dispatch]
  exact hall i hmem q hq

/-- **A definition keeps choosing.** -/
theorem Chooses.define {d : TypeDefinition} {ids' : Supply} {h h' : Heap} {o : Defined}
    (hch : c.Chooses) (hd : c.Dispatches ids) (hc : c.WellFormed ids) (hids : ids.next ≤ ids'.next)
    (hrun : (c.define d ids').run h = some (.ok o, h')) : o.catalog.Chooses := by
  have hd' := hd.define hc hids hrun
  obtain ⟨base, is, t, dr, t', dr', hp, hcatalog, -⟩ := phases_of_define hrun
  have hfits := fits_of_define hc hids hp.inherits hp.steps
  rw [hcatalog] at hd' ⊢
  intro u hu hi q hq
  rcases mem_concat_cases hu with hu | rfl
  · have hq := contracts_add_subset (.inr (hfits.not_mem_ancestors hc hu)) hq
    rw [lineageMethods, lineage_add_of_ne (hfits.fresh u hu).symm]
    exact hch u hu hi q hq
  · have hnodup := hd'.nodup_lineageMethods dr'.type.handle
    rw [lineageMethods_add_self hp.base_eq] at hnodup ⊢
    exact hp.chooses hch hd hc hids hnodup hi (contracts_add_subset (.inl hi) hq)

/-- **Every built catalog chooses.** -/
theorem Built.chooses (hb : c.Built ids) : c.Chooses := by
  induction hb with
  | standard ids _ =>
    intro t ht _ q hq
    obtain ⟨i, hi, hii, -⟩ := mem_contracts.1 hq
    rw [isInterface_standard i hi] at hii
    cases hii
  | define hc hids hrun ih => exact ih.define hc.dispatches hc.wellFormed hids hrun

/-- A contract resolves to the first method that can stand behind it, if the
type has that method. -/
theorem Built.resolve?_contract (hb : c.Built ids) (ht : t ∈ c.types)
    (habstract : t.isAbstract = false) {i : TypeDef} (hi : i ∈ c.types)
    (hii : i.isInterface = true) (ha : i.handle ∈ t.ancestors) {m : Method}
    (hm : m ∈ i.allMethods)
    (hlisted : ∀ f, (c.lineageMethods t.handle).find? (TypeDef.implements m) = some f →
      f ∈ t.allMethods) :
    t.resolve? m = (c.lineageMethods t.handle).find? (TypeDef.implements m) := by
  have hk := hb.contracts
  obtain ⟨j, hj, hji, hja, hmj⟩ := hk.methods i hi hii m hm
  have hja := hk.closed t ht i hi ha hja
  obtain ⟨b, hresolved, hbody⟩ := hk.resolve?_required ht habstract hi hii ha hm
  rcases TypeDef.resolve?_cases hresolved with rfl | ⟨s, hs, hbound⟩
  · simp [(hk.isContract hi hii hm).body] at hbody
  · -- what is bound can stand behind the contract
    have hbinding := (hb.dispatches.table t ht).binding s b hbound
    have hsignature := hb.dispatches.signature_eq ht hbound hi hm hs
    have himplements : TypeDef.implements m b = true :=
      TypeDef.implements_iff.2 ⟨hbinding.instance_, hbody, hsignature.symm⟩
    cases hfind : (c.lineageMethods t.handle).find? (TypeDef.implements m) with
    | none => exact absurd himplements (List.find?_eq_none.1 hfind b hbinding.mem)
    | some f =>
      have hclass : t.isInterface = false := (Bool.or_eq_false_iff.1 habstract).2
      have hcontract : m ∈ c.contracts t := mem_contracts.2 ⟨j, hj, hji, hja, hmj⟩
      rw [hresolved, hb.chooses t ht hclass m hcontract s hs f (hlisted f hfind) hfind b hbound]

end Catalog

/-- **One implementation for each signature.** In a built registry, methods of
one signature that interfaces require resolve to one method on every type that
is neither an interface nor abstract and has the interfaces among its
ancestors: to the first method on the lineage of the type that can stand behind
them, provided that the type has that method, which it has unless a bodiless
override hides it. -/
theorem Registry.Built.resolve?_eq_of_signature {r : Registry} (hr : r.Built) {t i j : TypeDef}
    (ht : t ∈ r.types) (habstract : t.isAbstract = false) (hi : i ∈ r.types)
    (hii : i.isInterface = true) (hia : i.handle ∈ t.ancestors) (hj : j ∈ r.types)
    (hji : j.isInterface = true) (hja : j.handle ∈ t.ancestors) {m n : Method}
    (hm : m ∈ i.allMethods) (hn : n ∈ j.allMethods) (hname : m.name = n.name)
    (htypes : m.parameterTypes = n.parameterTypes)
    (hlisted : ∀ f, (r.lineageMethods t.handle).find? (TypeDef.implements m) = some f →
      f ∈ t.allMethods) :
    t.resolve? m = t.resolve? n ∧
      t.resolve? m = (r.lineageMethods t.handle).find? (TypeDef.implements m) := by
  obtain ⟨ids, hb⟩ := hr
  have himplements : TypeDef.implements n = TypeDef.implements m := by
    unfold TypeDef.implements
    rw [hname, htypes]
  have hfirst := hb.resolve?_contract ht habstract hi hii hia hm hlisted
  refine ⟨hfirst.trans ?_, hfirst⟩
  rw [← himplements]
  exact (hb.resolve?_contract ht habstract hj hji hja hn (himplements ▸ hlisted)).symm

namespace Sample

/-- A tape reads as its base does, whichever interface asks. -/
theorem resolve?_tape :
    tape.resolve? readerRead = tape.resolve? sourceRead ∧
      tape.resolve? readerRead = some fileRead := by
  have hread := Registry.Built.resolve?_eq_of_signature shelfRegistry_built
    (t := tape) (i := reader) (j := source) (m := readerRead) (n := sourceRead) (by decide)
    (by decide) (by decide) (by decide) (by decide) (by decide) (by decide) (by decide) (by decide)
    (by decide) rfl rfl (fun f hf => by
      obtain rfl : fileRead = f := Option.some.inj hf
      decide)
  exact ⟨hread.1, hread.2.trans (by decide)⟩

/-- **An archive reads in two ways.** Behind the bodiless override the contract
of readers is still bound to what a file does, and that of sources, which comes
later, to what a file has hidden. -/
theorem resolve?_archive_ne :
    ¬ ∀ (r : Registry) (t i j : TypeDef) (m n : Method), r.Built → t ∈ r.types →
      t.isAbstract = false → i ∈ r.types → i.isInterface = true → i.handle ∈ t.ancestors →
      j ∈ r.types → j.isInterface = true → j.handle ∈ t.ancestors → m ∈ i.allMethods →
      n ∈ j.allMethods → m.name = n.name → m.parameterTypes = n.parameterTypes →
      t.resolve? m = t.resolve? n := by
  intro h
  have heq := h shelfRegistry archive reader source readerRead sourceRead shelfRegistry_built
    (by decide) (by decide) (by decide) (by decide) (by decide) (by decide) (by decide) (by decide)
    (by decide) (by decide) rfl rfl
  exact absurd heq (by decide)

end Sample

end MemberAccess
