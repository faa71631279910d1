import MemberAccess.Proofs.Catalog.Subtyping
/-!
# Catalog — methods are listed once

What a type lists are the methods that it declares, followed by what is left of
those it inherits: an override drops the one that it takes the place of, and of
two that clash only the first is kept. No two that are left clash, which is
part of `Catalog.Dispatches`. Here it is shown that nothing is lost on the way.
A slot that a type takes over from its base, or an interface from an interface
that it extends, it carries too (`Catalog.TakesOver`), as whatever is dropped
from a slot makes room for another method in it. So a class lists a method for
every slot of its lineage (`Built.find?_slot_eq`), and an interface lists
every method of the interfaces it extends (`Built.mem_of_extends`).
-/

namespace MemberAccess

/-- **What is not kept clashes with something that is.** -/
theorem exists_mem_keepFirst {α : Type} (clash : α → α → Bool) {l : List α} {a : α}
    (h : a ∈ l) : ∃ b ∈ keepFirst clash l, b = a ∨ clash b a = true := by
  have hfold : ∀ (l kept : List α), (a ∈ l ∨ ∃ b ∈ kept, b = a ∨ clash b a = true) →
      ∃ b ∈ l.foldl (fun kept a => if kept.any (clash · a) then kept else kept ++ [a]) kept,
        b = a ∨ clash b a = true := by
    intro l
    induction l with
    | nil => exact fun kept h => h.resolve_left List.not_mem_nil
    | cons x l ih =>
      intro kept h
      refine ih _ ?_
      dsimp only
      rcases h with h | ⟨b, hb, hba⟩
      · rcases List.mem_cons.1 h with rfl | h
        · split
          · rename_i hany
            obtain ⟨b, hb, hclash⟩ := List.any_eq_true.1 hany
            exact .inr ⟨b, hb, .inr hclash⟩
          · exact .inr ⟨a, List.mem_concat_self, .inl rfl⟩
        · exact .inl h
      · split
        · exact .inr ⟨b, hb, hba⟩
        · exact .inr ⟨b, List.mem_append_left _ hb, hba⟩
  exact hfold l [] (.inl h)

namespace TypeDef

variable {t : TypeDef} {s : VirtualSlot}

/-- **The slots that a type carries**, in the order of its methods. -/
def slots (t : TypeDef) : List VirtualSlot := t.allMethods.filterMap (·.slot)

theorem mem_slots : s ∈ t.slots ↔ ∃ m ∈ t.allMethods, m.slot = some s := List.mem_filterMap

theorem slots_eq {u : TypeDef} (hm : u.methods = t.methods)
    (hin : u.inheritedMethods = t.inheritedMethods) : u.slots = t.slots := by
  rw [slots, slots, allMethods, allMethods, hm, hin]

/-- Methods that do not clash differ in their identities and in their slots. -/
theorem nodup_of_apart (h : t.allMethods.Pairwise Method.Apart) :
    (t.allMethods.map (·.id)).Nodup ∧ t.slots.Nodup := by
  refine ⟨List.pairwise_map.2 (h.imp (·.1)), List.pairwise_filterMap.2 (h.imp ?_)⟩
  intro m n hapart s hm s' hn heq
  exact hapart.2 (by simp [hm]) (hm.trans (heq ▸ hn.symm))

/-- Interfaces bring their methods to an interface, and none to other types. -/
theorem inheritedMethods_implementAll (t : TypeDef) (is : List TypeDef) :
    (t.implementAll is).inheritedMethods =
      t.inheritedMethods ++ if t.isInterface then is.flatMap (·.allMethods) else [] := by
  induction is generalizing t with
  | nil => simp [implementAll]
  | cons i is ih =>
    have htail : (t.implementAll (i :: is)).inheritedMethods =
        (t.implement i).inheritedMethods ++
          if (t.implement i).isInterface then is.flatMap (·.allMethods) else [] := ih _
    rw [htail, implement_eq]
    cases hi : t.isInterface <;> simp_all [isInterface]

end TypeDef

/-! ## Additions drop no slot -/

namespace Draft

variable {dr dr' : Draft} {m : MethodDefinition} {n : Method}

/-- **Only what shares its slot makes room for a method.** -/
theorem Adds.slots_subset (ha : dr.Adds m n dr') : dr.type.slots ⊆ dr'.type.slots := by
  intro s hs
  obtain ⟨k, hk, hks⟩ := TypeDef.mem_slots.1 hs
  rw [TypeDef.mem_slots, ha.type_eq]
  by_cases hns : n.slot = some s
  · exact ⟨n, by simp [TypeDef.allMethods, TypeDef.appendMethod], hns⟩
  · refine ⟨k, ?_, hks⟩
    have hne : k.slot ≠ n.slot := fun heq => hns (heq ▸ hks)
    rcases List.mem_append.1 hk with hk | hk
    · exact List.mem_append_left _ (List.mem_append_left _ hk)
    · refine List.mem_append_right _ ?_
      simp only [TypeDef.appendMethod]
      split
      · exact List.mem_filter.2 ⟨hk, by simp [hne]⟩
      · exact hk

theorem MethodSteps.slots_subset (hs : MethodSteps dr dr') : dr.type.slots ⊆ dr'.type.slots := by
  refine chain_invariant (P := fun x => dr.type.slots ⊆ x.type.slots) (fun x y hs hx => ?_) hs
    (List.Subset.refl _)
  cases hs with
  | adds ha => exact List.Subset.trans hx ha.slots_subset
  | keeps hk =>
    rw [TypeDef.slots_eq hk.methods hk.inheritedMethods]
    exact hx

end Draft

/-! ## What a type takes over from its parents -/

namespace Catalog

variable {c : Catalog} {ids : Supply} {t u : TypeDef} {d : TypeDefinition} {h : TypeHandle}
  {base : Option TypeDef} {is : List TypeDef} {s : VirtualSlot}

/-- **The methods that a new type inherits** are those of its base, or of the
interfaces that an interface extends, without clashes. -/
theorem Inherits.inheritedMethods_eq (hin : c.Inherits d h base is t) :
    t.inheritedMethods = keepFirst TypeDef.methodsClash
      (base.elim (if t.isInterface then is.flatMap (·.allMethods) else []) (·.allMethods)) := by
  have hkind : (d.start h).isInterface = t.isInterface := by
    rw [TypeDef.isInterface, TypeDef.isInterface, hin.head.2.2.1]
    rfl
  rw [← hkind, hin.type_eq]
  cases base with
  | none =>
    have hmethods := TypeDef.inheritedMethods_implementAll (d.start h) is
    exact congrArg _ (hmethods.trans (List.nil_append _))
  | some b => rfl

/-- Dropping what clashes drops no slot. -/
theorem Dispatches.exists_kept_of_slot (hd : c.Dispatches ids) {ms : List Method}
    (hms : ms ⊆ c.declared) {m : Method} (hm : m ∈ ms) (hs : m.slot = some s) :
    ∃ k ∈ keepFirst TypeDef.methodsClash ms, k.slot = some s := by
  obtain ⟨k, hk, heq | hclash⟩ := exists_mem_keepFirst TypeDef.methodsClash hm
  · exact ⟨k, hk, heq ▸ hs⟩
  · refine ⟨k, hk, ?_⟩
    simp only [TypeDef.methodsClash, Bool.or_eq_true, Bool.and_eq_true, beq_iff_eq] at hclash
    rcases hclash with hid | ⟨-, hslot⟩
    · -- one identity is one method
      obtain rfl := hd.slotted.eq_of_id (hms (mem_of_mem_keepFirst hk)) (hms hm) hid
      exact hs
    · exact hslot.trans hs

/-- **A type carries the slots of its base**, and an interface those of the
interfaces that it extends. -/
structure TakesOver (c : Catalog) (t : TypeDef) : Prop where
  base : ∀ b ∈ c.types, t.base = some b.handle →
    t.isInterface = false ∧ b.isInterface = false ∧ b.slots ⊆ t.slots
  interfaces : ∀ i ∈ c.types, i.handle ∈ t.interfaces →
    i.isInterface = true ∧ (t.isInterface = true → i.slots ⊆ t.slots)

/-- **What is inherited is taken over.** -/
theorem Dispatches.slots_of_inherits (hd : c.Dispatches ids) (hin : c.Inherits d h base is t) :
    (∀ b, base = some b → b.slots ⊆ t.slots) ∧
      (t.isInterface = true → ∀ i ∈ is, i.slots ⊆ t.slots) := by
  have hall : t.allMethods = t.inheritedMethods := by
    rw [TypeDef.allMethods, hin.head.2.2.2.2.2.1, List.nil_append]
  refine ⟨fun b hb s hs => ?_, fun hi i hmem s hs => ?_⟩
  · subst hb
    obtain ⟨m, hm, hms⟩ := TypeDef.mem_slots.1 hs
    rw [TypeDef.mem_slots, hall, hin.inheritedMethods_eq]
    exact hd.exists_kept_of_slot (hd.listed b (hin.mem_base rfl).2.1) hm hms
  · obtain ⟨m, hm, hms⟩ := TypeDef.mem_slots.1 hs
    cases base with
    | some b =>
      have hclass := (hin.mem_base rfl).1
      rw [TypeDef.isInterface, hin.head.2.2.1, hclass] at hi
      cases hi
    | none =>
      rw [TypeDef.mem_slots, hall, hin.inheritedMethods_eq, hi]
      have hdeclared : is.flatMap (·.allMethods) ⊆ c.declared := by
        intro k hk
        obtain ⟨j, hj, hk⟩ := List.mem_flatMap.1 hk
        exact hd.listed j (hin.mem_interfaces hj).1 hk
      exact hd.exists_kept_of_slot hdeclared (List.mem_flatMap.2 ⟨i, hmem, hm⟩) hms

/-- Past what is inherited no slot is dropped. -/
theorem Phases.slots_subset {n : Nat} {t' : TypeDef} {dr dr' : Draft}
    (hp : c.Phases d n base is t dr t' dr') : t.slots ⊆ dr'.type.slots := by
  rw [TypeDef.slots_eq hp.methods_eq.1 hp.methods_eq.2.1]
  exact hp.adds.slots_subset

/-- Built-in types carry no slot, and none is an interface. -/
theorem takesOver_standard (ht : t ∈ (standard ids).1.types) : (standard ids).1.TakesOver t where
  base := by
    intro b hb _
    have hnone : ∀ u ∈ (standard ids).1.types, u.slots = [] :=
      forall_mem_standard fun _ _ _ _ _ => rfl
    refine ⟨isInterface_standard t ht, isInterface_standard b hb, ?_⟩
    rw [hnone b hb]
    exact List.nil_subset _
  interfaces := by
    have hnone : ∀ u ∈ (standard ids).1.types, u.interfaces = [] :=
      forall_mem_standard fun _ _ _ _ _ => rfl
    intro i _ hi
    rw [hnone t ht] at hi
    cases hi

/-- **In a built catalog every type takes over what it inherits.** -/
theorem Built.takesOver (hb : c.Built ids) (ht : t ∈ c.types) : c.TakesOver t := by
  induction hb generalizing t with
  | standard ids h => exact takesOver_standard ht
  | @define c _ _ _ _ _ _ hc hids hrun ih =>
    have hwf := (hc.define hids hrun).wellFormed
    obtain ⟨base, is, t₀, dr, t', dr', hp, hcatalog, -⟩ := phases_of_define hrun
    have hfresh := (fits_of_define hc.wellFormed hids hp.inherits hp.steps).fresh
    rw [hcatalog] at ht hwf ⊢
    have hin := hp.inherits
    rcases mem_concat_cases ht with ht | rfl
    · -- an older type cannot name the new one
      have holder : ∀ u ∈ c.types ++ [dr'.type], t.Names u.handle → u ∈ c.types := by
        intro u hu hnames
        obtain ⟨v, hv, heq, -⟩ := (hc.hierarchy.descends t ht).parents _ hnames
        rcases mem_concat_cases hu with hu | rfl
        · exact hu
        · exact absurd heq (hfresh v hv)
      exact ⟨fun b hb hbase => (ih ht).base b (holder b hb (.inl hbase)) hbase,
        fun i hi hmem => (ih ht).interfaces i (holder i hi (.inr hmem)) hmem⟩
    · have hinterface : dr'.type.isInterface = t₀.isInterface := by
        rw [TypeDef.isInterface, (hin.extends hc.wellFormed hp.steps).kind]
        rfl
      obtain ⟨hbase, his⟩ := hc.dispatches.slots_of_inherits hin
      refine ⟨fun b hb heq => ?_, fun i hi hmem => ?_⟩
      · rw [hp.base_eq, Option.map_eq_some_iff] at heq
        obtain ⟨b', rfl, heq⟩ := heq
        obtain ⟨hkind, hb', hclass⟩ := hin.mem_base rfl
        obtain rfl := hwf.eq_of_handle (List.mem_append_left _ hb') hb heq
        refine ⟨?_, ?_, List.Subset.trans (hbase b' rfl) hp.slots_subset⟩
        · rw [hinterface, TypeDef.isInterface, hin.head.2.2.1, hkind]
          rfl
        · rw [TypeDef.isInterface, hclass]
          rfl
      · rw [hp.steps.sameHead.interfaces, hin.interfaces_map, List.mem_map] at hmem
        obtain ⟨i', hi', heq⟩ := hmem
        obtain ⟨hmem, hii⟩ := hin.mem_interfaces hi'
        obtain rfl := hwf.eq_of_handle (List.mem_append_left _ hmem) hi heq
        exact ⟨hii, fun h => List.Subset.trans (his (hinterface ▸ h) i' hi') hp.slots_subset⟩

/-! ## Nothing is lost -/

/-- **A class carries every slot of its lineage.** -/
theorem Built.slots_of_mem_lineage (hb : c.Built ids) (ht : t ∈ c.types)
    (hu : u ∈ c.lineage t.handle) : u.slots ⊆ t.slots := by
  have hall : ∀ t ∈ c.types, ∀ u ∈ c.lineage t.handle, u.slots ⊆ t.slots := by
    refine hb.hierarchy.climb fun t ht ih u hu => ?_
    rw [hb.lineage_eq ht] at hu
    rcases List.mem_cons.1 hu with rfl | hu
    · exact List.Subset.refl _
    · cases hbase : t.base with
      | none => simp [hbase] at hu
      | some h =>
        obtain ⟨b, hmem, rfl⟩ := hb.exists_base ht hbase
        rw [hbase] at hu
        have hsub := ih b ⟨ht, hmem, .inl hbase⟩ u hu
        exact List.Subset.trans hsub ((hb.takesOver ht).base b hmem hbase).2.2
  exact hall t ht u hu

/-- **What a class lists for a slot** is what its lineage carries first. -/
theorem Built.find?_slot_eq (hb : c.Built ids) (ht : t ∈ c.types) (hi : t.isInterface = false)
    (s : VirtualSlot) : t.allMethods.find? (·.slot == some s) =
      (c.lineageMethods t.handle).find? (·.slot == some s) := by
  have hd := hb.dispatches
  cases hfind : (c.lineageMethods t.handle).find? (·.slot == some s) with
  | none =>
    refine List.find?_eq_none.2 fun k hk => ?_
    exact List.find?_eq_none.1 hfind k ((hd.fromLineage t ht hi).subset hk)
  | some m =>
    have hms : m.slot = some s := by simpa using List.find?_some hfind
    obtain ⟨u, hu, hm⟩ := mem_lineageMethods.1 (List.mem_of_find?_eq_some hfind)
    have hcarried := hb.slots_of_mem_lineage ht hu
      (TypeDef.mem_slots.2 ⟨m, List.mem_append_left _ hm, hms⟩)
    obtain ⟨k, hk, hks⟩ := TypeDef.mem_slots.1 hcarried
    -- what the type lists in the slot is the first of its lineage, so it is `m`
    have hlatest := hd.latest t ht hi k hk s hks
    rw [hfind] at hlatest
    cases hlatest
    exact find?_slot_of_pairwise (hd.apart t ht) hk hks

/-- **What an interface extends** is an interface, whose slots it carries. -/
theorem Built.slots_of_extends (hb : c.Built ids) (ht : t ∈ c.types) (hi : t.isInterface = true)
    (hpath : Relation.ReflTransGen c.DerivesFrom t u) :
    u ∈ c.types ∧ u.isInterface = true ∧ u.slots ⊆ t.slots := by
  induction hpath with
  | refl => exact ⟨ht, hi, List.Subset.refl _⟩
  | @tail v w _ hedge ih =>
    obtain ⟨hv, hvi, hsub⟩ := ih
    have htakes := hb.takesOver hv
    rcases hedge.names with hbase | hmem
    · -- an interface has no base
      rw [(htakes.base w hedge.parent hbase).1] at hvi
      cases hvi
    · obtain ⟨hwi, hslots⟩ := htakes.interfaces w hedge.parent hmem
      exact ⟨hedge.parent, hwi, List.Subset.trans (hslots hvi) hsub⟩

/-- **An interface lists every method of what it extends.** -/
theorem Built.mem_of_extends (hb : c.Built ids) (ht : t ∈ c.types) (hi : t.isInterface = true)
    (hpath : Relation.ReflTransGen c.DerivesFrom t u) {m : Method} (hm : m ∈ u.allMethods) :
    m ∈ t.allMethods := by
  obtain ⟨hu, hui, hsub⟩ := hb.slots_of_extends ht hi hpath
  have hk := hb.contracts
  have hrequired : ∀ v ∈ c.types, v.isInterface = true → ∀ q ∈ v.allMethods, q ∈ c.required := by
    intro v hv hvi q hq
    obtain ⟨j, hj, hji, -, hq⟩ := hk.methods v hv hvi q hq
    exact mem_required.2 ⟨j, hj, hji, hq⟩
  have hslot := (hk.isContract hu hui hm).slot
  obtain ⟨s, hs⟩ := Option.isSome_iff_exists.1 hslot
  obtain ⟨k, hkt, hks⟩ := TypeDef.mem_slots.1 (hsub (TypeDef.mem_slots.2 ⟨m, hm, hs⟩))
  -- a contract has its slot for itself
  obtain rfl := hb.dispatches.contractsApart m (hrequired u hu hui m hm) k
    (hrequired t ht hi k hkt) hslot (hs.trans hks.symm)
  exact hkt

end Catalog

/-- **Methods are listed once.** In a built registry no two methods of a type
share an identity or a slot. What a class or a struct lists for a slot is what
the first type of its lineage to declare a method in the slot declares, with a
body or without; with a body it is what every method of the lineage in the slot
resolves to. An interface lists each method of itself and of all interfaces
that it extends exactly once. -/
theorem Registry.Built.methods_listed {r : Registry} (hr : r.Built) {t : TypeDef}
    (ht : t ∈ r.types) :
    ((t.allMethods.map (·.id)).Nodup ∧ t.slots.Nodup) ∧
      (t.isInterface = false →
        r.lineage t.handle = t :: t.base.elim [] r.lineage ∧
        ∀ s, t.allMethods.find? (·.slot == some s) =
            (r.lineage t.handle).findSome? (fun u => u.methods.find? (·.slot == some s)) ∧
          ∀ m, t.allMethods.find? (·.slot == some s) = some m → m.body.isSome = true →
            ∀ u ∈ r.lineage t.handle, ∀ k ∈ u.methods, k.slot = some s →
              t.resolve? k = some m) ∧
      (t.isInterface = true → ∀ i, Relation.ReflTransGen r.DerivesFrom t i →
        i.isInterface = true ∧ ∀ m ∈ i.allMethods, t.allMethods.count m = 1) := by
  obtain ⟨ids, hb⟩ := hr
  have hd := hb.dispatches
  have hnodup := TypeDef.nodup_of_apart (hd.apart t ht)
  refine ⟨hnodup, fun hi => ⟨hb.lineage_eq ht, fun s => ⟨?_, ?_⟩⟩, fun hi i hpath => ⟨?_, ?_⟩⟩
  · rw [← List.find?_flatMap]
    exact hb.find?_slot_eq ht hi s
  · intro m hm hbody u hu k hk hks
    rw [hb.find?_slot_eq ht hi s] at hm
    rw [hd.resolve?_eq ht (Catalog.mem_lineageMethods.2 ⟨u, hu, hk⟩) hks]
    exact find?_fills_of_latest hm hbody
  · exact (hb.slots_of_extends ht hi hpath).2.1
  · intro m hm
    exact List.count_eq_one_of_mem (List.Nodup.of_map _ hnodup.1) (hb.mem_of_extends ht hi hpath hm)

namespace Sample

/-! ## An interface that comes by a method twice -/

/-- An interface that extends both kinds of readers. -/
def scannerDefinition : TypeDefinition where
  name := "Scanner"
  kind := .interfaceType
  interfaces := [⟨65⟩, ⟨68⟩]

/-- One that extends it, and one of the two once more. -/
def copierDefinition : TypeDefinition where
  name := "Copier"
  kind := .interfaceType
  interfaces := [⟨87⟩, ⟨65⟩]
  methods := [{ name := "copy" }]

def scanner : TypeDef :=
  { TypeDef.blank ⟨87⟩ "Scanner" .interfaceType with
    interfaces := [⟨65⟩, ⟨68⟩]
    ancestors := [.object, ⟨87⟩, ⟨65⟩, ⟨68⟩]
    inheritedMethods := [readerRead, sourceRead] }

def copier : TypeDef :=
  { TypeDef.blank ⟨88⟩ "Copier" .interfaceType with
    interfaces := [⟨87⟩, ⟨65⟩]
    ancestors := [.object, ⟨88⟩, ⟨87⟩, ⟨65⟩, ⟨68⟩]
    methods := [
      { readerRead with
        id := ⟨90⟩
        name := "copy"
        declaringType := ⟨88⟩
        slot := some ⟨89⟩ }]
    inheritedMethods := [readerRead, sourceRead] }

theorem define_scanner : (shelf.define scannerDefinition ⟨87⟩).run {} =
    some (.ok ⟨⟨87⟩, ⟨shelf.types ++ [scanner]⟩, ⟨88⟩⟩, {}) := by rfl

/-- The shelf with both interfaces. -/
def office : Catalog := ⟨shelf.types ++ [scanner, copier]⟩

theorem define_copier :
    ((⟨shelf.types ++ [scanner]⟩ : Catalog).define copierDefinition ⟨88⟩).run {} =
      some (.ok ⟨⟨88⟩, office, ⟨91⟩⟩, {}) := by rfl

theorem office_built : office.Built ⟨91⟩ :=
  (shelf_built.define (Nat.le_refl _) define_scanner).define (Nat.le_refl _) define_copier

def officeRegistry : Registry := (office.freeze ⟨91⟩).1

/-- A copier lists once what it comes by on two ways, and a tape reads like the
file that it derives from. -/
theorem count_readerRead_copier :
    Relation.ReflTransGen officeRegistry.DerivesFrom copier reader ∧
      copier.allMethods.count readerRead = 1 ∧
      (tape.allMethods.filter (·.slot == some ⟨75⟩)) = [fileRead] ∧
      tape.resolve? fileRead = some fileRead := by
  have hr : officeRegistry.Built := ⟨⟨91⟩, office_built⟩
  have hcopier : copier ∈ officeRegistry.types := by decide
  have htape : tape ∈ officeRegistry.types := by decide
  have hscans : officeRegistry.DerivesFrom copier scanner :=
    ⟨by decide, by decide, .inr (by decide)⟩
  have hreads : officeRegistry.DerivesFrom scanner reader :=
    ⟨by decide, by decide, .inr (by decide)⟩
  have hpath := (Relation.ReflTransGen.single hscans).tail hreads
  obtain ⟨-, -, honce⟩ := Registry.Built.methods_listed hr hcopier
  obtain ⟨-, hslots, -⟩ := Registry.Built.methods_listed hr htape
  obtain ⟨-, hresolves⟩ := (hslots rfl).2 ⟨75⟩
  refine ⟨hpath, (honce rfl reader hpath).2 readerRead (by decide), by decide, ?_⟩
  exact hresolves fileRead (by decide) rfl file (by decide) fileRead (by decide) rfl

end Sample

end MemberAccess
