import Mathlib.Data.List.Pairwise
import MemberAccess.Proofs.Catalog.Slots
/-!
# Catalog — a type under construction dispatches

What is taken over from a base are the methods that the base and its own bases
declare, and the contracts that the base is under. On top of those a draft has
its methods and slots in order (`Draft.Dispatches`): no two of its methods
clash, a slot that is not new comes from a base, and its table settles all of
it. Every addition keeps that (`Dispatches.adds`), and so does the binding of
interfaces (`Dispatches.bindAll`), after which the draft is under more
contracts.
-/

namespace MemberAccess

/-- **Two methods that do not clash**: they are not the same, and not in one
slot. -/
def Method.Apart (m n : Method) : Prop := m.id ≠ n.id ∧ (m.slot.isSome = true → m.slot ≠ n.slot)

theorem Method.Apart.symm {m n : Method} (h : m.Apart n) : n.Apart m :=
  ⟨h.1.symm, fun hn heq => h.2 (heq ▸ hn) heq.symm⟩

instance : Std.Symm Method.Apart := ⟨fun _ _ => Method.Apart.symm⟩

section Apart

variable {ms : List Method} {m n : Method} {s : VirtualSlot}

/-- Among methods that do not clash a slot tells methods apart. -/
theorem eq_of_slot (h : ms.Pairwise Method.Apart) (hm : m ∈ ms) (hn : n ∈ ms)
    (hms : m.slot = some s) (hns : n.slot = some s) : m = n := by
  by_contra hne
  have hapart := List.Pairwise.forall h hm hn hne
  exact hapart.2 (by simp [hms]) (hms.trans hns.symm)

theorem find?_slot_of_pairwise (h : ms.Pairwise Method.Apart) (hm : m ∈ ms)
    (hms : m.slot = some s) : ms.find? (·.slot == some s) = some m := by
  cases hfind : ms.find? (·.slot == some s) with
  | none => simpa [hms] using List.find?_eq_none.1 hfind m hm
  | some n =>
    have hns : n.slot = some s := by simpa using List.find?_some hfind
    exact congrArg some (eq_of_slot h (List.mem_of_find?_eq_some hfind) hm hns hms)

/-- So at most one method is in a slot. -/
theorem length_filter_slot_le (h : ms.Pairwise Method.Apart) :
    (ms.filter (·.slot == some s)).length ≤ 1 := by
  have hapart : (ms.filter (·.slot == some s)).Pairwise Method.Apart :=
    h.sublist List.filter_sublist
  have hslot : ∀ k ∈ ms.filter (·.slot == some s), k.slot = some s := by
    intro k hk
    simpa using (List.mem_filter.1 hk).2
  generalize ms.filter (·.slot == some s) = fs at hapart hslot ⊢
  rcases fs with _ | ⟨m, _ | ⟨n, rest⟩⟩
  · exact Nat.zero_le _
  · exact Nat.le_refl _
  · have hm := hslot m (by simp)
    have hne := ((List.pairwise_cons.1 hapart).1 n (by simp)).2 (by simp [hm])
    exact absurd (hm.trans (hslot n (by simp)).symm) hne

end Apart

/-- **What a table leads to in a slot** that the lineage carries first with a
body: that very method. -/
theorem find?_fills_of_latest {ms : List Method} {m : Method} {s : VirtualSlot}
    (h : ms.find? (·.slot == some s) = some m) (hbody : m.body.isSome = true) :
    ms.find? (·.fills s) = some m := by
  obtain ⟨hm, as, bs, rfl, has⟩ := List.find?_eq_some_iff_append.1 h
  refine List.find?_eq_some_iff_append.2 ⟨?_, as, bs, rfl, fun a ha => ?_⟩
  · exact Method.fills_iff.2 ⟨by simpa using hm, hbody⟩
  · have hslot := has a ha
    simp only [Bool.not_eq_true', beq_eq_false_iff_ne] at hslot
    simp [Method.fills, hslot]

/-! ## What is inherited -/

/-- What is kept comes in the order it was in. -/
theorem keepFirst_sublist {α : Type} (clash : α → α → Bool) (l : List α) :
    (keepFirst clash l).Sublist l := by
  have hfold : ∀ (l kept : List α),
      (l.foldl (fun kept a => if kept.any (clash · a) then kept else kept ++ [a]) kept).Sublist
        (kept ++ l) := by
    intro l
    induction l with
    | nil => exact fun kept => by simp
    | cons a l ih =>
      intro kept
      refine (ih _).trans ?_
      dsimp only
      split
      · exact (List.sublist_cons_self a l).append_left kept
      · simp
  exact hfold l []

/-- What is kept does not clash with what was kept before it. -/
theorem pairwise_keepFirst {α : Type} (clash : α → α → Bool) (l : List α) :
    (keepFirst clash l).Pairwise fun a b => clash a b = false := by
  have hfold : ∀ (l kept : List α), kept.Pairwise (fun a b => clash a b = false) →
      (l.foldl (fun kept a => if kept.any (clash · a) then kept else kept ++ [a]) kept).Pairwise
        fun a b => clash a b = false := by
    intro l
    induction l with
    | nil => exact fun kept hk => hk
    | cons a l ih =>
      intro kept hk
      refine ih _ ?_
      dsimp only
      split
      · exact hk
      · rename_i hnot
        rw [List.pairwise_append]
        refine ⟨hk, List.pairwise_singleton _ _, fun b hb x hx => ?_⟩
        obtain rfl := List.mem_singleton.1 hx
        simpa using fun heq => hnot (List.any_eq_true.2 ⟨b, hb, heq⟩)
  exact hfold l [] .nil

namespace TypeDef

variable {t t' : TypeDef} {m n q : Method} {s : VirtualSlot}

theorem apart_of_methodsClash (h : methodsClash m n = false) : m.Apart n := by
  simp only [methodsClash, Bool.or_eq_false_iff, beq_eq_false_iff_ne, Bool.and_eq_false_iff] at h
  refine ⟨h.1, fun hs heq => ?_⟩
  rcases h.2 with hnone | hne
  · rw [← heq, hs] at hnone
    cases hnone
  · exact hne heq

theorem implements_iff : implements q m = true ↔
    m.isStatic = false ∧ m.body.isSome = true ∧ m.signature = q.signature := by
  simp [implements, Method.hasSignature, Method.signature_eq_iff, and_assoc]

/-- **What is bound is the most derived form of a method**: of the first that
has what the contract asks for. -/
theorem implementation_eq_bind (h : t.implementation q s = .bind n) :
    ∃ m, t.allMethods.find? (implements q) = some m ∧ n = t.mostDerived m := by
  rw [allMethods, List.find?_append]
  unfold implementation at h
  split at h
  · rename_i m hm
    cases h
    exact ⟨m, by rw [hm, Option.some_or], rfl⟩
  · rename_i hnone
    split at h
    · cases h
    · split at h
      · rename_i m hm
        cases h
        exact ⟨m, by rw [hnone, hm, Option.none_or], rfl⟩
      · cases h

/-- **Binding one contract** binds its slot. It leaves the table as it is only
where no method of the type itself has what the contract asks for. -/
theorem bindMethod_eq_ok {i : String} (h : bindMethod i t q = .ok t') :
    (t' = t ∧ (q.slot.isSome = true → t.methods.find? (implements q) = none)) ∨
      ∃ s n, q.slot = some s ∧ t.implementation q s = .bind n ∧
        t' = { t with dispatch := t.dispatch.bind s n } := by
  unfold bindMethod at h
  split at h
  · rename_i hs
    cases h
    exact .inl ⟨rfl, by simp [hs]⟩
  · rename_i s hs
    have hown : (∀ n, t.implementation q s ≠ .bind n) → t.methods.find? (implements q) = none := by
      intro hne
      cases hm : t.methods.find? (implements q) with
      | none => rfl
      | some m => exact absurd (by simp [implementation, hm]) (hne (t.mostDerived m))
    split at h
    · rename_i n hn
      cases h
      exact .inr ⟨s, n, hs, hn, rfl⟩
    · rename_i hkeep
      cases h
      exact .inl ⟨rfl, fun _ => hown (by simp [hkeep])⟩
    · rename_i hmissing
      split at h
      · cases h
        exact .inl ⟨rfl, fun _ => hown (by simp [hmissing])⟩
      · cases h

end TypeDef

namespace Catalog

/-- **All methods that interfaces require.** -/
def required (c : Catalog) : List Method := (c.types.filter (·.isInterface)).flatMap (·.methods)

/-- **Every contract has a slot of its own.** -/
def ContractsApart (c : Catalog) : Prop :=
  ∀ q ∈ c.required, ∀ q' ∈ c.required, q.slot.isSome = true → q.slot = q'.slot → q = q'

/-- **The contracts that a type is under**: what the interfaces among its
ancestors require. -/
def contracts (c : Catalog) (t : TypeDef) : List Method :=
  (c.types.filter fun i => i.isInterface && t.ancestors.contains i.handle).flatMap (·.methods)

variable {c : Catalog} {ids : Supply} {t u : TypeDef} {q : Method}

theorem mem_required : q ∈ c.required ↔ ∃ i ∈ c.types, i.isInterface = true ∧ q ∈ i.methods := by
  simp [required, and_assoc]

theorem mem_contracts : q ∈ c.contracts t ↔
    ∃ i ∈ c.types, i.isInterface = true ∧ i.handle ∈ t.ancestors ∧ q ∈ i.methods := by
  simp [contracts, and_assoc]

theorem required_subset_declared : c.required ⊆ c.declared := by
  intro q hq
  obtain ⟨i, hi, -, hq⟩ := mem_required.1 hq
  exact mem_declared.2 ⟨i, hi, hq⟩

theorem contracts_subset_required : c.contracts t ⊆ c.required := by
  intro q hq
  obtain ⟨i, hi, hii, -, hq⟩ := mem_contracts.1 hq
  exact mem_required.2 ⟨i, hi, hii, hq⟩

/-- More ancestors bring more contracts. -/
theorem contracts_mono (h : t.ancestors ⊆ u.ancestors) : c.contracts t ⊆ c.contracts u := by
  intro q hq
  obtain ⟨i, hi, hii, ha, hq⟩ := mem_contracts.1 hq
  exact mem_contracts.2 ⟨i, hi, hii, h ha, hq⟩

theorem contracts_add : c.contracts t ⊆ contracts ⟨c.types ++ [u]⟩ t := by
  intro q hq
  obtain ⟨i, hi, hrest⟩ := mem_contracts.1 hq
  exact mem_contracts.2 ⟨i, List.mem_append_left _ hi, hrest⟩

/-- A type brings contracts only to what has it for an interface. -/
theorem contracts_add_subset (h : u.isInterface = false ∨ u.handle ∉ t.ancestors) :
    contracts ⟨c.types ++ [u]⟩ t ⊆ c.contracts t := by
  intro q hq
  obtain ⟨i, hi, hii, ha, hq⟩ := mem_contracts.1 hq
  rcases mem_concat_cases hi with hi | rfl
  · exact mem_contracts.2 ⟨i, hi, hii, ha, hq⟩
  · rcases h with h | h
    · rw [hii] at h
      cases h
    · exact absurd ha h

theorem mem_required_add :
    q ∈ required ⟨c.types ++ [t]⟩ ↔ q ∈ c.required ∨ t.isInterface = true ∧ q ∈ t.methods := by
  cases hi : t.isInterface <;> simp [required, hi]

/-- Interfaces that are bound are contracts. -/
theorem mem_contracts_of_mem_interfacesOf {i : TypeDef} (hi : i ∈ c.interfacesOf t)
    (hq : q ∈ i.methods) : q ∈ c.contracts t := by
  obtain ⟨hi, hii⟩ := List.mem_filter.1 hi
  obtain ⟨a, ha, hfind⟩ := List.mem_filterMap.1 hi
  obtain rfl := handle_of_find? hfind
  exact mem_contracts.2 ⟨i, List.mem_of_find?_eq_some hfind, hii, ha, hq⟩

end Catalog

/-! ## A type under construction -/

/-- **A draft whose methods and slots are in order**, given the methods that
its bases declare and the contracts it is under. -/
structure Draft.Dispatches (c : Catalog) (bases contracts : List Method) (dr : Draft) : Prop where
  slotted : Slotted (c.declared ++ dr.type.methods) dr.supply
  known : bases ⊆ c.declared
  required : contracts ⊆ c.required
  /-- No base takes part in a contract by its slot. -/
  basesApart : ∀ m ∈ bases, ∀ q ∈ c.required, m.slot.isSome = true → q.slot ≠ m.slot
  inherited : dr.type.inheritedMethods ⊆ c.declared
  fromBases : dr.type.isInterface = false → dr.type.inheritedMethods.Sublist bases
  /-- What is inherited is the most derived in its slot. -/
  latest : dr.type.isInterface = false → ∀ m ∈ dr.type.inheritedMethods, ∀ s, m.slot = some s →
    bases.find? (·.slot == some s) = some m
  apart : dr.type.allMethods.Pairwise Method.Apart
  /-- Outside any slot a method of a class or struct has a body. -/
  bodied : dr.type.isInterface = false →
    ∀ m ∈ dr.type.methods ++ bases, m.slot = none → m.body.isSome = true
  /-- A slot that is not new comes from a base. -/
  taken : ∀ m ∈ dr.type.methods, m.slot.isSome = true → ∀ k ∈ c.declared, k.slot = m.slot →
    dr.type.isInterface = false ∧ ∃ b ∈ bases, b.slot = m.slot
  table : dr.type.dispatch.Settles (dr.type.methods ++ bases) contracts

namespace Draft.Dispatches

variable {c : Catalog} {bases contracts contracts' : List Method} {dr dr' : Draft}
  {m : MethodDefinition} {n : Method}

theorem keeps (h : dr.Dispatches c bases contracts) (hk : dr.KeepsMethods dr') :
    dr'.Dispatches c bases contracts := by
  obtain ⟨hi, -, hm, hin, hd, hs⟩ := hk
  refine
    { slotted := hm ▸ h.slotted.mono hs, known := h.known, required := h.required
      basesApart := h.basesApart, inherited := hin ▸ h.inherited
      fromBases := hi ▸ hin ▸ h.fromBases, latest := hi ▸ hin ▸ h.latest
      apart := ?_, bodied := hi ▸ hm ▸ h.bodied, taken := hi ▸ hm ▸ h.taken
      table := hm ▸ hd ▸ h.table }
  rw [TypeDef.allMethods, hm, hin]
  exact h.apart

/-- All that the table is about has been declared. -/
theorem lineage_subset (h : dr.Dispatches c bases contracts) :
    dr.type.methods ++ bases ⊆ c.declared ++ dr.type.methods := by
  intro k hk
  rcases List.mem_append.1 hk with hk | hk
  · exact List.mem_append_right _ hk
  · exact List.mem_append_left _ (h.known hk)

/-- Own and inherited methods of a class are declared by it or by a base. -/
theorem allMethods_sublist (h : dr.Dispatches c bases contracts)
    (hi : dr.type.isInterface = false) : dr.type.allMethods.Sublist (dr.type.methods ++ bases) :=
  (h.fromBases hi).append_left dr.type.methods

/-- **A method that a class has is the most derived in its slot.** -/
theorem find?_slot (h : dr.Dispatches c bases contracts) (hi : dr.type.isInterface = false)
    {k : Method} (hk : k ∈ dr.type.allMethods) {s : VirtualSlot} (hs : k.slot = some s) :
    (dr.type.methods ++ bases).find? (·.slot == some s) = some k := by
  obtain ⟨hown, -, hcross⟩ := List.pairwise_append.1 h.apart
  rw [List.find?_append]
  rcases List.mem_append.1 hk with hk | hk
  · rw [find?_slot_of_pairwise hown hk hs, Option.some_or]
  · have hnone : dr.type.methods.find? (·.slot == some s) = none := by
      refine List.find?_eq_none.2 fun x hx hxs => ?_
      have hxs : x.slot = some s := by simpa using hxs
      exact (hcross x hx k hk).2 (by simp [hxs]) (hxs.trans hs.symm)
    rw [hnone, Option.none_or]
    exact h.latest hi k hk s hs

/-- With a body it is what its slot leads to. -/
theorem find?_of_mem (h : dr.Dispatches c bases contracts) (hi : dr.type.isInterface = false)
    {k : Method} (hk : k ∈ dr.type.allMethods) (hbody : k.body.isSome = true) {s : VirtualSlot}
    (hs : k.slot = some s) : dr.type.dispatch.find? s = some k := by
  rw [h.table.carried k ((h.allMethods_sublist hi).subset hk) s hs]
  exact find?_fills_of_latest (h.find?_slot hi hk hs) hbody

/-- So nothing replaces it. -/
theorem mostDerived_eq_self (h : dr.Dispatches c bases contracts)
    (hi : dr.type.isInterface = false) {k : Method} (hk : k ∈ dr.type.allMethods)
    (hbody : k.body.isSome = true) : dr.type.mostDerived k = k := by
  cases hs : k.slot with
  | none => simp [TypeDef.mostDerived, hs]
  | some s => simp [TypeDef.mostDerived, hs, h.find?_of_mem hi hk hbody hs]

/-- **Contracts have slots of their own.** -/
theorem slot_ne_required (h : dr.Dispatches c bases contracts) {k q : Method}
    (hk : k ∈ dr.type.methods ++ bases) (hq : q ∈ c.required) (hs : k.slot.isSome = true) :
    q.slot ≠ k.slot := by
  rcases List.mem_append.1 hk with hk | hk
  · intro heq
    obtain ⟨-, b, hb, hbs⟩ := h.taken k hk hs q (Catalog.required_subset_declared hq) heq
    exact h.basesApart b hb q hq (hbs ▸ hs) (heq.trans hbs.symm)
  · exact h.basesApart k hk q hq hs

/-! ### A method is added -/

/-- **A method that is added** has a slot of its own or one of a base. -/
theorem slot_cases (h : dr.Dispatches c bases contracts) (ha : dr.Adds m n dr') {s : VirtualSlot}
    (hs : n.slot = some s) :
    (∀ k ∈ c.declared ++ dr.type.methods, k.slot ≠ some s) ∨
      dr.type.isInterface = false ∧ m.dispatch = .override ∧
        ∃ k ∈ dr.type.inheritedMethods, k ∈ bases ∧ k.slot = some s ∧
          k.signature = n.signature := by
  rcases ha.slot_cases hs with ⟨hfresh, -⟩ | ⟨hi, hd, k, hk, hks, hname, htypes⟩
  · refine .inl fun k hk hks => ?_
    exact absurd (h.slotted.slot_lt k hk s hks) (Nat.not_lt.2 hfresh)
  · exact .inr ⟨hi, hd, k, hk, (h.fromBases hi).subset hk, hks,
      Method.signature_eq_iff.2 ⟨hname, htypes⟩⟩

/-- No other method of the type is in the slot of a method that is added. -/
theorem own_slot_ne (h : dr.Dispatches c bases contracts) (ha : dr.Adds m n dr') {s : VirtualSlot}
    (hs : n.slot = some s) {k : Method} (hk : k ∈ dr.type.methods) : k.slot ≠ some s := by
  rcases h.slot_cases ha hs with hfresh | ⟨-, -, b, hb, -, hbs, -⟩
  · exact hfresh k (List.mem_append_right _ hk)
  · intro hks
    -- an inherited method in the slot would clash with it
    obtain ⟨-, -, hcross⟩ := List.pairwise_append.1 h.apart
    exact (hcross k hk b hb).2 (by simp [hks]) (hks.trans hbs.symm)

/-- What stays inherited is in another slot. -/
theorem inherited_slot_ne (h : dr.Dispatches c bases contracts) (ha : dr.Adds m n dr')
    {s : VirtualSlot} (hs : n.slot = some s) {k : Method} (hk : k ∈ dr'.type.inheritedMethods) :
    k.slot ≠ some s := by
  rcases h.slot_cases ha hs with hfresh | ⟨-, hd, -⟩
  · exact hfresh k (List.mem_append_left _ (h.inherited (ha.methods_eq.2.2.subset hk)))
  · exact ha.hidden hd hs hk

/-- What the slot of a method that is added leads to before. -/
theorem find?_slot_of_adds (h : dr.Dispatches c bases contracts) (ha : dr.Adds m n dr')
    {s : VirtualSlot} (hs : n.slot = some s) :
    dr.type.dispatch.find? s = (dr.type.methods ++ bases).find? (·.fills s) := by
  refine h.table.find?_of_source ((h.slot_cases ha hs).imp (fun hfresh k hk => ?_) ?_)
  · rcases List.mem_append.1 hk with hk | hk
    · exact hfresh k (h.lineage_subset hk)
    · exact hfresh k (List.mem_append_left _ (Catalog.required_subset_declared (h.required hk)))
  · rintro ⟨-, -, k, -, hk, hks, -⟩
    exact ⟨k, hk, hks⟩

theorem slotted_of_adds (h : dr.Dispatches c bases contracts) (ha : dr.Adds m n dr') :
    Slotted (c.declared ++ dr'.type.methods) dr'.supply := by
  rw [ha.methods_eq.1, ← List.append_assoc]
  refine h.slotted.concat ha.id_lt fun s hs => ?_
  rcases ha.slot_cases hs with hfresh | ⟨-, -, k, hk, hks, hname, htypes⟩
  · exact .inl hfresh
  · exact .inr ⟨k, List.mem_append_left _ (h.inherited hk), hks,
      Method.signature_eq_iff.2 ⟨hname, htypes⟩⟩

/-- A method that is added clashes with none. -/
theorem apart_of_adds (h : dr.Dispatches c bases contracts) (ha : dr.Adds m n dr') :
    dr'.type.allMethods.Pairwise Method.Apart := by
  obtain ⟨hm, -, hin⟩ := ha.methods_eq
  obtain ⟨hown, hinherited, hcross⟩ := List.pairwise_append.1 h.apart
  -- its identity is new
  have hid : ∀ k ∈ c.declared ++ dr.type.methods, k.id ≠ n.id := by
    intro k hk heq
    have hlt := h.slotted.id_lt k hk
    rw [heq] at hlt
    exact absurd hlt (Nat.not_lt.2 ha.id_lt.1)
  rw [TypeDef.allMethods, hm, List.pairwise_append, List.pairwise_append]
  refine ⟨⟨hown, List.pairwise_singleton _ _, fun k hk x hx => ?_⟩, hinherited.sublist hin,
    fun k hk x hx => ?_⟩
  · obtain rfl := List.mem_singleton.1 hx
    refine ⟨hid k (List.mem_append_right _ hk), fun hks heq => ?_⟩
    obtain ⟨s, hs⟩ := Option.isSome_iff_exists.1 hks
    exact h.own_slot_ne ha (heq ▸ hs) hk hs
  · rcases mem_concat_cases hk with hk | rfl
    · exact hcross k hk x (hin.subset hx)
    · refine ⟨(hid x (List.mem_append_left _ (h.inherited (hin.subset hx)))).symm,
        fun hks heq => ?_⟩
      obtain ⟨s, hs⟩ := Option.isSome_iff_exists.1 hks
      exact h.inherited_slot_ne ha hs hx (heq ▸ hs)

theorem table_of_adds (h : dr.Dispatches c bases contracts) (ha : dr.Adds m n dr') :
    dr'.type.dispatch.Settles (dr'.type.methods ++ bases) contracts := by
  have hsub : dr.type.methods ++ [n] ++ bases ⊆ c.declared ++ dr'.type.methods := by
    rw [ha.methods_eq.1]
    intro k hk
    rcases List.mem_append.1 hk with hk | hk
    · exact List.mem_append_right _ hk
    · exact List.mem_append_left _ (h.known hk)
  rw [ha.methods_eq.1]
  rcases ha.dispatch_cases with ⟨hn, hd⟩ | ⟨s, hs, hbody, hd⟩
  · rw [hd]
    exact h.table.append hn fun s hs => h.find?_slot_of_adds ha hs
  · rw [hd]
    exact h.table.install (h.slotted_of_adds ha) hsub hs hbody (h.find?_slot_of_adds ha hs)
      (ha.isStatic_of_slot (by simp [hs])) fun k hk => h.own_slot_ne ha hs hk

/-- **Adding a method keeps methods and slots in order.** -/
theorem adds (h : dr.Dispatches c bases contracts) (ha : dr.Adds m n dr') :
    dr'.Dispatches c bases contracts := by
  obtain ⟨hm, hi, hin⟩ := ha.methods_eq
  refine
    { slotted := h.slotted_of_adds ha, known := h.known, required := h.required
      basesApart := h.basesApart, inherited := fun k hk => h.inherited (hin.subset hk)
      fromBases := fun hnot => hin.trans (h.fromBases (hi ▸ hnot))
      latest := fun hnot k hk => h.latest (hi ▸ hnot) k (hin.subset hk)
      apart := h.apart_of_adds ha, bodied := fun hnot k hk hks => ?_
      taken := fun k hk hks b hb hbs => ?_, table := h.table_of_adds ha }
  · rw [hm] at hk
    simp only [List.mem_append, List.mem_singleton] at hk
    rcases hk with (hk | rfl) | hk
    · exact h.bodied (hi ▸ hnot) k (List.mem_append_left _ hk) hks
    · exact ha.body_of_slot hks
    · exact h.bodied (hi ▸ hnot) k (List.mem_append_right _ hk) hks
  · rw [hm] at hk
    rw [hi]
    rcases mem_concat_cases hk with hk | rfl
    · exact h.taken k hk hks b hb hbs
    · obtain ⟨s, hs⟩ := Option.isSome_iff_exists.1 hks
      rcases h.slot_cases ha hs with hfresh | ⟨hnot, -, x, -, hx, hxs, -⟩
      · exact absurd (hbs.trans hs) (hfresh b (List.mem_append_left _ hb))
      · exact ⟨hnot, x, hx, hxs.trans hs.symm⟩

theorem steps (h : dr.Dispatches c bases contracts) (hs : MethodSteps dr dr') :
    dr'.Dispatches c bases contracts := by
  refine chain_invariant (fun x y hs hx => ?_) hs h
  cases hs with
  | adds ha => exact hx.adds ha
  | keeps hk => exact hx.keeps hk

/-! ### Interfaces are bound -/

/-- **A draft is under more contracts.** -/
theorem mono (h : dr.Dispatches c bases contracts) (hsub : contracts ⊆ contracts')
    (hc : contracts' ⊆ c.required) : dr.Dispatches c bases contracts' :=
  { h with required := hc, table := h.table.mono hsub }

/-- **What is bound to a contract is in order.** -/
theorem binding_of_implementation (h : dr.Dispatches c bases contracts)
    (hi : dr.type.isInterface = false) {q b : Method} {s : VirtualSlot} (hq : q ∈ contracts)
    (hs : q.slot = some s) (hb : dr.type.implementation q s = .bind b) :
    dr.type.dispatch.Binding (dr.type.methods ++ bases) contracts s b := by
  obtain ⟨m, hfind, rfl⟩ := TypeDef.implementation_eq_bind hb
  have hm := List.mem_of_find?_eq_some hfind
  obtain ⟨hstatic, hbody, hsignature⟩ := TypeDef.implements_iff.1 (List.find?_some hfind)
  rw [h.mostDerived_eq_self hi hm hbody]
  exact
    { body := hbody, instance_ := hstatic, mem := (h.allMethods_sublist hi).subset hm
      settled := fun _ => h.find?_of_mem hi hm hbody
      known := ⟨q, List.mem_append_right _ hq, hs, hsignature.symm⟩ }

/-- **Binding a contract** keeps methods and slots in order. -/
theorem bindMethod (h : dr.Dispatches c bases contracts) (hi : dr.type.isInterface = false)
    {i : String} {q : Method} (hq : q ∈ contracts) {t : TypeDef}
    (hbind : dr.type.bindMethod i q = .ok t) :
    Draft.Dispatches c bases contracts ⟨t, dr.supply⟩ := by
  rcases TypeDef.bindMethod_eq_ok hbind with ⟨rfl, -⟩ | ⟨s, b, hs, hb, rfl⟩
  · exact h
  · have hfree : ∀ k ∈ dr.type.methods ++ bases, k.slot ≠ some s := fun k hk hks =>
      h.slot_ne_required hk (h.required hq) (by simp [hks]) (hs.trans hks.symm)
    have hsettled := h.table.bind hfree (h.binding_of_implementation hi hq hs hb)
    exact { h with table := hsettled }

theorem bindInterface (h : dr.Dispatches c bases contracts) (hi : dr.type.isInterface = false)
    {i : TypeDef} (his : i.methods ⊆ contracts) {t : TypeDef}
    (hbind : dr.type.bindInterface i = .ok t) :
    Draft.Dispatches c bases contracts ⟨t, dr.supply⟩ ∧ t.isInterface = false := by
  refine invariant_of_foldlM (P := fun t =>
    Draft.Dispatches c bases contracts ⟨t, dr.supply⟩ ∧ t.isInterface = false)
    (fun u q hq u' hu hstep => ?_) hbind ⟨h, hi⟩
  have hframe := (TypeDef.binds_of_bindMethod hstep).1.type_eq
  exact ⟨hu.1.bindMethod hu.2 (his hq) hstep, hframe ▸ hu.2⟩

/-- **Binding interfaces** keeps methods and slots in order. -/
theorem bindAll (h : dr.Dispatches c bases contracts) {is : List TypeDef}
    (his : ∀ i ∈ is, i.methods ⊆ contracts) {t : TypeDef} (hbind : dr.type.bindAll is = .ok t) :
    Draft.Dispatches c bases contracts ⟨t, dr.supply⟩ := by
  cases hi : dr.type.isInterface with
  | true =>
    obtain rfl : dr.type = t := by simpa [TypeDef.bindAll, hi] using hbind
    exact h
  | false =>
    rw [TypeDef.bindAll, hi, if_neg Bool.false_ne_true] at hbind
    exact (invariant_of_foldlM (P := fun t =>
      Draft.Dispatches c bases contracts ⟨t, dr.supply⟩ ∧ t.isInterface = false)
      (fun _ i hmem _ hu hstep => hu.1.bindInterface hu.2 (his i hmem) hstep) hbind ⟨h, hi⟩).1

end Draft.Dispatches

end MemberAccess
