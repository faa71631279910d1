import MemberAccess.Proofs.Catalog.Additions
/-!
# Catalog — slots, the methods that carry them and what they are bound to

Methods in one slot have one signature (`Slotted`). A dispatch table settles a
lineage when a slot that the lineage carries is bound to the first method with
a body in it, and whatever any slot is bound to is where its own slot leads
(`DispatchTable.Settles`). That says what a table is by the methods declared
and by nothing that was done to the table. Three things are done to it: a
method is added without being bound (`Settles.append`), a method is installed
(`Settles.install`), and the slot of a contract is bound (`Settles.bind`).
-/

namespace MemberAccess

namespace Method

/-- The name and the parameter types. -/
def signature (m : Method) : String × List TypeHandle := (m.name, m.parameterTypes)

/-- Whether a method is a candidate for a slot: it carries the slot and has a
body. -/
def fills (s : VirtualSlot) (m : Method) : Bool := m.slot == some s && m.body.isSome

variable {m n : Method} {s : VirtualSlot}

theorem fills_iff : m.fills s = true ↔ m.slot = some s ∧ m.body.isSome = true := by
  simp [fills]

theorem signature_eq_iff :
    m.signature = n.signature ↔ m.name = n.name ∧ m.parameterTypes = n.parameterTypes :=
  Prod.mk.injEq _ _ _ _ ▸ Iff.rfl

end Method

/-! ## Methods that have been declared -/

/-- **Methods declared so far**: their identities tell them apart, methods in
one slot have one signature, and no number is still to come. -/
structure Slotted (ms : List Method) (ids : Supply) : Prop where
  nodup : (ms.map (·.id)).Nodup
  id_lt : ∀ m ∈ ms, m.id.raw < ids.next
  slot_lt : ∀ m ∈ ms, ∀ s, m.slot = some s → s.raw < ids.next
  signature : ∀ m ∈ ms, ∀ n ∈ ms, ∀ s, m.slot = some s → n.slot = some s →
    m.signature = n.signature

namespace Slotted

variable {ms : List Method} {ids ids' : Supply} {m n : Method}

theorem nil (ids : Supply) : Slotted [] ids := ⟨by simp, by simp, by simp, by simp⟩

theorem mono (h : Slotted ms ids) (hle : ids.next ≤ ids'.next) : Slotted ms ids' where
  nodup := h.nodup
  id_lt := fun m hm => Nat.lt_of_lt_of_le (h.id_lt m hm) hle
  slot_lt := fun m hm s hs => Nat.lt_of_lt_of_le (h.slot_lt m hm s hs) hle
  signature := h.signature

/-- Identities tell methods apart. -/
theorem eq_of_id (h : Slotted ms ids) (hm : m ∈ ms) (hn : n ∈ ms) (heq : m.id = n.id) : m = n :=
  List.inj_on_of_nodup_map h.nodup hm hn heq

/-- **A new method** has a fresh identity, and a slot that is fresh or carried
by methods with its signature. -/
theorem concat (h : Slotted ms ids) (hid : ids.next ≤ n.id.raw ∧ n.id.raw < ids'.next)
    (hslot : ∀ s, n.slot = some s → (ids.next ≤ s.raw ∧ s.raw < ids'.next) ∨
      ∃ k ∈ ms, k.slot = some s ∧ k.signature = n.signature) : Slotted (ms ++ [n]) ids' := by
  have hle : ids.next ≤ ids'.next := Nat.le_of_lt (Nat.lt_of_le_of_lt hid.1 hid.2)
  have hold := h.mono hle
  -- what carries the slot of the new method has its signature
  have hsame : ∀ m ∈ ms, ∀ s, m.slot = some s → n.slot = some s → m.signature = n.signature := by
    intro m hm s hms hns
    rcases hslot s hns with ⟨hfresh, -⟩ | ⟨k, hk, hks, heq⟩
    · exact absurd (h.slot_lt m hm s hms) (Nat.not_lt.2 hfresh)
    · exact (h.signature m hm k hk s hms hks).trans heq
  refine
    { nodup := ?nodup
      id_lt := forall_mem_concat hold.id_lt hid.2
      slot_lt := forall_mem_concat hold.slot_lt fun s hs => ?slot_lt
      signature := forall_mem_concat
        (fun m hm => forall_mem_concat (h.signature m hm) (hsame m hm))
        (forall_mem_concat (fun m hm s hns hms => (hsame m hm s hms hns).symm) fun _ _ _ => rfl) }
  case nodup =>
    rw [List.map_append, List.nodup_append]
    refine ⟨h.nodup, by simp, ?_⟩
    rintro a ha b hb rfl
    obtain ⟨m, hm, hid'⟩ := List.mem_map.1 ha
    obtain rfl : a = n.id := by simpa using hb
    have hlt := h.id_lt m hm
    rw [hid'] at hlt
    exact absurd hlt (Nat.not_lt.2 hid.1)
  case slot_lt =>
    rcases hslot s hs with ⟨-, hlt⟩ | ⟨k, hk, hks, -⟩
    · exact hlt
    · exact hold.slot_lt k hk s hks

end Slotted

/-! ## Searching lists of methods -/

section Search

variable {α : Type} {p q : α → Bool} {xs ys : List α} {a : α}

/-- An element that is not looked for does not show. -/
theorem find?_append_of_not (ha : p a = false) :
    (xs ++ [a] ++ ys).find? p = (xs ++ ys).find? p := by
  simp [List.find?_append, ha]

/-- Behind elements that are not looked for, the first one that is. -/
theorem find?_append_of_first (hxs : ∀ x ∈ xs, p x = false) (ha : p a = true) :
    (xs ++ [a] ++ ys).find? p = some a := by
  have hnone : xs.find? p = none := List.find?_eq_none.2 fun x hx => by simp [hxs x hx]
  simp [List.find?_append, hnone, ha]

end Search

/-! ## What a slot is bound to -/

namespace TypeDef

variable {t : TypeDef} {s s' : VirtualSlot} {m n : Method}

theorem find?_install_self : (t.install s m).find? s = some m := by
  unfold install
  split <;> rw [DispatchTable.find?_bind, if_pos rfl]

/-- **Installing a method redirects** the slots that are bound to what it
replaces, and no others. -/
theorem find?_install (hne : s' ≠ s) :
    (t.install s m).find? s' = (t.dispatch.find? s').map fun n =>
      if (t.dispatch.find? s).map (·.id) = some n.id then m else n := by
  unfold install
  split
  · rename_i old hold
    rw [DispatchTable.find?_bind, if_neg hne, DispatchTable.find?_redirect, hold]
    simp [eq_comm]
  · rename_i hold
    rw [DispatchTable.find?_bind, if_neg hne, hold]
    simp

end TypeDef

/-- **A binding that is in order**: a slot that the lineage or its contracts
know leads to an instance method with a body and with the signature known,
which the lineage declares and which is where its own slot leads. -/
structure DispatchTable.Binding (d : DispatchTable) (lineage contracts : List Method)
    (s : VirtualSlot) (b : Method) : Prop where
  body : b.body.isSome = true
  instance_ : b.isStatic = false
  mem : b ∈ lineage
  settled : ∀ s', b.slot = some s' → d.find? s' = some b
  known : ∃ m ∈ lineage ++ contracts, m.slot = some s ∧ m.signature = b.signature

/-- **A table that settles a lineage**, which is under contracts. -/
structure DispatchTable.Settles (d : DispatchTable) (lineage contracts : List Method) : Prop where
  /-- A slot that is carried is bound to the first method that fills it. -/
  carried : ∀ m ∈ lineage, ∀ s, m.slot = some s → d.find? s = lineage.find? (·.fills s)
  binding : ∀ s b, d.find? s = some b → d.Binding lineage contracts s b

namespace DispatchTable

variable {d d' : DispatchTable} {s s' : VirtualSlot} {b n : Method} {t : TypeDef} {ids : Supply}
  {lineage lineage' contracts contracts' own bases declared : List Method}

theorem Binding.mono (h : d.Binding lineage contracts s b) (hl : lineage ⊆ lineage')
    (hc : contracts ⊆ contracts') (hd : ∀ s', b.slot = some s' → d'.find? s' = some b) :
    d'.Binding lineage' contracts' s b where
  body := h.body
  instance_ := h.instance_
  mem := hl h.mem
  settled := hd
  known := by
    obtain ⟨m, hm, hknown⟩ := h.known
    exact ⟨m, List.mem_append.2 ((List.mem_append.1 hm).imp (hl ·) (hc ·)), hknown⟩

namespace Settles

theorem empty (contracts : List Method) : Settles {} [] contracts :=
  ⟨by simp, fun s b hb => by cases hb⟩

theorem mono (h : d.Settles lineage contracts) (hc : contracts ⊆ contracts') :
    d.Settles lineage contracts' :=
  ⟨h.carried, fun s b hb =>
    (h.binding s b hb).mono (List.Subset.refl _) hc (h.binding s b hb).settled⟩

/-- Where a slot leads that the lineage carries, the slot is carried too. -/
theorem slot_of_find? (h : d.Settles lineage contracts) {m : Method} (hm : m ∈ lineage)
    (hs : m.slot = some s) (hb : d.find? s = some b) : b.slot = some s := by
  rw [h.carried m hm s hs] at hb
  exact (Method.fills_iff.1 (List.find?_some hb)).1

/-- A slot that nothing knows is not bound. -/
theorem find?_of_fresh (h : d.Settles lineage contracts)
    (hs : ∀ m ∈ lineage ++ contracts, m.slot ≠ some s) : d.find? s = none := by
  cases hb : d.find? s with
  | none => rfl
  | some b =>
    obtain ⟨m, hm, hms, -⟩ := (h.binding s b hb).known
    exact absurd hms (hs m hm)

/-- **A slot of a contract is bound** to what the lineage settles on. -/
theorem bind (h : d.Settles lineage contracts) (hs : ∀ m ∈ lineage, m.slot ≠ some s)
    (hb : d.Binding lineage contracts s b) : (d.bind s b).Settles lineage contracts := by
  -- what the lineage carries stays as it was
  have hcarried : ∀ {m s'}, m ∈ lineage → m.slot = some s' →
      (d.bind s b).find? s' = d.find? s' := by
    intro m s' hm hms
    rw [find?_bind, if_neg]
    rintro rfl
    exact hs m hm hms
  have hkeep : ∀ {s' b'}, d.Binding lineage contracts s' b' →
      (d.bind s b).Binding lineage contracts s' b' := fun hb' =>
    { hb' with settled := fun s' hs' => (hcarried hb'.mem hs').trans (hb'.settled s' hs') }
  refine ⟨fun m hm s' hms => (hcarried hm hms).trans (h.carried m hm s' hms), fun s' b' hb' => ?_⟩
  rw [find?_bind] at hb'
  split at hb'
  · rename_i heq
    cases hb'
    exact heq ▸ hkeep hb
  · exact hkeep (h.binding s' b' hb')

/-! ## A method is added -/

theorem subset_concat : own ++ bases ⊆ own ++ [n] ++ bases := by
  intro m hm
  simp only [List.mem_append] at hm ⊢
  exact hm.elim (fun hm => .inl (.inl hm)) .inr

/-- What a table leads to in the slot of a method that is about to be added. -/
theorem find?_of_source (h : d.Settles (own ++ bases) contracts)
    (hsource : (∀ m ∈ own ++ bases ++ contracts, m.slot ≠ some s) ∨ ∃ k ∈ bases, k.slot = some s) :
    d.find? s = (own ++ bases).find? (·.fills s) := by
  rcases hsource with hfresh | ⟨k, hk, hks⟩
  · rw [h.find?_of_fresh hfresh, eq_comm, List.find?_eq_none]
    intro m hm hfills
    exact hfresh m (List.mem_append_left _ hm) (Method.fills_iff.1 hfills).1
  · exact h.carried k (List.mem_append_right _ hk) s hks

/-- **A method is added and not bound**: it is in no slot, or it has no
body. -/
theorem append (h : t.dispatch.Settles (own ++ bases) contracts)
    (hn : n.slot = none ∨ n.body = none)
    (hsource : ∀ s, n.slot = some s → t.dispatch.find? s = (own ++ bases).find? (·.fills s)) :
    t.dispatch.Settles (own ++ [n] ++ bases) contracts := by
  have hfills : ∀ s, n.fills s = false := by
    intro s
    rcases hn with hn | hn <;> simp [Method.fills, hn]
  refine ⟨fun m hm s hms => ?_, fun s b hb => ?_⟩
  · rw [find?_append_of_not (hfills s)]
    rcases List.mem_append.1 hm with hm | hm
    · rcases mem_concat_cases hm with hm | rfl
      · exact h.carried m (List.mem_append_left _ hm) s hms
      · exact hsource s hms
    · exact h.carried m (List.mem_append_right _ hm) s hms
  · have hbinding := h.binding s b hb
    exact hbinding.mono subset_concat (List.Subset.refl _) hbinding.settled

/-- A binding to what carries the slot is redirected. -/
theorem find?_install_of_slot (h : t.dispatch.Settles lineage contracts)
    (hb : t.dispatch.find? s' = some b) (hbs : b.slot = some s) :
    (t.install s n).find? s' = some n := by
  by_cases hne : s' = s
  · rw [hne, TypeDef.find?_install_self]
  · rw [TypeDef.find?_install hne, hb, Option.map_some, if_pos]
    rw [(h.binding s' b hb).settled s hbs, Option.map_some]

/-- Any other binding stays. -/
theorem find?_install_of_slot_ne (h : t.dispatch.Settles lineage contracts)
    (hslotted : Slotted declared ids) (hsub : lineage ⊆ declared)
    (hsource : t.dispatch.find? s = lineage.find? (·.fills s))
    (hb : t.dispatch.find? s' = some b) (hbs : b.slot ≠ some s) :
    (t.install s n).find? s' = some b := by
  -- what the slot was bound to carries it
  have hold : ∀ old, t.dispatch.find? s = some old → old ∈ lineage ∧ old.slot = some s := by
    intro old hold
    rw [hsource] at hold
    exact ⟨List.mem_of_find?_eq_some hold, (Method.fills_iff.1 (List.find?_some hold)).1⟩
  have hne : s' ≠ s := by
    rintro rfl
    exact hbs (hold b hb).2
  rw [TypeDef.find?_install hne, hb, Option.map_some, if_neg]
  intro heq
  obtain ⟨old, hfind, hid⟩ := Option.map_eq_some_iff.1 heq
  obtain ⟨hmem, hslot⟩ := hold old hfind
  obtain rfl := hslotted.eq_of_id (hsub hmem) (hsub (h.binding s' b hb).mem) hid
  exact hbs hslot

section Install

variable (h : t.dispatch.Settles (own ++ bases) contracts) (hslotted : Slotted declared ids)
  (hsub : own ++ [n] ++ bases ⊆ declared) (hs : n.slot = some s) (hbody : n.body.isSome = true)
  (hsource : t.dispatch.find? s = (own ++ bases).find? (·.fills s))

include h hslotted hsub hs hbody hsource

/-- With a new method in the table, a slot still leads to the first that fills
it. -/
theorem find?_install_of_carried (hown : ∀ m ∈ own, m.slot ≠ some s) {m : Method}
    (hm : m ∈ own ++ [n] ++ bases) (hms : m.slot = some s') :
    (t.install s n).find? s' = (own ++ [n] ++ bases).find? (·.fills s') := by
  by_cases hne : s' = s
  · have hnot : ∀ x ∈ own, x.fills s = false := by
      intro x hx
      rw [← Bool.not_eq_true, Method.fills_iff]
      exact fun hx' => hown x hx hx'.1
    rw [hne, TypeDef.find?_install_self,
      find?_append_of_first hnot (Method.fills_iff.2 ⟨hs, hbody⟩)]
  · have hslot : n.slot ≠ some s' := fun heq => hne (Option.some.inj (heq.symm.trans hs))
    have hfills : n.fills s' = false := by
      rw [← Bool.not_eq_true, Method.fills_iff]
      exact fun hx => hslot hx.1
    have hmem : m ∈ own ++ bases := by
      simp only [List.mem_append, List.mem_singleton] at hm ⊢
      rcases hm with (hm | rfl) | hm
      · exact .inl hm
      · exact absurd hms hslot
      · exact .inr hm
    rw [find?_append_of_not hfills, ← h.carried m hmem s' hms]
    cases hb : t.dispatch.find? s' with
    | none => rw [TypeDef.find?_install hne, hb, Option.map_none]
    | some b =>
      have hbs := h.slot_of_find? hmem hms hb
      exact h.find?_install_of_slot_ne hslotted (List.Subset.trans subset_concat hsub) hsource hb
        fun heq => hne (Option.some.inj (hbs.symm.trans heq))

/-- What it leads to is in order. -/
theorem binding_of_install (hstatic : n.isStatic = false) (hb : (t.install s n).find? s' = some b) :
    (t.install s n).Binding (own ++ [n] ++ bases) contracts s' b := by
  have hsub' : own ++ bases ⊆ declared := List.Subset.trans subset_concat hsub
  have hn : n ∈ own ++ [n] ++ bases := by simp
  have hself : (t.install s n).find? s = some n := TypeDef.find?_install_self
  have hstays : ∀ {s' b}, t.dispatch.find? s' = some b → b.slot ≠ some s →
      (t.install s n).find? s' = some b := h.find?_install_of_slot_ne hslotted hsub' hsource
  -- whatever carries the new slot has the signature of what took it over
  have hnew : (∃ m ∈ own ++ [n] ++ bases ++ contracts, m.slot = some s' ∧
      m.signature = n.signature) →
      (t.install s n).Binding (own ++ [n] ++ bases) contracts s' n := fun hknown =>
    ⟨hbody, hstatic, hn, fun s'' hs'' => Option.some.inj (hs.symm.trans hs'') ▸ hself, hknown⟩
  cases hb' : t.dispatch.find? s' with
  | none =>
    have heq : s' = s := by
      by_contra hne
      rw [TypeDef.find?_install hne, hb'] at hb
      cases hb
    rw [heq, hself] at hb
    obtain rfl : n = b := Option.some.inj hb
    exact hnew ⟨n, List.mem_append_left _ hn, heq ▸ hs, rfl⟩
  | some b' =>
    have hbinding := h.binding s' b' hb'
    by_cases hbs : b'.slot = some s
    · rw [h.find?_install_of_slot hb' hbs] at hb
      obtain rfl : n = b := Option.some.inj hb
      obtain ⟨m, hm, hms, hsignature⟩ := hbinding.known
      refine hnew ⟨m, ?_, hms, hsignature.trans ?_⟩
      · exact List.mem_append.2 ((List.mem_append.1 hm).imp_left (subset_concat ·))
      · exact hslotted.signature b' (hsub' hbinding.mem) n (hsub hn) s hbs hs
    · rw [hstays hb' hbs] at hb
      cases hb
      refine hbinding.mono subset_concat (List.Subset.refl _) fun s'' hs'' => ?_
      exact hstays (hbinding.settled s'' hs'') hbs

/-- **A method is added and installed** in its slot. Whatever led to the method
that it replaces now leads to it. -/
theorem install (hstatic : n.isStatic = false) (hown : ∀ m ∈ own, m.slot ≠ some s) :
    (t.install s n).Settles (own ++ [n] ++ bases) contracts :=
  ⟨fun _ hm _ => find?_install_of_carried h hslotted hsub hs hbody hsource hown hm,
    fun _ _ => binding_of_install h hslotted hsub hs hbody hsource hstatic⟩

end Install

end Settles

end DispatchTable

end MemberAccess
