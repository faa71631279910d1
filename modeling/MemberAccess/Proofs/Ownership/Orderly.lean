import MemberAccess.Proofs.Ownership.Private
/-!
# Ownership — orderly heaps, copies and new instances

A heap is `Orderly` when it is typed by the catalog of the moment and keeps
private, with respect to the catalog that this becomes in the end, what class
instances own. Copies keep a heap orderly. A new instance does too, for every
slot of it starts with a copy of a default, and the copies in owning slots are
taken into the private set (`Orderly.zeroed`).
-/

namespace MemberAccess

namespace Heap

/-- **A typed heap with a set of private boxes.** -/
structure Orderly (c₀ c : Catalog) (P : ObjectRef → Prop) (h : Heap) : Prop where
  typed : h.Typed c₀
  owned : h.Private c P

/-- **Whether a value may be passed around**: it refers to no private box. -/
def Free (h : Heap) (P : ObjectRef → Prop) (v : Value) : Prop :=
  ∀ o, v = .object o → h.Has o ∧ ¬ P o

/-- A value that is a given one or a new box. -/
structure Derived (h h' : Heap) (v v' : Value) : Prop where
  reaches : h'.Reaches v'
  old : ∀ o, v' = .object o → h.Has o → v = .object o

/-- A value that is no box that was there before. -/
def Fresh (h h' : Heap) (v : Value) : Prop := ∀ o, v = .object o → h'.IsBoxAt o → ¬ h.Has o

variable {c₀ c : Catalog} {h h₁ h' : Heap} {P : ObjectRef → Prop} {v v' w : Value} {t : TypeDef}

theorem Free.reaches (hf : h.Free P v) : h.Reaches v := fun o ho => (hf o ho).1

theorem Free.suits (hf : h.Free P v) : h.Suits P False v :=
  fun o ho => ⟨(hf o ho).2, False.elim⟩

theorem free_of_suits (hv : h.Reaches v) (hs : h.Suits P False v) : h.Free P v :=
  fun o ho => ⟨hv o ho, (hs o ho).1⟩

theorem Free.widen {P' : ObjectRef → Prop} (hf : h.Free P v) (hk : h.Keeps h₁)
    (hw : h.Widens P P') : h₁.Free P' v := by
  intro o ho
  obtain ⟨hhas, hP⟩ := hf o ho
  exact ⟨hk.has hhas, fun hP' => hP ((hw o hhas).1 hP')⟩

theorem Derived.trans (h₁₂ : h.Derived h₁ v w) (h₂₃ : h₁.Derived h' w v') (hk : h.Keeps h₁) :
    h.Derived h' v v' :=
  ⟨h₂₃.reaches, fun o ho hold => h₁₂.old o (h₂₃.old o ho (hk.has hold)) hold⟩

/-- What comes of a free value is free. -/
theorem Derived.free (hd : h.Derived h₁ v v') (hf : h.Free P v) (hp : h.Private c P) :
    h₁.Free P v' :=
  fun o ho => ⟨hd.reaches o ho, fun hP => (hf o (hd.old o ho (hp.has hP))).2 hP⟩

namespace Placed

variable {n : Nat} {cs : Contents}

theorem derived (hp : h.Placed h' n cs v v') : h.Derived h' v v' := by
  refine ⟨hp.reaches, fun o ho hold => ?_⟩
  rcases hp.copy with ⟨-, rfl⟩ | ⟨p, hv', hnew, -⟩
  · exact ho
  · rw [ho] at hv'
    cases hv'
    exact absurd hold hnew

theorem fresh (hp : h.Placed h' n cs v v') : h.Fresh h' v' := by
  intro o ho hbox
  rcases hp.copy with ⟨hnone, -⟩ | ⟨p, hv', hnew, -⟩
  · exact absurd hbox (box?_eq_none.1 hnone o ho)
  · rw [ho] at hv'
    cases hv'
    exact hnew

end Placed

/-- A fresh value suits an owning slot once it is private, and any other slot
as long as it is not. -/
theorem Fresh.suits (hf : h.Fresh h₁ v) (hv : h₁.Reaches v) (hp : h.Private c P)
    (hk : h.Keeps h₁) (owned : Prop) :
    h₁.Suits (fun o => P o ∨ owned ∧ ¬ h.Has o ∧ h₁.Has o) owned v := by
  intro o ho
  constructor
  · rintro (hP | ⟨howned, -⟩)
    · have hbox := (hk.isBoxAt_iff (hp.has hP)).2 (hp.box o hP)
      exact absurd (hp.has hP) (hf o ho hbox)
    · exact howned
  · exact fun howned hbox => .inr ⟨howned, hf o ho hbox, hv o ho⟩

namespace Orderly

theorem closed (ho : h.Orderly c₀ c P) : h.Closed := ho.typed.closed

/-- **Copies keep a heap orderly**, whether or not they are taken into the
set. -/
theorem copies (ho : h.Orderly c₀ c P) (hk : h.Copies h₁) (into : Prop) :
    h₁.Orderly c₀ c (fun o => P o ∨ into ∧ ¬ h.Has o ∧ h₁.Has o) ∧
      h.Widens P fun o => P o ∨ into ∧ ¬ h.Has o ∧ h₁.Has o :=
  ⟨⟨ho.typed.copies hk, (ho.owned.newBoxes ho.closed hk.newBoxes into).1⟩,
    (ho.owned.newBoxes ho.closed hk.newBoxes into).2⟩

/-- Copies that nobody owns. -/
theorem copies_outside (ho : h.Orderly c₀ c P) (hk : h.Copies h₁) : h₁.Orderly c₀ c P := by
  have hsame : (fun o => P o ∨ False ∧ ¬ h.Has o ∧ h₁.Has o) = P := by simp
  have hcopies := (ho.copies hk False).1
  rwa [hsame] at hcopies

/-- **So does a write** that the private boxes admit. -/
theorem writes {l : Location} (ho : h.Orderly c₀ c P) (hw : h.Overwrites h₁ l v) (hv : h.Reaches v)
    (hl : Private.Admits c h P v l) : h₁.Orderly c₀ c P :=
  ⟨ho.typed.writes hw hv, ho.owned.writes ho.closed hw hv hl⟩

end Orderly

/-! ## New instances -/

theorem detachAll?_cons_eq_some {vs ws : List Value} :
    h.detachAll? (v :: vs) = some (ws, h') ↔
      ∃ w h₁ ws', h.detach? v = some (w, h₁) ∧ h₁.detachAll? vs = some (ws', h') ∧
        ws = w :: ws' := by
  simp only [detachAll?, Option.bind_eq_bind, Option.bind_eq_some_iff, Prod.exists]
  constructor
  · rintro ⟨w, h₁, hv, ws', h₂, hvs, hpair⟩
    cases hpair
    exact ⟨w, h₁, ws', hv, hvs, rfl⟩
  · rintro ⟨w, h₁, ws', hv, hvs, rfl⟩
    exact ⟨w, h₁, hv, ws', h', hvs, rfl⟩

/-- A zeroed instance lies on top of copies of its type's defaults. -/
theorem zeroed?_eq_some {o : ObjectRef} (hz : h.zeroed? t = some (o, h')) :
    ∃ vs h₁, h.detachAll? t.defaults = some (vs, h₁) ∧ o = ⟨h₁.objects.size⟩ ∧
      h' = (h₁.alloc ⟨t, vs⟩).2 := by
  simp only [zeroed?, Option.bind_eq_bind, Option.bind_eq_some_iff, Prod.exists] at hz
  obtain ⟨vs, h₁, hvs, hpair⟩ := hz
  cases hpair
  exact ⟨vs, h₁, hvs, rfl, rfl⟩

/-- Zeroing ends in an instance. -/
theorem zeroed?_of_run {ε : Type} {out : Except ε ObjectRef}
    (hrun : (Exec.zeroed t).run h = some (out, h')) :
    ∃ o, out = .ok o ∧ h.zeroed? t = some (o, h') := by
  obtain ⟨⟨o, h₁⟩, hz, hpair⟩ := Option.map_eq_some_iff.1 hrun
  cases hpair
  exact ⟨o, rfl, hz⟩

theorem zeroOf?_of_run {ε : Type} {out : Except ε Value}
    (hrun : (Exec.zeroOf t).run h = some (out, h')) :
    ∃ v, out = .ok v ∧ h.zeroOf? t = some (v, h') := by
  obtain ⟨⟨v, h₁⟩, hz, hpair⟩ := Option.map_eq_some_iff.1 hrun
  cases hpair
  exact ⟨v, rfl, hz⟩

/-- The zero value of a type is a zeroed struct, or no object. -/
theorem zeroOf?_eq_some (hz : h.zeroOf? t = some (v, h')) :
    (∃ o, v = .object o ∧ h.zeroed? t = some (o, h')) ∨ h' = h ∧ ∀ o, v ≠ .object o := by
  unfold zeroOf? at hz
  split at hz
  case h_5 =>
    simp only [Option.bind_eq_bind, Option.bind_eq_some_iff, Prod.exists] at hz
    obtain ⟨o, h₁, hz, hpair⟩ := hz
    cases hpair
    exact .inl ⟨o, rfl, hz⟩
  all_goals
    cases hz
    exact .inr ⟨rfl, nofun⟩

namespace Orderly

/-- **Copies of a list of values**, each of which is taken into the set when
the slot it is for owns it. -/
theorem detachAll {vs vs' : List Value} (ho : h.Orderly c₀ c P) (owned : Nat → Prop)
    (hvs : ∀ v ∈ vs, h.Reaches v) (hd : h.detachAll? vs = some (vs', h')) :
    ∃ P', h'.Orderly c₀ c P' ∧ h.Widens P P' ∧ h.Copies h' ∧ vs'.length = vs.length ∧
      ∀ i v, vs'[i]? = some v → h'.Reaches v ∧ h'.Suits P' (owned i) v := by
  induction vs generalizing h P vs' owned with
  | nil =>
    cases hd
    exact ⟨P, ho, .refl _ P, .refl _, rfl, by simp⟩
  | cons v vs ih =>
    obtain ⟨w, h₁, ws, hdetach, hrest, rfl⟩ := detachAll?_cons_eq_some.1 hd
    obtain ⟨cs, -, hplaced⟩ :=
      placed_of_detach? ho.closed (hvs v List.mem_cons_self) hdetach
    -- the first slot decides about the first copy, the others about the rest
    obtain ⟨ho₁, hwidens₁⟩ := ho.copies hplaced.copies (owned 0)
    have hsuits₁ := hplaced.fresh.suits hplaced.reaches ho.owned hplaced.copies.keeps (owned 0)
    obtain ⟨P', ho', hwidens', hcopies', hlen, hall⟩ := ih ho₁ (fun i => owned (i + 1))
      (fun u hu => hplaced.copies.keeps.reaches (hvs u (List.mem_cons_of_mem _ hu))) hrest
    refine ⟨P', ho', hwidens₁.trans hplaced.copies.keeps hwidens', hplaced.copies.trans hcopies',
      by simp [hlen], ?_⟩
    intro i u hu
    cases i with
    | zero =>
      cases hu
      exact ⟨hcopies'.keeps.reaches hplaced.reaches,
        hsuits₁.widen hplaced.reaches hcopies'.keeps hwidens'⟩
    | succ i => exact hall i u hu

/-- **A zeroed instance** of a type of the catalog is new and not private. -/
theorem zeroed {o : ObjectRef} (ho : h.Orderly c₀ c P) (ht : t ∈ c₀.types)
    (hdefaults : t.defaults.length = t.layout.length) (hz : h.zeroed? t = some (o, h')) :
    ∃ P', h'.Orderly c₀ c P' ∧ h.Widens P P' ∧ h.Grows h' ∧ ¬ h.Has o ∧ h'.Free P' (.object o) := by
  obtain ⟨vs, h₁, hvs, rfl, rfl⟩ := zeroed?_eq_some hz
  obtain ⟨P', ho₁, hwidens, hcopies, hlen, hall⟩ :=
    ho.detachAll (t.OwnsAt c) (ho.typed.defaults t ht) hvs
  have hnew : ¬ h₁.Has ⟨h₁.objects.size⟩ := Nat.lt_irrefl _
  -- the instance is no box of the set: it was not there when the set was made
  have htyped := ho₁.typed.alloc ht (hlen.trans hdefaults) fun v hv => by
    obtain ⟨i, hi⟩ := List.getElem?_of_mem hv
    exact (hall i v hi).1
  refine ⟨P', ⟨htyped, ho₁.owned.alloc ho₁.closed hall⟩, hwidens,
    hcopies.toGrows.trans (grows_alloc _ _), fun hold => hnew (hcopies.has hold), ?_⟩
  intro p hp
  cases hp
  refine ⟨?_, fun hP => hnew (ho₁.owned.has hP)⟩
  rw [Has, size_alloc]
  exact Nat.lt_succ_self _

/-- **The zero value** of a type of the catalog. -/
theorem zeroOf (ho : h.Orderly c₀ c P) (ht : t ∈ c₀.types)
    (hdefaults : t.defaults.length = t.layout.length) (hz : h.zeroOf? t = some (v, h')) :
    ∃ P', h'.Orderly c₀ c P' ∧ h.Widens P P' ∧ h.Grows h' ∧ h'.Free P' v := by
  rcases zeroOf?_eq_some hz with ⟨o, rfl, hzeroed⟩ | ⟨rfl, hv⟩
  · obtain ⟨P', ho', hwidens, hgrows, -, hfree⟩ := ho.zeroed ht hdefaults hzeroed
    exact ⟨P', ho', hwidens, hgrows, hfree⟩
  · exact ⟨P, ho, .refl h' P, .refl h', fun o heq => absurd heq (hv o)⟩

end Orderly

end Heap

end MemberAccess
