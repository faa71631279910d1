import MemberAccess.Proofs.Nesting.Untangled
/-!
# Heap — copies hold what is like what they are copies of

A value is `Alike` to one it may be a copy of: it is the same value, or both
refer to objects of one type. Copying a value yields a like one, and every new
object that it leaves behind has an old one of the same type for a model, slot
by slot (`Mirrors`). So whatever depends on types alone and holds of the slots
of a heap holds of the slots of its copies. New instances are like their
defaults in the same way (`zeroed_mirrors`).
-/

namespace MemberAccess

namespace Heap

variable {h h₁ h₂ : Heap} {o p : ObjectRef} {u v w : Value} {us vs ws : List Value}

theorem instanceAt_alloc_self (h : Heap) (x : Instance) :
    (h.alloc x).2.instanceAt ⟨h.objects.size⟩ = x := by
  rw [instanceAt_alloc, if_pos rfl]

/-- **The same value, or objects of one type.** -/
def Alike (h h' : Heap) (v w : Value) : Prop :=
  w = v ∨ ∃ p q, v = .object p ∧ w = .object q ∧ h.Has p ∧ h'.Has q ∧ h'.typeAt q = h.typeAt p

/-- The same for lists, position by position. -/
structure AlikeAll (h h' : Heap) (vs ws : List Value) : Prop where
  length : ws.length = vs.length
  like : ∀ (i : Nat) (w : Value), ws[i]? = some w → ∃ v, vs[i]? = some v ∧ h.Alike h' v w

theorem Alike.trans (huv : h.Alike h₁ u v) (hvw : h₁.Alike h₂ v w) (hg : h.Grows h₁)
    (hg₁ : h₁.Grows h₂) (hu : h.Reaches u) : h.Alike h₂ u w := by
  rcases huv with rfl | ⟨p, q, rfl, rfl, hp, hq, htype⟩
  · rcases hvw with rfl | ⟨p, q, rfl, rfl, -, hq, htype⟩
    · exact .inl rfl
    · have hp := hu p rfl
      exact .inr ⟨p, q, rfl, rfl, hp, hq, htype.trans (hg.typeAt_eq hp)⟩
  · rcases hvw with rfl | ⟨q', r, hq', rfl, -, hr, htype'⟩
    · exact .inr ⟨p, q, rfl, rfl, hp, hg₁.has hq, (hg₁.typeAt_eq hq).trans htype⟩
    · cases hq'
      exact .inr ⟨p, r, rfl, rfl, hp, hr, htype'.trans htype⟩

/-- A value stays like another on a heap that grows. -/
theorem Alike.grows (hvw : h.Alike h₁ v w) (hg : h₁.Grows h₂) : h.Alike h₂ v w := by
  rcases hvw with rfl | ⟨p, q, rfl, rfl, hp, hq, htype⟩
  · exact .inl rfl
  · exact .inr ⟨p, q, rfl, rfl, hp, hg.has hq, (hg.typeAt_eq hq).trans htype⟩

/-- A like value was like an older one, if that one does not dangle. -/
theorem Alike.of_grows (hvw : h₁.Alike h₂ v w) (hg : h.Grows h₁) (hv : h.Reaches v) :
    h.Alike h₂ v w := by
  rcases hvw with rfl | ⟨p, q, rfl, rfl, -, hq, htype⟩
  · exact .inl rfl
  · have hp := hv p rfl
    exact .inr ⟨p, q, rfl, rfl, hp, hq, htype.trans (hg.typeAt_eq hp)⟩

/-- The same for lists. -/
theorem AlikeAll.of_grows (hall : h₁.AlikeAll h₂ vs ws) (hg : h.Grows h₁)
    (hvs : ∀ v ∈ vs, h.Reaches v) : h.AlikeAll h₂ vs ws where
  length := hall.length
  like i w hw := by
    obtain ⟨v, hv, hvw⟩ := hall.like i w hw
    exact ⟨v, hv, hvw.of_grows hg (hvs v (List.mem_of_getElem? hv))⟩

theorem AlikeAll.grows (hall : h.AlikeAll h₁ vs ws) (hg : h₁.Grows h₂) : h.AlikeAll h₂ vs ws where
  length := hall.length
  like i w hw := by
    obtain ⟨v, hv, hvw⟩ := hall.like i w hw
    exact ⟨v, hv, hvw.grows hg⟩

theorem AlikeAll.cons (hv : h.Alike h₁ v w) (hvs : h.AlikeAll h₁ vs ws) :
    h.AlikeAll h₁ (v :: vs) (w :: ws) where
  length := congrArg (· + 1) hvs.length
  like i x hx := by
    cases i with
    | zero =>
      cases hx
      exact ⟨v, rfl, hv⟩
    | succ i => exact hvs.like i x hx

theorem AlikeAll.nil (h h₁ : Heap) : h.AlikeAll h₁ [] [] := ⟨rfl, fun _ _ hw => by simp at hw⟩

/-- **New objects with old ones for models.** -/
structure Mirrors (h h' : Heap) : Prop extends Grows h h' where
  model : ∀ o, ¬ h.Has o → h'.Has o →
    ∃ p, h.Has p ∧ h'.typeAt o = h.typeAt p ∧ h.AlikeAll h' (h.slotsAt p) (h'.slotsAt o)

namespace Mirrors

theorem refl (h : Heap) : h.Mirrors h := ⟨.refl h, fun _ hnot ho => absurd ho hnot⟩

/-- Every object has a model, old ones themselves. -/
theorem exists_model (hm : h.Mirrors h₁) (ho : h₁.Has o) :
    ∃ p, h.Has p ∧ h₁.typeAt o = h.typeAt p ∧ h.AlikeAll h₁ (h.slotsAt p) (h₁.slotsAt o) := by
  by_cases hold : h.Has o
  · refine ⟨o, hold, hm.typeAt_eq hold, ?_⟩
    rw [hm.slotsAt_eq hold]
    exact ⟨rfl, fun i w hw => ⟨w, hw, .inl rfl⟩⟩
  · exact hm.model o hold ho

theorem trans (hm : h.Mirrors h₁) (hm₁ : h₁.Mirrors h₂) (hc : h.Closed) : h.Mirrors h₂ where
  toGrows := hm.toGrows.trans hm₁.toGrows
  model o _ ho := by
    obtain ⟨q, hq, htype₂, hslots₂⟩ := hm₁.exists_model ho
    obtain ⟨p, hp, htype₁, hslots₁⟩ := hm.exists_model hq
    refine ⟨p, hp, htype₂.trans htype₁, hslots₂.length.trans hslots₁.length, fun i w hw => ?_⟩
    obtain ⟨v, hv, hvw⟩ := hslots₂.like i w hw
    obtain ⟨u, hu, huv⟩ := hslots₁.like i v hv
    exact ⟨u, hu, huv.trans hvw hm.toGrows hm₁.toGrows (hc.slots p u (List.mem_of_getElem? hu))⟩

/-- A new object with a model. -/
theorem alloc (hm : h.Mirrors h₁) {x : Instance}
    (hx : ∃ p, h.Has p ∧ x.type = h.typeAt p ∧ h.AlikeAll h₁ (h.slotsAt p) x.slots) :
    h.Mirrors (h₁.alloc x).2 := by
  have hg := grows_alloc h₁ x
  refine ⟨hm.toGrows.trans hg, fun o hnot ho => ?_⟩
  rcases alloc_cases ho with ho₁ | ⟨-, hnew⟩
  · obtain ⟨p, hp, htype, hslots⟩ := hm.model o hnot ho₁
    refine ⟨p, hp, (hg.typeAt_eq ho₁).trans htype, ?_⟩
    rw [hg.slotsAt_eq ho₁]
    exact hslots.grows hg
  · obtain ⟨p, hp, htype, hslots⟩ := hx
    refine ⟨p, hp, ?_, ?_⟩
    · rw [typeAt, hnew, htype]
    · have hnewSlots : (h₁.alloc x).2.slotsAt o = x.slots := congrArg Instance.slots hnew
      rw [hnewSlots]
      exact hslots.grows hg

end Mirrors

/-! ## Copies -/

/-- Contents are laid out one after the other. -/
theorem mirrors_placeAll {n : Nat} (hc : h.Closed)
    (ih : ∀ v ∈ vs, ∀ c, h.contents? n v = some c → ∀ {h₁ : Heap}, h.Grows h₁ → h₁.Closed →
      h.Reaches v → h₁.Mirrors (c.place h₁).2 ∧ h₁.Alike (c.place h₁).2 v (c.place h₁).1)
    {cs : List Contents} (hg : h.Grows h₁) (hc₁ : h₁.Closed) (hvs : ∀ v ∈ vs, h.Reaches v)
    (hread : vs.mapM (h.contents? n) = some cs) :
    h₁.Mirrors (Contents.placeAll cs h₁).2 ∧
      h₁.AlikeAll (Contents.placeAll cs h₁).2 vs (Contents.placeAll cs h₁).1 := by
  induction vs generalizing h₁ cs with
  | nil =>
    obtain rfl : [] = cs := by simpa using hread
    exact ⟨.refl h₁, .nil h₁ h₁⟩
  | cons v vs ihvs =>
    obtain ⟨c, cs, hv, hrest, rfl⟩ := List.forall₂_cons_left_iff.1 (mapM_eq_some.1 hread)
    have hreach := hvs v List.mem_cons_self
    obtain ⟨hm, halike⟩ := ih v List.mem_cons_self c hv hg hc₁ hreach
    have hclosed := (placed hc hg hc₁ hreach hv).copies.closed hc₁
    obtain ⟨hm', halikes⟩ := ihvs (fun w hw => ih w (List.mem_cons_of_mem _ hw))
      (hg.trans hm.toGrows) hclosed (fun w hw => hvs w (List.mem_cons_of_mem _ hw))
      (mapM_eq_some.2 hrest)
    refine ⟨hm.trans hm' hc₁, .cons (halike.grows hm'.toGrows) (halikes.of_grows hm.toGrows ?_)⟩
    exact fun u hu => hg.keeps.reaches (hvs u (List.mem_cons_of_mem _ hu))

/-- **Contents laid out** are like the value that they were read from. -/
theorem mirrors_place {n : Nat} {c : Contents} (hc : h.Closed) (hg : h.Grows h₁)
    (hc₁ : h₁.Closed) (hv : h.Reaches v) (hread : h.contents? n v = some c) :
    h₁.Mirrors (c.place h₁).2 ∧ h₁.Alike (c.place h₁).2 v (c.place h₁).1 := by
  induction hread using contents?_induction generalizing h₁ with
  | leaf n v => exact ⟨.refl h₁, .inl rfl⟩
  | box n o cs ho hcs ih =>
    have hhas := has_of_isValueType ho
    obtain ⟨hm, halikes⟩ := mirrors_placeAll hc
      (fun v hmem c hread _ hg hc₁ hv => ih v hmem c hread hg hc₁ hv) hg hc₁ (hc.slots o) hcs
    -- the new box has the one that was read for a model
    have hmodel : h.typeAt o = h₁.typeAt o := (hg.typeAt_eq hhas).symm
    refine ⟨hm.alloc ⟨o, hg.has hhas, hmodel, ?_⟩,
      .inr ⟨o, _, rfl, rfl, hg.has hhas, ?_, ?_⟩⟩
    · rw [hg.slotsAt_eq hhas]
      exact halikes
    · exact Nat.lt_of_lt_of_eq (Nat.lt_succ_self _) (size_alloc _ _).symm
    · exact (congrArg Instance.type (instanceAt_alloc_self _ _)).trans hmodel

/-- **A copy is like what it is a copy of.** -/
theorem mirrors_detach? (hc : h.Closed) (hv : h.Reaches v) (hd : h.detach? v = some (w, h₁)) :
    h.Mirrors h₁ ∧ h.Alike h₁ v w := by
  obtain ⟨c, hread, hplace⟩ := Option.map_eq_some_iff.1 hd
  have hm := mirrors_place hc (.refl h) hc hv hread
  rwa [hplace] at hm

/-- Copies of a list of values. -/
theorem mirrors_detachAll? (hc : h.Closed) (hvs : ∀ v ∈ vs, h.Reaches v)
    (hd : h.detachAll? vs = some (ws, h₁)) : h.Mirrors h₁ ∧ h.AlikeAll h₁ vs ws := by
  induction vs generalizing h ws with
  | nil =>
    cases hd
    exact ⟨.refl _, .nil _ _⟩
  | cons v vs ih =>
    obtain ⟨w, h₂, ws, hdetach, hrest, rfl⟩ := detachAll?_cons_eq_some.1 hd
    have hv := hvs v List.mem_cons_self
    obtain ⟨hm, halike⟩ := mirrors_detach? hc hv hdetach
    obtain ⟨c, -, hplaced⟩ := placed_of_detach? hc hv hdetach
    obtain ⟨hm', halikes⟩ := ih (hplaced.copies.closed hc)
      (fun u hu => hm.toGrows.keeps.reaches (hvs u (List.mem_cons_of_mem _ hu))) hrest
    exact ⟨hm.trans hm' hc, .cons (halike.grows hm'.toGrows)
      (halikes.of_grows hm.toGrows fun u hu => hvs u (List.mem_cons_of_mem _ hu))⟩

end Heap

end MemberAccess
