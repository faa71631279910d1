import MemberAccess.Proofs.Heap.Contents
/-!
# Heap — copies

A copy of a value lays its contents out as new boxes. `Copies` is what that
does to a heap: nothing changes, every new object is a box, and a new box
holds what is older than it and, among boxes, only new ones. So copies share
no box with anything (`Copies.apart`), nest none in itself
(`Copies.acyclic`), and have the contents that they are copies of
(`HasContents.detached`).
-/

namespace MemberAccess

namespace Heap

variable {h h₁ h₂ : Heap} {o p : ObjectRef} {v : Value}

/-- **Nothing new but boxes**, each of which holds what is older than it and, of
the boxes, only new ones. -/
structure NewBoxes (h h' : Heap) : Prop extends Grows h h' where
  boxes : ∀ o, ¬ h.Has o → h'.Has o → h'.IsBoxAt o
  older : ∀ o p, ¬ h.Has o → Value.object p ∈ h'.slotsAt o → p.index < o.index
  apart : ∀ o p, ¬ h.Has o → Value.object p ∈ h'.slotsAt o → h'.IsBoxAt p → ¬ h.Has p

namespace NewBoxes

/-- A new box on top of what was there and of new boxes. -/
theorem alloc (hk : h.NewBoxes h₁) {x : Instance} (hx : x.type.isValueType = true)
    (hslots : ∀ p, .object p ∈ x.slots → h₁.Has p ∧ (h₁.IsBoxAt p → ¬ h.Has p)) :
    h.NewBoxes (h₁.alloc x).2 := by
  have hg := grows_alloc h₁ x
  exact
    { toGrows := hk.toGrows.trans hg
      boxes := by
        intro o hnot ho
        rcases alloc_cases ho with ho₁ | ⟨-, hnew⟩
        · exact (hg.keeps.isBoxAt_iff ho₁).2 (hk.boxes o hnot ho₁)
        · rw [IsBoxAt, typeAt, hnew]
          exact hx
      older := by
        intro o p hnot hp
        rcases alloc_cases (has_of_mem_slotsAt hp) with ho₁ | ⟨ho, hnew⟩
        · rw [hg.slotsAt_eq ho₁] at hp
          exact hk.older o p hnot hp
        · rw [slotsAt, hnew] at hp
          rw [ho]
          exact (hslots p hp).1
      apart := by
        intro o p hnot hp hbox
        rcases alloc_cases (has_of_mem_slotsAt hp) with ho₁ | ⟨-, hnew⟩
        · rw [hg.slotsAt_eq ho₁] at hp
          have hp₁ : h₁.Has p := Nat.lt_trans (hk.older o p hnot hp) ho₁
          exact hk.apart o p hnot hp ((hg.keeps.isBoxAt_iff hp₁).1 hbox)
        · rw [slotsAt, hnew] at hp
          obtain ⟨hp₁, hapart⟩ := hslots p hp
          exact hapart ((hg.keeps.isBoxAt_iff hp₁).1 hbox) }

/-- No reference comes to dangle. -/
theorem closed (hk : h.NewBoxes h₁) (hc : h.Closed) : h₁.Closed where
  slots o v hv p hp := by
    subst hp
    by_cases ho : h.Has o
    · rw [hk.slotsAt_eq ho] at hv
      exact hk.has (hc.slots o _ hv p rfl)
    · exact Nat.lt_trans (hk.older o p ho hv) (has_of_mem_slotsAt hv)
  cells c p hp := by
    rw [hk.readCell_eq] at hp
    exact hk.has (hc.cells c p hp)

end NewBoxes

/-- **New boxes, and nothing else.** A new box holds what is older than it,
and no box that was there before. -/
structure Copies (h h' : Heap) : Prop extends Grows h h' where
  boxes : ∀ o, ¬ h.Has o → h'.Has o → h'.IsBoxAt o
  /-- A new box is laid out like an object that was there before. -/
  like : ∀ o, ¬ h.Has o → h'.Has o → ∃ p, h.Has p ∧ h'.typeAt o = h.typeAt p ∧
    (h'.slotsAt o).length = (h.slotsAt p).length
  older : ∀ o p, ¬ h.Has o → Value.object p ∈ h'.slotsAt o → p.index < o.index
  apart : ∀ o p, ¬ h.Has o → Value.object p ∈ h'.slotsAt o → h'.IsBoxAt p → ¬ h.Has p

namespace Copies

theorem refl (h : Heap) : h.Copies h where
  toGrows := Grows.refl h
  boxes _ hnot ho := absurd ho hnot
  like _ hnot ho := absurd ho hnot
  older _ _ hnot hp := absurd (has_of_mem_slotsAt hp) hnot
  apart _ _ hnot hp := absurd (has_of_mem_slotsAt hp) hnot

/-- After copying every object is laid out like one that was there before. -/
theorem exists_like (hk : h.Copies h₁) (ho : h₁.Has o) : ∃ p, h.Has p ∧
    h₁.typeAt o = h.typeAt p ∧ (h₁.slotsAt o).length = (h.slotsAt p).length := by
  by_cases hold : h.Has o
  · exact ⟨o, hold, hk.typeAt_eq hold, by rw [hk.slotsAt_eq hold]⟩
  · exact hk.like o hold ho

theorem trans (h₁₂ : h.Copies h₁) (h₂₃ : h₁.Copies h₂) : h.Copies h₂ where
  toGrows := h₁₂.toGrows.trans h₂₃.toGrows
  boxes o hnot ho := by
    by_cases ho₁ : h₁.Has o
    · exact (h₂₃.keeps.isBoxAt_iff ho₁).2 (h₁₂.boxes o hnot ho₁)
    · exact h₂₃.boxes o ho₁ ho
  like o _ ho := by
    obtain ⟨p, hp, htype₂, hlen₂⟩ := h₂₃.exists_like ho
    obtain ⟨q, hq, htype₁, hlen₁⟩ := h₁₂.exists_like hp
    exact ⟨q, hq, htype₂.trans htype₁, hlen₂.trans hlen₁⟩
  older o p hnot hp := by
    by_cases ho₁ : h₁.Has o
    · rw [h₂₃.slotsAt_eq ho₁] at hp
      exact h₁₂.older o p hnot hp
    · exact h₂₃.older o p ho₁ hp
  apart o p hnot hp hbox := by
    by_cases ho₁ : h₁.Has o
    · rw [h₂₃.slotsAt_eq ho₁] at hp
      have hp₁ : h₁.Has p := Nat.lt_trans (h₁₂.older o p hnot hp) ho₁
      exact h₁₂.apart o p hnot hp ((h₂₃.keeps.isBoxAt_iff hp₁).1 hbox)
    · exact fun hp₀ => h₂₃.apart o p ho₁ hp hbox (h₁₂.has hp₀)

/-- Copies are new boxes. -/
theorem newBoxes (hk : h.Copies h₁) : h.NewBoxes h₁ := ⟨hk.toGrows, hk.boxes, hk.older, hk.apart⟩

/-- A new box on top of what was there and of copies, laid out like an object
that was there. -/
theorem alloc (hk : h.Copies h₁) {x : Instance} (hx : x.type.isValueType = true)
    (hlike : ∃ p, h₁.Has p ∧ x.type = h₁.typeAt p ∧ x.slots.length = (h₁.slotsAt p).length)
    (hslots : ∀ p, .object p ∈ x.slots → h₁.Has p ∧ (h₁.IsBoxAt p → ¬ h.Has p)) :
    h.Copies (h₁.alloc x).2 :=
  { hk.newBoxes.alloc hx hslots with
    like := by
      intro o _ ho
      have hg := grows_alloc h₁ x
      rcases alloc_cases ho with ho₁ | ⟨-, hnew⟩
      · obtain ⟨p, hp, htype, hlen⟩ := hk.exists_like ho₁
        exact ⟨p, hp, (hg.typeAt_eq ho₁).trans htype, by rw [hg.slotsAt_eq ho₁, hlen]⟩
      · obtain ⟨p, hp, htype, hlen⟩ := hlike
        obtain ⟨q, hq, htype', hlen'⟩ := hk.exists_like hp
        refine ⟨q, hq, ?_⟩
        rw [typeAt, slotsAt, hnew]
        exact ⟨htype.trans htype', hlen.trans hlen'⟩ }

/-- No reference comes to dangle. -/
theorem closed (hk : h.Copies h₁) (hc : h.Closed) : h₁.Closed := hk.newBoxes.closed hc

/-- A path from a new box goes down, among new ones. -/
theorem transGen_nests (hk : h.Copies h₁) (ho : ¬ h.Has o)
    (hn : Relation.TransGen h₁.Nests o p) : p.index < o.index ∧ ¬ h.Has p := by
  induction hn with
  | single hn => exact ⟨hk.older _ _ ho hn.1, hk.apart _ _ ho hn.1 hn.2⟩
  | tail _ hn ih =>
    obtain ⟨hlt, hp⟩ := ih
    exact ⟨Nat.lt_trans (hk.older _ _ hp hn.1) hlt, hk.apart _ _ hp hn.1 hn.2⟩

/-- **Copying nests no box in itself**: old boxes hold old ones only, and new
ones hold older ones only. -/
theorem acyclic (hk : h.Copies h₁) (hc : h.Closed) (ha : h.Acyclic) : h₁.Acyclic := by
  intro o hn
  by_cases ho : h.Has o
  · exact ha o (hk.toGrows.transGen_nests hc ho hn).1
  · exact Nat.lt_irrefl _ (hk.transGen_nests ho hn).1

end Copies

/-! ## Contents laid out -/

/-- **A copy of a value**: the value itself when it is no box, else a new
box. -/
def IsCopy (h h' : Heap) (v v' : Value) : Prop :=
  (h'.box? v' = none ∧ v' = v) ∨ ∃ o, v' = .object o ∧ ¬ h.Has o ∧ h'.IsBoxAt o

/-- A value is a box on a heap that has grown when it was one before. -/
theorem Grows.box?_eq (hg : h.Grows h₁) (hv : h.Reaches v) : h₁.box? v = h.box? v := by
  cases v with
  | object o =>
    have ho := hv o rfl
    simp only [box?, hg.typeAt_eq ho, hg.instanceAt_eq o ho]
  | _ => rfl

/-- A copy made earlier is a copy later. -/
theorem IsCopy.grows {v' : Value} (hcopy : h.IsCopy h₁ v v') (hg : h₁.Grows h₂)
    (hv : h₁.Reaches v') : h.IsCopy h₂ v v' := by
  rcases hcopy with ⟨hbox, hsame⟩ | ⟨o, rfl, hnew, hbox⟩
  · exact .inl ⟨(hg.box?_eq hv).trans hbox, hsame⟩
  · exact .inr ⟨o, rfl, hnew, (hg.keeps.isBoxAt_iff (hv o rfl)).2 hbox⟩

/-- A copy that is new on a later heap is new on an earlier one. -/
theorem IsCopy.of_grows {v' : Value} (hcopy : h₁.IsCopy h₂ v v') (hg : h.Grows h₁) :
    h.IsCopy h₂ v v' :=
  hcopy.imp_right fun ⟨o, ho, hnew, hbox⟩ => ⟨o, ho, fun hold => hnew (hg.has hold), hbox⟩

/-- **Contents laid out as a copy of a value.** -/
structure Placed (h h' : Heap) (n : Nat) (c : Contents) (v v' : Value) : Prop where
  copies : h.Copies h'
  reaches : h'.Reaches v'
  copy : h.IsCopy h' v v'
  contents : h'.contents? n v' = some c

/-- The same for a list of values. -/
structure PlacedAll (h h' : Heap) (n : Nat) (cs : List Contents) (vs vs' : List Value) : Prop where
  copies : h.Copies h'
  reaches : ∀ v ∈ vs', h'.Reaches v
  copy : List.Forall₂ (h.IsCopy h') vs vs'
  contents : vs'.mapM (h'.contents? n) = some cs

/-- Contents are laid out one after the other. -/
theorem placedAll_of_placed {n : Nat} {vs : List Value} {cs : List Contents}
    (ih : ∀ v ∈ vs, ∀ c, h.contents? n v = some c → ∀ {h₁ : Heap}, h.Grows h₁ → h₁.Closed →
      h.Reaches v → h₁.Placed (c.place h₁).2 n c v (c.place h₁).1)
    (hg : h.Grows h₁) (hc₁ : h₁.Closed)
    (hvs : ∀ v ∈ vs, h.Reaches v) (hread : vs.mapM (h.contents? n) = some cs) :
    h₁.PlacedAll (Contents.placeAll cs h₁).2 n cs vs (Contents.placeAll cs h₁).1 := by
  induction vs generalizing h₁ cs with
  | nil =>
    obtain rfl : [] = cs := by simpa using hread
    exact ⟨.refl h₁, by simp [Contents.placeAll], .nil, rfl⟩
  | cons v vs ihvs =>
    obtain ⟨c, cs, hv, hrest, rfl⟩ :
        ∃ c cs', h.contents? n v = some c ∧ vs.mapM (h.contents? n) = some cs' ∧ cs = c :: cs' := by
      obtain ⟨c, cs', hv, hrest, rfl⟩ := List.forall₂_cons_left_iff.1 (mapM_eq_some.1 hread)
      exact ⟨c, cs', hv, mapM_eq_some.2 hrest, rfl⟩
    have hhead := ih v List.mem_cons_self c hv hg hc₁ (hvs v List.mem_cons_self)
    have hclosed := hhead.copies.closed hc₁
    have htail := ihvs (fun w hw => ih w (List.mem_cons_of_mem _ hw))
      (hg.trans hhead.copies.toGrows) hclosed (fun w hw => hvs w (List.mem_cons_of_mem _ hw)) hrest
    -- what comes later changes no contents
    have hcontents := htail.copies.contents?_eq (n := n) hclosed hhead.reaches
    refine ⟨hhead.copies.trans htail.copies, ?_, ?_, ?_⟩
    · intro w hw
      rcases List.mem_cons.1 hw with rfl | hw
      · exact htail.copies.keeps.reaches hhead.reaches
      · exact htail.reaches w hw
    · have hrest := htail.copy.imp fun _ _ hcopy => IsCopy.of_grows hcopy hhead.copies.toGrows
      exact .cons (hhead.copy.grows htail.copies.toGrows hhead.reaches) hrest
    · refine mapM_eq_some.2 (.cons ?_ (mapM_eq_some.1 htail.contents))
      exact hcontents.trans hhead.contents

/-- A new box goes on top of what its slots hold. -/
theorem PlacedAll.box {n : Nat} {cs : List Contents} {vs vs' : List Value} {t : TypeDef}
    (hall : h.PlacedAll h₁ n cs vs vs') (hc : h.Closed) (ht : t.isValueType = true)
    (hlike : ∃ p, h.Has p ∧ h.instanceAt p = ⟨t, vs⟩) (v : Value) :
    h.Placed (h₁.alloc ⟨t, vs'⟩).2 (n + 1) (.box t cs) v (.object (h₁.alloc ⟨t, vs'⟩).1) := by
  have hgrows := grows_alloc h₁ ⟨t, vs'⟩
  have hnew : (h₁.alloc ⟨t, vs'⟩).2.instanceAt ⟨h₁.objects.size⟩ = ⟨t, vs'⟩ := by
    rw [instanceAt_alloc, if_pos rfl]
  have hbox : (h₁.alloc ⟨t, vs'⟩).2.IsBoxAt ⟨h₁.objects.size⟩ := by
    rw [IsBoxAt, typeAt, hnew]
    exact ht
  have hlike₁ : ∃ p, h₁.Has p ∧ t = h₁.typeAt p ∧ vs'.length = (h₁.slotsAt p).length := by
    obtain ⟨p, hp, hinstance⟩ := hlike
    refine ⟨p, hall.copies.has hp, ?_, ?_⟩
    · rw [hall.copies.typeAt_eq hp, typeAt, hinstance]
    · rw [hall.copies.slotsAt_eq hp, slotsAt, hinstance, hall.copy.length_eq]
  refine ⟨hall.copies.alloc ht hlike₁ ?_, ?_,
    .inr ⟨_, rfl, Nat.not_lt.2 hall.copies.size_le, hbox⟩, ?_⟩
  · -- a box in a slot of the new one is itself a copy
    intro p hp
    refine ⟨hall.reaches _ hp p rfl, fun hpbox => ?_⟩
    obtain ⟨w, -, hcopy⟩ := exists_partner hall.copy hp
    rcases hcopy with ⟨hnone, -⟩ | ⟨q, hq, hfresh, -⟩
    · exact absurd hpbox (box?_eq_none.1 hnone p rfl)
    · cases hq
      exact hfresh
  · intro p hp
    cases hp
    rw [Has, size_alloc]
    exact Nat.lt_succ_self _
  · have hslots : vs'.mapM ((h₁.alloc ⟨t, vs'⟩).2.contents? n) = some cs := by
      rw [← hall.contents]
      exact mapM_congr fun w hw =>
        hgrows.contents?_eq (hall.copies.closed hc) (hall.reaches w hw)
    rw [alloc_fst, contents?_of_box (box?_eq_some.2 ⟨_, rfl, hbox, hnew⟩), hslots]
    rfl

/-- **Contents are laid out faithfully**: contents that are read off a heap
may be laid out on every heap that it has grown to. -/
theorem placed {n : Nat} {c : Contents} (hc : h.Closed) (hg : h.Grows h₁) (hc₁ : h₁.Closed)
    (hv : h.Reaches v) (hread : h.contents? n v = some c) :
    h₁.Placed (c.place h₁).2 n c v (c.place h₁).1 := by
  induction hread using contents?_induction generalizing h₁ with
  | leaf n v hbox =>
    have hbox₁ := (hg.box?_eq hv).trans hbox
    exact ⟨.refl h₁, hg.keeps.reaches hv, .inl ⟨hbox₁, rfl⟩, contents?_of_box?_eq_none hbox₁⟩
  | box n o cs ho hcs ih =>
    have hall := placedAll_of_placed (fun v hmem c hread _ hg hc₁ hv => ih v hmem c hread hg hc₁ hv)
      hg hc₁ (hc.slots o) hcs
    have hhas := has_of_isValueType ho
    exact hall.box hc₁ ho ⟨o, hg.has hhas, hg.instanceAt_eq o hhas⟩ _

/-! ## Detached copies -/

/-- **What has contents can be detached**, as a copy with the same contents. -/
theorem HasContents.detached (hv : h.HasContents v) (hc : h.Closed) (hr : h.Reaches v) :
    ∃ c v' h', h.contents? h.objects.size v = some c ∧ h.detach? v = some (v', h') ∧
      h.Placed h' h.objects.size c v v' := by
  obtain ⟨c, hread⟩ := hv.exists_contents
  exact ⟨c, (c.place h).1, (c.place h).2, hread, by simp [detach?, hread],
    placed hc (.refl h) hc hr hread⟩

/-- The contents may have been found at any depth. -/
theorem detached_of_contents {n : Nat} {c : Contents} (hc : h.Closed) (hr : h.Reaches v)
    (hread : h.contents? n v = some c) :
    ∃ v' h', h.detach? v = some (v', h') ∧ h.Placed h' h.objects.size c v v' := by
  have hv : h.HasContents v := ⟨n, c, hread⟩
  obtain ⟨c', v', h', hread', hdetach, hplaced⟩ := hv.detached hc hr
  obtain rfl := contents?_unique hread' hread
  exact ⟨v', h', hdetach, hplaced⟩

/-- What is detached is a copy. -/
theorem placed_of_detach? {v' : Value} (hc : h.Closed) (hv : h.Reaches v)
    (hd : h.detach? v = some (v', h₁)) :
    ∃ c, h.contents? h.objects.size v = some c ∧ h.Placed h₁ h.objects.size c v v' := by
  obtain ⟨c, hread, hplace⟩ := Option.map_eq_some_iff.1 hd
  have hplaced := placed hc (.refl h) hc hv hread
  rw [hplace] at hplaced
  exact ⟨c, hread, hplaced⟩

end Heap

end MemberAccess
