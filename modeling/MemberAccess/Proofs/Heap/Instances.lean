import MemberAccess.Proofs.Ownership.Orderly
/-!
# Heap — new instances

A value is cloned as itself or, when it is a box, as a new box with the
contents that it had (`Heap.Cloned`). A new instance holds a clone of each
default of its type and is new itself (`Heap.Creates`). That is what a zeroed
instance is (`creates_of_zeroed?`), and there is one wherever the defaults
have contents (`exists_zeroed?`).
-/

namespace MemberAccess

/-- The zero of a built-in value type. -/
def Primitive.zero : Primitive → Value
  | bool => .bool false
  | int32 => .int32 0
  | int64 => .int64 0
  | float64 => .float64 .zero

namespace Heap

variable {h h₁ h₂ h' : Heap} {v v' w : Value} {t : TypeDef} {o : ObjectRef}

/-! ## Clones -/

/-- **What a value is cloned as**: something with the contents that the value
had, which is no box that was there before. -/
structure Cloned (h h' : Heap) (v v' : Value) : Prop where
  reaches : h'.Reaches v'
  fresh : h.Fresh h' v'
  contents : ∃ n m c, h.contents? n v = some c ∧ h'.contents? m v' = some c

namespace Cloned

/-- A clone has contents. -/
theorem hasContents (hc : h.Cloned h' v v') : h'.HasContents v' := by
  obtain ⟨-, m, c, -, hread⟩ := hc.contents
  exact ⟨m, c, hread⟩

/-- A clone stays one when the heap grows. -/
theorem grows (hc : h.Cloned h₁ v v') (hg : h₁.Grows h₂) (hclosed : h₁.Closed) :
    h.Cloned h₂ v v' where
  reaches := hg.keeps.reaches hc.reaches
  fresh o ho hbox := hc.fresh o ho ((hg.keeps.isBoxAt_iff (hc.reaches o ho)).1 hbox)
  contents := by
    obtain ⟨n, m, c, hread, hread'⟩ := hc.contents
    exact ⟨n, m, c, hread, (hg.contents?_eq hclosed hc.reaches).trans hread'⟩

/-- A clone of what was there before the heap had grown. -/
theorem of_grows (hc : h₁.Cloned h₂ v v') (hg : h.Grows h₁) (hclosed : h.Closed)
    (hv : h.Reaches v) : h.Cloned h₂ v v' where
  reaches := hc.reaches
  fresh o ho hbox hold := hc.fresh o ho hbox (hg.has hold)
  contents := by
    obtain ⟨n, m, c, hread, hread'⟩ := hc.contents
    exact ⟨n, m, c, (hg.contents?_eq hclosed hv).symm.trans hread, hread'⟩

end Cloned

/-- What is laid out as the contents of a value is a clone of it. -/
theorem Placed.cloned {n : Nat} {c : Contents} (hp : h.Placed h' n c v v')
    (hread : h.contents? n v = some c) : h.Cloned h' v v' :=
  ⟨hp.reaches, hp.fresh, n, n, c, hread, hp.contents⟩

/-- What is no box is copied as itself. -/
theorem detach?_of_box?_eq_none (hv : h.box? v = none) : h.detach? v = some (v, h) := by
  rw [detach?, contents?_of_box?_eq_none hv]
  rfl

/-- Clones of a list of values, as copies leave them. -/
theorem cloned_of_detachAll? {vs vs' : List Value} (hc : h.Closed) (hvs : ∀ v ∈ vs, h.Reaches v)
    (hd : h.detachAll? vs = some (vs', h')) : h.Copies h' ∧ List.Forall₂ (h.Cloned h') vs vs' := by
  induction vs generalizing h vs' with
  | nil =>
    cases hd
    exact ⟨.refl _, .nil⟩
  | cons v vs ih =>
    obtain ⟨w, h₁, ws, hdetach, hrest, rfl⟩ := detachAll?_cons_eq_some.1 hd
    obtain ⟨c, hread, hplaced⟩ := placed_of_detach? hc (hvs v List.mem_cons_self) hdetach
    have hclosed := hplaced.copies.closed hc
    have hold : ∀ u ∈ vs, h.Reaches u := fun u hu => hvs u (List.mem_cons_of_mem _ hu)
    obtain ⟨hk, hws⟩ := ih hclosed (fun u hu => hplaced.copies.keeps.reaches (hold u hu)) hrest
    refine ⟨hplaced.copies.trans hk, .cons ((hplaced.cloned hread).grows hk.toGrows hclosed) ?_⟩
    -- the others are cloned on a heap that has grown by the first clone
    have hpairs := (List.forall₂_and_left vs ws).2 ⟨hold, hws⟩
    exact hpairs.imp fun u w ⟨hu, huw⟩ => huw.of_grows hplaced.copies.toGrows hc hu

/-- So there are copies, and none of them dangles. -/
theorem copies_of_detachAll? {vs vs' : List Value} (hc : h.Closed) (hvs : ∀ v ∈ vs, h.Reaches v)
    (hd : h.detachAll? vs = some (vs', h')) : h.Copies h' ∧ ∀ v ∈ vs', h'.Reaches v := by
  obtain ⟨hk, hclones⟩ := cloned_of_detachAll? hc hvs hd
  refine ⟨hk, fun w hw => ?_⟩
  obtain ⟨v, -, hclone⟩ := exists_partner hclones hw
  exact hclone.reaches

/-- **Values that have contents can all be copied.** -/
theorem exists_detachAll? {vs : List Value} (hc : h.Closed) (hvs : ∀ v ∈ vs, h.Reaches v)
    (hread : ∀ v ∈ vs, h.HasContents v) : ∃ vs' h', h.detachAll? vs = some (vs', h') := by
  induction vs generalizing h with
  | nil => exact ⟨[], h, rfl⟩
  | cons v vs ih =>
    have hv := List.mem_cons_self (a := v) (l := vs)
    obtain ⟨c, w, h₁, -, hdetach, hplaced⟩ := (hread v hv).detached hc (hvs v hv)
    have hg := hplaced.copies.toGrows
    have hold : ∀ u ∈ vs, h.Reaches u := fun u hu => hvs u (List.mem_cons_of_mem _ hu)
    have hread₁ : ∀ u ∈ vs, h₁.HasContents u :=
      fun u hu => (hread u (List.mem_cons_of_mem _ hu)).grows hg hc (hold u hu)
    obtain ⟨ws, h₂, hrest⟩ :=
      ih (hplaced.copies.closed hc) (fun u hu => hg.keeps.reaches (hold u hu)) hread₁
    exact ⟨w :: ws, h₂, detachAll?_cons_eq_some.2 ⟨w, h₁, ws, hdetach, hrest, rfl⟩⟩

/-! ## Instances -/

/-- **A new instance of a type**: it was not there before, each of its slots
holds a clone of the slot's default, and whatever else is new is a box. -/
structure Creates (h h' : Heap) (t : TypeDef) (o : ObjectRef) : Prop where
  grows : h.Grows h'
  fresh : ¬ h.Has o
  has : h'.Has o
  type : h'.typeAt o = t
  slots : List.Forall₂ (h.Cloned h') t.defaults (h'.slotsAt o)
  others : ∀ p, ¬ h.Has p → h'.Has p → p = o ∨ h'.IsBoxAt p

/-- **A zeroed instance is a new one.** -/
theorem creates_of_zeroed? (hc : h.Closed) (hd : ∀ v ∈ t.defaults, h.Reaches v)
    (hz : h.zeroed? t = some (o, h')) : h.Creates h' t o := by
  obtain ⟨vs, h₁, hvs, rfl, rfl⟩ := zeroed?_eq_some hz
  obtain ⟨hk, hclones⟩ := cloned_of_detachAll? hc hd hvs
  have hg := grows_alloc h₁ ⟨t, vs⟩
  have hnew : (h₁.alloc ⟨t, vs⟩).2.instanceAt ⟨h₁.objects.size⟩ = ⟨t, vs⟩ := by
    rw [instanceAt_alloc, if_pos rfl]
  refine ⟨hk.toGrows.trans hg, fun hold => Nat.lt_irrefl _ (hk.has hold), ?_, ?_, ?_, ?_⟩
  · rw [Has, size_alloc]
    exact Nat.lt_succ_self _
  · rw [typeAt, hnew]
  · rw [slotsAt, hnew]
    exact hclones.imp fun u w huw => huw.grows hg (hk.closed hc)
  · intro p hnot hp
    rcases alloc_cases hp with hp₁ | ⟨hlast, -⟩
    · exact .inr ((hg.keeps.isBoxAt_iff hp₁).2 (hk.boxes p hnot hp₁))
    · obtain ⟨i⟩ := p
      exact .inl (congrArg ObjectRef.mk hlast)

/-- Nothing dangles on account of it. -/
theorem closed_of_zeroed? (hc : h.Closed) (hd : ∀ v ∈ t.defaults, h.Reaches v)
    (hz : h.zeroed? t = some (o, h')) : h'.Closed := by
  obtain ⟨vs, h₁, hvs, rfl, rfl⟩ := zeroed?_eq_some hz
  obtain ⟨hk, hreach⟩ := copies_of_detachAll? hc hd hvs
  exact (hk.closed hc).alloc hreach

/-- **There is a zeroed instance** where the defaults have contents. -/
theorem exists_zeroed? (hc : h.Closed) (hd : ∀ v ∈ t.defaults, h.Reaches v)
    (hread : ∀ v ∈ t.defaults, h.HasContents v) : ∃ o h', h.zeroed? t = some (o, h') := by
  obtain ⟨vs, h₁, hvs⟩ := exists_detachAll? hc hd hread
  exact ⟨_, _, by simp only [zeroed?, hvs, Option.bind_eq_bind, Option.bind_some]; rfl⟩

/-! ## Zero values -/

theorem zeroOf?_of_primitive {p : Primitive} (ht : t.kind = .primitive p) :
    h.zeroOf? t = some (p.zero, h) := by
  unfold zeroOf?
  rw [ht]
  cases p <;> rfl

theorem box?_zero (h : Heap) (p : Primitive) : h.box? p.zero = none := by
  cases p <;> rfl

theorem zeroOf?_of_struct (ht : t.kind = .structType) (hz : h.zeroed? t = some (o, h')) :
    h.zeroOf? t = some (.object o, h') := by
  unfold zeroOf?
  rw [ht]
  simp only [hz, Option.bind_eq_bind, Option.bind_some]
  rfl

/-- What has the contents of clones, and is no box that was there before, are
clones. -/
theorem cloned_of_contents {n m : Nat} {cs : List Contents} {ds us ws : List Value}
    (hclones : List.Forall₂ (h.Cloned h₁) ds us) (hus : us.mapM (h₁.contents? n) = some cs)
    (hws : ws.mapM (h₂.contents? m) = some cs) (hnew : ∀ w ∈ ws, h₂.Reaches w ∧ h.Fresh h₂ w) :
    List.Forall₂ (h.Cloned h₂) ds ws := by
  rw [mapM_eq_some] at hus hws
  induction hclones generalizing cs ws with
  | nil =>
    cases hus
    cases hws
    exact .nil
  | @cons d u ds us hclone _ ih =>
    obtain ⟨c, cs, hu, hrest, rfl⟩ := List.forall₂_cons_left_iff.1 hus
    obtain ⟨w, ws, hw, hrest', rfl⟩ := List.forall₂_cons_right_iff.1 hws
    obtain ⟨hreach, hfresh⟩ := hnew w List.mem_cons_self
    refine .cons ⟨hreach, hfresh, ?_⟩
      (ih hrest hrest' fun w hw => hnew w (List.mem_cons_of_mem _ hw))
    obtain ⟨k, l, c', hd, hu'⟩ := hclone.contents
    obtain rfl := contents?_unique hu' hu
    exact ⟨k, m, c', hd, hw⟩

/-- **A new instance has contents.** -/
theorem Creates.hasContents (hc : h.Creates h' t o) : h'.HasContents (.object o) := by
  refine .of_slots fun w hw => ?_
  obtain ⟨v, -, hclone⟩ := exists_partner hc.slots hw
  exact hclone.hasContents

/-- **A copy of a new struct is a new struct.** -/
theorem Creates.copied {n : Nat} {c : Contents} (hc : h.Creates h₁ t o)
    (ht : t.isValueType = true) (hclosed : h₁.Closed) (hread : h₁.contents? n (.object o) = some c)
    (hp : h₁.Placed h₂ n c (.object o) w) : ∃ p, w = .object p ∧ h.Creates h₂ t p := by
  have ho : h₁.IsBoxAt o := by
    rw [IsBoxAt, hc.type]
    exact ht
  -- both are read as the same box
  cases c with
  | leaf v => exact absurd ho (box?_eq_none.1 (contents?_eq_leaf.1 hread).1 o rfl)
  | box u cs =>
    obtain ⟨_, k, ⟨⟩, -, -, rfl, hcs⟩ := contents?_eq_box.1 hread
    obtain ⟨p, l, rfl, -, hpbox, htype, hcs'⟩ := contents?_eq_box.1 hp.contents
    have hnew := hp.fresh p rfl hpbox
    refine ⟨p, rfl, hc.grows.trans hp.copies.toGrows, fun hold => hnew (hc.grows.has hold),
      has_of_isValueType hpbox, htype.trans hc.type, ?_, fun q hnot hq => ?_⟩
    · refine cloned_of_contents hc.slots hcs hcs' fun v hv => ⟨?_, ?_⟩
      · exact (hp.copies.closed hclosed).slots p v hv
      · rintro q rfl hqbox hold
        exact hp.copies.apart p q hnew hv hqbox (hc.grows.has hold)
    · right
      by_cases hq₁ : h₁.Has q
      · rcases hc.others q hnot hq₁ with rfl | hqbox
        · exact (hp.copies.keeps.isBoxAt_iff hq₁).2 ho
        · exact (hp.copies.keeps.isBoxAt_iff hq₁).2 hqbox
      · exact hp.copies.boxes q hq₁ hq

end Heap

end MemberAccess
