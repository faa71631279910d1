import MemberAccess.Proofs.Heap.Equal
import MemberAccess.Proofs.Heap.Instances
/-!
# Heap — a duplicate is faithful, and shares no box

A duplicate of a value is the value itself where it is no box, and a new box of
the same type otherwise, whose slots are duplicates again (`Heap.Duplicate`).
What is detached is one (`Copies.duplicate`), whatever boxes several slots
share. Its boxes are new and those of the value are old, so nothing that is
written into boxes of the one is written into a box of the other
(`changesOnly_of_writes`), and neither shows what becomes of the other
(`detach_faithful`).
-/

namespace MemberAccess

namespace Heap

variable {h h₁ h₂ : Heap} {v v' w : Value} {o : ObjectRef} {c : Contents} {n m : Nat}

/-! ## Duplicates -/

/-- **A value and a duplicate of it** on a heap that has grown. -/
inductive Duplicate (h h₁ : Heap) : Value → Value → Prop
  /-- Primitives, strings, nulls and references to class instances are their
  own duplicates. -/
  | same {v : Value} (hv : h.box? v = none) : Duplicate h h₁ v v
  /-- A box is duplicated slot by slot into a new box of its type. -/
  | box {o p : ObjectRef} (ho : h.IsBoxAt o) (hnew : ¬ h.Has p) (htype : h₁.typeAt p = h.typeAt o)
      (hslots : List.Forall₂ (Duplicate h h₁) (h.slotsAt o) (h₁.slotsAt p)) :
      Duplicate h h₁ (.object o) (.object p)

/-- **What copies have the contents of, they duplicate**, if they are new as far
as they are boxes. -/
theorem Copies.duplicate (hk : h.Copies h₁) (hread : h.contents? n v = some c)
    (hread' : h₁.contents? m v' = some c) (hnew : h.Fresh h₁ v') : h.Duplicate h₁ v v' := by
  induction hread using contents?_induction generalizing m v' with
  | leaf n v hbox =>
    obtain ⟨-, rfl⟩ := contents?_eq_leaf.1 hread'
    exact .same hbox
  | box n o cs ho hcs ih =>
    obtain ⟨p, l, rfl, rfl, hp, htype, hcs'⟩ := contents?_eq_box.1 hread'
    have hfresh := hnew p rfl hp
    refine .box ho hfresh htype (forall₂_of_mapM hcs hcs' fun x hx y hy c _ hread hread' => ?_)
    -- a new box holds new boxes only
    refine ih x hx c hread hread' ?_
    rintro q rfl hq
    exact hk.apart p q hfresh hy hq

/-! ## Boxes old and new -/

/-- What a copy nests is new. -/
theorem Placed.not_has_of_ties (hp : h.Placed h₁ n c v v') (ho : h₁.Ties v' o) : ¬ h.Has o := by
  obtain ⟨p, rfl, hbox, hpath⟩ := ho
  have hnew := hp.fresh p rfl hbox
  rcases Relation.reflTransGen_iff_eq_or_transGen.1 hpath with rfl | hpath
  · exact hnew
  · exact (hp.copies.transGen_nests hnew hpath).2

/-! ## Writes into the boxes of a value -/

/-- **A write into a box of a value**: one that it nested to begin with, on the
heap `h₀`, or one that it has come to nest, unless that was a box of `w`. -/
def Writes (h₀ : Heap) (v w : Value) (h h' : Heap) : Prop :=
  ∃ o i x, (h₀.Ties v o ∨ h.Ties v o ∧ ¬ h₀.Ties w o) ∧ h.store o i x = .ok h'

/-- **A value shows no change** between two heaps, neither in its contents nor
in any box that it nests. -/
structure Unmoved (h h' : Heap) (v : Value) : Prop where
  contents : ∀ n, h'.contents? n v = h.contents? n v
  boxes : ∀ o, h.Ties v o → h'.instanceAt o = h.instanceAt o

/-- **Writes into the boxes of one value spare those of another**, where the two
begin with none in common. -/
theorem changesOnly_of_writes (hapart : ∀ o, h.Ties v o → ¬ h.Ties w o)
    (hrun : Relation.ReflTransGen (h.Writes v w) h h₂) :
    h.ChangesOnly h₂ fun l => ∃ o i, l = .slot o i ∧ ¬ h.Ties w o := by
  induction hrun with
  | refl => exact (Grows.refl h).changesOnly _
  | tail _ hwrite ih =>
    obtain ⟨o, i, x, ho, hstore⟩ := hwrite
    obtain ⟨hi, rfl⟩ := store_eq_ok.1 hstore
    have hnot : ¬ h.Ties w o := ho.elim (hapart o) And.right
    refine ih.trans ((overwrites_setSlots hi x).toChangesOnly.mono ?_)
    rintro _ rfl
    exact ⟨o, i, rfl, hnot⟩

/-- What is written into the boxes of one value does not show in another. -/
theorem unmoved_of_writes (hc : h.Closed) (hw : h.Reaches w)
    (hapart : ∀ o, h.Ties v o → ¬ h.Ties w o)
    (hrun : Relation.ReflTransGen (h.Writes v w) h h₂) : h.Unmoved h₂ w := by
  have hchanges := changesOnly_of_writes hapart hrun
  have hspared : ∀ o i, (∃ p j, Location.slot o i = .slot p j ∧ ¬ h.Ties w p) → ¬ h.Ties w o := by
    rintro _ _ ⟨p, j, heq, hp⟩
    cases heq
    exact hp
  refine ⟨fun n => hchanges.contents?_eq_of_not_ties hc hw hspared, fun o ho => ?_⟩
  exact hchanges.instanceAt_eq (has_of_isValueType ho.isBoxAt) fun i hi => hspared o i hi ho

/-- **Detaching is a faithful copy that shares no box.** Where no box nests
itself every value can be detached. Nothing that was there changes, and what is
detached is a duplicate: the value itself unless that is a box, and otherwise
new boxes throughout. Whatever is written into the boxes of the value does not
show in the duplicate, nor the other way round. -/
theorem detach_faithful (hc : h.Closed) (ha : h.Acyclic) (hv : h.Reaches v) :
    ∃ v' h', h.detach? v = some (v', h') ∧ h.Grows h' ∧ h.Duplicate h' v v' ∧
      (h.box? v = none → v' = v ∧ h' = h) ∧
      (∀ o, h'.Ties v' o → ¬ h.Has o) ∧ (∀ o, h'.Ties v o → h.Has o) ∧
      ∀ h₂, (Relation.ReflTransGen (h'.Writes v v') h' h₂ → h'.Unmoved h₂ v') ∧
        (Relation.ReflTransGen (h'.Writes v' v) h' h₂ → h'.Unmoved h₂ v) := by
  obtain ⟨c, v', h', hread, hdetach, hplaced⟩ := (ha.hasContents v).detached hc hv
  have hg := hplaced.copies.toGrows
  have hclosed := hplaced.copies.closed hc
  have hnew : ∀ o, h'.Ties v' o → ¬ h.Has o := fun o => hplaced.not_has_of_ties
  have hold : ∀ o, h'.Ties v o → h.Has o := fun o => hg.has_of_ties hc hv
  refine ⟨v', h', hdetach, hg, hplaced.copies.duplicate hread hplaced.contents hplaced.fresh,
    fun hbox => ?_, hnew, hold, fun h₂ => ⟨fun hrun => ?_, fun hrun => ?_⟩⟩
  · rw [detach?_of_box?_eq_none hbox] at hdetach
    cases hdetach
    exact ⟨rfl, rfl⟩
  · exact unmoved_of_writes hclosed hplaced.reaches (fun o ho ho' => hnew o ho' (hold o ho)) hrun
  · exact unmoved_of_writes hclosed (hg.keeps.reaches hv) (fun o ho ho' => hnew o ho (hold o ho'))
      hrun

end Heap

namespace Sample

/-- Two ends, the pen that is drawn with, and a width. -/
def stroke : TypeDef := TypeDef.blank ⟨71⟩ "Stroke" .structType

/-- A point, a pen that is at it, and a stroke of that pen from the point and
back to it: both ends are one box, and the width is not a number. -/
def sketch : Heap where
  objects := #[⟨point, [.int32 7]⟩, ⟨pen, [.object ⟨0⟩]⟩,
    ⟨stroke, [.object ⟨0⟩, .object ⟨0⟩, .object ⟨1⟩, .float64 ⟨0x7FF8000000000000⟩]⟩]

theorem has_sketch {o : ObjectRef} (ho : sketch.Has o) : o = ⟨0⟩ ∨ o = ⟨1⟩ ∨ o = ⟨2⟩ := by
  obtain ⟨i⟩ := o
  have hlt : i < 3 := ho
  have hi : i = 0 ∨ i = 1 ∨ i = 2 := by omega
  simpa using hi

/-- What a sketch holds is older than what holds it. -/
theorem sketch_older (o p : ObjectRef) (hp : .object p ∈ sketch.slotsAt o) : p.index < o.index := by
  rcases has_sketch (Heap.has_of_mem_slotsAt hp) with rfl | rfl | rfl
  · cases List.mem_singleton.1 hp
  · cases List.mem_singleton.1 hp
    exact Nat.zero_lt_one
  · have hends : p = ⟨0⟩ ∨ p = ⟨1⟩ := by
      simpa [sketch, Heap.slotsAt, Heap.instanceAt] using hp
    rcases hends with rfl | rfl
    · exact Nat.zero_lt_two
    · exact Nat.one_lt_two

theorem sketch_acyclic : sketch.Acyclic := Heap.acyclic_of_older sketch_older

theorem sketch_closed : sketch.Closed where
  slots o v hv p hp := by
    subst hp
    exact Nat.lt_trans (sketch_older o p hv) (Heap.has_of_mem_slotsAt hv)
  cells k := by simp [sketch, Heap.readCell, Heap.Reaches]

/-- The stroke is detached with an end of its own in each slot, and with the
pen that it had. Moving the end that it shares moves neither copy. -/
theorem detach_faithful_stroke : ∃ h', sketch.detach? (.object ⟨2⟩) = some (.object ⟨5⟩, h') ∧
    h'.slotsAt ⟨5⟩ =
      [.object ⟨3⟩, .object ⟨4⟩, .object ⟨1⟩, .float64 ⟨0x7FF8000000000000⟩] ∧
    ∃ h₂, h'.store ⟨0⟩ 0 (.int32 9) = .ok h₂ ∧
      h₂.slotsAt ⟨3⟩ = [.int32 7] ∧ h'.Unmoved h₂ (.object ⟨5⟩) := by
  have hreach : sketch.Reaches (.object ⟨2⟩) := by
    intro o ho
    cases ho
    exact Nat.lt_succ_self 2
  obtain ⟨v', h', hdetach, -, -, -, -, -, hwrites⟩ :=
    Heap.detach_faithful sketch_closed sketch_acyclic hreach
  cases hdetach
  refine ⟨_, rfl, rfl, _, rfl, rfl, (hwrites _).1 (.single ⟨⟨0⟩, 0, .int32 9, .inl ?_, rfl⟩)⟩
  exact ⟨⟨2⟩, rfl, rfl, .single ⟨by decide, rfl⟩⟩

end Sample

end MemberAccess
