import Mathlib.Data.List.Perm.Subperm
import Mathlib.Logic.Relation
import MemberAccess.Proofs.Heap.Grows
import MemberAccess.Proofs.Partial
/-!
# Heap — the contents of a value, and what they depend on

The contents of a value are read through the boxes that it nests, and what is
true of them is proved along them (`contents?_induction`). They do not depend
on how deep one is ready to look (`contents?_mono`), nor on anything but the
boxes that are nested (`contents?_congr`), so heaps that agree on those boxes
agree on the contents. A value has contents exactly when it neither is nor nests
a box that nests itself, and then they are found at a depth of the number of
objects (`HasContents.exists_contents`): a chain of nested boxes visits no object
twice.
-/

namespace MemberAccess

namespace Heap

variable {h h' : Heap} {v : Value} {c : Contents} {n m : Nat}

/-! ## Boxes -/

/-- Whether an object is a box. -/
def IsBoxAt (h : Heap) (o : ObjectRef) : Prop := (h.typeAt o).isValueType = true

/-- A box stays a box, and nothing becomes one. -/
theorem Keeps.isBoxAt_iff {o : ObjectRef} (hk : h.Keeps h') (ho : h.Has o) :
    h'.IsBoxAt o ↔ h.IsBoxAt o := by
  rw [IsBoxAt, IsBoxAt, hk.typeAt_eq o ho]

theorem box?_eq_some {x : Instance} :
    h.box? v = some x ↔ ∃ o, v = .object o ∧ h.IsBoxAt o ∧ h.instanceAt o = x := by
  cases v with
  | object o =>
    simp only [box?, IsBoxAt, Value.object.injEq, exists_eq_left']
    split <;> simp_all
  | _ => simp [box?]

theorem box?_eq_none : h.box? v = none ↔ ∀ o, v = .object o → ¬ h.IsBoxAt o := by
  cases v with
  | object o => simp [box?, IsBoxAt]
  | _ => simp [box?]

theorem isBox_object (o : ObjectRef) : h.isBox (.object o) = (h.typeAt o).isValueType := by
  cases ho : (h.typeAt o).isValueType <;> simp [isBox, box?, ho]

/-! ## Depth -/

/-- Anything but a box is its own contents. -/
theorem contents?_of_box?_eq_none (hv : h.box? v = none) : h.contents? n v = some (.leaf v) := by
  cases n with
  | zero => simp [contents?, isBox, hv]
  | succ n => simp [contents?, hv]

/-- A box is its type and the contents of its slots. -/
theorem contents?_of_box {x : Instance} (hv : h.box? v = some x) :
    h.contents? (n + 1) v = (x.slots.mapM (h.contents? n)).map (.box x.type) := by
  simp [contents?, hv]

theorem contents?_zero_of_box {x : Instance} (hv : h.box? v = some x) :
    h.contents? 0 v = none := by
  simp [contents?, isBox, hv]

/-- **Only a value that is no box is a leaf.** -/
theorem contents?_eq_leaf {w : Value} :
    h.contents? n v = some (.leaf w) ↔ h.box? v = none ∧ v = w := by
  constructor
  · intro hc
    cases hv : h.box? v with
    | none =>
      rw [contents?_of_box?_eq_none hv] at hc
      cases hc
      exact ⟨rfl, rfl⟩
    | some x =>
      cases n with
      | zero => simp [contents?_zero_of_box hv] at hc
      | succ n =>
        rw [contents?_of_box hv, Option.map_eq_some_iff] at hc
        obtain ⟨cs, -, hcs⟩ := hc
        cases hcs
  · rintro ⟨hv, rfl⟩
    exact contents?_of_box?_eq_none hv

/-- **Only a box has the contents of a box**: of its type, and slot by slot. -/
theorem contents?_eq_box {t : TypeDef} {cs : List Contents} :
    h.contents? n v = some (.box t cs) ↔ ∃ o k, v = .object o ∧ n = k + 1 ∧ h.IsBoxAt o ∧
      h.typeAt o = t ∧ (h.slotsAt o).mapM (h.contents? k) = some cs := by
  constructor
  · intro hc
    cases hv : h.box? v with
    | none =>
      rw [contents?_of_box?_eq_none hv] at hc
      cases hc
    | some x =>
      obtain ⟨o, rfl, ho, rfl⟩ := box?_eq_some.1 hv
      cases n with
      | zero => simp [contents?_zero_of_box hv] at hc
      | succ k =>
        rw [contents?_of_box hv] at hc
        obtain ⟨cs', hcs, heq⟩ := Option.map_eq_some_iff.1 hc
        cases heq
        exact ⟨o, k, rfl, rfl, ho, rfl, hcs⟩
  · rintro ⟨o, k, rfl, rfl, ho, rfl, hcs⟩
    rw [contents?_of_box (box?_eq_some.2 ⟨o, rfl, ho, rfl⟩)]
    exact congrArg (Option.map _) hcs

/-- **Induction along contents**: a value that is no box, and a box on top of
what its slots hold. -/
theorem contents?_induction
    {motive : (n : Nat) → (v : Value) → (c : Contents) → h.contents? n v = some c → Prop}
    (leaf : ∀ n v (hv : h.box? v = none), motive n v (.leaf v) (contents?_of_box?_eq_none hv))
    (box : ∀ n o cs (ho : h.IsBoxAt o) (hcs : (h.slotsAt o).mapM (h.contents? n) = some cs),
      (∀ x ∈ h.slotsAt o, ∀ c (hx : h.contents? n x = some c), motive n x c hx) →
        motive (n + 1) (.object o) (.box (h.typeAt o) cs)
          (contents?_eq_box.2 ⟨o, n, rfl, rfl, ho, rfl, hcs⟩))
    {n : Nat} {v : Value} {c : Contents} (hread : h.contents? n v = some c) :
    motive n v c hread := by
  induction n using Nat.strongRecOn generalizing v c with
  | ind n ih =>
    cases c with
    | leaf w =>
      obtain ⟨hv, rfl⟩ := contents?_eq_leaf.1 hread
      exact leaf n v hv
    | box t cs =>
      obtain ⟨o, k, rfl, rfl, ho, rfl, hcs⟩ := contents?_eq_box.1 hread
      exact box k o cs ho hcs fun x _ c hx => ih k (Nat.lt_succ_self k) hx

/-- Looking deeper finds the same contents. -/
theorem contents?_mono (hc : h.contents? n v = some c) (hnm : n ≤ m) :
    h.contents? m v = some c := by
  induction hc using contents?_induction generalizing m with
  | leaf n v hv => exact contents?_of_box?_eq_none hv
  | box n o cs ho hcs ih =>
    obtain ⟨m, rfl⟩ : ∃ k, m = k + 1 := ⟨m - 1, by omega⟩
    refine contents?_eq_box.2 ⟨o, m, rfl, rfl, ho, rfl, ?_⟩
    have hall := (List.forall₂_and_left _ _).2 ⟨fun x hx => hx, mapM_eq_some.1 hcs⟩
    exact mapM_eq_some.2 (hall.imp fun x c ⟨hx, hc⟩ => ih x hx c hc (by omega))

/-- **A value has at most one contents**, however deep one looks. -/
theorem contents?_unique {c' : Contents} (hc : h.contents? n v = some c)
    (hc' : h.contents? m v = some c') : c = c' := by
  have hn := contents?_mono hc (Nat.le_max_left n m)
  have hm := contents?_mono hc' (Nat.le_max_right n m)
  exact Option.some.inj (hn.symm.trans hm)

/-! ## What contents depend on -/

theorem box?_eq_none_congr (hv : ∀ o, v = .object o → (h'.IsBoxAt o ↔ h.IsBoxAt o)) :
    h'.box? v = none ↔ h.box? v = none := by
  rw [box?_eq_none, box?_eq_none]
  exact forall₂_congr fun o ho => not_congr (hv o ho)

/-- **Contents depend on nested boxes alone.** When two heaps agree on a set
of boxes that is closed under nesting, and nothing becomes a box or ceases to
be one, values whose box is in the set have the same contents on both. -/
theorem contents?_congr {S : ObjectRef → Prop}
    (hagree : ∀ o, S o → h'.instanceAt o = h.instanceAt o)
    (hboxes : ∀ o, S o → ∀ w ∈ h.slotsAt o, ∀ p, w = .object p →
      (h'.IsBoxAt p ↔ h.IsBoxAt p) ∧ (h.IsBoxAt p → S p))
    (hv : ∀ o, v = .object o → (h'.IsBoxAt o ↔ h.IsBoxAt o) ∧ (h.IsBoxAt o → S o)) :
    h'.contents? n v = h.contents? n v := by
  induction n generalizing v with
  | zero =>
    cases hbox : h.box? v with
    | none =>
      have hbox' := (box?_eq_none_congr fun o ho => (hv o ho).1).2 hbox
      rw [contents?_of_box?_eq_none hbox, contents?_of_box?_eq_none hbox']
    | some x =>
      obtain ⟨o, rfl, ho, -⟩ := box?_eq_some.1 hbox
      have hbox' : h'.box? (.object o) = some (h'.instanceAt o) :=
        box?_eq_some.2 ⟨o, rfl, (hv o rfl).1.2 ho, rfl⟩
      rw [contents?_zero_of_box hbox, contents?_zero_of_box hbox']
  | succ n ih =>
    cases hbox : h.box? v with
    | none =>
      have hbox' := (box?_eq_none_congr fun o ho => (hv o ho).1).2 hbox
      rw [contents?_of_box?_eq_none hbox, contents?_of_box?_eq_none hbox']
    | some x =>
      obtain ⟨o, rfl, ho, rfl⟩ := box?_eq_some.1 hbox
      -- the box is the same on both, and what it nests is in the set again
      have hS := (hv o rfl).2 ho
      have hbox' : h'.box? (.object o) = some (h.instanceAt o) :=
        box?_eq_some.2 ⟨o, rfl, (hv o rfl).1.2 ho, hagree o hS⟩
      rw [contents?_of_box hbox, contents?_of_box hbox']
      have hslots : (h.instanceAt o).slots.mapM (h'.contents? n) =
          (h.instanceAt o).slots.mapM (h.contents? n) := by
        exact mapM_congr fun w hw => ih fun p hp => hboxes o hS w hw p hp
      rw [hslots]

/-- **Growing changes no contents**, if no reference dangles. -/
theorem Grows.contents?_eq (hg : h.Grows h') (hc : h.Closed) (hv : h.Reaches v) :
    h'.contents? n v = h.contents? n v := by
  refine contents?_congr (S := h.Has) hg.instanceAt_eq ?_ ?_
  · rintro o - w hw p rfl
    have hp := hc.slots o _ hw p rfl
    exact ⟨hg.keeps.isBoxAt_iff hp, fun _ => hp⟩
  · rintro o rfl
    have ho := hv o rfl
    exact ⟨hg.keeps.isBoxAt_iff ho, fun _ => ho⟩

/-! ## Nesting -/

/-- **A slot of one object holds a box.** -/
def Nests (h : Heap) (o p : ObjectRef) : Prop := .object p ∈ h.slotsAt o ∧ h.IsBoxAt p

/-- **No box is reachable from itself through boxes.** -/
def Acyclic (h : Heap) : Prop := ∀ o, ¬ Relation.TransGen h.Nests o o

/-- A heap whose objects hold older ones only has no cycles. -/
theorem acyclic_of_older (hold : ∀ o p, .object p ∈ h.slotsAt o → p.index < o.index) :
    h.Acyclic := by
  have hlt : ∀ o p, Relation.TransGen h.Nests o p → p.index < o.index := by
    intro o p hn
    induction hn with
    | single hn => exact hold _ _ hn.1
    | tail _ hn ih => exact Nat.lt_trans (hold _ _ hn.1) ih
  exact fun o hn => Nat.lt_irrefl _ (hlt o o hn)

/-- **Paths through boxes stay among old objects**, where the heap has only
grown. -/
theorem Grows.transGen_nests {o p : ObjectRef} (hg : h.Grows h') (hc : h.Closed) (ho : h.Has o)
    (hn : Relation.TransGen h'.Nests o p) : Relation.TransGen h.Nests o p ∧ h.Has p := by
  have hstep : ∀ o p, h.Has o → h'.Nests o p → h.Nests o p ∧ h.Has p := by
    intro o p ho hn
    obtain ⟨hmem, hbox⟩ := hn
    rw [hg.slotsAt_eq ho] at hmem
    have hp := hc.slots o _ hmem p rfl
    exact ⟨⟨hmem, (hg.keeps.isBoxAt_iff hp).1 hbox⟩, hp⟩
  induction hn with
  | single hn => exact ⟨.single (hstep _ _ ho hn).1, (hstep _ _ ho hn).2⟩
  | tail _ hn ih =>
    obtain ⟨hpath, hp⟩ := ih
    exact ⟨hpath.tail (hstep _ _ hp hn).1, (hstep _ _ hp hn).2⟩

/-- A value without contents to a depth starts a chain of that many nested
boxes. -/
theorem exists_chain (hv : h.contents? n v = none) :
    ∃ o os, v = .object o ∧ os.length = n ∧ List.IsChain h.Nests (o :: os) ∧
      ∀ p ∈ o :: os, h.IsBoxAt p := by
  induction n generalizing v with
  | zero =>
    cases hbox : h.box? v with
    | none => simp [contents?_of_box?_eq_none hbox] at hv
    | some x =>
      obtain ⟨o, rfl, ho, -⟩ := box?_eq_some.1 hbox
      exact ⟨o, [], rfl, rfl, .singleton o, by simpa using ho⟩
  | succ n ih =>
    cases hbox : h.box? v with
    | none => simp [contents?_of_box?_eq_none hbox] at hv
    | some x =>
      obtain ⟨o, rfl, ho, rfl⟩ := box?_eq_some.1 hbox
      rw [contents?_of_box hbox, Option.map_eq_none_iff] at hv
      obtain ⟨w, hw, hnone⟩ := exists_of_mapM_eq_none hv
      obtain ⟨p, ps, rfl, hlen, hchain, hboxes⟩ := ih hnone
      refine ⟨o, p :: ps, rfl, by simp [hlen], ?_, ?_⟩
      · exact .cons_cons ⟨hw, hboxes p List.mem_cons_self⟩ hchain
      · intro q hq
        rcases List.mem_cons.1 hq with rfl | hq
        · exact ho
        · exact hboxes q hq

/-- **What has contents nests no box that nests itself.** -/
theorem not_nests_of_contents? {o p : ObjectRef} (hread : h.contents? n v = some c)
    (hv : v = .object o) (ho : h.IsBoxAt o) (hpath : Relation.ReflTransGen h.Nests o p) :
    ¬ Relation.TransGen h.Nests p p := by
  induction hread using contents?_induction generalizing o p with
  | leaf n v hbox => exact absurd ho (box?_eq_none.1 hbox o hv)
  | box n q cs _ hcs ih =>
    obtain rfl : o = q := (Value.object.inj hv).symm
    -- whatever the box nests has contents in turn, and nests nothing that nests itself
    have hstep : ∀ p q, h.Nests o p → Relation.ReflTransGen h.Nests p q →
        ¬ Relation.TransGen h.Nests q q := by
      intro p q hn hpath
      obtain ⟨c, -, hc⟩ := exists_image (mapM_eq_some.1 hcs) hn.1
      exact ih _ hn.1 c hc rfl hn.2 hpath
    rcases hpath.cases_head with rfl | ⟨q, hn, hpath⟩
    · intro hcycle
      obtain ⟨q, hn, hpath⟩ := Relation.TransGen.head'_iff.1 hcycle
      exact hstep q o hn hpath hcycle
    · exact hstep q p hn hpath

/-- **Where no box that it nests nests itself a value has contents**, found at a
depth of the number of objects. -/
theorem exists_contents_of_not_nests (hnot : ∀ o, v = .object o → h.IsBoxAt o →
      ∀ p, Relation.ReflTransGen h.Nests o p → ¬ Relation.TransGen h.Nests p p) :
    ∃ c, h.contents? h.objects.size v = some c := by
  cases hc : h.contents? h.objects.size v with
  | some c => exact ⟨c, rfl⟩
  | none =>
    exfalso
    obtain ⟨o, os, hv, hlen, hchain, hboxes⟩ := exists_chain hc
    -- the chain visits no object twice, and there are not enough objects for it
    have hpairwise : List.Pairwise (Relation.TransGen h.Nests) (o :: os) :=
      (hchain.imp fun _ _ hn => Relation.TransGen.single hn).pairwise
    have hreached : ∀ p ∈ o :: os, Relation.ReflTransGen h.Nests o p := by
      intro p hp
      rcases List.mem_cons.1 hp with rfl | hp
      · exact .refl
      · exact (List.rel_of_pairwise_cons hpairwise hp).to_reflTransGen
    have hnodup : ((o :: os).map (·.index)).Nodup := by
      rw [List.nodup_iff_pairwise_ne, List.pairwise_map]
      refine hpairwise.imp_of_mem fun {p q} hp _ hpq heq => ?_
      obtain ⟨i⟩ := p
      obtain ⟨j⟩ := q
      obtain rfl : i = j := heq
      exact hnot o hv (hboxes o List.mem_cons_self) _ (hreached _ hp) hpq
    have hsub : (o :: os).map (·.index) ⊆ List.range h.objects.size := by
      intro i hi
      obtain ⟨p, hp, rfl⟩ := List.mem_map.1 hi
      exact List.mem_range.2 (has_of_isValueType (hboxes p hp))
    have hle : h.objects.size + 1 ≤ h.objects.size := by
      simpa [hlen] using (List.subperm_of_subset hnodup hsub).length_le
    omega

/-! ## Values with contents -/

/-- **A value has contents**: what it nests comes to an end. -/
def HasContents (h : Heap) (v : Value) : Prop := ∃ n c, h.contents? n v = some c

/-- **Without cycles every value has contents.** -/
theorem Acyclic.hasContents (ha : h.Acyclic) (v : Value) : h.HasContents v := by
  obtain ⟨c, hc⟩ := exists_contents_of_not_nests (v := v) fun _ _ _ p _ => ha p
  exact ⟨_, c, hc⟩

namespace HasContents

/-- **Contents are found** at a depth of the number of objects. -/
theorem exists_contents (hv : h.HasContents v) : ∃ c, h.contents? h.objects.size v = some c := by
  obtain ⟨n, c, hread⟩ := hv
  exact exists_contents_of_not_nests fun o ho hbox p => not_nests_of_contents? hread ho hbox

/-- Anything but a box has contents. -/
theorem of_box?_eq_none (hv : h.box? v = none) : h.HasContents v :=
  ⟨0, _, contents?_of_box?_eq_none hv⟩

/-- They are still there when the heap has grown. -/
theorem grows (hv : h.HasContents v) (hg : h.Grows h') (hc : h.Closed) (hr : h.Reaches v) :
    h'.HasContents v := by
  obtain ⟨n, c, hread⟩ := hv
  exact ⟨n, c, (hg.contents?_eq hc hr).trans hread⟩

/-- An object has contents where its slots have. -/
theorem of_slots {o : ObjectRef} (hall : ∀ w ∈ h.slotsAt o, h.HasContents w) :
    h.HasContents (.object o) := by
  cases hbox : h.box? (.object o) with
  | none => exact .of_box?_eq_none hbox
  | some x =>
    obtain ⟨_, ⟨⟩, -, rfl⟩ := box?_eq_some.1 hbox
    cases hslots : (h.instanceAt o).slots.mapM (h.contents? h.objects.size) with
    | some cs => exact ⟨_, _, by rw [contents?_of_box hbox, hslots]; rfl⟩
    | none =>
      obtain ⟨w, hw, hnone⟩ := exists_of_mapM_eq_none hslots
      obtain ⟨c, hc⟩ := (hall w hw).exists_contents
      simp [hc] at hnone

end HasContents

end Heap

end MemberAccess
