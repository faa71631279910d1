import MemberAccess.Proofs.Heap.Duplicates
/-!
# Heap — equality is a partial equivalence

Two values match as numbers, as the same thing, or as boxes slot by slot
(`Heap.Matches`). Where no box nests itself equality has an answer for any two
values, and they are equal when they match (`eq?_iff_matches`).

Equality is transitive (`equal?_trans`). It looks at the kind of its left side
only, so it is symmetric where a handle tells the kind (`equal?_comm`). A box
is equal to itself whatever it holds, so that a NaN in it first shows in a
copy, which is equal to what it is a copy of exactly when there is none
(`eq?_detached_iff`).
-/

namespace MemberAccess

namespace Float64

variable {x y z : Float64}

theorem ieeeEq_comm (x y : Float64) : x.ieeeEq y = y.ieeeEq x := by
  rw [ieeeEq, ieeeEq, Bool.and_comm (!x.isNaN), Bool.and_comm x.isZero, BEq.comm (a := x)]

theorem ieeeEq_trans (hxy : x.ieeeEq y = true) (hyz : y.ieeeEq z = true) : x.ieeeEq z = true := by
  simp only [ieeeEq, Bool.and_eq_true, Bool.or_eq_true, beq_iff_eq] at hxy hyz ⊢
  obtain ⟨⟨hx, -⟩, hxy⟩ := hxy
  obtain ⟨⟨-, hz⟩, hyz⟩ := hyz
  refine ⟨⟨hx, hz⟩, ?_⟩
  rcases hxy with rfl | ⟨hx, hy⟩
  · exact hyz
  · rcases hyz with rfl | ⟨-, hz⟩
    · exact .inr ⟨hx, hy⟩
    · exact .inr ⟨hx, hz⟩

end Float64

namespace Heap

variable {h h₁ : Heap} {u v v' w : Value} {n m : Nat} {c : Contents}
  {nested : Value → Value → Option Bool}

/-! ## Symmetry -/

/-- **A handle tells the kind of a type**: objects whose types have the same
handle are boxes both or neither. -/
def Classified (h : Heap) : Prop :=
  ∀ o p, h.Has o → h.Has p → (h.typeAt o).handle = (h.typeAt p).handle →
    (h.IsBoxAt o ↔ h.IsBoxAt p)

/-- It does where all objects are of the types of one catalog. -/
theorem Typed.classified {cat : Catalog} {ids : Supply} (ht : h.Typed cat)
    (hwf : cat.WellFormed ids) : h.Classified := by
  intro o p ho hp hhandle
  rw [IsBoxAt, IsBoxAt, hwf.eq_of_handle (ht.types o ho) (ht.types p hp) hhandle]

theorem equalAll?_comm {vs ws : List Value}
    (hcomm : ∀ v ∈ vs, ∀ w ∈ ws, nested v w = nested w v) :
    equalAll? nested vs ws = equalAll? nested ws vs := by
  induction vs generalizing ws with
  | nil => cases ws <;> rfl
  | cons v vs ih =>
    cases ws with
    | nil => rfl
    | cons w ws =>
      have hrest := ih fun a ha b hb =>
        hcomm a (List.mem_cons_of_mem _ ha) b (List.mem_cons_of_mem _ hb)
      simp only [equalAll?, hcomm v List.mem_cons_self w List.mem_cons_self, hrest]

theorem equalLayer?_comm (hc : h.Closed) (hk : h.Classified) (hv : h.Reaches v) (hw : h.Reaches w)
    (hnested : ∀ a b, h.Reaches a → h.Reaches b → nested a b = nested b a) :
    h.equalLayer? nested v w = h.equalLayer? nested w v := by
  cases v with
  | float64 x => cases w <;> simp [equalLayer?, Float64.ieeeEq_comm]
  | object o =>
    cases w with
    | object p =>
      have hslots : equalAll? nested (h.slotsAt o) (h.slotsAt p) =
          equalAll? nested (h.slotsAt p) (h.slotsAt o) :=
        equalAll?_comm fun a ha b hb => hnested a b (hc.slots o a ha) (hc.slots p b hb)
      simp only [equalLayer?, hslots, eq_comm (a := o)]
      by_cases hhandle : (h.typeAt o).handle = (h.typeAt p).handle
      · have hvalue : (h.typeAt o).isValueType = (h.typeAt p).isValueType :=
          Bool.eq_iff_iff.2 (hk o p (hv o rfl) (hw p rfl) hhandle)
        rw [hhandle, hvalue]
      · simp [hhandle, Ne.symm hhandle]
    | _ => rfl
  | _ => cases w <;> simp [equalLayer?, BEq.comm]

/-- **Equality is symmetric.** -/
theorem equal?_comm (hc : h.Closed) (hk : h.Classified) (hv : h.Reaches v) (hw : h.Reaches w) :
    h.equal? n v w = h.equal? n w v := by
  induction n generalizing v w with
  | zero => exact equalLayer?_comm hc hk hv hw fun _ _ _ _ => rfl
  | succ n ih => exact equalLayer?_comm hc hk hv hw fun _ _ ha hb => ih ha hb

/-! ## Transitivity -/

/-- **Equality is transitive.** -/
theorem equal?_trans (huv : h.equal? n u v = some true) (hvw : h.equal? n v w = some true) :
    h.equal? n u w = some true := by
  induction n using Nat.strongRecOn generalizing u v w with
  | ind n ih =>
    rcases equal?_eq_true.1 huv with
      ⟨x, y, rfl, rfl, hxy⟩ | ⟨-, rfl⟩ | ⟨o, p, rfl, rfl, ho, hop, hslots⟩
    · rcases equal?_eq_true.1 hvw with ⟨_, z, ⟨⟩, rfl, hyz⟩ | ⟨-, rfl⟩ | ⟨_, _, ⟨⟩, _⟩
      · exact equal?_eq_true.2 (.inl ⟨x, z, rfl, rfl, Float64.ieeeEq_trans hxy hyz⟩)
      · exact huv
    · exact hvw
    · rcases equal?_eq_true.1 hvw with
        ⟨_, _, ⟨⟩, _⟩ | ⟨-, rfl⟩ | ⟨_, q, ⟨⟩, rfl, -, hpq, hslots'⟩
      · exact huv
      · refine equal?_eq_true.2 (.inr (.inr ⟨o, q, rfl, rfl, ho, hop.trans hpq, ?_⟩))
        refine forall₂_trans (fun a b c hab hbc => ?_) hslots hslots'
        obtain ⟨k, rfl, hab⟩ := hab
        obtain ⟨_, ⟨⟩, hbc⟩ := hbc
        exact ⟨k, rfl, ih k (Nat.lt_succ_self k) hab hbc⟩

/-! ## An answer for any two values -/

theorem exists_equalAll? {vs : List Value} (hall : ∀ v ∈ vs, ∀ w, ∃ r, nested v w = some r)
    (ws : List Value) : ∃ r, equalAll? nested vs ws = some r := by
  induction vs generalizing ws with
  | nil => cases ws <;> exact ⟨_, rfl⟩
  | cons v vs ih =>
    cases ws with
    | nil => exact ⟨_, rfl⟩
    | cons w ws =>
      obtain ⟨r, hr⟩ := hall v List.mem_cons_self w
      cases r with
      | false => exact ⟨false, by simp [equalAll?, hr]⟩
      | true =>
        obtain ⟨s, hs⟩ := ih (fun a ha => hall a (List.mem_cons_of_mem _ ha)) ws
        exact ⟨s, by simp [equalAll?, hr, hs]⟩

theorem exists_equalLayer?
    (hall : ∀ o, v = .object o → h.IsBoxAt o → ∀ a ∈ h.slotsAt o, ∀ b, ∃ r, nested a b = some r)
    (w : Value) : ∃ r, h.equalLayer? nested v w = some r := by
  cases v with
  | object o =>
    cases w with
    | object p =>
      simp only [equalLayer?]
      split
      · exact ⟨true, rfl⟩
      · split
        · rename_i hbox
          exact exists_equalAll? (hall o rfl (Bool.and_eq_true_iff.1 hbox).1) _
        · exact ⟨false, rfl⟩
    | _ => exact ⟨_, rfl⟩
  | _ => cases w <;> exact ⟨_, rfl⟩

/-- **What has contents can be compared** with anything. -/
theorem exists_equal? (hread : h.contents? n v = some c) (w : Value) :
    ∃ r, h.equal? n v w = some r := by
  induction hread using contents?_induction generalizing w with
  | leaf n v hbox =>
    have hnot := box?_eq_none.1 hbox
    cases n <;> exact exists_equalLayer? (fun o ho ho' => absurd ho' (hnot o ho)) w
  | box n o cs _ hcs ih =>
    refine exists_equalLayer? ?_ w
    rintro _ ⟨⟩ - a ha b
    obtain ⟨c, -, hread⟩ := exists_image (mapM_eq_some.1 hcs) ha
    exact ih a ha c hread b

/-! ## Values that match -/

/-- **When two values match.** -/
inductive Matches (h : Heap) : Value → Value → Prop
  /-- Numbers in floating point that are equal by IEEE rules. -/
  | float {x y : Float64} (hxy : x.ieeeEq y = true) : Matches h (.float64 x) (.float64 y)
  /-- Any other primitive or string and itself; an object and itself. -/
  | same {v : Value} (hv : ¬ ∃ x, v = .float64 x) : Matches h v v
  /-- Boxes of one type with slots that match. -/
  | box {o p : ObjectRef} (ho : h.IsBoxAt o) (hhandle : (h.typeAt o).handle = (h.typeAt p).handle)
      (hslots : List.Forall₂ (Matches h) (h.slotsAt o) (h.slotsAt p)) :
      Matches h (.object o) (.object p)

/-- What is equal matches, however deep one has looked. -/
theorem matches_of_equal? (he : h.equal? n v w = some true) : h.Matches v w := by
  induction n using Nat.strongRecOn generalizing v w with
  | ind n ih =>
    rcases equal?_eq_true.1 he with
      ⟨x, y, rfl, rfl, hxy⟩ | ⟨hv, rfl⟩ | ⟨o, p, rfl, rfl, ho, hhandle, hslots⟩
    · exact .float hxy
    · exact .same hv
    · refine .box ho hhandle (hslots.imp ?_)
      rintro a b ⟨k, rfl, hab⟩
      exact ih k (Nat.lt_succ_self k) hab

/-- What matches is equal, looked into as deep as contents are. -/
theorem equal?_of_matches (hread : h.contents? n v = some c) (hnm : n ≤ m)
    (hmatch : h.Matches v w) : h.equal? m v w = some true := by
  induction hread using contents?_induction generalizing m w with
  | leaf n v hbox =>
    cases hmatch with
    | @float x y hxy => exact equal?_eq_true.2 (.inl ⟨x, y, rfl, rfl, hxy⟩)
    | same hv => exact equal?_eq_true.2 (.inr (.inl ⟨hv, rfl⟩))
    | box ho => exact absurd ho (box?_eq_none.1 hbox _ rfl)
  | box n o cs ho hcs ih =>
    cases hmatch with
    | same hv => exact equal?_eq_true.2 (.inr (.inl ⟨hv, rfl⟩))
    | @box _ p _ hhandle hslots =>
      refine equal?_eq_true.2 (.inr (.inr ⟨o, p, rfl, rfl, ho, hhandle, ?_⟩))
      have hpairs := (List.forall₂_and_left _ _).2 ⟨fun a ha => ha, hslots⟩
      refine hpairs.imp fun a b ⟨ha, hab⟩ => ⟨m - 1, by omega, ?_⟩
      obtain ⟨c, -, hread⟩ := exists_image (mapM_eq_some.1 hcs) ha
      exact ih a ha c hread (by omega) hab

/-- **Values are equal when they match**, where no box nests itself. -/
theorem eq?_iff_matches (ha : h.Acyclic) : h.eq? v w = some true ↔ h.Matches v w := by
  obtain ⟨c, hread⟩ := (ha.hasContents v).exists_contents
  exact ⟨matches_of_equal?, equal?_of_matches hread (Nat.le_refl _)⟩

/-! ## Copies -/

/-- **What a value includes**: itself, and what the slots of a box include. -/
inductive Includes (h : Heap) : Value → Value → Prop
  | self (v : Value) : Includes h v v
  | slot {o : ObjectRef} {x w : Value} (ho : h.IsBoxAt o) (hx : x ∈ h.slotsAt o)
      (hw : Includes h x w) : Includes h (.object o) w

/-- The contents of a value that includes no NaN. -/
theorem naNFree_of_includes (hread : h.contents? n v = some c)
    (hnot : ∀ w, h.Includes v w → ¬ w.IsNaN) : c.NaNFree := by
  induction hread using contents?_induction with
  | leaf n v => exact .leaf (hnot v (.self v))
  | box n o cs ho hcs ih =>
    refine .box fun c hc => ?_
    obtain ⟨x, hx, hread⟩ := exists_partner (mapM_eq_some.1 hcs) hc
    exact ih x hx c hread fun w hw => hnot w (.slot ho hx hw)

/-- **A value that matches its duplicate includes no NaN.** New boxes are not the old
ones, so they are compared slot by slot. -/
theorem Duplicate.not_isNaN (hd : h.Duplicate h₁ v v') (hg : h.Grows h₁) (hmatch : h₁.Matches v' v)
    (hw : h.Includes v w) : ¬ w.IsNaN := by
  induction hw generalizing v' with
  | self v =>
    rintro ⟨x, rfl, hx⟩
    cases hd with
    | same =>
      cases hmatch with
      | float hxx =>
        rw [Float64.ieeeEq_self, hx] at hxx
        cases hxx
      | same hv => exact hv ⟨x, rfl⟩
  | @slot o x w ho hx _ ih =>
    cases hd with
    | same hv => exact absurd ho (box?_eq_none.1 hv o rfl)
    | box _ hnew _ hslots =>
      have hold : h.Has o := has_of_isValueType ho
      cases hmatch with
      | same => exact absurd hold hnew
      | box _ _ hslots' =>
        rw [hg.slotsAt_eq hold] at hslots'
        have hpairs : List.Forall₂ (fun a b => ∃ a', h.Duplicate h₁ a a' ∧ h₁.Matches a' b)
            (h.slotsAt o) (h.slotsAt o) :=
          forall₂_trans (fun _ a' _ hdup hab => ⟨a', hdup, hab⟩) hslots hslots'
        obtain ⟨x', hdup, hab⟩ := List.forall₂_same.1 hpairs x hx
        exact ih hdup hab

/-- **A copy is equal to what it is a copy of** exactly when that includes no
NaN. -/
theorem eq?_detached_iff (hc : h.Closed) (ha : h.Acyclic) (hv : h.Reaches v) :
    ∃ v' h', h.detach? v = some (v', h') ∧
      (h'.eq? v' v = some true ↔ ∀ w, h.Includes v w → ¬ w.IsNaN) := by
  obtain ⟨c, v', h', hread, hdetach, hplaced⟩ := (ha.hasContents v).detached hc hv
  have hg := hplaced.copies.toGrows
  refine ⟨v', h', hdetach, fun he w hw => ?_, fun hnot => ?_⟩
  · have hdup := hplaced.copies.duplicate hread hplaced.contents hplaced.fresh
    exact hdup.not_isNaN hg (matches_of_equal? he) hw
  · have hread' := (hg.contents?_eq hc hv).trans hread
    exact eq?_of_contents hplaced.contents hread' hg.size_le (naNFree_of_includes hread hnot)

/-- **Equality of values is a partial equivalence** where no box nests itself
and a handle tells the kind of a type. Any two values are equal or not, and
equal when they match: as numbers, as the same thing, or as boxes of one type
slot by slot. Equality is symmetric and transitive, only a NaN is not
equal to itself, and a copy is equal to what it is a copy of exactly when that
includes no NaN. -/
theorem eq?_partialEquivalence (hc : h.Closed) (ha : h.Acyclic) (hk : h.Classified) :
    (∀ v w, ∃ r, h.eq? v w = some r) ∧ (∀ v w, h.eq? v w = some true ↔ h.Matches v w) ∧
      (∀ v w, h.Reaches v → h.Reaches w → h.eq? v w = h.eq? w v) ∧
      (∀ u v w, h.eq? u v = some true → h.eq? v w = some true → h.eq? u w = some true) ∧
      (∀ v, h.eq? v v = some true ↔ ¬ v.IsNaN) ∧
      ∀ v, h.Reaches v → ∃ v' h', h.detach? v = some (v', h') ∧
        (h'.eq? v' v = some true ↔ ∀ w, h.Includes v w → ¬ w.IsNaN) := by
  refine ⟨fun v w => ?_, fun v w => eq?_iff_matches ha, fun v w hv hw => equal?_comm hc hk hv hw,
    fun u v w => equal?_trans, fun v => equal?_self, fun v hv => eq?_detached_iff hc ha hv⟩
  obtain ⟨c, hread⟩ := (ha.hasContents v).exists_contents
  exact exists_equal? hread w

end Heap

namespace Sample

theorem sketch_classified : sketch.Classified := by
  intro o p ho hp hhandle
  rcases has_sketch ho with rfl | rfl | rfl <;> rcases has_sketch hp with rfl | rfl | rfl <;>
    first | exact .rfl | cases hhandle

/-- The stroke is equal to itself but not to a copy of it, whose width differs
from its own. A copy of the point is equal to the point. -/
theorem eq?_partialEquivalence_sketch : sketch.eq? (.object ⟨2⟩) (.object ⟨2⟩) = some true ∧
    (∃ h', sketch.detach? (.object ⟨2⟩) = some (.object ⟨5⟩, h') ∧
      h'.eq? (.object ⟨5⟩) (.object ⟨2⟩) ≠ some true) ∧
    ∃ h', sketch.detach? (.object ⟨0⟩) = some (.object ⟨3⟩, h') ∧
      h'.eq? (.object ⟨3⟩) (.object ⟨0⟩) = some true := by
  obtain ⟨-, -, -, -, hself, hcopy⟩ :=
    Heap.eq?_partialEquivalence sketch_closed sketch_acyclic sketch_classified
  have hreach : ∀ i < 3, sketch.Reaches (.object ⟨i⟩) := by
    rintro i hi _ ⟨⟩
    exact hi
  refine ⟨(hself _).2 nofun, ?_, ?_⟩
  · obtain ⟨_, h', hdetach, hiff⟩ := hcopy _ (hreach 2 (by decide))
    cases hdetach
    refine ⟨_, rfl, fun he => ?_⟩
    refine hiff.1 he (.float64 ⟨0x7FF8000000000000⟩) (.slot rfl ?_ (.self _)) ⟨_, rfl, by decide⟩
    decide
  · obtain ⟨_, h', hdetach, hiff⟩ := hcopy _ (hreach 0 (by decide))
    cases hdetach
    refine ⟨_, rfl, hiff.2 fun w hw => ?_⟩
    cases hw with
    | self => exact nofun
    | slot _ hx hw =>
      cases List.mem_singleton.1 hx
      cases hw
      exact nofun

end Sample

end MemberAccess
