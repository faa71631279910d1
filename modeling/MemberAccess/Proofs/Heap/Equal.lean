import MemberAccess.Heap.Equality
import MemberAccess.Proofs.Nesting.Knots
/-!
# Heap — values with the same contents are equal

Values are equal as numbers, as the same thing, or as boxes slot by slot
(`equal?_eq_true`). So equality looks into boxes as contents do, and two values
of which one has the contents of the other are equal, unless a NaN is among
them, which differs even from itself (`eq?_of_contents`). The contents of a
value stay as they are as long as nothing is written to the value or to a box
that it nests (`ChangesOnly.contents?_eq_of_not_ties`).
-/

namespace MemberAccess

/-- **A number is equal to itself** unless it is a NaN. -/
theorem Float64.ieeeEq_self {x : Float64} : x.ieeeEq x = true ↔ x.isNaN = false := by
  simp [ieeeEq]

/-- Whether a value is a number that differs from itself. -/
def Value.IsNaN (v : Value) : Prop := ∃ x : Float64, v = .float64 x ∧ x.isNaN = true

/-- **Contents with no NaN among them.** -/
inductive Contents.NaNFree : Contents → Prop
  | leaf {v : Value} (hv : ¬ v.IsNaN) : NaNFree (.leaf v)
  | box {t : TypeDef} {cs : List Contents} (hcs : ∀ c ∈ cs, NaNFree c) : NaNFree (.box t cs)

namespace Heap

variable {h h' : Heap} {v w : Value} {n m k : Nat} {c : Contents}
  {nested : Value → Value → Option Bool}

/-- **A value without a NaN**, in itself or in a box that it nests. -/
def NaNFree (h : Heap) (v : Value) : Prop := ∀ n c, h.contents? n v = some c → c.NaNFree

/-- Anything but a box has itself alone in it. -/
theorem naNFree_of_box?_eq_none (hv : h.box? v = none) (hnot : ¬ v.IsNaN) : h.NaNFree v := by
  intro n c hc
  rw [contents?_of_box?_eq_none hv] at hc
  cases hc
  exact .leaf hnot

/-- A value without a NaN is no NaN itself. -/
theorem NaNFree.not_isNaN (hv : h.NaNFree v) : ¬ v.IsNaN := by
  rintro ⟨x, rfl, hx⟩
  have hleaf := hv 0 (.leaf (.float64 x)) rfl
  cases hleaf with | leaf hnot =>
  exact hnot ⟨x, rfl, hx⟩

/-! ## When two values are equal -/

/-- Lists are equal when their elements are, one by one. -/
theorem equalAll?_eq_true {vs ws : List Value} :
    equalAll? nested vs ws = some true ↔
      List.Forall₂ (fun a b => nested a b = some true) vs ws := by
  induction vs generalizing ws with
  | nil => cases ws <;> simp [equalAll?]
  | cons v vs ih =>
    cases ws with
    | nil => simp [equalAll?]
    | cons w ws =>
      rw [List.forall₂_cons, ← ih]
      cases hv : nested v w with
      | none => simp [equalAll?, hv]
      | some r => cases r <;> simp [equalAll?, hv]

theorem equalLayer?_eq_true :
    h.equalLayer? nested v w = some true ↔
      (∃ x y, v = .float64 x ∧ w = .float64 y ∧ x.ieeeEq y = true) ∨
      (¬ (∃ x, v = .float64 x) ∧ v = w) ∨
      ∃ o p, v = .object o ∧ w = .object p ∧ h.IsBoxAt o ∧
        (h.typeAt o).handle = (h.typeAt p).handle ∧
        List.Forall₂ (fun a b => nested a b = some true) (h.slotsAt o) (h.slotsAt p) := by
  cases v with
  | float64 x => cases w <;> simp [equalLayer?]
  | object o =>
    cases w with
    | object p =>
      simp only [equalLayer?, IsBoxAt]
      split
      · simp_all
      · split
        · simp_all [equalAll?_eq_true]
        · simp_all
    | _ => simp [equalLayer?]
  | _ => cases w <;> simp [equalLayer?]

/-- **Two values are equal** as numbers, as the same thing, or as boxes whose
types have one handle and whose slots are equal, looked into less deep. -/
theorem equal?_eq_true :
    h.equal? n v w = some true ↔
      (∃ x y, v = .float64 x ∧ w = .float64 y ∧ x.ieeeEq y = true) ∨
      (¬ (∃ x, v = .float64 x) ∧ v = w) ∨
      ∃ o p, v = .object o ∧ w = .object p ∧ h.IsBoxAt o ∧
        (h.typeAt o).handle = (h.typeAt p).handle ∧
        List.Forall₂ (fun a b => ∃ k, n = k + 1 ∧ h.equal? k a b = some true) (h.slotsAt o)
          (h.slotsAt p) := by
  cases n with
  | zero =>
    rw [equal?, equalLayer?_eq_true]
    simp
  | succ n =>
    rw [equal?, equalLayer?_eq_true]
    simp

/-- **A value is equal to itself** unless it is a NaN. -/
theorem equal?_self : h.equal? n v v = some true ↔ ¬ v.IsNaN := by
  rw [equal?_eq_true]
  constructor
  · rintro (⟨x, y, rfl, heq, hxy⟩ | ⟨hnot, -⟩ | ⟨o, p, rfl, -⟩)
    · cases heq
      rintro ⟨_, ⟨⟩, hx⟩
      rw [Float64.ieeeEq_self, hx] at hxy
      cases hxy
    · exact fun ⟨x, hx, _⟩ => hnot ⟨x, hx⟩
    · rintro ⟨_, ⟨⟩, _⟩
  · intro hnot
    by_cases hfloat : ∃ x, v = .float64 x
    · obtain ⟨x, rfl⟩ := hfloat
      have hx : x.isNaN = false := Bool.eq_false_iff.2 fun hx => hnot ⟨x, rfl, hx⟩
      exact .inl ⟨x, x, rfl, rfl, Float64.ieeeEq_self.2 hx⟩
    · exact .inr (.inl ⟨hfloat, rfl⟩)

/-- **A value without a NaN is equal to itself.** -/
theorem NaNFree.eq?_self (hv : h.NaNFree v) (h' : Heap) : h'.eq? v v = some true :=
  equal?_self.2 hv.not_isNaN

/-- **The same contents make equal values**, looked into as deep as contents
are. -/
theorem equal?_of_contents (hv : h.contents? n v = some c) (hw : h.contents? m w = some c)
    (hnk : n ≤ k) (hc : c.NaNFree) : h.equal? k v w = some true := by
  induction hv using contents?_induction generalizing m k w with
  | leaf n v =>
    obtain ⟨-, rfl⟩ := contents?_eq_leaf.1 hw
    cases hc with | leaf hnot =>
    exact equal?_self.2 hnot
  | box n o cs ho hcs ih =>
    obtain ⟨p, m, rfl, rfl, -, htype, hcs'⟩ := contents?_eq_box.1 hw
    cases hc with | box hall =>
    refine equal?_eq_true.2 (.inr (.inr ⟨o, p, rfl, rfl, ho, by rw [htype], ?_⟩))
    refine forall₂_of_mapM hcs hcs' fun x hx y _ c hc hread hread' => ⟨k - 1, by omega, ?_⟩
    exact ih x hx c hread hread' (by omega) (hall c hc)

/-- **The same contents make equal values.** -/
theorem eq?_of_contents (hv : h.contents? n v = some c) (hw : h.contents? m w = some c)
    (hn : n ≤ h.objects.size) (hc : c.NaNFree) : h.eq? v w = some true :=
  equal?_of_contents hv hw hn hc

/-- **Contents stay** where nothing is written to the value or to a box that it
nests. -/
theorem ChangesOnly.contents?_eq_of_not_ties {L : Location → Prop} (hw : h.ChangesOnly h' L)
    (hc : h.Closed) (hv : h.Reaches v) (hL : ∀ o i, L (.slot o i) → ¬ h.Ties v o) :
    h'.contents? n v = h.contents? n v := by
  refine contents?_congr (S := h.Ties v) (fun o ho => ?_) ?_ ?_
  · exact hw.instanceAt_eq (has_of_isValueType ho.isBoxAt) fun i hi => hL o i hi ho
  · rintro o ⟨p, rfl, hbox, hpath⟩ _ hmem q rfl
    have hq := hc.slots o _ hmem q rfl
    exact ⟨hw.keeps.isBoxAt_iff hq, fun hqbox => ⟨p, rfl, hbox, hpath.tail ⟨hmem, hqbox⟩⟩⟩
  · rintro o rfl
    exact ⟨hw.keeps.isBoxAt_iff (hv o rfl), fun hbox => ⟨o, rfl, hbox, .refl⟩⟩

end Heap

end MemberAccess
