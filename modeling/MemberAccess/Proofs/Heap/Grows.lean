import Mathlib.Tactic.ByContra
import MemberAccess.Coercion
import MemberAccess.Proofs.Exec
/-!
# Heap — growing, and reading after a write

`Grows` relates a heap to one in which nothing that was there has changed:
there may be new objects, and that is all. It is a preorder, and copies stay
within it. `Keeps` is the weaker relation that writes stay within: objects
remain and keep their types. A heap is `Closed` when no reference dangles.
-/

namespace MemberAccess

namespace Heap

variable {h h₁ h₂ : Heap} {o p : ObjectRef} {v : Value}

/-! ## Objects by position -/

/-- **Whether an object is on the heap.** -/
def Has (h : Heap) (o : ObjectRef) : Prop := o.index < h.objects.size

/-- A reference to nothing reads as an empty object. -/
theorem instanceAt_of_not_has (ho : ¬ h.Has o) : h.instanceAt o = default := by
  have hle : h.objects.size ≤ o.index := Nat.le_of_not_lt ho
  simp [instanceAt, Array.getD, Nat.not_lt.2 hle]

theorem slotsAt_of_not_has (ho : ¬ h.Has o) : h.slotsAt o = [] := by
  rw [slotsAt, instanceAt_of_not_has ho]
  rfl

/-- Only objects of the heap have slots. -/
theorem has_of_mem_slotsAt (hv : v ∈ h.slotsAt o) : h.Has o := by
  by_contra hnot
  rw [slotsAt_of_not_has hnot] at hv
  cases hv

/-- Only objects of the heap are boxes. -/
theorem has_of_isValueType (ho : (h.typeAt o).isValueType = true) : h.Has o := by
  by_contra hnot
  rw [typeAt, instanceAt_of_not_has hnot] at ho
  cases ho

/-! ## Growing -/

/-- **Nothing that was there has changed.** -/
structure Grows (h h' : Heap) : Prop where
  size_le : h.objects.size ≤ h'.objects.size
  instanceAt_eq : ∀ o, h.Has o → h'.instanceAt o = h.instanceAt o
  cells_eq : h'.cells = h.cells

namespace Grows

theorem refl (h : Heap) : h.Grows h := ⟨Nat.le_refl _, fun _ _ => rfl, rfl⟩

theorem trans (h₁₂ : h.Grows h₁) (h₂₃ : h₁.Grows h₂) : h.Grows h₂ where
  size_le := Nat.le_trans h₁₂.size_le h₂₃.size_le
  instanceAt_eq o ho := by
    have ho₁ : h₁.Has o := Nat.lt_of_lt_of_le ho h₁₂.size_le
    rw [h₂₃.instanceAt_eq o ho₁, h₁₂.instanceAt_eq o ho]
  cells_eq := h₂₃.cells_eq.trans h₁₂.cells_eq

theorem has (hg : h.Grows h₁) (ho : h.Has o) : h₁.Has o := Nat.lt_of_lt_of_le ho hg.size_le

theorem typeAt_eq (hg : h.Grows h₁) (ho : h.Has o) : h₁.typeAt o = h.typeAt o :=
  congrArg Instance.type (hg.instanceAt_eq o ho)

theorem slotsAt_eq (hg : h.Grows h₁) (ho : h.Has o) : h₁.slotsAt o = h.slotsAt o :=
  congrArg Instance.slots (hg.instanceAt_eq o ho)

theorem readCell_eq (hg : h.Grows h₁) (c : CellRef) : h₁.readCell c = h.readCell c := by
  rw [readCell, readCell, hg.cells_eq]

end Grows

/-! ## New objects -/

@[simp] theorem alloc_fst (h : Heap) (x : Instance) : (h.alloc x).1 = ⟨h.objects.size⟩ := rfl

theorem instanceAt_alloc (x : Instance) :
    (h.alloc x).2.instanceAt o = if o.index = h.objects.size then x else h.instanceAt o := by
  simp only [instanceAt, alloc, Array.getD_eq_getD_getElem?, Array.getElem?_push]
  split <;> rfl

theorem size_alloc (h : Heap) (x : Instance) :
    (h.alloc x).2.objects.size = h.objects.size + 1 := Array.size_push _

/-- **A new object changes no other.** -/
theorem grows_alloc (h : Heap) (x : Instance) : h.Grows (h.alloc x).2 where
  size_le := by
    rw [size_alloc]
    exact Nat.le_succ _
  instanceAt_eq o ho := by
    rw [instanceAt_alloc, if_neg (Nat.ne_of_lt ho)]
  cells_eq := rfl

/-- What is there after an allocation was there before or is what was
allocated. -/
theorem alloc_cases {x : Instance} (ho : (h.alloc x).2.Has o) :
    h.Has o ∨ o.index = h.objects.size ∧ (h.alloc x).2.instanceAt o = x := by
  by_cases hold : h.Has o
  · exact .inl hold
  · have hle : ¬ o.index < h.objects.size := hold
    rw [Has, size_alloc] at ho
    have heq : o.index = h.objects.size := by omega
    exact .inr ⟨heq, by rw [instanceAt_alloc, if_pos heq]⟩

mutual

/-- **Laying contents out changes nothing that is there.** -/
theorem grows_place : (c : Contents) → (h : Heap) → h.Grows (c.place h).2
  | .leaf _, h => .refl h
  | .box _ cs, h => (grows_placeAll cs h).trans (grows_alloc _ _)

theorem grows_placeAll : (cs : List Contents) → (h : Heap) → h.Grows (Contents.placeAll cs h).2
  | [], h => .refl h
  | c :: cs, h => (grows_place c h).trans (grows_placeAll cs _)

end

theorem grows_detach? {v' : Value} (hd : h.detach? v = some (v', h₁)) : h.Grows h₁ := by
  obtain ⟨c, -, hplace⟩ := Option.map_eq_some_iff.1 hd
  have hg := grows_place c h
  rwa [hplace] at hg

theorem grows_detachAll? {vs vs' : List Value} (hd : h.detachAll? vs = some (vs', h₁)) :
    h.Grows h₁ := by
  induction vs generalizing h vs' with
  | nil =>
    cases hd
    exact .refl _
  | cons v vs ih =>
    simp only [detachAll?, Option.bind_eq_bind, Option.bind_eq_some_iff, Prod.exists] at hd
    obtain ⟨w, h₂, hdetach, ws, h₃, hrest, hpair⟩ := hd
    cases hpair
    exact (grows_detach? hdetach).trans (ih hrest)

/-- A new instance changes nothing that is there, nor does a zero value. -/
theorem grows_zeroed? {t : TypeDef} (hz : h.zeroed? t = some (o, h₁)) : h.Grows h₁ := by
  simp only [zeroed?, Option.bind_eq_bind, Option.bind_eq_some_iff, Prod.exists] at hz
  obtain ⟨vs, h₂, hdetach, hpair⟩ := hz
  cases hpair
  exact (grows_detachAll? hdetach).trans (grows_alloc h₂ _)

theorem grows_zeroOf? {t : TypeDef} (hz : h.zeroOf? t = some (v, h₁)) : h.Grows h₁ := by
  unfold zeroOf? at hz
  split at hz
  case h_5 =>
    simp only [Option.bind_eq_bind, Option.bind_eq_some_iff, Prod.exists] at hz
    obtain ⟨o, h₂, hz, hpair⟩ := hz
    cases hpair
    exact grows_zeroed? hz
  all_goals
    cases hz
    exact .refl _

/-! ## Written slots -/

theorem size_setSlots (h : Heap) (o : ObjectRef) (vs : List Value) :
    (h.setSlots o vs).objects.size = h.objects.size := Array.size_modify

/-- **Writing the slots of an object changes them and nothing else.** -/
theorem instanceAt_setSlots (ho : h.Has o) (vs : List Value) :
    (h.setSlots o vs).instanceAt p =
      if p = o then ⟨h.typeAt o, vs⟩ else h.instanceAt p := by
  obtain ⟨i⟩ := o
  obtain ⟨j⟩ := p
  simp only [instanceAt, setSlots, Array.getD_eq_getD_getElem?, Array.getElem?_modify]
  by_cases hij : j = i
  · subst hij
    have hlt : j < h.objects.size := ho
    simp [typeAt, instanceAt, hlt]
  · simp [hij, Ne.symm hij]

theorem store_eq_ok {i : Nat} {h' : Heap} :
    h.store o i v = .ok h' ↔
      i < (h.slotsAt o).length ∧ h' = h.setSlots o ((h.slotsAt o).set i v) := by
  unfold store
  split
  · rename_i hlt
    simp [hlt, eq_comm]
  · rename_i hle
    simp [hle]

theorem load_eq_ok {i : Nat} : h.load o i = .ok v ↔ (h.slotsAt o)[i]? = some v := by
  unfold load
  cases (h.slotsAt o)[i]? <;> simp

/-! ## Keeping objects and their types -/

/-- **Objects remain and keep their types**, whatever is written. -/
structure Keeps (h h' : Heap) : Prop where
  size_le : h.objects.size ≤ h'.objects.size
  typeAt_eq : ∀ o, h.Has o → h'.typeAt o = h.typeAt o
  cells_le : h.cells.size ≤ h'.cells.size

namespace Keeps

theorem refl (h : Heap) : h.Keeps h := ⟨Nat.le_refl _, fun _ _ => rfl, Nat.le_refl _⟩

theorem has (hk : h.Keeps h₁) (ho : h.Has o) : h₁.Has o := Nat.lt_of_lt_of_le ho hk.size_le

theorem trans (h₁₂ : h.Keeps h₁) (h₂₃ : h₁.Keeps h₂) : h.Keeps h₂ where
  size_le := Nat.le_trans h₁₂.size_le h₂₃.size_le
  typeAt_eq o ho := by rw [h₂₃.typeAt_eq o (h₁₂.has ho), h₁₂.typeAt_eq o ho]
  cells_le := Nat.le_trans h₁₂.cells_le h₂₃.cells_le

end Keeps

theorem Grows.keeps (hg : h.Grows h₁) : h.Keeps h₁ where
  size_le := hg.size_le
  typeAt_eq _ ho := hg.typeAt_eq ho
  cells_le := Nat.le_of_eq (by rw [hg.cells_eq])

theorem keeps_setSlots (h : Heap) (o : ObjectRef) (vs : List Value) :
    h.Keeps (h.setSlots o vs) where
  size_le := Nat.le_of_eq (size_setSlots h o vs).symm
  typeAt_eq p hp := by
    by_cases ho : h.Has o
    · rw [typeAt, instanceAt_setSlots ho]
      split
      · rename_i heq
        rw [heq]
      · rfl
    · obtain ⟨i⟩ := o
      have hlt : ¬ i < h.objects.size := ho
      have hsame : (h.setSlots ⟨i⟩ vs).instanceAt p = h.instanceAt p := by
        simp only [instanceAt, setSlots, Array.getD_eq_getD_getElem?, Array.getElem?_modify]
        by_cases hp' : i = p.index
        · subst hp'
          exact absurd hp hlt
        · simp [hp']
      rw [typeAt, hsame, typeAt]
  cells_le := Nat.le_refl _

/-! ## References that do not dangle -/

/-- **Whether a value refers to nothing but objects of the heap.** -/
def Reaches (h : Heap) (v : Value) : Prop := ∀ o, v = .object o → h.Has o

/-- **No reference dangles**, in any slot or cell. -/
structure Closed (h : Heap) : Prop where
  slots : ∀ o, ∀ v ∈ h.slotsAt o, h.Reaches v
  cells : ∀ c, h.Reaches (h.readCell c)

theorem Keeps.reaches (hk : h.Keeps h₁) (hv : h.Reaches v) : h₁.Reaches v :=
  fun o ho => hk.has (hv o ho)

/-- A new object does not dangle where its slots do not. -/
theorem Closed.alloc (hc : h.Closed) {x : Instance} (hx : ∀ v ∈ x.slots, h.Reaches v) :
    (h.alloc x).2.Closed where
  slots o v hv := by
    have hg := grows_alloc h x
    rcases alloc_cases (has_of_mem_slotsAt hv) with ho | ⟨-, hnew⟩
    · rw [hg.slotsAt_eq ho] at hv
      exact hg.keeps.reaches (hc.slots o v hv)
    · rw [slotsAt, hnew] at hv
      exact hg.keeps.reaches (hx v hv)
  cells k := (grows_alloc h x).keeps.reaches (hc.cells k)

/-- A cell that is not there reads as null. -/
theorem readCell_eq_null {k : CellRef} (hk : h.cells.size ≤ k.index) : h.readCell k = .null := by
  simp [readCell, Array.getD_eq_getD_getElem?, hk]

theorem reaches_null (h : Heap) : h.Reaches .null := nofun

end Heap

namespace Exec

variable {ε α β : Type}

/-- A sequence only grows the heap when both of its parts do. -/
theorem grows_bind {x : Exec ε α} {f : α → Exec ε β} (hx : Within Heap.Grows x)
    (hf : ∀ a, Within Heap.Grows (f a)) : Within Heap.Grows (x >>= f) :=
  .bind (fun _ _ _ h₁₂ h₂₃ => h₁₂.trans h₂₃) hx hf

theorem within_detach (v : Value) : Within Heap.Grows (detach v : Exec ε Value) := by
  intro h o h' hrun
  obtain ⟨⟨v', h₁⟩, hd, hpair⟩ := Option.map_eq_some_iff.1 hrun
  cases hpair
  exact Heap.grows_detach? hd

/-- **Coercion changes nothing that is there.** -/
theorem within_castValue (v : Value) (t : TypeDef) : Within Heap.Grows (castValue v t) := by
  refine grows_bind (.ask Heap.Grows.refl _) fun ok => ?_
  cases ok with
  | false => exact .read Heap.Grows.refl _
  | true =>
    cases t.isValueType with
    | false => exact .pure Heap.Grows.refl v
    | true => exact within_detach v

end Exec

end MemberAccess
