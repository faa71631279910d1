import MemberAccess.Proofs.Exec
import Mathlib.Data.List.Forall2
import Mathlib.Logic.Relation
/-!
# Partial — computations that may fail, taken apart

Definitions and compilers are sequences of steps any of which may fail. A
sequence that succeeds has succeeded step by step (`bind_eq_ok`), a fold that
succeeds is a chain of its steps (`chain_of_foldlM`), and looking up a whole
list finds each of its elements (`mapM_eq_some`). What is built that way grows
by one element at a time (`forall_mem_concat`).
-/

namespace MemberAccess

variable {ε α β : Type}

/-- A sequence succeeds when both parts do. -/
theorem bind_eq_ok {x : Except ε α} {f : α → Except ε β} {b : β} :
    (x >>= f) = .ok b ↔ ∃ a, x = .ok a ∧ f a = .ok b := by
  cases x with
  | error e => simp [bind, Except.bind]
  | ok a => simp [bind, Except.bind]

theorem map_eq_ok {x : Except ε α} {f : α → β} {b : β} :
    f <$> x = .ok b ↔ ∃ a, x = .ok a ∧ f a = b := by
  cases x with
  | error e => simp [Functor.map, Except.map]
  | ok a => simp [Functor.map, Except.map]

/-- **A fold that succeeds is a chain of steps**, when each turn of it is one,
seen through a view of what is folded. -/
theorem chain_of_foldlM {γ : Type} {R : γ → γ → Prop} {f : β → α → Except ε β} (view : β → γ)
    (hf : ∀ b a b', f b a = .ok b' → Relation.ReflTransGen R (view b) (view b')) {l : List α}
    {b b' : β} (h : l.foldlM f b = .ok b') : Relation.ReflTransGen R (view b) (view b') := by
  induction l generalizing b with
  | nil =>
    cases h
    exact .refl
  | cons a l ih =>
    rw [List.foldlM_cons, bind_eq_ok] at h
    obtain ⟨b₁, hstep, hrest⟩ := h
    exact (hf b a b₁ hstep).trans (ih hrest)

/-- The same for a fold on the heap. -/
theorem Exec.chain_of_foldlM {γ : Type} {R : γ → γ → Prop} {f : β → α → Exec ε β}
    (view : β → Heap → γ)
    (hf : ∀ b a h b' h', (f b a).run h = some (.ok b', h') →
      Relation.ReflTransGen R (view b h) (view b' h'))
    {l : List α} {b b' : β} {h h' : Heap} (hrun : (l.foldlM f b).run h = some (.ok b', h')) :
    Relation.ReflTransGen R (view b h) (view b' h') := by
  induction l generalizing b h with
  | nil =>
    cases hrun
    exact .refl
  | cons a l ih =>
    rw [List.foldlM_cons, run_bind_eq_ok] at hrun
    obtain ⟨b₁, h₁, hstep, hrest⟩ := hrun
    exact (hf b a h b₁ h₁ hstep).trans (ih hrest)

/-- **A fold on the heap, however it ends**: the result has the invariant that
each turn keeps, and the heap what the invariant implies, also where a turn
has failed. -/
theorem Exec.outcome_of_foldlM {I : β → Heap → Prop} {E : Heap → Prop} {f : β → α → Exec ε β}
    {l : List α} (hE : ∀ b h, I b h → E h)
    (hf : ∀ a ∈ l, ∀ b h out h', I b h → (f b a).run h = some (out, h') →
      E h' ∧ ∀ b', out = .ok b' → I b' h')
    {b : β} {h h' : Heap} {out : Except ε β} (hI : I b h)
    (hrun : (l.foldlM f b).run h = some (out, h')) : E h' ∧ ∀ b', out = .ok b' → I b' h' := by
  induction l generalizing b h with
  | nil =>
    cases hrun
    refine ⟨hE b h' hI, fun b' hb => ?_⟩
    cases hb
    exact hI
  | cons a l ih =>
    rw [List.foldlM_cons] at hrun
    have hturn := hf a List.mem_cons_self b h
    rcases run_bind_cases hrun with ⟨e, hfails, rfl⟩ | ⟨b₁, h₁, hstep, hrest⟩
    · exact ⟨(hturn _ h' hI hfails).1, nofun⟩
    · exact ih (fun x hx => hf x (List.mem_cons_of_mem _ hx)) ((hturn _ h₁ hI hstep).2 b₁ rfl) hrest

/-- A chain keeps whatever each of its steps keeps. -/
theorem chain_invariant {R : β → β → Prop} {P : β → Prop} (hR : ∀ b b', R b b' → P b → P b')
    {b b' : β} (h : Relation.ReflTransGen R b b') (hb : P b) : P b' := by
  induction h with
  | refl => exact hb
  | tail _ hstep ih => exact hR _ _ hstep ih

/-- **A fold that succeeds has dealt with every element**, when each turn deals
with its own, keeps an invariant and undoes nothing. -/
theorem each_of_foldlM_of_invariant {P : β → Prop} {Q : α → β → Prop} {f : β → α → Except ε β}
    {l : List α}
    (hf : ∀ b, ∀ a ∈ l, ∀ b', P b → f b a = .ok b' → P b' ∧ Q a b' ∧ ∀ x, Q x b → Q x b')
    {b b' : β} (h : l.foldlM f b = .ok b') (hb : P b) :
    P b' ∧ (∀ a ∈ l, Q a b') ∧ ∀ x, Q x b → Q x b' := by
  induction l generalizing b with
  | nil =>
    cases h
    exact ⟨hb, by simp, fun _ => id⟩
  | cons a l ih =>
    rw [List.foldlM_cons, bind_eq_ok] at h
    obtain ⟨b₁, hstep, hrest⟩ := h
    obtain ⟨hb₁, hown, hkeep⟩ := hf b a List.mem_cons_self b₁ hb hstep
    obtain ⟨hb', hall, hkeep'⟩ :=
      ih (fun b x hx => hf b x (List.mem_cons_of_mem _ hx)) hrest hb₁
    refine ⟨hb', fun x hx => ?_, fun x hx => hkeep' x (hkeep x hx)⟩
    rcases List.mem_cons.1 hx with rfl | hx
    · exact hkeep' x hown
    · exact hall x hx

/-- **A fold that appends goes with its list**, when each turn keeps an
invariant and appends to a view what goes with its own element. -/
theorem forall₂_of_foldlM {γ : Type} {P : β → Prop} {R : α → γ → Prop} {f : β → α → Except ε β}
    (view : β → List γ)
    (hf : ∀ b a b', P b → f b a = .ok b' → P b' ∧ ∃ c, view b' = view b ++ [c] ∧ R a c)
    {l : List α} {b b' : β} (h : l.foldlM f b = .ok b') (hb : P b) :
    P b' ∧ ∃ cs, view b' = view b ++ cs ∧ List.Forall₂ R l cs := by
  induction l generalizing b with
  | nil =>
    cases h
    exact ⟨hb, [], by simp, .nil⟩
  | cons a l ih =>
    rw [List.foldlM_cons, bind_eq_ok] at h
    obtain ⟨b₁, hstep, hrest⟩ := h
    obtain ⟨hb₁, c, hview, hc⟩ := hf b a b₁ hb hstep
    obtain ⟨hb', cs, hviews, hcs⟩ := ih hrest hb₁
    exact ⟨hb', c :: cs, by rw [hviews, hview, List.append_assoc]; rfl, .cons hc hcs⟩

/-- The same for a fold on the heap. -/
theorem Exec.forall₂_of_foldlM {γ : Type} {I : β → Heap → Prop} {R : α → γ → Prop}
    {f : β → α → Exec ε β} (view : β → List γ)
    (hf : ∀ b a h b' h', I b h → (f b a).run h = some (.ok b', h') →
      I b' h' ∧ ∃ c, view b' = view b ++ [c] ∧ R a c)
    {l : List α} {b b' : β} {h h' : Heap} (hI : I b h)
    (hrun : (l.foldlM f b).run h = some (.ok b', h')) :
    I b' h' ∧ ∃ cs, view b' = view b ++ cs ∧ List.Forall₂ R l cs := by
  induction l generalizing b h with
  | nil =>
    cases hrun
    exact ⟨hI, [], by simp, .nil⟩
  | cons a l ih =>
    rw [List.foldlM_cons, run_bind_eq_ok] at hrun
    obtain ⟨b₁, h₁, hstep, hrest⟩ := hrun
    obtain ⟨hI₁, c, hview, hc⟩ := hf b a h b₁ h₁ hI hstep
    obtain ⟨hI', cs, hviews, hcs⟩ := ih hI₁ hrest
    exact ⟨hI', c :: cs, by rw [hviews, hview, List.append_assoc]; rfl, .cons hc hcs⟩

/-- A fold that succeeds keeps what each turn of it keeps. -/
theorem invariant_of_foldlM {P : β → Prop} {f : β → α → Except ε β} {l : List α}
    (hf : ∀ b, ∀ a ∈ l, ∀ b', P b → f b a = .ok b' → P b') {b b' : β}
    (h : l.foldlM f b = .ok b') (hb : P b) : P b' :=
  (each_of_foldlM_of_invariant (Q := fun _ _ => True)
    (fun b a ha b' hb hstep => ⟨hf b a ha b' hb hstep, trivial, fun _ => id⟩) h hb).1

/-- **A fold that succeeds has dealt with every element**, when each turn deals
with its own and no turn undoes what was there. -/
theorem each_of_foldlM {R : β → β → Prop} {Q : α → β → Prop} {f : β → α → Except ε β}
    (hrefl : ∀ b, R b b) (htrans : ∀ b₁ b₂ b₃, R b₁ b₂ → R b₂ b₃ → R b₁ b₃)
    (hf : ∀ b a b', f b a = .ok b' → R b b' ∧ Q a b')
    (hkeep : ∀ b b', R b b' → ∀ a, Q a b → Q a b') {l : List α} {b b' : β}
    (h : l.foldlM f b = .ok b') : R b b' ∧ ∀ a ∈ l, Q a b' := by
  obtain ⟨hR, hall, -⟩ := each_of_foldlM_of_invariant (P := R b) (Q := Q)
    (fun b₁ a _ b₂ hR hstep =>
      have hturn := hf b₁ a b₂ hstep
      ⟨htrans b b₁ b₂ hR hturn.1, hturn.2, hkeep b₁ b₂ hturn.1⟩) h (hrefl b)
  exact ⟨hR, hall⟩

/-- **A fold that fails fails in a turn**, on something that has the invariant
of the turns before it. -/
theorem exists_of_foldlM_eq_error {P : β → Prop} {f : β → α → Except ε β} {l : List α}
    (hf : ∀ b, ∀ a ∈ l, ∀ b', P b → f b a = .ok b' → P b') {b : β} {e : ε}
    (h : l.foldlM f b = .error e) (hb : P b) : ∃ a ∈ l, ∃ b', P b' ∧ f b' a = .error e := by
  induction l generalizing b with
  | nil => cases h
  | cons a l ih =>
    rw [List.foldlM_cons] at h
    cases hstep : f b a with
    | error e' =>
      rw [hstep] at h
      cases h
      exact ⟨a, List.mem_cons_self, b, hb, hstep⟩
    | ok b₁ =>
      rw [hstep] at h
      obtain ⟨x, hx, b', hb', hfail⟩ := ih (fun b x hx => hf b x (List.mem_cons_of_mem _ hx)) h
        (hf b a List.mem_cons_self b₁ hb hstep)
      exact ⟨x, List.mem_cons_of_mem _ hx, b', hb', hfail⟩

/-- What holds of the elements of a list and of one more holds of all of them
together. -/
theorem forall_mem_concat {P : α → Prop} {xs : List α} {a : α} (hxs : ∀ x ∈ xs, P x)
    (ha : P a) : ∀ x ∈ xs ++ [a], P x :=
  List.forall_mem_append.2 ⟨hxs, List.forall_mem_singleton.2 ha⟩

/-- An element is an old one or the one that was added. -/
theorem mem_concat_cases {xs : List α} {x a : α} (h : x ∈ xs ++ [a]) : x ∈ xs ∨ x = a :=
  (List.mem_append.1 h).imp_right List.mem_singleton.1

/-- What is in a list is still there with one element more. -/
theorem exists_mem_concat {P : α → Prop} {xs : List α} {a : α} (h : ∃ x ∈ xs, P x) :
    ∃ x ∈ xs ++ [a], P x :=
  h.imp fun _ hx => hx.imp_left (List.mem_append_left _)

/-- A prefix has its elements where the whole has them. -/
theorem getElem?_of_prefix {xs ys : List α} (h : xs <+: ys) {i : Nat} {a : α}
    (ha : xs[i]? = some a) : ys[i]? = some a := by
  obtain ⟨zs, rfl⟩ := h
  obtain ⟨hlt, -⟩ := List.getElem?_eq_some_iff.1 ha
  rw [List.getElem?_append_left hlt, ha]

/-- An element of the second list has a partner in the first. -/
theorem exists_partner {R : α → β → Prop} {xs : List α} {ys : List β} (h : List.Forall₂ R xs ys)
    {y : β} (hy : y ∈ ys) : ∃ x ∈ xs, R x y := by
  induction h with
  | nil => cases hy
  | cons hxy _ ih =>
    rcases List.mem_cons.1 hy with rfl | hy
    · exact ⟨_, List.mem_cons_self, hxy⟩
    · obtain ⟨x, hx, hr⟩ := ih hy
      exact ⟨x, List.mem_cons_of_mem _ hx, hr⟩

/-- An element of the first list has a partner in the second. -/
theorem exists_image {R : α → β → Prop} {xs : List α} {ys : List β} (h : List.Forall₂ R xs ys)
    {x : α} (hx : x ∈ xs) : ∃ y ∈ ys, R x y :=
  exists_partner h.flip hx

/-- Elements that go together are in the same place. -/
theorem exists_getElem?_of_forall₂ {R : α → β → Prop} {xs : List α} {ys : List β}
    (h : List.Forall₂ R xs ys) {i : Nat} {y : β} (hy : ys[i]? = some y) :
    ∃ x, xs[i]? = some x ∧ R x y := by
  obtain ⟨hlength, hget⟩ := List.forall₂_iff_get.1 h
  obtain ⟨hlt, rfl⟩ := List.getElem?_eq_some_iff.1 hy
  have hlt' : i < xs.length := hlength ▸ hlt
  exact ⟨xs[i], List.getElem?_eq_getElem hlt', hget i hlt' hlt⟩

/-- A list is looked up element by element. -/
theorem mapM_eq_some {f : α → Option β} {xs : List α} {ys : List β} :
    xs.mapM f = some ys ↔ List.Forall₂ (fun x y => f x = some y) xs ys := by
  induction xs generalizing ys with
  | nil => simp [List.mapM_nil, eq_comm]
  | cons x xs ih =>
    rw [List.mapM_cons, List.forall₂_cons_left_iff]
    simp only [Option.pure_def, Option.bind_eq_bind, Option.bind_eq_some_iff, Option.some.injEq]
    constructor
    · rintro ⟨y, hy, zs, hzs, rfl⟩
      exact ⟨y, zs, hy, ih.1 hzs, rfl⟩
    · rintro ⟨y, zs, hy, hzs, rfl⟩
      exact ⟨y, hy, zs, ih.2 hzs, rfl⟩

/-- Looking up a list fails when looking up one of its elements does. -/
theorem exists_of_mapM_eq_none {f : α → Option β} {xs : List α} (h : xs.mapM f = none) :
    ∃ x ∈ xs, f x = none := by
  induction xs with
  | nil => simp at h
  | cons x xs ih =>
    cases hx : f x with
    | none => exact ⟨x, List.mem_cons_self, hx⟩
    | some y =>
      cases hxs : xs.mapM f with
      | none =>
        obtain ⟨z, hz, hnone⟩ := ih hxs
        exact ⟨z, List.mem_cons_of_mem _ hz, hnone⟩
      | some ys => simp [hx, hxs] at h

/-- **Lists with the same images** go together element by element. -/
theorem forall₂_of_mapM {γ : Type} {f : α → Option γ} {g : β → Option γ} {R : α → β → Prop}
    {xs : List α} {ys : List β} {zs : List γ} (hxs : xs.mapM f = some zs)
    (hys : ys.mapM g = some zs)
    (hR : ∀ x ∈ xs, ∀ y ∈ ys, ∀ z ∈ zs, f x = some z → g y = some z → R x y) :
    List.Forall₂ R xs ys := by
  rw [mapM_eq_some] at hxs hys
  induction hxs generalizing ys with
  | nil =>
    obtain rfl := List.forall₂_nil_right_iff.1 hys
    exact .nil
  | @cons x z xs zs hx _ ih =>
    obtain ⟨y, ys, hy, hrest, rfl⟩ := List.forall₂_cons_right_iff.1 hys
    refine .cons ?_ (ih hrest fun x hx y hy z hz => ?_)
    · exact hR x List.mem_cons_self y List.mem_cons_self z List.mem_cons_self hx hy
    · exact hR x (List.mem_cons_of_mem _ hx) y (List.mem_cons_of_mem _ hy) z
        (List.mem_cons_of_mem _ hz)

/-- **Lists that go together by way of a third** go together. -/
theorem forall₂_trans {γ : Type} {R : α → β → Prop} {S : β → γ → Prop} {T : α → γ → Prop}
    {xs : List α} {ys : List β} {zs : List γ} (hT : ∀ x y z, R x y → S y z → T x z)
    (hxy : List.Forall₂ R xs ys) (hyz : List.Forall₂ S ys zs) : List.Forall₂ T xs zs := by
  induction hxy generalizing zs with
  | nil =>
    obtain rfl := List.forall₂_nil_left_iff.1 hyz
    exact .nil
  | cons hx _ ih =>
    obtain ⟨z, zs, hz, hrest, rfl⟩ := List.forall₂_cons_left_iff.1 hyz
    exact .cons (hT _ _ z hx hz) (ih hrest)

theorem mapM_congr {f g : α → Option β} {xs : List α} (h : ∀ x ∈ xs, f x = g x) :
    xs.mapM f = xs.mapM g := by
  induction xs with
  | nil => rfl
  | cons x xs ih =>
    rw [List.mapM_cons, List.mapM_cons, h x List.mem_cons_self,
      ih fun y hy => h y (List.mem_cons_of_mem _ hy)]

theorem length_of_mapM {f : α → Option β} {xs : List α} {ys : List β} (h : xs.mapM f = some ys) :
    ys.length = xs.length :=
  (mapM_eq_some.1 h).length_eq.symm

end MemberAccess
