import MemberAccess.Exec
/-!
# Exec — laws of sequencing, renamed faults and what a computation leaves alone

A computation that faults skips the rest (`throw_bind`), and faults are
renamed part by part (`mapFault_bind`), so a body that renames the faults of
each of its instructions is one renamed computation. `Within R` says that
whatever a computation ends in, the heap it leaves is related by `R` to the
one it started on; for a preorder it passes through sequencing
(`Within.bind`), which is how frames are carried from one instruction to a
whole run. `Upholds` says the same of one heap, with an invariant to start from
and a description of the result.
-/

namespace MemberAccess

namespace Exec

variable {ε ε' α β : Type}

@[simp] theorem run_throw (e : ε) (h : Heap) : (throw e : Exec ε α).run h = some (.error e, h) :=
  rfl

@[simp] theorem run_ofExcept (x : Except ε α) (h : Heap) : (ofExcept x).run h = some (x, h) := rfl

@[simp] theorem run_read (f : Heap → Except ε α) (h : Heap) : (read f).run h = some (f h, h) := rfl

@[simp] theorem run_ask (f : Heap → α) (h : Heap) :
    (ask f : Exec ε α).run h = some (.ok (f h), h) := rfl

@[simp] theorem run_alloc? (f : Heap → Option (α × Heap)) (h : Heap) :
    (alloc? f : Exec ε α).run h = (f h).map fun p => (.ok p.1, p.2) := rfl

@[simp] theorem run_alloc (f : Heap → α × Heap) (h : Heap) :
    (alloc f : Exec ε α).run h = some (.ok (f h).1, (f h).2) := rfl

theorem run_change (f : Heap → Except ε Heap) (h : Heap) :
    (change f).run h =
      match f h with
      | .ok h => some (.ok (), h)
      | .error e => some (.error e, h) := rfl

theorem run_mapFault (f : ε → ε') (x : Exec ε α) (h : Heap) :
    (mapFault f x).run h =
      match x.run h with
      | some (.ok a, h) => some (.ok a, h)
      | some (.error e, h) => some (.error (f e), h)
      | none => none := rfl

/-- Two computations that run alike are the same. -/
theorem ext_run {x y : Exec ε α} (hxy : ∀ h, x.run h = y.run h) : x = y := funext hxy

@[simp] theorem ofExcept_ok (a : α) : (ofExcept (.ok a) : Exec ε α) = pure a := rfl

@[simp] theorem ofExcept_error (e : ε) : (ofExcept (.error e) : Exec ε α) = throw e := rfl

/-- A sequence that does not depend on the heap is one of such parts. -/
theorem ofExcept_bind (x : Except ε α) (f : α → Except ε β) :
    ofExcept (x >>= f) = ofExcept x >>= fun a => ofExcept (f a) := by
  cases x <;> rfl

/-- **A fault skips the rest.** -/
@[simp] theorem throw_bind (e : ε) (f : α → Exec ε β) : (throw e >>= f) = throw e := rfl

@[simp] theorem map_throw (e : ε) (f : α → β) : f <$> (throw e : Exec ε α) = throw e := rfl

/-! ## Inversion -/

/-- A sequence succeeds when both parts do, one after the other. -/
theorem run_bind_eq_ok {x : Exec ε α} {f : α → Exec ε β} {h h₂ : Heap} {b : β} :
    (x >>= f).run h = some (.ok b, h₂) ↔
      ∃ a h₁, x.run h = some (.ok a, h₁) ∧ (f a).run h₁ = some (.ok b, h₂) := by
  rw [run_bind]
  rcases x.run h with _ | ⟨_ | a, h₁⟩
  · simp
  · simp
  · exact ⟨fun hf => ⟨a, h₁, rfl, hf⟩, fun ⟨a', h', hx, hf⟩ => by cases hx; exact hf⟩

/-- A sequence faults in its first part, or in its second. -/
theorem run_bind_eq_error {x : Exec ε α} {f : α → Exec ε β} {h h₂ : Heap} {e : ε} :
    (x >>= f).run h = some (.error e, h₂) ↔
      x.run h = some (.error e, h₂) ∨
        ∃ a h₁, x.run h = some (.ok a, h₁) ∧ (f a).run h₁ = some (.error e, h₂) := by
  rw [run_bind]
  rcases x.run h with _ | ⟨_ | a, h₁⟩
  · simp
  · simp
  · constructor
    · exact fun hf => .inr ⟨a, h₁, rfl, hf⟩
    · rintro (hx | ⟨a', h', hx, hf⟩)
      · cases hx
      · cases hx; exact hf

theorem run_ofExcept_eq {x out : Except ε α} {h h' : Heap} :
    (ofExcept x).run h = some (out, h') ↔ x = out ∧ h = h' := by
  simp

/-- A sequence that answers has stopped at its first part, or gone on to its
second. -/
theorem run_bind_cases {x : Exec ε α} {f : α → Exec ε β} {h h₂ : Heap} {out : Except ε β}
    (hrun : (x >>= f).run h = some (out, h₂)) :
    (∃ e, x.run h = some (.error e, h₂) ∧ out = .error e) ∨
      ∃ a h₁, x.run h = some (.ok a, h₁) ∧ (f a).run h₁ = some (out, h₂) := by
  cases out with
  | error e =>
    refine (run_bind_eq_error.1 hrun).imp_left fun hx => ?_
    exact ⟨e, hx, rfl⟩
  | ok b => exact .inr (run_bind_eq_ok.1 hrun)

/-- **Sequences run alike on a heap** when their first parts do there, and their
second parts do wherever the first may lead. -/
theorem run_bind_congr {x y : Exec ε α} {f g : α → Exec ε β} {h : Heap} (hxy : x.run h = y.run h)
    (hfg : ∀ a h₁, y.run h = some (.ok a, h₁) → (f a).run h₁ = (g a).run h₁) :
    (x >>= f).run h = (y >>= g).run h := by
  rw [run_bind, run_bind, hxy]
  rcases hy : y.run h with _ | ⟨_ | a, h₁⟩
  · rfl
  · rfl
  · exact hfg a h₁ hy

/-- Sequences agree when their second parts do after every success of the
first. -/
theorem bind_congr_ok {x : Exec ε α} {f g : α → Exec ε β}
    (hfg : ∀ h a h₁, x.run h = some (.ok a, h₁) → (f a).run h₁ = (g a).run h₁) :
    x >>= f = x >>= g :=
  ext_run fun h => run_bind_congr rfl (hfg h)

/-! ## Renamed faults -/

@[simp] theorem mapFault_pure (f : ε → ε') (a : α) : mapFault f (pure a) = pure a := rfl

@[simp] theorem mapFault_throw (f : ε → ε') (e : ε) :
    mapFault f (throw e : Exec ε α) = throw (f e) := rfl

/-- **Faults are renamed part by part.** -/
theorem mapFault_bind (f : ε → ε') (x : Exec ε α) (k : α → Exec ε β) :
    mapFault f (x >>= k) = mapFault f x >>= fun a => mapFault f (k a) := by
  refine ext_run fun h => ?_
  rw [run_mapFault, run_bind, run_bind, run_mapFault]
  rcases x.run h with _ | ⟨_ | a, h₁⟩ <;> rfl

/-- What never faults has no fault to rename. -/
theorem mapFault_alloc? (f : ε → ε') (g : Heap → Option (α × Heap)) :
    mapFault f (alloc? g : Exec ε α) = alloc? g := by
  refine ext_run fun h => ?_
  rw [run_mapFault, run_alloc?, run_alloc?]
  cases g h <;> rfl

theorem run_mapFault_eq_ok {f : ε → ε'} {x : Exec ε α} {h h' : Heap} {a : α} :
    (mapFault f x).run h = some (.ok a, h') ↔ x.run h = some (.ok a, h') := by
  rw [run_mapFault]
  rcases x.run h with _ | ⟨_ | _, _⟩ <;> simp

theorem run_mapFault_eq_error {f : ε → ε'} {x : Exec ε α} {h h' : Heap} {e' : ε'} :
    (mapFault f x).run h = some (.error e', h') ↔
      ∃ e, x.run h = some (.error e, h') ∧ f e = e' := by
  rw [run_mapFault]
  rcases x.run h with _ | ⟨e | _, _⟩
  · simp
  · constructor
    · intro he; cases he; exact ⟨e, rfl, rfl⟩
    · rintro ⟨e₁, he, rfl⟩; cases he; rfl
  · simp

theorem run_mapFault_congr {f : ε → ε'} {x y : Exec ε α} {h : Heap} (hxy : x.run h = y.run h) :
    (mapFault f x).run h = (mapFault f y).run h := by
  rw [run_mapFault, run_mapFault, hxy]

/-- Renaming faults leaves answers and the heap alone. -/
theorem run_mapFault_cases {f : ε → ε'} {x : Exec ε α} {h h' : Heap} {out : Except ε' α}
    (hrun : (mapFault f x).run h = some (out, h')) :
    ∃ out₀, x.run h = some (out₀, h') ∧ ∀ a, out = .ok a ↔ out₀ = .ok a := by
  cases out with
  | ok a => exact ⟨.ok a, run_mapFault_eq_ok.1 hrun, fun b => by simp⟩
  | error e' =>
    obtain ⟨e, he, -⟩ := run_mapFault_eq_error.1 hrun
    exact ⟨.error e, he, fun b => by simp⟩

/-! ## What a computation leaves alone -/

/-- **The heap a computation leaves is related to the one it started on**,
whether it ends in a result or in a fault. -/
def Within (R : Heap → Heap → Prop) (x : Exec ε α) : Prop :=
  ∀ h o h', x.run h = some (o, h') → R h h'

namespace Within

variable {R : Heap → Heap → Prop} {x : Exec ε α}

theorem pure (hR : ∀ h, R h h) (a : α) : Within R (Pure.pure a : Exec ε α) := by
  intro h o h' hr
  cases hr
  exact hR h

theorem throw (hR : ∀ h, R h h) (e : ε) : Within R (Exec.throw e : Exec ε α) := by
  intro h o h' hr
  cases hr
  exact hR h

theorem read (hR : ∀ h, R h h) (f : Heap → Except ε α) : Within R (Exec.read f) := by
  intro h o h' hr
  cases hr
  exact hR h

theorem ask (hR : ∀ h, R h h) (f : Heap → α) : Within R (Exec.ask f : Exec ε α) := by
  intro h o h' hr
  cases hr
  exact hR h

theorem ofExcept (hR : ∀ h, R h h) (e : Except ε α) : Within R (Exec.ofExcept e) := by
  intro h o h' hr
  cases hr
  exact hR h

/-- The second part starts where the first has stopped. -/
theorem bind (hT : ∀ h₁ h₂ h₃, R h₁ h₂ → R h₂ h₃ → R h₁ h₃) {f : α → Exec ε β} (hx : Within R x)
    (hf : ∀ a, Within R (f a)) : Within R (x >>= f) := by
  intro h o h' hr
  rw [run_bind] at hr
  rcases hxr : x.run h with _ | ⟨e | a, h₁⟩
  · simp [hxr] at hr
  · simp only [hxr, Option.some.injEq, Prod.mk.injEq] at hr
    exact hr.2 ▸ hx h _ h₁ hxr
  · rw [hxr] at hr
    exact hT h h₁ h' (hx h _ h₁ hxr) (hf a h₁ o h' hr)

theorem mapFault {f : ε → ε'} (hx : Within R x) : Within R (Exec.mapFault f x) := by
  intro h o h' hr
  rw [run_mapFault] at hr
  rcases hxr : x.run h with _ | ⟨e | a, h₁⟩
  · simp [hxr] at hr
  all_goals
    simp only [hxr, Option.some.injEq, Prod.mk.injEq] at hr
    exact hr.2 ▸ hx h _ h₁ hxr

end Within

/-! ## What a computation upholds -/

/-- **A regime**: what holds of every heap, and what leads from a heap to any
later one. -/
structure Regime where
  holds : Heap → Prop
  leads : Heap → Heap → Prop
  refl (h : Heap) : leads h h
  trans {h₁ h₂ h₃ : Heap} : leads h₁ h₂ → leads h₂ h₃ → leads h₁ h₃

/-- **A computation that upholds a regime**, whatever it ends in, and whose
results are as described on the heap that it leaves. -/
def Upholds (G : Regime) (h : Heap) (x : Exec ε α) (P : Heap → α → Prop) : Prop :=
  ∀ out h', x.run h = some (out, h') → G.holds h' ∧ G.leads h h' ∧ ∀ a, out = .ok a → P h' a

namespace Upholds

variable {G : Regime} {h : Heap} {x : Exec ε α} {P R : Heap → α → Prop}

/-- What does not touch the heap. -/
theorem of_eq (hh : G.holds h)
    (hx : ∀ out h', x.run h = some (out, h') → h' = h ∧ ∀ a, out = .ok a → P h a) :
    Upholds G h x P := by
  intro out h' hrun
  obtain ⟨rfl, hP⟩ := hx out h' hrun
  exact ⟨hh, G.refl h', hP⟩

theorem ofExcept {r : Except ε α} (hh : G.holds h) (hP : ∀ a, r = .ok a → P h a) :
    Upholds G h (Exec.ofExcept r) P := by
  refine of_eq hh fun out h' hrun => ?_
  obtain ⟨rfl, rfl⟩ := run_ofExcept_eq.1 hrun
  exact ⟨rfl, hP⟩

theorem pure {a : α} (hh : G.holds h) (hP : P h a) : Upholds G h (Pure.pure a : Exec ε α) P := by
  refine ofExcept (r := .ok a) hh fun b hb => ?_
  cases hb
  exact hP

theorem throw {e : ε} (hh : G.holds h) : Upholds G h (Exec.throw e : Exec ε α) P :=
  ofExcept (r := .error e) hh nofun

theorem read {f : Heap → Except ε α} (hh : G.holds h) (hP : ∀ a, f h = .ok a → P h a) :
    Upholds G h (Exec.read f) P := by
  refine of_eq hh fun out h' hrun => ?_
  cases hrun
  exact ⟨rfl, hP⟩

theorem ask {f : Heap → α} (hh : G.holds h) (hP : P h (f h)) :
    Upholds G h (Exec.ask f : Exec ε α) P := by
  refine of_eq hh fun out h' hrun => ?_
  cases hrun
  refine ⟨rfl, fun a ha => ?_⟩
  cases ha
  exact hP

/-- A question that may have no answer. -/
theorem ask? {f : Heap → Option α} (hh : G.holds h) (hP : ∀ a, f h = some a → P h a) :
    Upholds G h (Exec.ask? f : Exec ε α) P := by
  refine of_eq hh fun out h' hrun => ?_
  obtain ⟨a, ha, hpair⟩ := Option.map_eq_some_iff.1 hrun
  cases hpair
  refine ⟨rfl, fun b hb => ?_⟩
  cases hb
  exact hP a ha

/-- A change with a result. -/
theorem alloc? {f : Heap → Option (α × Heap)}
    (hf : ∀ a h', f h = some (a, h') → G.holds h' ∧ G.leads h h' ∧ P h' a) :
    Upholds G h (Exec.alloc? f : Exec ε α) P := by
  intro out h' hrun
  obtain ⟨⟨a, _⟩, ha, hpair⟩ := Option.map_eq_some_iff.1 hrun
  cases hpair
  obtain ⟨hholds, hleads, hP⟩ := hf a h' ha
  refine ⟨hholds, hleads, fun b hb => ?_⟩
  cases hb
  exact hP

/-- A change that always has a result. -/
theorem alloc {f : Heap → α × Heap}
    (hf : G.holds (f h).2 ∧ G.leads h (f h).2 ∧ P (f h).2 (f h).1) :
    Upholds G h (Exec.alloc f : Exec ε α) P := by
  intro out h' hrun
  cases hrun
  obtain ⟨hholds, hleads, hP⟩ := hf
  refine ⟨hholds, hleads, fun a ha => ?_⟩
  cases ha
  exact hP

/-- A change that may be refused. -/
theorem change {f : Heap → Except ε Heap} (hh : G.holds h)
    (hf : ∀ h', f h = .ok h' → G.holds h' ∧ G.leads h h') :
    Upholds G h (Exec.change f) fun _ _ => True := by
  intro out h' hrun
  rw [run_change] at hrun
  cases hfh : f h with
  | ok _ =>
    rw [hfh] at hrun
    cases hrun
    obtain ⟨hholds, hleads⟩ := hf h' hfh
    exact ⟨hholds, hleads, fun _ _ => trivial⟩
  | error e =>
    rw [hfh] at hrun
    cases hrun
    exact ⟨hh, G.refl h, nofun⟩

/-- **One computation after another.** -/
theorem bind {f : α → Exec ε β} {R : Heap → β → Prop} (hx : Upholds G h x P)
    (hf : ∀ h₁ a, G.holds h₁ → G.leads h h₁ → P h₁ a → Upholds G h₁ (f a) R) :
    Upholds G h (x >>= f) R := by
  intro out h' hrun
  rcases run_bind_cases hrun with ⟨e, hfault, rfl⟩ | ⟨a, h₁, hfirst, hrest⟩
  · obtain ⟨hholds, hleads, -⟩ := hx _ _ hfault
    exact ⟨hholds, hleads, nofun⟩
  · obtain ⟨hholds, hleads, hP⟩ := hx _ _ hfirst
    obtain ⟨hholds', hleads', hR⟩ := hf h₁ a hholds hleads (hP a rfl) out h' hrest
    exact ⟨hholds', G.trans hleads hleads', hR⟩

/-- **What does not touch the heap** leaves it as it is for what follows. -/
theorem bind_of_eq {k : α → Exec ε β} {R : Heap → β → Prop} (hh : G.holds h)
    (hx : ∀ out h', x.run h = some (out, h') → h' = h)
    (hk : ∀ a, x.run h = some (.ok a, h) → Upholds G h (k a) R) : Upholds G h (x >>= k) R := by
  intro out h' hrun
  rcases run_bind_cases hrun with ⟨e, hfault, rfl⟩ | ⟨a, h₁, hfirst, hrest⟩
  · obtain rfl := hx _ _ hfault
    exact ⟨hh, G.refl h', nofun⟩
  · obtain rfl := hx _ _ hfirst
    exact hk a hfirst out h' hrest

theorem bind_ofExcept {r : Except ε α} {k : α → Exec ε β} {R : Heap → β → Prop} (hh : G.holds h)
    (hk : ∀ a, r = .ok a → Upholds G h (k a) R) : Upholds G h (Exec.ofExcept r >>= k) R :=
  bind_of_eq hh (fun _ _ hrun => (run_ofExcept_eq.1 hrun).2.symm) fun a ha =>
    hk a (run_ofExcept_eq.1 ha).1

theorem bind_ask {f : Heap → α} {k : α → Exec ε β} {R : Heap → β → Prop}
    (hk : Upholds G h (k (f h)) R) : Upholds G h (Exec.ask f >>= k) R := hk

/-- What is read off the heap, with its faults renamed. -/
theorem bind_read {f : Heap → Except ε α} {g : ε → ε'} {k : α → Exec ε' β} {R : Heap → β → Prop}
    (hh : G.holds h) (hk : ∀ a, f h = .ok a → Upholds G h (k a) R) :
    Upholds G h (Exec.mapFault g (Exec.read f) >>= k) R := by
  refine bind_of_eq hh (fun out h' hrun => ?_) fun a ha => hk a ?_
  · obtain ⟨out₀, hread, -⟩ := run_mapFault_cases hrun
    exact (Prod.mk.inj (Option.some.inj hread)).2.symm
  · exact (Prod.mk.inj (Option.some.inj (run_mapFault_eq_ok.1 ha))).1

/-- A weaker description. -/
theorem mono (hx : Upholds G h x P) (hPR : ∀ h' a, G.leads h h' → P h' a → R h' a) :
    Upholds G h x R := by
  intro out h' hrun
  obtain ⟨hholds, hleads, hP⟩ := hx out h' hrun
  exact ⟨hholds, hleads, fun a ha => hPR h' a hleads (hP a ha)⟩

/-- Renaming faults changes nothing. -/
theorem mapFault {f : ε → ε'} (hx : Upholds G h x P) : Upholds G h (Exec.mapFault f x) P := by
  intro out h' hrun
  obtain ⟨out₀, hrun₀, hout⟩ := run_mapFault_cases hrun
  obtain ⟨hholds, hleads, hP⟩ := hx out₀ h' hrun₀
  exact ⟨hholds, hleads, fun a ha => hP a ((hout a).1 ha)⟩

end Upholds

end Exec

end MemberAccess
