import MemberAccess.Proofs.Catalog.Step
/-!
# Catalog — what dispatch tables are bound to

A slot is only ever bound to a method with a body (`DispatchTable.Bodied`),
whether an own method is installed in it or an interface requires it. Binding
interfaces is the last that happens to a table: it unbinds nothing, and unless
the type is abstract it ends with a binding for every method required
(`TypeDef.binds_of_bindAll`).
-/

namespace MemberAccess

namespace DispatchTable

variable {t : DispatchTable} {s s' : VirtualSlot} {m m' : Method}

/-- **Whatever a slot is bound to has a body.** -/
def Bodied (t : DispatchTable) : Prop := ∀ s m, t.find? s = some m → m.body.isSome = true

theorem Bodied.empty : Bodied {} := by
  intro s m h
  cases h

theorem Bodied.bind (h : t.Bodied) (hm : m.body.isSome = true) : (t.bind s m).Bodied := by
  intro s' n hn
  rw [find?_bind] at hn
  split at hn
  · cases hn
    exact hm
  · exact h s' n hn

theorem Bodied.redirect (h : t.Bodied) (hm : m'.body.isSome = true) :
    (t.redirect m m').Bodied := by
  intro s n hn
  rw [find?_redirect] at hn
  obtain ⟨n', hn', hn⟩ := Option.map_eq_some_iff.1 hn
  split at hn
  · exact hn ▸ hm
  · exact hn ▸ h s n' hn'

/-- Binding a slot unbinds none. -/
theorem isSome_find?_bind (h : (t.find? s').isSome = true) :
    ((t.bind s m).find? s').isSome = true := by
  rw [find?_bind]
  split
  · rfl
  · exact h

end DispatchTable

namespace TypeDef

variable {t t' : TypeDef} {m required : Method} {s : VirtualSlot}

theorem bodied_install (h : t.dispatch.Bodied) (hm : m.body.isSome = true) :
    (t.install s m).Bodied := by
  unfold install
  split
  · exact (h.redirect hm).bind hm
  · exact h.bind hm

/-- **An own method is bound if it has a body.** -/
theorem bodied_appendMethod {d : Dispatch} (h : t.dispatch.Bodied) :
    (t.appendMethod d m).dispatch.Bodied := by
  simp only [appendMethod]
  split
  · split
    · rename_i hm
      exact bodied_install h (Bool.and_eq_true_iff.1 hm).2
    · exact h
  · exact h

/-- What a method is replaced by in its slot has a body too. -/
theorem body_mostDerived (h : t.dispatch.Bodied) (hm : m.body.isSome = true) :
    (t.mostDerived m).body.isSome = true := by
  unfold mostDerived
  split
  · rename_i n hn
    obtain ⟨s, -, hs⟩ := Option.bind_eq_some_iff.1 hn
    exact h s n hs
  · exact hm

/-- What stands behind a required method has a body. -/
theorem body_of_implements {ms : List Method} (h : ms.find? (implements required) = some m) :
    m.body.isSome = true := by
  have himplements := List.find?_some h
  simp only [implements, Bool.and_eq_true] at himplements
  exact himplements.1.2

theorem body_of_implementation (h : t.dispatch.Bodied)
    (hm : t.implementation required s = .bind m) : m.body.isSome = true := by
  unfold implementation at hm
  split at hm
  · rename_i n hn
    cases hm
    exact body_mostDerived h (body_of_implements hn)
  · split at hm
    · cases hm
    · split at hm
      · rename_i n hn
        cases hm
        exact body_mostDerived h (body_of_implements hn)
      · cases hm

/-- **A type with more slots bound**, and otherwise the same. -/
structure Binds (t t' : TypeDef) : Prop where
  type_eq : t' = { t with dispatch := t'.dispatch }
  bodied : t.dispatch.Bodied → t'.dispatch.Bodied
  bound : ∀ s, (t.dispatch.find? s).isSome = true → (t'.dispatch.find? s).isSome = true

theorem Binds.refl (t : TypeDef) : t.Binds t := ⟨rfl, id, fun _ => id⟩

theorem Binds.trans {t₁ t₂ t₃ : TypeDef} (h : t₁.Binds t₂) (h' : t₂.Binds t₃) : t₁.Binds t₃ where
  type_eq := by
    rw [h'.type_eq, h.type_eq]
  bodied := h'.bodied ∘ h.bodied
  bound := fun s hs => h'.bound s (h.bound s hs)

/-- A method that is required is bound, unless the type may leave it open. -/
def Meets (required : Method) (t : TypeDef) : Prop :=
  t.declaredAbstract = false → ∀ s, required.slot = some s → (t.dispatch.find? s).isSome = true

theorem Binds.meets (h : t.Binds t') (hm : t.Meets required) : t'.Meets required := by
  intro habstract s hs
  rw [h.type_eq] at habstract
  exact h.bound s (hm habstract s hs)

/-- **Binding one required method** binds its slot, to a method with a body. -/
theorem binds_of_bindMethod {i : String} (h : bindMethod i t required = .ok t') :
    t.Binds t' ∧ t'.Meets required := by
  unfold bindMethod at h
  split at h
  · rename_i hnone
    cases h
    exact ⟨.refl t, fun _ s hs => by rw [hnone] at hs; cases hs⟩
  · rename_i s hs
    have hown : ∀ {u : TypeDef}, (u.dispatch.find? s).isSome = true → u.Meets required := by
      intro u hu _ s' hs'
      obtain rfl := Option.some.inj (hs.symm.trans hs')
      exact hu
    split at h
    · rename_i m hm
      cases h
      refine ⟨⟨rfl, fun hb => hb.bind (body_of_implementation hb hm), fun s' => ?_⟩, hown ?_⟩
      · exact DispatchTable.isSome_find?_bind
      · rw [DispatchTable.find?_bind, if_pos rfl]
        rfl
    · rename_i hkeep
      cases h
      refine ⟨.refl t, hown ?_⟩
      -- a slot is only kept that is bound already
      unfold implementation at hkeep
      split at hkeep
      · cases hkeep
      · split at hkeep
        · assumption
        · split at hkeep <;> cases hkeep
    · split at h
      · rename_i habstract
        cases h
        exact ⟨.refl t, fun hnot => by rw [habstract] at hnot; cases hnot⟩
      · cases h

theorem binds_of_bindInterface {i : TypeDef} (h : t.bindInterface i = .ok t') :
    t.Binds t' ∧ ∀ m ∈ i.methods, t'.Meets m :=
  each_of_foldlM (Q := Meets) (f := bindMethod i.name) Binds.refl (fun _ _ _ => Binds.trans)
    (fun _ _ _ => binds_of_bindMethod) (fun _ _ hb _ => hb.meets) h

/-- **Binding interfaces** ends with a binding for every method that one of
them requires, unless the type is abstract. -/
theorem binds_of_bindAll {is : List TypeDef} (ht : t.isInterface = false)
    (h : t.bindAll is = .ok t') : t.Binds t' ∧ ∀ i ∈ is, ∀ m ∈ i.methods, t'.Meets m := by
  rw [bindAll, ht, if_neg Bool.false_ne_true] at h
  exact each_of_foldlM (Q := fun i t => ∀ m ∈ i.methods, t.Meets m) (f := bindInterface)
    Binds.refl (fun _ _ _ => Binds.trans) (fun _ _ _ => binds_of_bindInterface)
    (fun _ _ hb _ hi m hm => hb.meets (hi m hm)) h

/-- Binding interfaces changes the table alone. -/
theorem type_eq_of_bindAll {is : List TypeDef} (h : t.bindAll is = .ok t') :
    t' = { t with dispatch := t'.dispatch } := by
  cases hi : t.isInterface with
  | true =>
    obtain rfl : t = t' := by simpa [bindAll, hi] using h
    rfl
  | false => exact (binds_of_bindAll hi h).1.type_eq

end TypeDef

end MemberAccess
