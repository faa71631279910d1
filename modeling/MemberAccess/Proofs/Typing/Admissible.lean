import MemberAccess.Proofs.Accessor.Factory
import MemberAccess.Proofs.Catalog.Subtyping
import MemberAccess.Proofs.Heap.Depot
/-!
# Typing — what is admissible stays so

Whether a value may be stored where a type is declared is a matter of the type
of what it refers to, which neither copies nor writes change. So the judgement
that everything is admissible where it is lasts (`Catalog.Built.lasting`), and
a heap that it fits goes on fitting whatever values are coerced, handed out and
passed to factories without a body. Each of these computations is described by
one triple, `Exec.Maintains`, and triples follow one another by
`Maintains.bind`.
-/

namespace MemberAccess

/-! ## The judgement -/

/-- **A place of a type holds what is admissible there.** Of a type that the
catalog does not have nothing is said. -/
def Judgement.admissible (c : Catalog) : Judgement :=
  fun h a v => ∀ t, c.find? a = some t → h.isAdmissible v t = true

namespace Heap

variable {h h' : Heap} {v w : Value} {t : TypeDef}

/-- **What is alike is admissible alike.** -/
theorem Alike.isAdmissible_eq (hvw : h.Alike h' v w) (hk : h.Keeps h') (hv : h.Reaches v) :
    h'.isAdmissible w t = h.isAdmissible v t := by
  rcases hvw with rfl | ⟨p, q, rfl, rfl, -, -, htype⟩
  · rw [isAdmissible, isAdmissible, hk.isInstance_eq hv]
  · simp [isAdmissible, Value.isNull, isInstance, htype]

end Heap

/-- The built-in type of primitive values. -/
def Primitive.handle : Primitive → TypeHandle
  | bool => .bool
  | int32 => .int32
  | int64 => .int64
  | float64 => .float64

namespace Catalog

variable {c : Catalog} {ids : Supply} {t : TypeDef} {p : Primitive} {a : TypeHandle}

theorem eq_of_builtinKind (h : builtinKind a = .primitive p) : a = p.handle := by
  unfold builtinKind at h
  split_ifs at h <;> cases h <;> assumption

/-- **The primitive types are the built-in ones.** -/
theorem Built.handle_of_primitive (hb : c.Built ids) (ht : t ∈ c.types)
    (hp : t.kind = .primitive p) : t.handle = p.handle := by
  induction hb with
  | standard ids h =>
    have hall : ∀ t ∈ (Catalog.standard ids).1.types,
        t.kind = .primitive p → t.handle = p.handle :=
      forall_mem_standard fun _ _ _ _ _ => eq_of_builtinKind
    exact hall t ht hp
  | define hc hids hrun ih =>
    obtain ⟨u, dr, dr', hhead, hinherit, hfields, hmembers, rfl⟩ := define_eq_ok hrun
    obtain ⟨base, is, hin⟩ := inherits_of_inherit hinherit
    rcases List.mem_append.1 ht with ht | ht
    · exact ih ht
    · have hsteps := (steps_of_addFields hfields).trans (Draft.steps_of_addMembers hmembers).steps
      have hdefinable := isDefinable_of_checkHead hhead
      rw [List.mem_singleton.1 ht, (hin.extends hc.wellFormed hsteps).kind, hin.head.2.2.1] at hp
      rw [hp] at hdefinable
      cases hdefinable

/-- **The zero of a type may be stored where the type is declared.** -/
theorem Built.isAdmissible_zero (hb : c.Built ids) (ht : t ∈ c.types) {h h' : Heap} {v : Value}
    (hz : h.zeroOf? t = some (v, h')) : h'.isAdmissible v t = true := by
  unfold Heap.zeroOf? at hz
  cases hkind : t.kind with
  | primitive p =>
    have hhandle := hb.handle_of_primitive ht hkind
    cases p <;> rw [hkind] at hz <;> cases hz <;>
      simp [Heap.isAdmissible, Value.isNull, Heap.isInstance, Heap.typeOf?, hhandle,
        Primitive.handle]
  | structType =>
    simp only [hkind, Option.bind_eq_bind, Option.bind_eq_some_iff, Prod.exists] at hz
    obtain ⟨o, h₁, hz, hpair⟩ := hz
    cases hpair
    obtain ⟨vs, h₂, -, rfl, rfl⟩ := Heap.zeroed?_eq_some hz
    have htype : (h₂.alloc ⟨t, vs⟩).2.typeAt ⟨h₂.objects.size⟩ = t :=
      congrArg Instance.type (Heap.instanceAt_alloc_self h₂ _)
    simpa [Heap.isAdmissible, Value.isNull, Heap.isInstance, htype, TypeDef.isSubtypeOf] using
      hb.wellFormed.self t ht
  | void | classType | interfaceType =>
    rw [hkind] at hz
    cases hz
    simp [Heap.isAdmissible, Value.isNull, TypeDef.acceptsNull, TypeDef.isValueType, hkind,
      TypeKind.isValueType]

variable {h : Heap} {v : Value} {u : TypeDef} {b : TypeHandle}

/-- An instance of a type is one of every type that it may go to, if its own
type is of the catalog. -/
theorem Built.isInstance_of_isAssignable (hb : c.Built ids)
    (hregistered : ∀ o, v = .object o → h.typeAt o ∈ c.types) (hto : c.isAssignable a b = true)
    (hv : h.isInstance v b = true) : h.isInstance v a = true := by
  have hne : v ≠ .null := by
    rintro rfl
    cases hv
  obtain ⟨own, -, hown⟩ := hb.isInstance_eq h hne hregistered
  rw [hown] at hv ⊢
  exact hb.isPartialOrder.trans _ _ _ hv hto

/-- **Null goes where instances go.** -/
theorem Built.isAdmissible_of_isAssignable (hb : c.Built ids) (ht : c.find? b = some t)
    (hu : c.find? a = some u) (hto : c.isAssignable a b = true)
    (hinstance : h.isInstance v b = true → h.isInstance v a = true)
    (hv : h.isAdmissible v t = true) : h.isAdmissible v u = true := by
  obtain rfl := handle_of_find? ht
  obtain rfl := handle_of_find? hu
  have ht := List.mem_of_find?_eq_some ht
  have hu := List.mem_of_find?_eq_some hu
  unfold Heap.isAdmissible at hv ⊢
  cases hnull : v.isNull with
  | false =>
    rw [hnull, if_neg Bool.false_ne_true] at hv
    rw [if_neg Bool.false_ne_true]
    exact hinstance hv
  | true =>
    rw [hnull, if_pos rfl, TypeDef.acceptsNull] at hv
    rw [if_pos rfl, TypeDef.acceptsNull]
    -- into a value type only that type itself may go, and it does not accept null
    by_contra hvalue
    rw [hb.wellFormed.isAssignable_eq ht, TypeDef.isSubtypeOf, List.contains_iff_mem] at hto
    obtain rfl := hb.wellFormed.values u hu (by simpa using hvalue) t ht hto
    exact hvalue hv

/-- **What may be held at a type** may be held at every type that it may go to,
by a heap with objects of these types. -/
theorem Built.admissible_mono (hb : c.Built ids) (htypes : ∀ o, h.Has o → h.typeAt o ∈ c.types)
    (hr : h.Reaches v) (hto : c.isAssignable a b = true)
    (hv : Judgement.admissible c h b v) : Judgement.admissible c h a v := by
  intro u hu
  rcases isAssignable_iff.1 hto with rfl | ⟨t, ht, -⟩
  · exact hv u hu
  · refine hb.isAdmissible_of_isAssignable ht hu hto (fun hinstance => ?_) (hv t ht)
    exact hb.isInstance_of_isAssignable (fun o ho => htypes o (hr o ho)) hto hinstance

/-- **Being admissible lasts.** -/
theorem Built.lasting (hb : c.Built ids) : (Judgement.admissible c).Lasting c where
  alike hk hv halike hheld t ht := (halike.isAdmissible_eq hk hv).trans (hheld t ht)
  zero ht hz u hu := by
    obtain rfl := Option.some.inj (ht.symm.trans hu)
    exact hb.isAdmissible_zero (List.mem_of_find?_eq_some ht) hz

end Catalog

/-! ## Computations on a fitted heap -/

namespace Exec

variable {ε ε' α β : Type} {Q : Judgement} {c : Catalog} {h h' : Heap}

/-- **A computation that maintains a fitted heap**, whatever it ends in, and
whose results are as described on the heap that it leaves. -/
def Maintains (Q : Judgement) (c : Catalog) (h : Heap) (x : Exec ε α)
    (P : Heap → α → Prop) : Prop :=
  ∀ out h', x.run h = some (out, h') →
    h'.Fitted Q c c ∧ h.Keeps h' ∧ ∀ a, out = .ok a → P h' a

/-- The regime of fitted heaps. -/
def Regime.fitted (Q : Judgement) (c : Catalog) : Regime where
  holds h := h.Fitted Q c c
  leads := Heap.Keeps
  refl := .refl
  trans := .trans

namespace Maintains

variable {x : Exec ε α} {P R : Heap → α → Prop}

/-- What does not touch the heap. -/
theorem of_eq (hf : h.Fitted Q c c) (hx : ∀ out h', x.run h = some (out, h') →
    h' = h ∧ ∀ a, out = .ok a → P h a) : Maintains Q c h x P :=
  Upholds.of_eq (G := .fitted Q c) hf hx

theorem pure {a : α} (hf : h.Fitted Q c c) (hP : P h a) :
    Maintains Q c h (Pure.pure a : Exec ε α) P :=
  Upholds.pure (G := .fitted Q c) hf hP

theorem ofExcept {r : Except ε α} (hf : h.Fitted Q c c) (hP : ∀ a, r = .ok a → P h a) :
    Maintains Q c h (Exec.ofExcept r) P :=
  Upholds.ofExcept (G := .fitted Q c) hf hP

/-- **One computation after another.** -/
theorem bind {f : α → Exec ε β} {R : Heap → β → Prop} (hx : Maintains Q c h x P)
    (hf : ∀ h₁ a, h₁.Fitted Q c c → h.Keeps h₁ → P h₁ a → Maintains Q c h₁ (f a) R) :
    Maintains Q c h (x >>= f) R :=
  Upholds.bind (G := .fitted Q c) hx hf

/-- A weaker description. -/
theorem mono (hx : Maintains Q c h x P) (hPR : ∀ h' a, h.Keeps h' → P h' a → R h' a) :
    Maintains Q c h x R :=
  Upholds.mono (G := .fitted Q c) hx hPR

/-- Renaming faults changes nothing. -/
theorem mapFault {f : ε → ε'} (hx : Maintains Q c h x P) :
    Maintains Q c h (Exec.mapFault f x) P :=
  Upholds.mapFault (G := .fitted Q c) hx

/-! ### Values on their way -/

variable {v w : Value} {t : TypeDef} {ts : List TypeDef} {cf : Catalog}

/-- **A copy is like what it is a copy of.** -/
theorem detach (hf : h.Fitted Q c c) (hQ : Q.Lasting cf) (hv : h.Reaches v) :
    Maintains Q c h (Exec.detach v : Exec ε Value) fun h' w => h'.Reaches w ∧ h.Alike h' v w := by
  refine Upholds.alloc? (G := .fitted Q c) fun w h' hdetach => ?_
  obtain ⟨hf', hgrows, hreach, -⟩ := hf.detach hQ hv hdetach
  obtain ⟨-, halike⟩ := Heap.mirrors_detach? hf.closed hv hdetach
  exact ⟨hf', hgrows.keeps, hreach, halike⟩

/-- **What is handed out** may be held wherever the value may. -/
theorem handOut (hf : h.Fitted Q c c) (hQ : Q.Lasting cf) (hv : h.Reaches v) :
    Maintains Q c h (Exec.handOut t v) fun h' w => h'.Reaches w ∧ ∀ a, Q h a v → Q h' a w := by
  unfold Exec.handOut
  cases t.isValueType with
  | false => exact pure hf ⟨hv, fun _ => id⟩
  | true =>
    refine (detach hf hQ hv).mono fun h' w hk hw => ⟨hw.1, fun a hheld => ?_⟩
    exact hQ.alike hk hv hw.2 hheld

/-- **What has been coerced is admissible.** -/
theorem castValue (hf : h.Fitted Q c c) (hQ : Q.Lasting cf) (hv : h.Reaches v) :
    Maintains Q c h (Exec.castValue v t) fun h' w =>
      h'.Reaches w ∧ h'.isAdmissible w t = true := by
  cases hadmissible : h.isAdmissible v t with
  | false =>
    refine of_eq hf fun out h' hrun => ?_
    rw [run_castValue_of_not hadmissible] at hrun
    cases hrun
    exact ⟨rfl, nofun⟩
  | true =>
    have hcast : (Exec.castValue v t).run h =
        (if t.isValueType then Exec.detach v else Pure.pure v : Exec RuntimeFault Value).run h := by
      simp only [Exec.castValue, run_bind, run_ask, hadmissible, if_true]
    have hsecond : Maintains Q c h
        (if t.isValueType then Exec.detach v else Pure.pure v : Exec RuntimeFault Value)
        fun h' w => h'.Reaches w ∧ h'.isAdmissible w t = true := by
      cases t.isValueType with
      | false => exact pure hf ⟨hv, hadmissible⟩
      | true =>
        refine (detach hf hQ hv).mono fun h' w hk hw => ⟨hw.1, ?_⟩
        exact (hw.2.isAdmissible_eq hk hv).trans hadmissible
    exact fun out h' hrun => hsecond out h' (hcast ▸ hrun)

/-- The last of several types decides. -/
theorem castValues (hf : h.Fitted Q c c) (hQ : Q.Lasting cf) (hv : h.Reaches v) :
    Maintains Q c h (Exec.castValues (ts ++ [t]) v) fun h' w =>
      h'.Reaches w ∧ h'.isAdmissible w t = true := by
  induction ts generalizing v h with
  | nil =>
    rw [List.nil_append, castValues_singleton]
    exact castValue hf hQ hv
  | cons u ts ih => exact (castValue hf hQ hv).bind fun h₁ w hf₁ _ hw => ih hf₁ hw.1

/-- Arguments are coerced one after the other. -/
theorem coerceArguments {arguments : Option (List Value)} {i : Nat} (hf : h.Fitted Q c c)
    (hQ : Q.Lasting cf) (hargs : ∀ vs, arguments = some vs → ∀ v ∈ vs, h.Reaches v) :
    Maintains Q c h (Exec.coerceArguments arguments i ts) fun _ _ => True := by
  induction ts generalizing i h with
  | nil => exact pure hf trivial
  | cons t ts ih =>
    have hfetch : Maintains Q c h (Exec.ofExcept (fetchArgument arguments i))
        fun h' v => h'.Reaches v := by
      refine ofExcept hf fun v hv => ?_
      obtain ⟨vs, hvs, hmem⟩ := mem_of_fetchArgument hv
      exact hargs vs hvs v hmem
    refine hfetch.bind fun h₁ v hf₁ hk₁ hv => (castValue hf₁ hQ hv).bind fun h₂ w hf₂ hk₂ _ => ?_
    have hargs₂ : ∀ vs, arguments = some vs → ∀ v ∈ vs, h₂.Reaches v :=
      fun vs hvs v hv => (hk₁.trans hk₂).reaches (hargs vs hvs v hv)
    exact (ih hf₂ hargs₂).bind fun h₃ _ hf₃ _ _ => pure hf₃ trivial

/-! ### Factories without a body -/

variable {natives : Natives}

/-- **A new instance** as it was zeroed. -/
theorem construct {args : List Value} (hf : h.Fitted Q c c) (hQ : Q.Lasting cf)
    (ht : t ∈ c.types) (hlen : t.defaults.length = t.layout.length) :
    Maintains Q c h (Code.construct natives t none args) fun h' o => h'.Reaches (.object o) := by
  have hzeroed : Code.construct natives t none args = Exec.zeroed t := bind_pure _
  rw [hzeroed]
  refine Upholds.alloc? (G := .fitted Q c) fun o h' hz => ?_
  obtain ⟨hf', hgrows, ho⟩ := hf.zeroed hQ ht ht hlen hz
  refine ⟨hf', hgrows.keeps, fun p hp => ?_⟩
  cases hp
  exact ho

/-- **A factory of a constructor without a body.** -/
theorem newInstance {k : Constructor} {arguments : Option (List Value)} (hf : h.Fitted Q c c)
    (hQ : Q.Lasting cf) (ht : t ∈ c.types) (hlen : t.defaults.length = t.layout.length)
    (hbody : k.body = none) (hargs : ∀ vs, arguments = some vs → ∀ v ∈ vs, h.Reaches v) :
    Maintains Q c h (k.newInstance natives t ts arguments) fun h' v => h'.Reaches v := by
  unfold Constructor.newInstance
  rw [hbody]
  exact (coerceArguments hf hQ hargs).bind fun h₁ _ hf₁ _ _ =>
    (construct hf₁ hQ ht hlen).bind fun h₂ _ hf₂ _ ho => pure hf₂ ho

/-- **A default factory** where the default constructor has no body. -/
theorem newDefault (hf : h.Fitted Q c c) (hQ : Q.Lasting cf) (ht : t ∈ c.types)
    (hlen : t.defaults.length = t.layout.length)
    (hbody : t.defaultConstructor?.bind (·.body) = none) :
    Maintains Q c h (t.newDefault natives) fun h' v => h'.Reaches v := by
  unfold TypeDef.newDefault
  split
  · have hzero : Maintains Q c h (Exec.zeroOf t : Exec RuntimeFault Value)
        fun h' v => h'.Reaches v := by
      refine Upholds.alloc? (G := .fitted Q c) fun v h' hz => ?_
      obtain ⟨hf', hgrows, hv⟩ := hf.zeroOf hQ ht ht hlen hz
      exact ⟨hf', hgrows.keeps, hv⟩
    exact hzero.bind fun h₁ v hf₁ _ hv => (handOut hf₁ hQ hv).mono fun _ _ _ hw => hw.1
  · rw [hbody]
    exact (construct hf hQ ht hlen).bind fun h₂ _ hf₂ _ ho => pure hf₂ ho

end Maintains

end Exec

end MemberAccess
