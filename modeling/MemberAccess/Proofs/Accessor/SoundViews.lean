import MemberAccess.Proofs.Accessor.Transparency
import MemberAccess.Proofs.Accessor.Views
import MemberAccess.Proofs.Typing.Admissible
/-!
# Accessor — views that are accepted do not fail

Views are checked once, on types, and accesses each time, on values. The first
check covers the second: what is admissible for a type is admissible for every
type that it may go to (`Catalog.Built.isAdmissible_mono`), so instances of an
accepted owner pass every cast of a receiver, what a getter finds is what its
view promises, and a setter whose view narrows nothing accepts all that its view
does (`Reflector.view_sound`). A view that is not accepted has no accessor,
whatever a cache holds.
-/

namespace MemberAccess

/-- **Whatever is there is an `Object`**, of whichever catalog its type is. -/
def Heap.Rooted (h : Heap) : Prop := ∀ o, h.Has o → TypeHandle.object ∈ (h.typeAt o).ancestors

/-! ## From a type to those that it may go to -/

namespace Catalog

variable {c : Catalog} {ids : Supply} {h : Heap} {t u : TypeDef} {a b : TypeHandle}
  {v : Value}

/-- **An instance of a type** is one of every type that it may go to. -/
theorem Built.isInstance_mono (hb : c.Built ids) (hs : h.Sound c) (hroot : h.Rooted)
    (ht : t ∈ c.types) (ha : c.isAssignable a t.handle = true) (hr : h.Reaches v)
    (hv : h.isInstance v t.handle = true) : h.isInstance v a = true := by
  by_cases hregistered : ∀ o, v = .object o → h.typeAt o ∈ c.types
  · exact hb.isInstance_of_isAssignable hregistered ha hv
  · -- an object that is not of this catalog is an instance of built-in types alone
    push Not at hregistered
    obtain ⟨o, rfl, hforeign⟩ := hregistered
    have hancestor : t.handle ∈ (h.typeAt o).ancestors := by
      simpa [Heap.isInstance, TypeDef.isSubtypeOf] using hv
    have hbuiltin : t.handle.isBuiltin = true := by
      by_contra hdefined
      exact hforeign (hs.types o (hr o rfl) t ht (by simpa using hdefined) hancestor)
    obtain ⟨n, b, rfl⟩ := hb.exists_builtinType ht hbuiltin
    rw [hb.wellFormed.isAssignable_eq ht, TypeDef.isSubtypeOf, List.contains_iff_mem,
      mem_ancestors_builtinType] at ha
    rw [Heap.isInstance, TypeDef.isSubtypeOf, List.contains_iff_mem]
    rcases ha with rfl | ⟨rfl, -⟩
    · rwa [handle_builtinType] at hancestor
    · exact hroot o (hr o rfl)

/-- **What is admissible for a type** is admissible for every type that it may
go to. -/
theorem Built.isAdmissible_mono (hb : c.Built ids) (hs : h.Sound c) (hroot : h.Rooted)
    (ht : c.find? b = some t) (hu : c.find? a = some u) (hto : c.isAssignable a b = true)
    (hr : h.Reaches v) (hv : h.isAdmissible v t = true) : h.isAdmissible v u = true := by
  refine hb.isAdmissible_of_isAssignable ht hu hto (fun hinstance => ?_) hv
  rw [← handle_of_find? ht] at hinstance hto
  exact hb.isInstance_mono hs hroot (List.mem_of_find?_eq_some ht) hto hr hinstance

end Catalog

/-! ## Coercions that pass -/

namespace Exec

variable {h h' : Heap} {v : Value} {t : TypeDef} {ts : List TypeDef}
  {out : Except RuntimeFault Value}

/-- What is handed out is like what was there. -/
theorem handOut_cases (hc : h.Closed) (hv : h.Reaches v)
    (hrun : (handOut t v).run h = some (out, h')) :
    ∃ w, out = .ok w ∧ h.Copies h' ∧ h'.Reaches w ∧ h.Alike h' v w := by
  rcases handOut_eq_some hrun with ⟨-, rfl, rfl⟩ | ⟨-, w, hdetach, rfl⟩
  · exact ⟨v, rfl, .refl h', hv, .inl rfl⟩
  · obtain ⟨_, -, hplaced⟩ := Heap.placed_of_detach? hc hv hdetach
    exact ⟨w, rfl, hplaced.copies, hplaced.reaches, (Heap.mirrors_detach? hc hv hdetach).2⟩

/-- **What is admissible for every type passes every coercion.** -/
theorem castValues_cases (hc : h.Closed) (hv : h.Reaches v)
    (hall : ∀ t ∈ ts, h.isAdmissible v t = true)
    (hrun : (castValues ts v).run h = some (out, h')) : ∃ w, out = .ok w := by
  induction ts generalizing v h with
  | nil =>
    cases hrun
    exact ⟨v, rfl⟩
  | cons t ts ih =>
    have hcast := run_castValue_eq_handOut (hall t List.mem_cons_self)
    rcases run_bind_cases hrun with ⟨e, hfault, rfl⟩ | ⟨w, h₁, hfirst, hrest⟩
    · obtain ⟨_, hok, -⟩ := handOut_cases hc hv (hcast ▸ hfault)
      cases hok
    · obtain ⟨_, hok, hcopies, hreach, halike⟩ := handOut_cases hc hv (hcast ▸ hfirst)
      cases hok
      refine ih (hcopies.closed hc) hreach (fun u hu => ?_) hrest
      exact (halike.isAdmissible_eq hcopies.keeps hv).trans (hall u (List.mem_cons_of_mem t hu))

end Exec

/-! ## Receivers that pass -/

namespace Registry

variable {r : Registry} {place : Place} {v : View} {value : Option TypeHandle} {s : FieldTypes}
  {h : Heap} {receiver : Value}

/-- **An instance of an owner that is accepted** is an instance of all that a
receiver is seen as. -/
theorem Sees.passes (hs : r.Sees place (some v.owner) value s) (hr : r.Built)
    (hstatic : place.isStatic = false) (howner : r.isAssignable place.declaringType v.owner = true)
    (hsound : h.Sound r.toCatalog) (hroot : h.Rooted) (hreach : h.Reaches receiver)
    (hreceiver : h.isInstance receiver v.owner = true) :
    ∀ t ∈ s.receiver, h.isInstance receiver t.handle = true := by
  obtain ⟨ids, hb⟩ := hr
  obtain ⟨d, hd, ⟨ho, hts⟩ | ⟨-, o, ho, hts⟩⟩ :=
    receiverTypes_some.1 (hs.receiverTypes_eq hstatic)
  · rw [hts]
    simpa [Catalog.handle_of_find? hd, ← ho] using hreceiver
  · have hdeclaring : h.isInstance receiver place.declaringType = true := by
      rw [← Catalog.handle_of_find? ho] at howner hreceiver
      exact hb.isInstance_mono hsound hroot (List.mem_of_find?_eq_some ho) howner hreach hreceiver
    rw [hts]
    simpa [Catalog.handle_of_find? hd, Catalog.handle_of_find? ho] using
      And.intro hreceiver hdeclaring

/-- **What a view admits that narrows nothing** is admissible for all that an
input is seen as. -/
theorem Sees.admits {owner : Option TypeHandle} {type : TypeDef} {input : Value}
    (hs : r.Sees place owner (some v.value) s) (hr : r.Built) (htype : r.find? v.value = some type)
    (hnarrow : r.isAssignable place.type v.value = true) (hsound : h.Sound r.toCatalog)
    (hroot : h.Rooted) (hreach : h.Reaches input) (hinput : h.isAdmissible input type = true) :
    ∀ t ∈ s.input, h.isAdmissible input t = true := by
  obtain ⟨ids, hb⟩ := hr
  have hown : h.isAdmissible input s.type = true :=
    hb.isAdmissible_mono hsound hroot htype hs.type hnarrow hreach hinput
  rcases inputTypes_some.1 hs.input with ⟨-, hts⟩ | ⟨-, t, ht, hts⟩
  · rw [hts]
    simpa using hown
  · obtain rfl : type = t := Option.some.inj (htype.symm.trans ht)
    rw [hts]
    simpa using And.intro hinput hown

end Registry

/-- **Every cast that the body of an accessor makes of its receiver passes.** -/
def Accessor.Passes (a : Accessor) (h : Heap) (receiver : Value) : Prop :=
  ∀ t, .castReference t ∈ a.code.ops → h.castReference receiver t = .ok receiver

namespace Field

variable {f : Field} {s : FieldTypes} {t : TypeDef} {h h' : Heap} {receiver : Value}

/-- A receiver goes on holding a field while other objects come. -/
theorem HeldBy.keeps (hheld : f.HeldBy s h receiver) (hk : h.Keeps h') (hr : h.Reaches receiver) :
    f.HeldBy s h' receiver := by
  intro hstatic
  obtain ⟨o, rfl, hholder⟩ := hheld hstatic
  obtain ⟨v, h₁, hcast, -⟩ := Exec.run_bind_eq_ok.1 hholder
  simp only [Exec.run_read, Option.some.injEq, Prod.mk.injEq] at hcast
  obtain ⟨-, hpass⟩ := Heap.castReceiver_eq_ok hcast.1
  refine ⟨o, rfl, run_holder_of_passes fun t ht => ?_⟩
  rw [hk.isInstance_eq hr]
  exact (hpass t ht).imp_right fun h => h.resolve_left nofun

theorem mem_of_castReference {ts : List TypeDef} (ht : .castReference t ∈ Op.receiverCasts ts) :
    t ∈ ts := by
  simp only [Op.receiverCasts, List.mem_cons, reduceCtorEq, false_or, List.mem_flatMap] at ht
  obtain ⟨u, hu, ht⟩ := ht
  unfold Op.receiverCheck at ht
  split at ht
  · cases ht
  · cases List.mem_singleton.1 ht
    exact hu

/-- A getter casts its receiver to the types that it is seen as. -/
theorem mem_of_getterOps (ht : .castReference t ∈ f.getterOps s) : t ∈ s.receiver := by
  have hbox : .castReference t ∉ Op.boxIfNeeded s.type := by
    unfold Op.boxIfNeeded
    split <;> simp
  unfold getterOps at ht
  cases hstorage : f.storage with
  | cell c => simp [hstorage, hbox] at ht
  | slot i =>
    simp only [hstorage, List.mem_append, List.mem_singleton, reduceCtorEq, or_false, hbox] at ht
    exact mem_of_castReference ht

/-- So does a setter. -/
theorem mem_of_setterOps (ht : .castReference t ∈ f.setterOps s) : t ∈ s.receiver := by
  have hinput : .castReference t ∉ Op.inputCasts s.input := by simp [Op.inputCasts]
  unfold setterOps at ht
  cases hstorage : f.storage with
  | cell c => simp [hstorage, hinput] at ht
  | slot i =>
    simp only [hstorage, List.mem_append, List.mem_cons, List.not_mem_nil, reduceCtorEq, or_false,
      false_or, hinput] at ht
    exact mem_of_castReference ht

end Field

namespace Registry

variable {r : Registry} {t : TypeDef} {f : Field} {v : View} {value : Option TypeHandle}
  {s : FieldTypes} {h : Heap} {receiver : Value}

/-- **An instance of an owner that is accepted** holds the field, and there is
something in it. -/
theorem Built.held_of_owner (hr : r.Built) (ht : t ∈ r.types) (hf : f ∈ t.allFields)
    (hstatic : f.isStatic = false) (hs : r.fieldTypes? f (some v.owner) value = some s)
    (howner : r.isAssignable f.declaringType v.owner = true) (hsound : h.Sound r.toCatalog)
    (hroot : h.Rooted) (hreach : h.Reaches receiver)
    (hreceiver : h.isInstance receiver v.owner = true) :
    f.HeldBy s h receiver ∧ ∃ l stored, f.location? receiver = some l ∧ h.at? l = some stored := by
  have hseen := fieldTypes?_iff_sees.1 hs
  have hpasses := hseen.passes hr hstatic howner hsound hroot hreach hreceiver
  obtain ⟨u, hu, hfu, hhandle, hbuiltin, hfind⟩ :=
    hr.elim fun ids hb => hb.wellFormed.exists_declaring ht hf
  -- the declaring type is among those that the receiver passes for
  obtain ⟨d, hd, hfind'⟩ := hseen.declaring hstatic
  obtain rfl : u = d := Option.some.inj (hfind.symm.trans hfind')
  obtain ⟨o, rfl, ho⟩ := Heap.exists_object_of_isInstance hbuiltin (hpasses u hd)
  obtain ⟨l, hl, hthere⟩ := hr.exists_location hsound hu hfu hhandle fun _ => ⟨o, rfl, ho⟩
  obtain ⟨stored, hstored⟩ := Option.isSome_iff_exists.1 hthere
  refine ⟨fun _ => ⟨o, rfl, ?_⟩, l, stored, hl, hstored⟩
  exact Field.run_holder_of_passes fun t ht => .inr (hpasses t ht)

end Registry

/-! ## Views that do not pass -/

/-- **A view that has nothing to do with a member**: its owner is neither
`Object` nor may it go to the declaring type, or its value type and that of the
member may go neither way. -/
def View.Unrelated (r : Registry) (place : Place) (v : View) : Prop :=
  v.owner ≠ .object ∧ r.isAssignable place.declaringType v.owner = false ∨
    r.isAssignable v.value place.type = false ∧ r.isAssignable place.type v.value = false

/-- Such a view has a flaw. -/
theorem View.Unrelated.flaw? {r : Registry} {place : Place} {v : View} {access : Access}
    (hv : v.Unrelated r place) : v.flaw? r place access ≠ none := by
  intro hnone
  obtain ⟨-, howner, hvalue⟩ := View.related_of_flaw? hnone
  rcases hv with ⟨hobject, hbad⟩ | ⟨hread, hwrite⟩
  · rw [hbad] at howner
    exact howner.elim hobject Bool.false_ne_true
  · rw [hread, hwrite] at hvalue
    exact hvalue.elim Bool.false_ne_true fun h => Bool.false_ne_true h.2

/-- **In any run of coherent orders** such a view is turned down. -/
theorem Coherent.refuses_unrelated {os : List Order} (h : Coherent os) (ids : Supply)
    {x : ValueMember} {v : View} {o : Order} {out : Except AccessorError Accessor}
    (hmem : (o, out) ∈ os.zip (Workshop.serve ⟨{}, ids⟩ os).1)
    (hrequest : o.request = x.getter (some v) ∨ o.request = x.setter (some v))
    (hv : v.Unrelated o.reflector.registry x.place) : ∃ e, out = .error e := by
  have hempty : Workshop.Stocked ⟨{}, ids⟩ [] := .empty ids
  have hcontents := hempty.contents_serve (fun o (ho : o ∈ os) o' (ho' : o' ∈ os) =>
    h.agrees ho ho') ids
  obtain ⟨i, hi⟩ := List.mem_iff_getElem?.1 hmem
  obtain ⟨ho, hout⟩ := List.getElem?_zip_eq_some.1 hi
  have hsame := congrArg (fun answers => answers[i]?) hcontents
  simp only [List.getElem?_map, ho, hout, Option.map_some, Option.some.injEq] at hsame
  cases out with
  | error e => exact ⟨e, rfl⟩
  | ok a =>
    -- what is answered would be answered on an empty cache, too, where it is compiled
    exfalso
    cases halone : (Workshop.answer ⟨{}, ids⟩ o).1 with
    | error e =>
      rw [halone] at hsame
      cases hsame
    | ok b =>
      have hb : o.reflector.Compiles o.request b := ⟨ids, halone⟩
      rcases hrequest with hrequest | hrequest
      · exact hv.flaw? (Reflector.flaw?_of_getter (hrequest ▸ hb))
      · exact hv.flaw? (Reflector.flaw?_of_setter (hrequest ▸ hb))

/-! ## Views that do -/

namespace Reflector

variable {r : Reflector} {t : TypeDef} {f : Field} {v : View} {a : Accessor} {h : Heap}
  {receiver : Value}

/-- **A getter of an accepted view** finds its field, and what is admissible
there comes out as admissible for the view. -/
theorem get_sound (hr : r.registry.Built) (ht : t ∈ r.registry.types) (hf : f ∈ t.allFields)
    (hstatic : f.isStatic = false) (howner : v.owner ≠ .object)
    (ha : r.Compiles (.fieldGetter (some f) (some v)) a) (hsound : h.Sound r.registry.toCatalog)
    (hroot : h.Rooted) (hreach : h.Reaches receiver)
    (hreceiver : h.isInstance receiver v.owner = true) :
    a.Passes h receiver ∧ ∃ l stored type value, f.location? receiver = some l ∧
      h.at? l = some stored ∧ r.registry.find? f.type = some type ∧
      r.registry.find? v.value = some value ∧ (h.isAdmissible stored type = true → ∀ natives,
        (∀ out h', (a.get natives receiver).run h = some (out, h') →
          ∃ w, out = .ok w ∧ h'.isAdmissible w value = true) ∧
        (h.HasContents stored → ∃ w h', (a.get natives receiver).run h = some (.ok w, h'))) := by
  obtain ⟨s, hs, hbody⟩ := unguarded_of_fieldGetter ha
  obtain ⟨s', hs', hget⟩ := get_eq_read ha
  obtain rfl : s = s' := Option.some.inj (hs.symm.trans hs')
  obtain ⟨⟨value, hvalue⟩, hassignable, hwider⟩ :=
    View.related_of_flaw? (flaw?_of_getter (x := .field f) ha)
  have hwider : r.registry.isAssignable v.value f.type = true := hwider.resolve_right nofun
  have hassignable := hassignable.resolve_left howner
  have hseen := Registry.fieldTypes?_iff_sees.1 hs
  obtain ⟨hheld, l, stored, hl, hstored⟩ :=
    hr.held_of_owner ht hf hstatic hs hassignable hsound hroot hreach hreceiver
  refine ⟨fun u hu => ?_, l, stored, s.type, value, hl, hstored, hseen.type, hvalue, ?_⟩
  · rw [hbody.ops_eq] at hu
    exact Heap.castReference_of_isInstance (hseen.passes hr hstatic hassignable hsound hroot hreach
      hreceiver u (Field.mem_of_getterOps hu))
  · intro hadmissible natives
    have hfetch := hheld.run_fetch hl hstored
    have hreaches := Heap.closed_iff.1 hsound.closed l stored hstored
    have hread : (f.read s receiver).run h = (Exec.handOut s.type stored).run h := by
      simp only [Field.read, Exec.run_bind, hfetch]
    rw [hget]
    constructor
    · intro out h' hrun
      obtain ⟨out₀, hrun₀, hout⟩ := Exec.run_mapFault_cases hrun
      rw [hread] at hrun₀
      obtain ⟨w, rfl, hcopies, -, halike⟩ := Exec.handOut_cases hsound.closed hreaches hrun₀
      refine ⟨w, (hout w).2 rfl, (halike.isAdmissible_eq hcopies.keeps hreaches).trans ?_⟩
      obtain ⟨ids, hb⟩ := hr
      exact hb.isAdmissible_mono hsound hroot hseen.type hvalue hwider hreaches hadmissible
    · intro hcontents
      obtain ⟨w, h', hcast, -⟩ :=
        Exec.run_castValue hsound.closed (fun _ => hcontents) hreaches hadmissible
      refine ⟨w, h', Exec.run_mapFault_eq_ok.2 ?_⟩
      rw [hread, ← Exec.run_castValue_eq_handOut hadmissible]
      exact hcast

/-- **A setter of an accepted view** that narrows nothing accepts what the view
does. -/
theorem set_sound (hr : r.registry.Built) (ht : t ∈ r.registry.types) (hf : f ∈ t.allFields)
    (hstatic : f.isStatic = false) (howner : v.owner ≠ .object)
    (ha : r.Compiles (.fieldSetter (some f) (some v)) a) (hsound : h.Sound r.registry.toCatalog)
    (hroot : h.Rooted) (hreach : h.Reaches receiver)
    (hreceiver : h.isInstance receiver v.owner = true) :
    a.Passes h receiver ∧ (r.registry.isAssignable f.type v.value = true →
      ∃ value, r.registry.find? v.value = some value ∧ ∀ natives input, h.Reaches input →
        h.isAdmissible input value = true →
          (∀ out h', (a.set natives receiver input).run h = some (out, h') → out = .ok ()) ∧
          (h.HasContents input →
            ∃ h', (a.set natives receiver input).run h = some (.ok (), h'))) := by
  obtain ⟨s, hs, hbody⟩ := unguarded_of_fieldSetter ha
  obtain ⟨s', hs', hset⟩ := set_eq_write ha
  obtain rfl : s = s' := Option.some.inj (hs.symm.trans hs')
  obtain ⟨⟨value, hvalue⟩, hassignable, -⟩ :=
    View.related_of_flaw? (flaw?_of_setter (x := .field f) ha)
  have hassignable := hassignable.resolve_left howner
  have hseen := Registry.fieldTypes?_iff_sees.1 hs
  obtain ⟨hheld, l, stored, hl, hstored⟩ :=
    hr.held_of_owner ht hf hstatic hs hassignable hsound hroot hreach hreceiver
  refine ⟨fun u hu => ?_,
    fun hnarrow => ⟨value, hvalue, fun natives input hinput hadmissible => ?_⟩⟩
  · rw [hbody.ops_eq] at hu
    exact Heap.castReference_of_isInstance (hseen.passes hr hstatic hassignable hsound hroot hreach
      hreceiver u (Field.mem_of_setterOps hu))
  · have hall := hseen.admits hr hvalue hnarrow hsound hroot hinput hadmissible
    -- once the input has been coerced nothing can go wrong
    have hput : ∀ w h₁, h.Grows h₁ → ∃ h', (f.put s receiver w).run h₁ = some (.ok (), h') := by
      intro w h₁ hgrows
      have hthere : (h₁.at? l).isSome = true := by
        rw [hgrows.at?_eq (by rw [hstored]; rfl), hstored]
        rfl
      obtain ⟨h', hrun, -⟩ := (hheld.keeps hgrows.keeps hreach).run_put hl hthere w
      exact ⟨h', hrun⟩
    rw [hset]
    constructor
    · intro out h' hrun
      obtain ⟨out₀, hrun₀, hout⟩ := Exec.run_mapFault_cases hrun
      refine (hout ()).2 ?_
      rcases Exec.run_bind_cases hrun₀ with ⟨e, hfault, -⟩ | ⟨w, h₁, hcast, hrest⟩
      · obtain ⟨w, hw⟩ := Exec.castValues_cases hsound.closed hinput hall hfault
        cases hw
      · obtain ⟨h₂, hrun⟩ := hput w h₁ (Exec.within_castValues _ _ _ _ _ hcast)
        cases hrest.symm.trans hrun
        rfl
    · intro hread
      obtain ⟨out, h₁, hcast⟩ := Exec.exists_run_castValues s.input hsound.closed hinput hread
      obtain ⟨w, rfl⟩ := Exec.castValues_cases hsound.closed hinput hall hcast
      obtain ⟨h', hrun⟩ := hput w h₁ (Exec.within_castValues _ _ _ _ _ hcast)
      exact ⟨h', Exec.run_mapFault_eq_ok.2 (Exec.run_bind_eq_ok.2 ⟨w, h₁, hcast, hrun⟩)⟩

/-- **Views that are accepted are sound, and others are of no use.** Through a
view with an owner other than `Object` every instance of the owner passes the
casts of a receiver; a getter hands out of what is admissible for the field
something that is admissible for the view; a setter of a view whose value type
may go to that of the field does not fail on what the view admits. An accessor
for a view that is unrelated to its member is never handed out, whatever was
asked for before. -/
theorem view_sound :
    (r.registry.Built → ∀ t ∈ r.registry.types, ∀ f ∈ t.allFields, f.isStatic = false →
      v.owner ≠ .object → ∀ h receiver, h.Sound r.registry.toCatalog → h.Rooted →
      h.Reaches receiver → h.isInstance receiver v.owner = true →
      (∀ a, r.Compiles (.fieldGetter (some f) (some v)) a → a.Passes h receiver ∧
        ∃ l stored type value, f.location? receiver = some l ∧ h.at? l = some stored ∧
          r.registry.find? f.type = some type ∧ r.registry.find? v.value = some value ∧
          (h.isAdmissible stored type = true → ∀ natives,
            (∀ out h', (a.get natives receiver).run h = some (out, h') →
              ∃ w, out = .ok w ∧ h'.isAdmissible w value = true) ∧
            (h.HasContents stored → ∃ w h', (a.get natives receiver).run h = some (.ok w, h')))) ∧
      ∀ a, r.Compiles (.fieldSetter (some f) (some v)) a → a.Passes h receiver ∧
        (r.registry.isAssignable f.type v.value = true →
          ∃ value, r.registry.find? v.value = some value ∧ ∀ natives input, h.Reaches input →
            h.isAdmissible input value = true →
              (∀ out h', (a.set natives receiver input).run h = some (out, h') → out = .ok ()) ∧
              (h.HasContents input →
                ∃ h', (a.set natives receiver input).run h = some (.ok (), h')))) ∧
    ∀ os ids, Coherent os → ∀ x o out, (o, out) ∈ os.zip (Workshop.serve ⟨{}, ids⟩ os).1 →
      o.request = ValueMember.getter x (some v) ∨ o.request = ValueMember.setter x (some v) →
      v.Unrelated o.reflector.registry x.place → ∃ e, out = .error e := by
  refine ⟨fun hr t ht f hf hstatic howner h receiver hsound hroot hreach hreceiver => ⟨?_, ?_⟩, ?_⟩
  · exact fun a ha =>
      get_sound hr ht hf hstatic howner ha hsound hroot hreach hreceiver
  · exact fun a ha =>
      set_sound hr ht hf hstatic howner ha hsound hroot hreach hreceiver
  · exact fun os ids hos x o out hmem hrequest hv => hos.refuses_unrelated ids hmem hrequest hv

end Reflector

namespace Sample

theorem desk_rooted : desk.Rooted := by
  intro o ho
  rcases has_desk ho with rfl | rfl
  · decide
  · decide

/-- The tip of a pen comes out as an object; seen as of a point it is not to be
had. -/
theorem view_sound_tip :
    (∃ a, Reflector.Compiles ⟨registry, {}⟩ (.fieldGetter (some tip) (some tipAsObject)) a ∧
      a.Passes desk (.object ⟨1⟩) ∧ ∀ natives, ∃ w h',
        (a.get natives (.object ⟨1⟩)).run desk = some (.ok w, h') ∧
        h'.isAdmissible w anyObject = true) ∧
    ∀ out, (⟨⟨registry, {}⟩, .fieldSetter (some tip) (some ⟨⟨65⟩, ⟨65⟩⟩)⟩, out) ∈
      orders.zip (Workshop.serve ⟨{}, {}⟩ orders).1 → ∃ e, out = .error e := by
  have hpen : desk.Reaches (.object ⟨1⟩) := by
    rintro p ⟨⟩
    exact Nat.one_lt_two
  constructor
  · obtain ⟨a, hget⟩ : ∃ a,
        Reflector.Compiles ⟨registry, {}⟩ (.fieldGetter (some tip) (some tipAsObject)) a :=
      ⟨_, {}, rfl⟩
    obtain ⟨hsound, -⟩ := Reflector.view_sound (r := ⟨registry, {}⟩) (v := tipAsObject)
    obtain ⟨hgetters, -⟩ := hsound registry_built pen (by decide) tip (by decide) rfl (by decide)
      desk (.object ⟨1⟩) desk_sound desk_rooted hpen (by decide)
    obtain ⟨hpasses, l, stored, type, value, hl, hstored, htype, hvalue, hrun⟩ := hgetters a hget
    have htip : tip.location? (.object ⟨1⟩) = some (.slot ⟨1⟩ 0) := rfl
    obtain rfl : l = .slot ⟨1⟩ 0 := Option.some.inj (hl.symm.trans htip)
    have hat : desk.at? (.slot ⟨1⟩ 0) = some (.object ⟨0⟩) := rfl
    obtain rfl : stored = .object ⟨0⟩ := Option.some.inj (hstored.symm.trans hat)
    have hpoint : registry.find? tip.type = some point := by decide
    obtain rfl : type = point := Option.some.inj (htype.symm.trans hpoint)
    have hobject : registry.find? tipAsObject.value = some anyObject := by decide
    obtain rfl : value = anyObject := Option.some.inj (hvalue.symm.trans hobject)
    refine ⟨a, hget, hpasses, fun natives => ?_⟩
    obtain ⟨hadmissible, hanswers⟩ := hrun (by decide) natives
    obtain ⟨w, h', hread⟩ := hanswers (desk_acyclic.hasContents _)
    obtain ⟨_, hok, hwide⟩ := hadmissible _ _ hread
    cases hok
    exact ⟨w, h', hread, hwide⟩
  · obtain ⟨-, hrefused⟩ :=
      Reflector.view_sound (r := ⟨registry, {}⟩) (v := ⟨⟨65⟩, ⟨65⟩⟩)
    intro out hmem
    exact hrefused orders {} orders_coherent (.field tip) _ out hmem (.inr rfl)
      (.inl ⟨by decide, by decide⟩)

end Sample

end MemberAccess
