import MemberAccess.Proofs.Accessor.ValueMembers
/-!
# Accessor — an access through a view

A view adds casts, to its owner and to its value type, and leaves out those to
`Object` and to the member's own types. Where these let the receiver and the
input pass, the access is the one without the view, but for a copy of what is
set through a struct (`View.handOver`); where they do not, it comes to an
`InvalidCast` before any body runs (`Reflector.view_refines`).
-/

namespace MemberAccess

namespace View

/-- **Whether a view lets a receiver pass**: one that is null or an instance of
the owner. Static members do not ask, and everything is an `Object`. -/
def Admits (v : View) (place : Place) (h : Heap) (receiver : Value) : Prop :=
  place.isStatic = true ∨ receiver.isNull = true ∨ v.owner = .object ∨
    h.isInstance receiver v.owner = true

/-- **What a view hands over** of an input that it admits: a copy, if its value
type is a value type other than the member's own, which copies by itself. -/
def handOver (v : View) (place : Place) (type : TypeDef) (input : Value) :
    Exec RuntimeFault Value :=
  if v.value = place.type then pure input else Exec.handOut type input

variable {v : View} {place : Place} {h h₁ : Heap} {receiver : Value}

instance : Decidable (v.Admits place h receiver) :=
  inferInstanceAs (Decidable (_ ∨ _ ∨ _ ∨ _))

/-- A view goes on letting a receiver pass while the heap grows. -/
theorem admits_iff_of_grows (hg : h.Grows h₁) (hr : h.Reaches receiver) :
    v.Admits place h₁ receiver ↔ v.Admits place h receiver := by
  unfold Admits
  rw [hg.keeps.isInstance_eq hr]

end View

/-! ## Receivers -/

namespace Heap

variable {h : Heap} {t : TypeDef} {ts : List TypeDef} {v : Value}

/-- Null passes for reference types, and is refused as null by the others. -/
theorem castReceiver_null (ts : List TypeDef) :
    h.castReceiver ts .null = .ok .null ∨ h.castReceiver ts .null = .error .nullReference := by
  induction ts with
  | nil => exact .inl rfl
  | cons t ts ih =>
    unfold castReceiver
    split
    · exact ih
    · unfold castReference
      cases t.isValueType with
      | true => exact .inr rfl
      | false => exact ih

/-- What is no instance of the first type is refused. -/
theorem castReceiver_cons_of_not (hobject : t.handle ≠ .object) (hnull : v.isNull = false)
    (hinstance : h.isInstance v t.handle = false) :
    h.castReceiver (t :: ts) v = .error (h.castFault v t.name) := by
  simp [castReceiver, hobject, castReference, hnull, hinstance, bind, Except.bind]

end Heap

namespace Place

variable {place : Place} {ts : List TypeDef} {h : Heap} {receiver : Value} {fault : RuntimeFault}

/-- Of null there is no instance member. -/
theorem run_subject_null (hs : place.isStatic = false) :
    (place.subject ts .null).run h = some (.error .nullReference, h) := by
  rw [subject, if_neg (by simp [hs])]
  rcases h.castReceiver_null ts with hcast | hcast
  · simp only [Exec.run_bind, Exec.run_read, hcast]
    rfl
  · simp only [Exec.run_bind, Exec.run_read, hcast]

theorem run_subject_of_error (hs : place.isStatic = false)
    (hcast : h.castReceiver ts receiver = .error fault) :
    (place.subject ts receiver).run h = some (.error fault, h) := by
  rw [subject, if_neg (by simp [hs])]
  simp only [Exec.run_bind, Exec.run_read, hcast]

/-- What passes alike is the same subject. -/
theorem run_subject_congr {ts' : List TypeDef}
    (hcast : h.castReceiver ts receiver = h.castReceiver ts' receiver) :
    (place.subject ts receiver).run h = (place.subject ts' receiver).run h := by
  unfold subject
  split
  · rfl
  · simp only [Exec.run_bind, Exec.run_read, hcast]

end Place

namespace Registry.Sees

variable {r : Registry} {place : Place} {v : View} {value value' : Option TypeHandle}
  {s s' : FieldTypes} {h : Heap} {receiver : Value}

/-- **A receiver that a view lets pass** is the subject that it is without the
view. -/
theorem run_subject_of_admits (hs : r.Sees place (some v.owner) value s)
    (hs' : r.Sees place none value' s') (hadmits : v.Admits place h receiver) :
    (place.subject s.receiver receiver).run h = (place.subject s'.receiver receiver).run h := by
  cases hstatic : place.isStatic with
  | true => rw [Place.subject_of_static hstatic, Place.subject_of_static hstatic]
  | false =>
    have hreceiver := hs.receiverTypes_eq hstatic
    have hreceiver' := hs'.receiverTypes_eq hstatic
    rcases hadmits with htrue | hnull | hpass
    · rw [hstatic] at htrue
      cases htrue
    · obtain rfl : receiver = .null := by cases receiver <;> simp_all [Value.isNull]
      rw [Place.run_subject_null hstatic, Place.run_subject_null hstatic]
    · obtain ⟨d, hd, hts⟩ := receiverTypes_some.1 hreceiver
      obtain ⟨d', hd', hts'⟩ := receiverTypes_none.1 hreceiver'
      obtain rfl : d = d' := Option.some.inj (hd.symm.trans hd')
      rw [hts']
      rcases hts with ⟨-, hts⟩ | ⟨-, t, ht, hts⟩
      · rw [hts]
      · rw [hts]
        refine Place.run_subject_congr (Heap.castReceiver_cons ?_)
        rw [Catalog.handle_of_find? ht]
        exact hpass

/-- **A receiver that it does not** is refused, as no instance of one type. -/
theorem exists_run_subject_of_not (hs : r.Sees place (some v.owner) value s) (receiver : Value) :
    ∃ target, ∀ h : Heap, ¬ v.Admits place h receiver →
      (place.subject s.receiver receiver).run h =
        some (.error (.invalidCast (h.typeName receiver) target), h) := by
  cases hstatic : place.isStatic with
  | true => exact ⟨"", fun h hnot => absurd (.inl hstatic) hnot⟩
  | false =>
    have hreceiver := hs.receiverTypes_eq hstatic
    -- the owner is the first type that is asked for, be it the declaring type or not
    obtain ⟨t, ts, hts, ht⟩ : ∃ t ts, s.receiver = t :: ts ∧ t.handle = v.owner := by
      obtain ⟨d, hd, ⟨ho, hts⟩ | ⟨-, t, ht, hts⟩⟩ := receiverTypes_some.1 hreceiver
      · exact ⟨d, [], hts, (Catalog.handle_of_find? hd).trans ho.symm⟩
      · exact ⟨t, [d], hts, Catalog.handle_of_find? ht⟩
    refine ⟨t.name, fun h hnot => ?_⟩
    obtain ⟨hnull, hobject, hinstance⟩ : receiver.isNull = false ∧ v.owner ≠ .object ∧
        h.isInstance receiver v.owner = false := by simpa [View.Admits, hstatic] using hnot
    rw [hts]
    rw [← ht] at hobject hinstance
    exact Place.run_subject_of_error hstatic
      (Heap.castReceiver_cons_of_not hobject hnull hinstance)

end Registry.Sees

/-! ## Inputs -/

namespace Exec

variable {h h' : Heap} {v : Value} {t : TypeDef} {ts : List TypeDef} {e : RuntimeFault}

/-- **Coercions that fail refuse a value.** -/
theorem invalidCast_of_castValues (hrun : (castValues ts v).run h = some (.error e, h')) :
    ∃ source target, e = .invalidCast source target := by
  induction ts generalizing v h with
  | nil => cases hrun
  | cons t ts ih =>
    rcases run_bind_eq_error.1 hrun with hcast | ⟨w, h₁, -, hrest⟩
    · cases hv : h.isAdmissible v t with
      | false =>
        cases (run_castValue_of_not hv).symm.trans hcast
        exact ⟨_, _, rfl⟩
      | true =>
        obtain ⟨w, hw⟩ := ok_of_castValue hv hcast
        cases hw
    · exact ih hrest

/-- **Coercions come to an end** where what they are given has contents. -/
theorem exists_run_castValues (ts : List TypeDef) (hc : h.Closed) (hr : h.Reaches v)
    (hread : h.HasContents v) : ∃ out h', (castValues ts v).run h = some (out, h') := by
  induction ts generalizing v h with
  | nil => exact ⟨.ok v, h, rfl⟩
  | cons t ts ih =>
    cases hv : h.isAdmissible v t with
    | false => exact ⟨_, h, run_bind_eq_error.2 (.inl (run_castValue_of_not hv))⟩
    | true =>
      obtain ⟨w, h₁, hcast, hcoerced⟩ := run_castValue hc (fun _ => hread) hr hv
      obtain ⟨out, h', hrest⟩ := ih (hcoerced.copies.closed hc) hcoerced.reaches
        (hcoerced.hasContents hc hr hread)
      refine ⟨out, h', ?_⟩
      rw [castValues, run_bind, hcast]
      exact hrest

end Exec

namespace Registry.Sees

variable {r : Registry} {place : Place} {v : View} {owner owner' : Option TypeHandle}
  {s s' : FieldTypes} {type : TypeDef} {h : Heap} {input : Value}

/-- **An input that a view admits** is coerced as what the view hands over. -/
theorem run_castValues (hs : r.Sees place owner (some v.value) s)
    (hs' : r.Sees place owner' none s') (htype : r.find? v.value = some type)
    (hadmissible : h.isAdmissible input type = true) :
    (Exec.castValues s.input input).run h =
      (v.handOver place type input >>= Exec.castValues s'.input).run h := by
  have hsame : s.type = s'.type := Option.some.inj (hs.type.symm.trans hs'.type)
  have hhandle : s.type.handle = place.type := Catalog.handle_of_find? hs.type
  have hplain := inputTypes_none.1 hs'.input
  unfold View.handOver
  rcases inputTypes_some.1 hs.input with ⟨hv, hts⟩ | ⟨hv, t, ht, hts⟩
  · rw [if_pos (hv.trans hhandle), pure_bind, hts, hplain, hsame]
  · obtain rfl : type = t := Option.some.inj (htype.symm.trans ht)
    rw [if_neg (hhandle ▸ hv), hts, hplain, ← hsame]
    exact Exec.run_bind_congr (Exec.run_castValue_eq_handOut hadmissible) fun _ _ _ => rfl

/-- **One that it does not** is refused. -/
theorem run_castValues_of_not (hs : r.Sees place owner (some v.value) s)
    (htype : r.find? v.value = some type) (hnot : h.isAdmissible input type = false) :
    (Exec.castValues s.input input).run h = some (.error (h.castFault input type.name), h) := by
  have hfirst : ∃ ts, s.input = type :: ts := by
    rcases inputTypes_some.1 hs.input with ⟨hv, hts⟩ | ⟨-, t, ht, hts⟩
    · have hsame : r.find? v.value = some s.type := by
        rw [hv, Catalog.handle_of_find? hs.type]
        exact hs.type
      exact ⟨[], by rw [hts, Option.some.inj (htype.symm.trans hsame)]⟩
    · exact ⟨[s.type], by rw [hts, Option.some.inj (htype.symm.trans ht)]⟩
  obtain ⟨ts, hts⟩ := hfirst
  rw [hts]
  exact Exec.run_bind_eq_error.2 (.inl (Exec.run_castValue_of_not hnot))

end Registry.Sees

/-! ## Accesses -/

namespace ValueMember

open Registry

variable {r : Registry} {x : ValueMember} {v : View} {value value' : Option TypeHandle}
  {s s' : FieldTypes} {type : TypeDef} {h : Heap} {receiver input : Value}

/-- **A read of what a view lets pass** is the read without the view. -/
theorem run_fetch_of_admits (natives : Natives) (hs : r.Sees x.place (some v.owner) value s)
    (hs' : r.Sees x.place none value' s') (hadmits : v.Admits x.place h receiver) :
    (x.fetch natives s receiver).run h = (x.fetch natives s' receiver).run h := by
  have hsame : s.type = s'.type := Option.some.inj (hs.type.symm.trans hs'.type)
  unfold fetch
  rw [hsame]
  exact Exec.run_bind_congr (hs.run_subject_of_admits hs' hadmits) fun _ _ _ => rfl

/-- **A write of what a view lets pass** is the write without the view of what
the view hands over. -/
theorem run_put_of_admits (natives : Natives) (hs : r.Sees x.place (some v.owner) (some v.value) s)
    (hs' : r.Sees x.place none none s') (htype : r.find? v.value = some type)
    (hadmits : v.Admits x.place h receiver) (hadmissible : h.isAdmissible input type = true)
    (hr : h.Reaches receiver) :
    (x.put natives s receiver input).run h =
      (v.handOver x.place type input >>= x.put natives s' receiver).run h := by
  have hcast := hs.run_castValues hs' htype hadmissible
  unfold put
  rw [← bind_assoc]
  refine Exec.run_bind_congr hcast fun w h₁ hrun => ?_
  -- coercing the input has left the receiver as it was
  rw [← hcast] at hrun
  have hgrows := Exec.within_castValues s.input input h _ h₁ hrun
  have hadmits₁ := (View.admits_iff_of_grows hgrows hr).2 hadmits
  exact Exec.run_bind_congr (hs.run_subject_of_admits hs' hadmits₁) fun _ _ _ => rfl

/-- **A write to what it does not let pass** coerces the input and then refuses
the receiver. -/
theorem run_put_of_not (hs : r.Sees x.place (some v.owner) value s)
    (hnot : ¬ v.Admits x.place h receiver) (hr : h.Reaches receiver) (input : Value) :
    ∃ target, ∀ natives, (x.put natives s receiver input).run h =
      (Exec.castValues s.input input >>= fun _ =>
        Exec.throw (.invalidCast (h.typeName receiver) target)).run h := by
  obtain ⟨target, hrefused⟩ := hs.exists_run_subject_of_not receiver
  refine ⟨target, fun natives => Exec.run_bind_congr rfl fun w h₁ hcast => ?_⟩
  -- coercing the input changes nothing about the receiver
  have hgrows := Exec.within_castValues s.input input h _ h₁ hcast
  have hnot₁ := fun hadmits => hnot ((View.admits_iff_of_grows hgrows hr).1 hadmits)
  rw [← hgrows.keeps.typeName_eq hr]
  exact Exec.run_bind_eq_error.2 (.inl (hrefused h₁ hnot₁))

end ValueMember

/-- **A setter refuses** to set a receiver to an input: no body runs, and
whenever it ends it has come to an `InvalidCast` and changed nothing that was
there. It ends where the input has contents. -/
structure Accessor.Refuses (a : Accessor) (h : Heap) (receiver input : Value) : Prop where
  bodiless : ∀ natives natives',
    (a.set natives receiver input).run h = (a.set natives' receiver input).run h
  refused : ∀ natives out h', (a.set natives receiver input).run h = some (out, h') →
    h.Grows h' ∧ ∃ source target, out = .error (.runtime (.invalidCast source target))
  ends : h.Closed → h.Reaches input → h.HasContents input → ∀ natives, ∃ out h',
    (a.set natives receiver input).run h = some (out, h')

/-- So it refuses an input with contents, whatever native bodies there are. -/
theorem Accessor.Refuses.exists_fault {a : Accessor} {h : Heap} {receiver input : Value}
    (ha : a.Refuses h receiver input) (hc : h.Closed) (hi : h.Reaches input)
    (hread : h.HasContents input) :
    ∃ source target h', h.Grows h' ∧ ∀ natives, (a.set natives receiver input).run h =
      some (.error (.runtime (.invalidCast source target)), h') := by
  obtain ⟨out, h', hrun⟩ := ha.ends hc hi hread fun _ _ => pure .null
  obtain ⟨hgrows, source, target, rfl⟩ := ha.refused _ _ _ hrun
  exact ⟨source, target, h', hgrows, fun natives => (ha.bodiless natives _).trans hrun⟩

/-- A setter refuses if it does no more than coerce its input and fail. -/
theorem Accessor.refuses_of_run_set {a : Accessor} {h : Heap} {receiver input : Value}
    {ts : List TypeDef} {source target : String}
    (hset : ∀ natives, (a.set natives receiver input).run h =
      (Exec.mapFault AccessorError.runtime (Exec.castValues ts input >>= fun _ =>
        Exec.throw (.invalidCast source target))).run h) : a.Refuses h receiver input where
  bodiless natives natives' := (hset natives).trans (hset natives').symm
  refused natives out h' hrun := by
    rw [hset] at hrun
    obtain ⟨out₀, hrun₀, -⟩ := Exec.run_mapFault_cases hrun
    have hrefused : h.Grows h' ∧ ∃ source target, out₀ = .error (.invalidCast source target) := by
      rcases Exec.run_bind_cases hrun₀ with ⟨e, hcast, rfl⟩ | ⟨w, h₁, hcast, hthrow⟩
      · obtain ⟨source, target, rfl⟩ := Exec.invalidCast_of_castValues hcast
        exact ⟨Exec.within_castValues ts input h _ h' hcast, source, target, rfl⟩
      · cases hthrow
        exact ⟨Exec.within_castValues ts input h _ h' hcast, source, target, rfl⟩
    obtain ⟨hgrows, source, target, rfl⟩ := hrefused
    cases hrun.symm.trans (Exec.run_mapFault_eq_error.2 ⟨_, hrun₀, rfl⟩)
    exact ⟨hgrows, source, target, rfl⟩
  ends hc hi hread natives := by
    obtain ⟨out, h', hcast⟩ := Exec.exists_run_castValues ts hc hi hread
    rw [hset]
    cases out with
    | error e =>
      exact ⟨_, h', Exec.run_mapFault_eq_error.2 ⟨e, Exec.run_bind_eq_error.2 (.inl hcast), rfl⟩⟩
    | ok w =>
      have hthrow := Exec.run_throw (α := Unit) (RuntimeFault.invalidCast source target) h'
      exact ⟨_, h', Exec.run_mapFault_eq_error.2
        ⟨_, Exec.run_bind_eq_error.2 (.inr ⟨w, h', hcast, hthrow⟩), rfl⟩⟩

/-! ## Views that pass -/

namespace View

variable {r : Registry} {place : Place} {v : View} {access : Access} {param : String}

theorem check_eq_ok : v.check r place access param = .ok () ↔ v.flaw? r place access = none := by
  unfold check
  cases v.flaw? r place access <;> simp

/-- **What a view without a flaw satisfies.** -/
theorem related_of_flaw? (hv : v.flaw? r place access = none) :
    (∃ type, r.find? v.value = some type) ∧
      (v.owner = .object ∨ r.isAssignable place.declaringType v.owner = true) ∧
      (r.isAssignable v.value place.type = true ∨
        access = .write ∧ r.isAssignable place.type v.value = true) := by
  unfold flaw? at hv
  split at hv
  · cases hv
  split at hv
  · cases hv
  rename_i hvalue
  split at hv
  · cases hv
  rename_i howner
  refine ⟨Option.ne_none_iff_exists'.1 (by simpa [Catalog.contains] using hvalue),
    by simpa [or_iff_not_imp_left] using howner, ?_⟩
  cases access with
  | read =>
    simp only [readFlaw?] at hv
    split at hv
    · rename_i hread
      exact .inl hread
    · cases hv
  | write =>
    simp only [writeFlaw?] at hv
    split at hv
    · cases hv
    · split at hv
      · rename_i hwrite
        rcases Bool.or_eq_true_iff.1 hwrite with hwrite | hwrite
        · exact .inr ⟨rfl, hwrite⟩
        · exact .inl hwrite
      · cases hv

end View

namespace Reflector

variable {r : Reflector} {x : ValueMember} {v : View} {a : Accessor}

/-- **A getter through a view** is made only if the view passes. -/
theorem flaw?_of_getter (ha : r.Compiles (x.getter (some v)) a) :
    v.flaw? r.registry x.place .read = none := by
  cases x with
  | field f =>
    obtain ⟨p, hp, hcode, -, -⟩ := compiles_iff.1 ha
    cases hp
    obtain ⟨u, hview, -⟩ := bind_eq_ok.1 hcode
    exact View.check_eq_ok.1 hview
  | property p choice =>
    obtain ⟨m, -, hview, -⟩ := parts_of_propertyGetter ha
    exact View.check_eq_ok.1 hview

theorem flaw?_of_setter (ha : r.Compiles (x.setter (some v)) a) :
    v.flaw? r.registry x.place .write = none := by
  cases x with
  | field f =>
    obtain ⟨p, hp, hcode, -, -⟩ := compiles_iff.1 ha
    cases hp
    obtain ⟨u, hview, -⟩ := bind_eq_ok.1 hcode
    exact View.check_eq_ok.1 hview
  | property p choice =>
    obtain ⟨m, -, hview, -⟩ := parts_of_propertySetter ha
    exact View.check_eq_ok.1 hview

/-- What has a getter through a view has one without. -/
theorem exists_getter (hr : r.registry.Built) (hx : x.In r.registry)
    (ha : r.Compiles (x.getter (some v)) a) : ∃ b, r.Compiles (x.getter none) b := by
  obtain ⟨s, hs, -⟩ := get_eq_fetch hr hx ha
  obtain ⟨s', hs'⟩ := hs.plain
  cases x with
  | field f => exact exists_get (Registry.fieldTypes?_iff_sees.2 hs')
  | property p choice =>
    obtain ⟨t, ht, hp⟩ := hx
    obtain ⟨u, hu⟩ := hr.exists_declares ht hp
    obtain ⟨m, hm, -⟩ := parts_of_propertyGetter ha
    have htypes := (hu.sees_of_getter (Property.resolveGet_eq_ok hm).2).2 hs'
    exact exists_get_of_resolveGet hu.accessors hm htypes (type_ne_void_of_get hu.accessors ha)

theorem exists_setter (hr : r.registry.Built) (hx : x.In r.registry)
    (ha : r.Compiles (x.setter (some v)) a) : ∃ b, r.Compiles (x.setter none) b := by
  obtain ⟨s, hs, -⟩ := set_eq_put hr hx ha
  obtain ⟨s', hs'⟩ := hs.plain
  cases x with
  | field f => exact exists_set (Registry.fieldTypes?_iff_sees.2 hs')
  | property p choice =>
    obtain ⟨t, ht, hp⟩ := hx
    obtain ⟨u, hu⟩ := hr.exists_declares ht hp
    obtain ⟨m, hm, -⟩ := parts_of_propertySetter ha
    have htypes := (hu.sees_of_setter (Property.resolveSet_eq_ok hm).2).2 hs'
    exact exists_set_of_resolveSet hu.accessors hm htypes

/-- **A view refines the access without one.** Whatever has an accessor through
a view has one without it, and where the view lets the receiver pass and admits
the input, both do the same; a setter does it with what the view hands over,
which is the input or, where the view's value type is a struct other than the
member's type, a copy of it. Elsewhere the access through the view comes to an
`InvalidCast`: it runs no body and changes nothing that was there. An input that
the view does not admit is refused at once; one that it does is coerced before
the receiver is refused, which takes no end only if there is none to copying it. -/
theorem view_refines (hr : r.registry.Built) (hx : x.In r.registry) :
    (∀ a, r.Compiles (x.getter (some v)) a →
      (∃ b, r.Compiles (x.getter none) b) ∧ ∀ b, r.Compiles (x.getter none) b → ∀ h receiver,
        (v.Admits x.place h receiver → ∀ natives,
          (a.get natives receiver).run h = (b.get natives receiver).run h) ∧
        (¬ v.Admits x.place h receiver → ∃ source target, ∀ natives,
          (a.get natives receiver).run h =
            some (.error (.runtime (.invalidCast source target)), h))) ∧
    ∀ a, r.Compiles (x.setter (some v)) a →
      (∃ b, r.Compiles (x.setter none) b) ∧ ∃ type, r.registry.find? v.value = some type ∧
        ∀ b, r.Compiles (x.setter none) b → ∀ h receiver input,
          (h.isAdmissible input type = false → ∀ natives, (a.set natives receiver input).run h =
            some (.error (.runtime (.invalidCast (h.typeName input) type.name)), h)) ∧
          (h.isAdmissible input type = true → h.Reaches receiver →
            (v.Admits x.place h receiver →
              (∀ natives, (a.set natives receiver input).run h =
                (Exec.mapFault .runtime (v.handOver x.place type input) >>=
                  b.set natives receiver).run h) ∧
              (v.value ≠ x.place.type → h.Closed → h.Reaches input →
                (type.isValueType = true → h.HasContents input) →
                ∃ w h', (v.handOver x.place type input).run h = some (.ok w, h') ∧
                  h.Coerced h' type input w)) ∧
            (¬ v.Admits x.place h receiver → a.Refuses h receiver input)) := by
  constructor
  · intro a ha
    refine ⟨exists_getter hr hx ha, fun b hb h receiver => ?_⟩
    obtain ⟨s, hs, hget⟩ := get_eq_fetch hr hx ha
    obtain ⟨s', hs', hplain⟩ := get_eq_fetch hr hx hb
    constructor
    · intro hadmits natives
      rw [hget, hplain]
      exact Exec.run_mapFault_congr (ValueMember.run_fetch_of_admits natives hs hs' hadmits)
    · intro hnot
      obtain ⟨target, hrefused⟩ := hs.exists_run_subject_of_not receiver
      refine ⟨h.typeName receiver, target, fun natives => ?_⟩
      rw [hget]
      refine Exec.run_mapFault_eq_error.2 ⟨_, ?_, rfl⟩
      exact Exec.run_bind_eq_error.2 (.inl (hrefused h hnot))
  · intro a ha
    obtain ⟨⟨type, htype⟩, -⟩ := View.related_of_flaw? (flaw?_of_setter ha)
    refine ⟨exists_setter hr hx ha, type, htype, fun b hb h receiver input => ?_⟩
    obtain ⟨s, hs, hset⟩ := set_eq_put hr hx ha
    obtain ⟨s', hs', hplain⟩ := set_eq_put hr hx hb
    refine ⟨fun hnot natives => ?_, fun hadmissible hreach =>
      ⟨fun hadmits => ⟨fun natives => ?_, fun hne hc hi hread => ?_⟩, fun hnot => ?_⟩⟩
    · rw [hset]
      refine Exec.run_mapFault_eq_error.2 ⟨_, ?_, rfl⟩
      exact Exec.run_bind_eq_error.2 (.inl (hs.run_castValues_of_not htype hnot))
    · have hput := ValueMember.run_put_of_admits natives hs hs' htype hadmits hadmissible hreach
      have hsame : b.set natives receiver =
          fun w => Exec.mapFault .runtime (x.put natives s' receiver w) := funext (hplain _ _)
      rw [hset, hsame, ← Exec.mapFault_bind]
      exact Exec.run_mapFault_congr hput
    · obtain ⟨w, h', hcast, hcoerced⟩ := Exec.run_castValue hc hread hi hadmissible
      refine ⟨w, h', ?_, hcoerced⟩
      rw [View.handOver, if_neg hne, ← Exec.run_castValue_eq_handOut hadmissible]
      exact hcast
    · obtain ⟨target, hrefused⟩ := ValueMember.run_put_of_not hs hnot hreach input
      exact Accessor.refuses_of_run_set fun natives =>
        (congrArg (·.run h) (hset natives receiver input)).trans
          (Exec.run_mapFault_congr (hrefused natives))

end Reflector

namespace Sample

/-- A view of the tip of a pen as any object. -/
def tipAsObject : View := ⟨pen.handle, .object⟩

/-- The type that everything is an instance of. -/
def anyObject : TypeDef := Catalog.builtinType ⟨64⟩ .object

/-- Through it a pen is given the point that it is at as it is without it, and
a point is refused. -/
theorem view_refines_tip : ∃ setter plain,
    Reflector.Compiles ⟨registry, {}⟩ (.fieldSetter (some tip) (some tipAsObject)) setter ∧
    Reflector.Compiles ⟨registry, {}⟩ (.fieldSetter (some tip) none) plain ∧
    (∀ natives, (setter.set natives (.object ⟨1⟩) (.object ⟨0⟩)).run desk =
      (Exec.mapFault .runtime (tipAsObject.handOver tip.place anyObject (.object ⟨0⟩)) >>=
        plain.set natives (.object ⟨1⟩)).run desk) ∧
    ∃ source target h', ∀ natives, (setter.set natives (.object ⟨0⟩) (.object ⟨0⟩)).run desk =
      some (.error (.runtime (.invalidCast source target)), h') := by
  have hpoint : desk.Reaches (.object ⟨0⟩) := by
    rintro p ⟨⟩
    exact Nat.zero_lt_two
  have hpen : desk.Reaches (.object ⟨1⟩) := by
    rintro p ⟨⟩
    exact Nat.one_lt_two
  have hset : Reflector.Compiles ⟨registry, {}⟩ (.fieldSetter (some tip) (some tipAsObject)) _ :=
    ⟨{}, rfl⟩
  have hplain : Reflector.Compiles ⟨registry, {}⟩ (.fieldSetter (some tip) none) _ := ⟨{}, rfl⟩
  obtain ⟨-, hsetters⟩ := Reflector.view_refines (r := ⟨registry, {}⟩) (x := .field tip)
    (v := tipAsObject) registry_built ⟨pen, by decide, by decide⟩
  obtain ⟨-, type, htype, hrun⟩ := hsetters _ hset
  have hobject : registry.find? tipAsObject.value = some anyObject := by decide
  obtain rfl : type = anyObject := Option.some.inj (htype.symm.trans hobject)
  have hadmissible : desk.isAdmissible (.object ⟨0⟩) anyObject = true := by decide
  obtain ⟨hpasses, -⟩ := (hrun _ hplain desk (.object ⟨1⟩) (.object ⟨0⟩)).2 hadmissible hpen
  obtain ⟨-, hrefused⟩ := (hrun _ hplain desk (.object ⟨0⟩) (.object ⟨0⟩)).2 hadmissible hpoint
  have hadmits : tipAsObject.Admits tip.place desk (.object ⟨1⟩) := by decide
  have hnot : ¬ tipAsObject.Admits tip.place desk (.object ⟨0⟩) := by decide
  obtain ⟨source, target, h', -, hfault⟩ := (hrefused hnot).exists_fault desk_sound.closed
    hpoint (desk_acyclic.hasContents _)
  exact ⟨_, _, hset, hplain, (hpasses hadmits).1, source, target, h', hfault⟩

end Sample

end MemberAccess
