import MemberAccess.Proofs.Accessor.Delegation
import MemberAccess.Proofs.Accessor.Views
/-!
# Accessor — generated accessors and the field behind them

A property whose accessor methods are generated over a field is read and
written through calls, the field directly. They come to the same on null and on
every object whose type leaves the methods as they are
(`Reflector.backed_by_field`), as long as the property and the field agree on
being static. Nothing ensures that: a property that is kept for its type may
find a field of its name that disagrees, and has then no object to work on
(`Sample.gauge_not_read`).
-/

namespace MemberAccess

/-! ## Generated bodies -/

/-- **A body generated over a storage**, with the arguments that it takes. -/
inductive Storage.Generates (s : Storage) : MemberBody → List Value → Prop where
  | reader : s.Generates s.reader []
  | writer (v : Value) : s.Generates s.writer [v]

namespace Storage.Generates

variable {s : Storage} {b : MemberBody} {args : List Value} {natives : Natives} {h : Heap}

/-- Over a cell it does not matter what the body is called on. -/
theorem run_congr (hb : s.Generates b args) (hs : s.isStatic = true)
    (this this' : Option ObjectRef) :
    b.run natives ⟨this, args⟩ = b.run natives ⟨this', args⟩ := by
  cases s with
  | cell k => cases hb <;> rfl
  | slot i => cases hs

/-- Over a slot the body has to be called on something. -/
theorem run_none (hb : s.Generates b args) (hs : s.isStatic = false) :
    (b.run natives ⟨none, args⟩).run h = some (.error .nullReference, h) := by
  cases s with
  | cell k => cases hs
  | slot i => cases hb <;> rfl

end Storage.Generates

/-! ## What an access works on -/

namespace Place

variable {place : Place} {ts : List TypeDef} {b : MemberBody} {args : List Value}
  {natives : Natives} {h : Heap} {receiver : Value}

/-- **What an access works on** if its receiver is null or an object that
passes: nothing if the member is static, and else the object. -/
def target (place : Place) (receiver : Value) : Except RuntimeFault (Option ObjectRef) :=
  if place.isStatic then .ok none
  else match receiver.toObject? with
    | some o => .ok (some o)
    | none => .error .nullReference

theorem run_subject_eq_target (hpass : receiver = .null ∨ ∃ o, receiver = .object o ∧
      (place.isStatic = false → ∀ t ∈ ts, t.handle ∈ (h.typeAt o).ancestors)) :
    (place.subject ts receiver).run h = some (place.target receiver, h) := by
  cases hs : place.isStatic with
  | true =>
    rw [subject_of_static hs, target, if_pos hs]
    rfl
  | false =>
    rw [target, if_neg (by simp [hs])]
    rcases hpass with rfl | ⟨o, rfl, hpass⟩
    · exact run_subject_null hs
    · have hholder : (Field.holder ⟨ts, [], default⟩ (.object o)).run h = some (.ok o, h) :=
        Field.run_holder_of_passes fun t ht => .inr (by
          simpa [Heap.isInstance, TypeDef.isSubtypeOf] using hpass hs t ht)
      rw [subject_of_instance (s := ⟨ts, [], default⟩) hs]
      exact Exec.run_bind_eq_ok.2 ⟨o, h, hholder, rfl⟩

/-- **A body on what an access works on.** -/
def runOn (place : Place) (natives : Natives) (b : MemberBody) (args : List Value)
    (receiver : Value) : Exec RuntimeFault Value :=
  Exec.ofExcept (place.target receiver) >>= fun this => b.run natives ⟨this, args⟩

theorem runOn_static (place : Place) (hs : place.isStatic = true) :
    place.runOn natives b args receiver = b.run natives ⟨none, args⟩ := by
  rw [runOn, target, if_pos hs]
  rfl

theorem runOn_object (place : Place) {o : ObjectRef} (hs : place.isStatic = false) :
    place.runOn natives b args (.object o) = b.run natives ⟨some o, args⟩ := by
  rw [runOn, target, if_neg (by simp [hs])]
  rfl

theorem runOn_null (place : Place) (hs : place.isStatic = false) :
    place.runOn natives b args .null = Exec.throw .nullReference := by
  rw [runOn, target, if_neg (by simp [hs])]
  rfl

end Place

/-! ## Properties that find their field -/

/-- **A property finds the field behind it** on a receiver if both are static or
neither is. If only one is, it does so on null, where it is itself static, and
on objects, where its field is. -/
def Property.Finds (p : Property) (f : Field) (receiver : Value) : Prop :=
  p.isStatic = f.isStatic ∨ receiver.isNull = p.isStatic

instance {p : Property} {f : Field} {receiver : Value} : Decidable (p.Finds f receiver) :=
  inferInstanceAs (Decidable (_ ∨ _))

namespace Property

variable {f : Field} {p : Property} {b : MemberBody} {args : List Value} {natives : Natives}
  {h : Heap} {receiver : Value}

/-- **A body does the same for a property and for the field that it finds.** -/
theorem Finds.runOn_eq (hfinds : p.Finds f receiver) (hb : f.storage.Generates b args)
    (hreceiver : receiver = .null ∨ ∃ o, receiver = .object o) :
    p.place.runOn natives b args receiver = f.place.runOn natives b args receiver := by
  rcases hfinds with hsame | hnull
  · -- what an access works on depends on being static alone
    have htarget : p.place.target receiver = f.place.target receiver := by
      unfold Place.target
      rw [show p.place.isStatic = f.place.isStatic from hsame]
    rw [Place.runOn, Place.runOn, htarget]
  · rcases hreceiver with rfl | ⟨o, rfl⟩
    · rw [Place.runOn_static p.place hnull.symm]
      cases hf : f.isStatic with
      | true => exact (Place.runOn_static f.place hf).symm
      | false =>
        rw [Place.runOn_null f.place hf]
        exact Exec.ext_run fun h => hb.run_none hf
    · rw [Place.runOn_object p.place hnull.symm]
      cases hf : f.isStatic with
      | true => rw [Place.runOn_static f.place hf, hb.run_congr hf (some o) none]
      | false => exact (Place.runOn_object f.place hf).symm

/-- A property that does not find its field finds null. -/
theorem runOn_of_not_finds (hnot : ¬ p.Finds f receiver) (hb : f.storage.Generates b args)
    (hreceiver : receiver = .null ∨ ∃ o, receiver = .object o) :
    p.place.runOn natives b args receiver = Exec.throw .nullReference := by
  obtain ⟨hdiffer, hnull⟩ := not_or.1 hnot
  rcases hreceiver with rfl | ⟨o, rfl⟩
  · have hinstance : p.isStatic = false := by simpa [Value.isNull] using hnull
    exact Place.runOn_null p.place hinstance
  · have hstatic : p.isStatic = true := by simpa [Value.isNull] using hnull
    have hslot : f.isStatic = false := by simpa [hstatic] using hdiffer
    rw [Place.runOn_static p.place hstatic]
    exact Exec.ext_run fun h => hb.run_none hslot

end Property

/-! ## Methods that stand for themselves -/

namespace Method

/-- **Where a method stands for itself**: on null, and on each instance of a
type whose own type resolves the method to no other. -/
def StandsOn (m : Method) (r : Registry) (d : TypeHandle) (h : Heap) (receiver : Value) : Prop :=
  receiver = .null ∨ ∃ o, receiver = .object o ∧ h.Has o ∧ h.typeAt o ∈ r.types ∧
    d ∈ (h.typeAt o).ancestors ∧ (h.typeAt o).resolve? m = some m

variable {m : Method} {r : Registry} {p : Property} {b : MemberBody} {args : List Value}
  {natives : Natives} {d : TypeHandle} {h h₁ : Heap} {receiver : Value}

/-- It goes on doing so while the heap grows. -/
theorem StandsOn.grows (hm : m.StandsOn r d h receiver) (hg : h.Grows h₁) :
    m.StandsOn r d h₁ receiver := by
  refine hm.imp_right fun ⟨o, hreceiver, ho, hrest⟩ => ⟨o, hreceiver, hg.has ho, ?_⟩
  rw [hg.typeAt_eq ho]
  exact hrest

theorem StandsOn.null_or_object (hm : m.StandsOn r d h receiver) :
    receiver = .null ∨ ∃ o, receiver = .object o :=
  hm.imp_right fun ⟨o, ho, _⟩ => ⟨o, ho⟩

/-- **Its own body is run** there. -/
theorem StandsOn.run_runBody (hm : m.StandsOn r d h receiver) (hstatic : m.isStatic = p.isStatic)
    (hslot : m.isStatic = true → m.slot = none) (hb : m.body = some b) :
    (Exec.ofExcept (p.place.target receiver) >>= fun this => m.runBody natives ⟨this, args⟩).run h =
      (p.place.runOn natives b args receiver).run h := by
  refine Exec.run_bind_congr rfl fun this h₁ htarget => ?_
  obtain ⟨htarget, rfl⟩ := Exec.run_ofExcept_eq.1 htarget
  have himplementation : h.implementation? m this = some m := by
    cases hs : m.isStatic with
    | true => simp [Heap.implementation?, hslot hs]
    | false =>
      have hinstance : ¬ p.place.isStatic = true := by
        rw [show p.place.isStatic = p.isStatic from rfl, ← hstatic, hs]
        exact Bool.false_ne_true
      rw [Place.target, if_neg hinstance] at htarget
      rcases hm with rfl | ⟨o, rfl, -, -, -, hresolve⟩
      · cases htarget
      · cases htarget
        rwa [implementation?_object]
  simp only [runBody, Exec.run_bind, Exec.run_ask, himplementation, Option.bind_some, hb]

end Method

/-! ## Accesses -/

namespace Registry

variable {r : Registry} {place : Place} {u : TypeDef} {f : Field} {p : Property} {m : Method}
  {b : MemberBody} {h : Heap} {receiver : Value} {s : FieldTypes} {value : Option TypeHandle}

/-- **What stands for a method** passes for the type that declares the member. -/
theorem Sees.run_subject_of_standsOn (hs : r.Sees place none value s)
    (hdeclaring : ∀ t ∈ r.types, u.handle ∈ t.ancestors → place.declaringType ∈ t.ancestors)
    (hm : m.StandsOn r u.handle h receiver) :
    (place.subject s.receiver receiver).run h = some (place.target receiver, h) := by
  refine Place.run_subject_eq_target (hm.imp_right fun ⟨o, hreceiver, _, ht, ho, _⟩ =>
    ⟨o, hreceiver, fun hinstance => ?_⟩)
  obtain ⟨d, hd, hts⟩ := receiverTypes_none.1 (hs.receiverTypes_eq hinstance)
  rw [hts]
  simpa [Catalog.handle_of_find? hd] using hdeclaring _ ht ho

/-- **An access to a field** runs a body on what it works on. -/
theorem Sees.run_field (natives : Natives) (b : MemberBody) (args : List Value)
    (hs : r.Sees f.place none value s) (hr : r.Built) (hu : u ∈ r.types)
    (hf : f ∈ u.allFields) (hm : m.StandsOn r u.handle h receiver) :
    (f.place.subject s.receiver receiver >>= fun this => b.run natives ⟨this, args⟩).run h =
      (f.place.runOn natives b args receiver).run h := by
  refine Exec.run_bind_congr (hs.run_subject_of_standsOn (fun t ht hancestor => ?_) hm)
    fun _ _ _ => rfl
  obtain ⟨ids, hb⟩ := hr
  exact hb.contracts.closed t ht u hu hancestor (hb.layouts.declaring u hu f hf)

/-- **An access to a property** runs a body of an accessor method. -/
theorem Sees.run_property (natives : Natives) (args : List Value)
    (hs : r.Sees p.place none value s) (hu : r.Declares u p)
    (hmu : m ∈ u.methods) (hstatic : m.isStatic = p.isStatic)
    (hm : m.StandsOn r u.handle h receiver) (hb : m.body = some b) :
    (p.place.subject s.receiver receiver >>= fun this => m.runBody natives ⟨this, args⟩).run h =
      (p.place.runOn natives b args receiver).run h := by
  rw [← hm.run_runBody hstatic (hu.direct m hmu) hb]
  refine Exec.run_bind_congr (hs.run_subject_of_standsOn (fun t _ hancestor => ?_) hm)
    fun _ _ _ => rfl
  rwa [show p.place.declaringType = u.handle from hu.declared.declaringType]

end Registry

namespace ValueMember

variable {r : Registry} {u type : TypeDef} {f : Field} {p : Property} {m : Method} {h : Heap}
  {receiver : Value} {s s' : FieldTypes}

/-- **A property is read like the field that it finds**, and as null if it does
not find it. -/
theorem fetch_backed (natives : Natives) (choice : Option Bool) (hr : r.Built)
    (hu : r.Declares u p) (hf : f ∈ u.allFields) (hs : r.Sees p.place none none s)
    (hs' : r.Sees f.place none none s') (htype : s.type = s'.type)
    (hget : p.getter = some m) (hb : m.body = some f.storage.reader)
    (hm : m.StandsOn r u.handle h receiver) :
    (p.Finds f receiver → ((property p choice).fetch natives s receiver).run h =
      ((field f).fetch natives s' receiver).run h) ∧
    (¬ p.Finds f receiver → ((property p choice).fetch natives s receiver).run h =
      some (.error .nullReference, h)) := by
  have hproperty := hs.run_property natives [] hu (hu.accessors.getter m hget).1
    (hu.declared.getter m hget) hm hb
  have hfield := hs'.run_field natives f.storage.reader [] hr hu.mem hf hm
  have hfetch : (property p choice).fetch natives s receiver =
      (p.place.subject s.receiver receiver >>= fun this => m.runBody natives ⟨this, []⟩) >>=
        Exec.handOut s.type := by
    simp only [fetch, place, reader, hget, Option.elim_some, bind_assoc]
  rw [hfetch]
  constructor
  · intro hfinds
    have hfetch' : (field f).fetch natives s' receiver =
        (f.place.subject s'.receiver receiver >>= fun this =>
          f.storage.reader.run natives ⟨this, []⟩) >>= Exec.handOut s'.type := by
      simp only [fetch, place, reader, bind_assoc]
    rw [hfetch', htype]
    refine Exec.run_bind_congr (hproperty.trans (Eq.trans ?_ hfield.symm)) fun _ _ _ => rfl
    rw [hfinds.runOn_eq .reader hm.null_or_object]
  · intro hnot
    refine Exec.run_bind_eq_error.2 (.inl (hproperty.trans ?_))
    rw [Property.runOn_of_not_finds hnot .reader hm.null_or_object]
    rfl

/-- **And written like it**; otherwise its input is coerced before null is
found. -/
theorem put_backed (natives : Natives) (choice : Option Bool) (v : Value) (hr : r.Built)
    (hu : r.Declares u p) (hf : f ∈ u.allFields) (hs : r.Sees p.place none none s)
    (hs' : r.Sees f.place none none s')
    (hinput : s.input = [type]) (hinput' : s'.input = [type])
    (hset : p.setter = some m) (hb : m.body = some f.storage.writer)
    (hm : m.StandsOn r u.handle h receiver) :
    (p.Finds f receiver → ((property p choice).put natives s receiver v).run h =
      ((field f).put natives s' receiver v).run h) ∧
    (¬ p.Finds f receiver → ((property p choice).put natives s receiver v).run h =
      (Exec.castValue v type >>= fun _ => Exec.throw .nullReference).run h) := by
  have hproperty : ∀ w h₁, h.Grows h₁ →
      (p.place.subject s.receiver receiver >>= fun this => m.runBody natives ⟨this, [w]⟩).run h₁ =
        (p.place.runOn natives f.storage.writer [w] receiver).run h₁ := fun w h₁ hgrows =>
    hs.run_property natives [w] hu (hu.accessors.setter m hset).1 (hu.declared.setter m hset)
      (hm.grows hgrows) hb
  have hput : (property p choice).put natives s receiver v =
      Exec.castValue v type >>= fun w =>
        (p.place.subject s.receiver receiver >>= fun this => m.runBody natives ⟨this, [w]⟩) >>=
          fun _ => pure () := by
    simp only [put, hinput, Exec.castValues_singleton, place, writer, hset, Option.elim_some,
      bind_assoc]
  rw [hput]
  constructor
  · intro hfinds
    have hput' : (field f).put natives s' receiver v = Exec.castValue v type >>= fun w =>
        (f.place.subject s'.receiver receiver >>= fun this =>
          f.storage.writer.run natives ⟨this, [w]⟩) >>= fun _ => pure () := by
      simp only [put, hinput', Exec.castValues_singleton, place, writer, bind_assoc]
    rw [hput']
    refine Exec.run_bind_congr rfl fun w h₁ hcast => Exec.run_bind_congr ?_ fun _ _ _ => rfl
    have hgrows := Exec.within_castValue v type h _ h₁ hcast
    rw [hproperty w h₁ hgrows, hs'.run_field natives _ [w] hr hu.mem hf (hm.grows hgrows),
      hfinds.runOn_eq (.writer w) hm.null_or_object]
  · intro hnot
    refine Exec.run_bind_congr rfl fun w h₁ hcast => ?_
    refine Exec.run_bind_eq_error.2 (.inl ?_)
    rw [hproperty w h₁ (Exec.within_castValue v type h _ h₁ hcast),
      Property.runOn_of_not_finds hnot (.writer w) hm.null_or_object]
    rfl

end ValueMember

namespace Reflector

variable {r : Reflector} {u type : TypeDef} {f : Field} {p : Property} {m : Method}
  {a b : Accessor} {h : Heap} {receiver : Value} {choice : Option Bool}

/-- A getter over a field that is found is the field's. -/
theorem get_backed (hr : r.registry.Built) (hu : r.registry.Declares u p) (hf : f ∈ u.allFields)
    (hfp : f.type = p.type) (hget : p.getter = some m) (hbody : m.body = some f.storage.reader)
    (ha : r.Compiles (.propertyGetter (some p) choice none) a)
    (hb : r.Compiles (.fieldGetter (some f) none) b) (natives : Natives)
    (hm : m.StandsOn r.registry u.handle h receiver) :
    (p.Finds f receiver → (a.get natives receiver).run h = (b.get natives receiver).run h) ∧
    (¬ p.Finds f receiver →
      (a.get natives receiver).run h = some (.error (.runtime .nullReference), h)) := by
  obtain ⟨s, hs, ha⟩ := get_eq_fetch (x := .property p choice) hr
    ⟨u, hu.mem, List.mem_append_left _ hu.property⟩ ha
  obtain ⟨s', hs', hb⟩ := get_eq_fetch (x := .field f) hr ⟨u, hu.mem, hf⟩ hb
  have htype : s.type = s'.type :=
    Option.some.inj ((hs.type.symm.trans (congrArg _ hfp.symm)).trans hs'.type)
  obtain ⟨hfound, hmissed⟩ :=
    ValueMember.fetch_backed natives choice hr hu hf hs hs' htype hget hbody hm
  rw [ha, hb]
  exact ⟨fun hfinds => Exec.run_mapFault_congr (hfound hfinds),
    fun hnot => Exec.run_mapFault_eq_error.2 ⟨_, hmissed hnot, rfl⟩⟩

/-- So is a setter. -/
theorem set_backed (hr : r.registry.Built) (hu : r.registry.Declares u p) (hf : f ∈ u.allFields)
    (hfp : f.type = p.type) (htype : r.registry.find? p.type = some type)
    (hset : p.setter = some m) (hbody : m.body = some f.storage.writer)
    (ha : r.Compiles (.propertySetter (some p) choice none) a)
    (hb : r.Compiles (.fieldSetter (some f) none) b) (natives : Natives) (v : Value)
    (hm : m.StandsOn r.registry u.handle h receiver) :
    (p.Finds f receiver → (a.set natives receiver v).run h = (b.set natives receiver v).run h) ∧
    (¬ p.Finds f receiver → (a.set natives receiver v).run h =
      (Exec.mapFault .runtime
        (Exec.castValue v type >>= fun _ => Exec.throw .nullReference)).run h) := by
  obtain ⟨s, hs, ha⟩ := set_eq_put (x := .property p choice) hr
    ⟨u, hu.mem, List.mem_append_left _ hu.property⟩ ha
  obtain ⟨s', hs', hb⟩ := set_eq_put (x := .field f) hr ⟨u, hu.mem, hf⟩ hb
  have hinput : s.input = [type] := by
    rw [Registry.inputTypes_none.1 hs.input, Option.some.inj (hs.type.symm.trans htype)]
  have hinput' : s'.input = [type] := by
    rw [Registry.inputTypes_none.1 hs'.input,
      Option.some.inj (hs'.type.symm.trans ((congrArg _ hfp).trans htype))]
  obtain ⟨hfound, hmissed⟩ :=
    ValueMember.put_backed natives choice v hr hu hf hs hs' hinput hinput' hset hbody hm
  rw [ha, hb]
  exact ⟨fun hfinds => Exec.run_mapFault_congr (hfound hfinds),
    fun hnot => Exec.run_mapFault_congr (hmissed hnot)⟩

/-- **Generated accessors are those of the field behind the property.** The
field is one that the declaring type has, of the property's type; the receiver
is null or an object on which the accessor method stands for itself. Where the
property finds its field, the getter does what the field's getter does, and the
setter what its setter does, in every respect. Where it does not, as only one
of the two is static, the property's accessors refuse the receiver as null, the
setter after it has coerced its input. -/
theorem backed_by_field (hr : r.registry.Built) (hu : u ∈ r.registry.types)
    (hp : p ∈ u.properties) (hindex : p.indexParameters = []) (hf : f ∈ u.allFields)
    (hfp : f.type = p.type) (htype : r.registry.find? p.type = some type) (hvoid : p.type ≠ .void) :
    (∀ choice m, p.getMethod? (r.nonPublic choice) = some m → m.body = some f.storage.reader →
      (∃ a, r.Compiles (.propertyGetter (some p) choice none) a) ∧
      (∃ b, r.Compiles (.fieldGetter (some f) none) b) ∧
      ∀ a b, r.Compiles (.propertyGetter (some p) choice none) a →
        r.Compiles (.fieldGetter (some f) none) b → ∀ natives h receiver,
        m.StandsOn r.registry u.handle h receiver →
          (p.Finds f receiver → (a.get natives receiver).run h = (b.get natives receiver).run h) ∧
          (¬ p.Finds f receiver →
            (a.get natives receiver).run h = some (.error (.runtime .nullReference), h))) ∧
    ∀ choice m, p.setMethod? (r.nonPublic choice) = some m → m.body = some f.storage.writer →
      (∃ a, r.Compiles (.propertySetter (some p) choice none) a) ∧
      (∃ b, r.Compiles (.fieldSetter (some f) none) b) ∧
      ∀ a b, r.Compiles (.propertySetter (some p) choice none) a →
        r.Compiles (.fieldSetter (some f) none) b → ∀ natives h receiver v,
        m.StandsOn r.registry u.handle h receiver →
          (p.Finds f receiver →
            (a.set natives receiver v).run h = (b.set natives receiver v).run h) ∧
          (¬ p.Finds f receiver → (a.set natives receiver v).run h =
            (Exec.mapFault .runtime
              (Exec.castValue v type >>= fun _ => Exec.throw .nullReference)).run h) := by
  have hdeclares := hr.declares hu hp
  obtain ⟨-, -, s', hs', -⟩ := hr.fieldTypes? hu hf (hfp ▸ htype)
  constructor
  · intro choice m hm hbody
    have hresolve := Property.resolveGet_of_getMethod? hindex hm
    have hget := (Property.resolveGet_eq_ok hresolve).2
    obtain ⟨s, hs, -⟩ := hr.exists_propertyTypes hu (hdeclares.accessors.getter m hget).1 htype
    exact ⟨exists_get_of_resolveGet hdeclares.accessors hresolve hs hvoid, exists_get hs',
      fun a b ha hb natives h receiver => get_backed hr hdeclares hf hfp hget hbody ha hb natives⟩
  · intro choice m hm hbody
    have hresolve := Property.resolveSet_of_setMethod? hindex hm
    have hset := (Property.resolveSet_eq_ok hresolve).2
    obtain ⟨s, hs, -⟩ := hr.exists_propertyTypes hu (hdeclares.accessors.setter m hset).1 htype
    exact ⟨exists_set_of_resolveSet hdeclares.accessors hresolve hs, exists_set hs',
      fun a b ha hb natives h receiver v =>
        set_backed hr hdeclares hf hfp htype hset hbody ha hb natives v⟩

end Reflector

namespace Sample

/-- A meter is read as the field behind its level is, and a dial, whose get
method is another, is still set as that field is. -/
theorem backed_by_meterLevel :
    (∃ a b, Reflector.Compiles ⟨dashboardRegistry, {}⟩
        (.propertyGetter (some level) (some true) none) a ∧
      Reflector.Compiles ⟨dashboardRegistry, {}⟩ (.fieldGetter (some meterLevel) none) b ∧
      ∀ natives, (a.get natives (.object ⟨0⟩)).run panel =
        (b.get natives (.object ⟨0⟩)).run panel) ∧
    ∃ a b, Reflector.Compiles ⟨dashboardRegistry, {}⟩
        (.propertySetter (some level) (some true) none) a ∧
      Reflector.Compiles ⟨dashboardRegistry, {}⟩ (.fieldSetter (some meterLevel) none) b ∧
      ∀ natives v, (a.set natives (.object ⟨1⟩) v).run panel =
        (b.set natives (.object ⟨1⟩) v).run panel := by
  have hmeter : meter ∈ (Reflector.registry ⟨dashboardRegistry, {}⟩).types := by decide
  have hlevel : level ∈ meter.properties := by decide
  have hfield : meterLevel ∈ meter.allFields := by decide
  have hnumber : dashboardRegistry.find? level.type = some (Catalog.builtinType ⟨64⟩ .int32) := by
    decide
  obtain ⟨hgetters, hsetters⟩ := Reflector.backed_by_field dashboardRegistry_built hmeter hlevel rfl
    hfield rfl hnumber (by decide)
  constructor
  · obtain ⟨⟨a, ha⟩, ⟨b, hb⟩, hsame⟩ := hgetters (some true) getLevel rfl rfl
    refine ⟨a, b, ha, hb, fun natives => ?_⟩
    have hstands : getLevel.StandsOn dashboardRegistry ⟨65⟩ panel (.object ⟨0⟩) :=
      .inr ⟨⟨0⟩, rfl, Nat.zero_lt_two, by decide, by decide, by decide⟩
    exact (hsame a b ha hb natives panel _ hstands).1 (by decide)
  · obtain ⟨⟨a, ha⟩, ⟨b, hb⟩, hsame⟩ := hsetters (some true) setLevel rfl rfl
    refine ⟨a, b, ha, hb, fun natives v => ?_⟩
    have hstands : setLevel.StandsOn dashboardRegistry ⟨65⟩ panel (.object ⟨1⟩) :=
      .inr ⟨⟨1⟩, rfl, Nat.one_lt_two, by decide, by decide, by decide⟩
    exact (hsame a b ha hb natives panel _ v hstands).1 (by decide)

/-! ## A field under the name of a hidden one -/

/-- A gauge has a field under the very name that its static level is kept
under. -/
def gaugeDefinition : TypeDefinition where
  name := "Gauge"
  kind := .classType
  fields := [{ name := "<level>backing", type := .int32 }]
  properties := [{ PropertyDefinition.auto "level" .int32 with isStatic := true }]

/-- The hidden field, which the level does not find. -/
def gaugeHidden : Field := { meterLevel with id := ⟨67⟩, storage := .cell ⟨0⟩ }

def gaugeLevel : Field := { meterLevel with visibility := .anyone }

def getGauge : Method := { getLevel with isStatic := true, slot := none }

def setGauge : Method := { setLevel with id := ⟨69⟩, isStatic := true, slot := none }

def gaugeProperty : Property :=
  ⟨⟨70⟩, "level", ⟨65⟩, .int32, some getGauge, some setGauge, []⟩

def gauge : TypeDef :=
  { TypeDef.blank ⟨65⟩ "Gauge" .classType with
    base := some .object
    fields := [gaugeLevel, gaugeHidden]
    layout := [gaugeLevel]
    defaults := [.int32 0]
    properties := [gaugeProperty]
    methods := [getGauge, setGauge]
    constructors := [⟨⟨71⟩, ⟨65⟩, [], .anyone, none⟩] }

def instruments : Catalog := ⟨(Catalog.standard {}).1.types ++ [gauge]⟩

theorem define_gauge :
    ((Catalog.standard {}).1.define gaugeDefinition (Catalog.standard {}).2).run {} =
      some (.ok ⟨⟨65⟩, instruments, ⟨72⟩⟩, { cells := #[.int32 0] }) := by rfl

def gaugeRegistry : Registry := (instruments.freeze ⟨72⟩).1

theorem gaugeRegistry_built : gaugeRegistry.Built :=
  ⟨⟨72⟩, .define (.standard {} (by decide)) (Nat.le_refl _) define_gauge⟩

/-- One gauge. -/
def bench : Heap where
  objects := #[⟨gauge, [.int32 0]⟩]
  cells := #[.int32 0]

theorem eq_of_has_bench {o : ObjectRef} (ho : bench.Has o) : o = ⟨0⟩ := by
  obtain ⟨i⟩ := o
  obtain rfl : i = 0 := Nat.lt_one_iff.1 ho
  rfl

theorem bench_closed : bench.Closed where
  slots o v hv := by
    obtain rfl := eq_of_has_bench (Heap.has_of_mem_slotsAt hv)
    obtain rfl : v = .int32 0 := List.mem_singleton.1 hv
    exact nofun
  cells := by
    rintro ⟨_ | i⟩
    · exact nofun
    · exact nofun

theorem bench_sound : bench.Sound gaugeRegistry.toCatalog where
  closed := bench_closed
  types o ho _ _ _ _ := by
    obtain rfl := eq_of_has_bench ho
    decide
  slots o ho := by
    obtain rfl := eq_of_has_bench ho
    rfl
  cells t ht f hf k hk := by
    have hfields : ∀ t ∈ gaugeRegistry.types, ∀ f ∈ t.fields, f = gaugeLevel ∨ f = gaugeHidden := by
      decide
    rcases hfields t ht f hf with rfl | rfl
    · cases hk
    · cases hk
      exact Nat.zero_lt_one

/-- **A gauge does not show what is in the field**: its level is called on
nothing, and looks for a slot. -/
theorem gauge_not_read : ¬ ∀ (r : Reflector) (u type : TypeDef) (p : Property) (f : Field),
    r.registry.Built → u ∈ r.registry.types → p ∈ u.properties → p.indexParameters = [] →
    f ∈ u.allFields → f.type = p.type → r.registry.find? p.type = some type → p.type ≠ .void →
    ∀ choice m, p.getMethod? (r.nonPublic choice) = some m → m.body = some f.storage.reader →
    ∀ a b, r.Compiles (.propertyGetter (some p) choice none) a →
      r.Compiles (.fieldGetter (some f) none) b → ∀ natives h receiver,
      h.Sound r.registry.toCatalog → m.StandsOn r.registry u.handle h receiver →
      (a.get natives receiver).run h = (b.get natives receiver).run h := by
  intro hall
  have hproperty : Reflector.Compiles ⟨gaugeRegistry, {}⟩
    (.propertyGetter (some gaugeProperty) (some true) none) _ := ⟨{}, rfl⟩
  have hfield : Reflector.Compiles ⟨gaugeRegistry, {}⟩ (.fieldGetter (some gaugeLevel) none) _ :=
    ⟨{}, rfl⟩
  let natives : Natives := fun _ _ => pure .null
  have hstands : getGauge.StandsOn gaugeRegistry gauge.handle bench (.object ⟨0⟩) :=
    .inr ⟨⟨0⟩, rfl, Nat.zero_lt_one, by decide, by decide, rfl⟩
  have hsame := hall ⟨gaugeRegistry, {}⟩ gauge (Catalog.builtinType ⟨64⟩ .int32) gaugeProperty
    gaugeLevel gaugeRegistry_built (by decide) (by decide) rfl (by decide) rfl (by decide)
    (by decide) (some true) getGauge rfl rfl _ _ hproperty hfield natives bench (.object ⟨0⟩)
    bench_sound hstands
  -- one refuses the gauge as null, the other answers
  cases hsame

end Sample

end MemberAccess
