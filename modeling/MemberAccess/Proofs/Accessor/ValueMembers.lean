import MemberAccess.Proofs.Accessor.PropertyRoundTrip
import MemberAccess.Proofs.Catalog.Properties
/-!
# Accessor — fields and properties alike

Fields and properties are read and written in one way: an input is coerced, the
receiver is cast and has to be an object, a body runs on it, and what it returns
is handed out (`ValueMember.fetch`, `ValueMember.put`). The body is the member's
own, whatever types the access sees the member through, so accessors of one
member differ in their casts alone (`Reflector.get_eq_fetch`,
`Reflector.set_eq_put`).
-/

namespace MemberAccess

/-- **What can be read and written**: a field, or a property with a choice
about accessor methods that are not public. -/
inductive ValueMember where
  | field (f : Field)
  | property (p : Property) (choice : Option Bool)

namespace Place

/-- **The object that an access is to**: the receiver, once it has been cast to
types and found to be an object. An access to a static member is to none. -/
def subject (place : Place) (ts : List TypeDef) (receiver : Value) :
    Exec RuntimeFault (Option ObjectRef) :=
  if place.isStatic then pure none
  else do
    let v ← Exec.read (·.castReceiver ts receiver)
    let o ← Exec.read (·.expectObject v)
    return some o

variable {place : Place} {ts : List TypeDef} {s : FieldTypes} {receiver : Value}

theorem subject_of_static (hs : place.isStatic = true) : place.subject ts receiver = pure none :=
  if_pos hs

/-- Of an instance member it is what holds a field. -/
theorem subject_of_instance (hs : place.isStatic = false) :
    place.subject s.receiver receiver = Field.holder s receiver >>= fun o => pure (some o) := by
  rw [subject, if_neg (by simp [hs]), Field.holder]
  simp only [bind_assoc]

end Place

namespace ValueMember

open Exec

/-- The request for a getter. -/
def getter : ValueMember → Option View → Request
  | field f, view => .fieldGetter (some f) view
  | property p choice, view => .propertyGetter (some p) choice view

/-- The request for a setter. -/
def setter : ValueMember → Option View → Request
  | field f, view => .fieldSetter (some f) view
  | property p choice, view => .propertySetter (some p) choice view

def place : ValueMember → Place
  | field f => f.place
  | property p _ => p.place

/-- **Whether a type of a registry has the member**, declared or inherited. -/
def In (r : Registry) : ValueMember → Prop
  | field f => ∃ t ∈ r.types, f ∈ t.allFields
  | property p _ => ∃ t ∈ r.types, p ∈ t.allProperties

variable (natives : Natives) (x : ValueMember) (s : FieldTypes)

/-- **The body that a read runs**: what is read from a field's storage, or a
call of the get method. -/
def reader : ValueMember → Invocation → Exec RuntimeFault Value
  | field f, inv => f.storage.reader.run natives inv
  | property p _, inv => p.getter.elim noAnswer (·.runBody natives inv)

/-- **The body that a write runs.** -/
def writer : ValueMember → Invocation → Exec RuntimeFault Value
  | field f, inv => f.storage.writer.run natives inv
  | property p _, inv => p.setter.elim noAnswer (·.runBody natives inv)

/-- **Reads a member.** -/
def fetch (receiver : Value) : Exec RuntimeFault Value := do
  let this ← x.place.subject s.receiver receiver
  let v ← x.reader natives ⟨this, []⟩
  handOut s.type v

/-- **Writes a member.** The input is coerced before the receiver is looked
at. -/
def put (receiver input : Value) : Exec RuntimeFault Unit := do
  let v ← castValues s.input input
  let this ← x.place.subject s.receiver receiver
  let _ ← x.writer natives ⟨this, [v]⟩

/-! ## Accesses of either kind -/

variable {natives x s} {f : Field} {p : Property} {choice : Option Bool} {m : Method}
  {receiver input : Value}

/-- A field is read like any member. -/
theorem fetch_field : (field f).fetch natives s receiver = f.read s receiver := by
  simp only [fetch, reader, Field.read, Field.fetch]
  cases hstorage : f.storage with
  | cell c =>
    have hstatic : (field f).place.isStatic = true := congrArg Storage.isStatic hstorage
    rw [Place.subject_of_static hstatic, pure_bind]
    rfl
  | slot i =>
    have hstatic : (field f).place.isStatic = false := Field.isStatic_of_slot hstorage
    simp only [Place.subject_of_instance hstatic, Storage.reader, MemberBody.run,
      Invocation.receiver, ofExcept_ok, pure_bind, bind_assoc]

/-- And written like any. -/
theorem put_field : (field f).put natives s receiver input = f.write s receiver input := by
  simp only [put, writer, Field.write, Field.put]
  refine bind_congr fun v => ?_
  have hargument (this : Option ObjectRef) : Invocation.argument ⟨this, [v]⟩ 0 = .ok v := rfl
  cases hstorage : f.storage with
  | cell c =>
    have hstatic : (field f).place.isStatic = true := congrArg Storage.isStatic hstorage
    rw [Place.subject_of_static hstatic, pure_bind]
    rfl
  | slot i =>
    have hstatic : (field f).place.isStatic = false := Field.isStatic_of_slot hstorage
    simp only [Place.subject_of_instance hstatic, Storage.writer, MemberBody.run, hargument,
      Invocation.receiver, ofExcept_ok, pure_bind, bind_assoc]
    exact bind_congr fun o => bind_pure _

/-- A call of an accessor method is to the same object. -/
theorem invocation_eq_subject {ts : List TypeDef} {args : List Value}
    (hm : m.isStatic = p.isStatic) :
    m.invocation ts receiver args = p.place.subject ts receiver >>= fun this =>
      pure ⟨this, args⟩ := by
  unfold Method.invocation
  cases hstatic : m.isStatic with
  | true => rw [Place.subject_of_static (hm.symm.trans hstatic), if_pos rfl, pure_bind]
  | false =>
    have hinstance : ¬ p.place.isStatic = true := by
      rw [Property.place, ← hm, hstatic]
      exact Bool.false_ne_true
    rw [Place.subject, if_neg hinstance, if_neg Bool.false_ne_true]
    simp only [bind_assoc, pure_bind]

/-- **A property is read like any member.** -/
theorem fetch_property (hm : p.getter = some m) (hstatic : m.isStatic = p.isStatic) :
    (property p choice).fetch natives s receiver = Property.read natives m s receiver := by
  simp only [fetch, place, reader, hm, Option.elim_some, Property.read,
    invocation_eq_subject hstatic, bind_assoc, pure_bind]

/-- **And written like any.** -/
theorem put_property (hm : p.setter = some m) (hstatic : m.isStatic = p.isStatic) :
    (property p choice).put natives s receiver input =
      Property.write natives m s receiver input := by
  simp only [put, place, writer, hm, Option.elim_some, Property.write,
    invocation_eq_subject hstatic, bind_assoc, pure_bind]

end ValueMember

/-! ## The types that an access sees a member through -/

namespace Registry

variable {r : Registry} {place : Place} {owner value : Option TypeHandle} {s s' : FieldTypes}
  {f : Field} {p : Property} {m : Method} {d type : TypeDef} {ts : List TypeDef} {h : TypeHandle}

/-- **The types that an access works with**, seen through an owner and a value
type. Static members have no receiver. -/
structure Sees (r : Registry) (place : Place) (owner value : Option TypeHandle)
    (s : FieldTypes) : Prop where
  type : r.find? place.type = some s.type
  input : r.inputTypes s.type value = some s.input
  receiver : if place.isStatic then s.receiver = []
    else r.receiverTypes place.declaringType owner = some s.receiver

/-- Without a view the receiver is seen as of the declaring type. -/
theorem receiverTypes_none :
    r.receiverTypes h none = some ts ↔ ∃ d, r.find? h = some d ∧ ts = [d] := by
  unfold receiverTypes
  cases hd : r.find? h <;> simp [Option.filter, hd, eq_comm]

/-- Through a view it is seen as of the owner, too. -/
theorem receiverTypes_some {o : TypeHandle} :
    r.receiverTypes h (some o) = some ts ↔ ∃ d, r.find? h = some d ∧
      (o = h ∧ ts = [d] ∨ o ≠ h ∧ ∃ t, r.find? o = some t ∧ ts = [t, d]) := by
  unfold receiverTypes
  by_cases ho : o = h
  · subst ho
    cases hd : r.find? o <;> simp [Option.filter, hd, eq_comm]
  · have hkept : (some o).filter (· != h) = some o := by simp [Option.filter, ho]
    rw [hkept]
    cases hd : r.find? h <;> cases ht : r.find? o <;> simp [hd, ht, ho, eq_comm]

/-- Without a view an input is seen as of the member's type. -/
theorem inputTypes_none : r.inputTypes type none = some ts ↔ ts = [type] := by
  simp [inputTypes, eq_comm]

/-- Through a view it is seen as of the view's value type first. -/
theorem inputTypes_some {v : TypeHandle} :
    r.inputTypes type (some v) = some ts ↔ (v = type.handle ∧ ts = [type] ∨
      v ≠ type.handle ∧ ∃ t, r.find? v = some t ∧ ts = [t, type]) := by
  unfold inputTypes
  by_cases hv : v = type.handle
  · simp [Option.filter, hv, eq_comm]
  · have hkept : (some v).filter (· != type.handle) = some v := by simp [Option.filter, hv]
    rw [hkept]
    cases ht : r.find? v <;> simp [ht, hv, eq_comm]

/-- An instance member has a receiver. -/
theorem Sees.receiverTypes_eq (hs : r.Sees place owner value s) (hstatic : place.isStatic = false) :
    r.receiverTypes place.declaringType owner = some s.receiver := by
  have hreceiver := hs.receiver
  rwa [hstatic, if_neg Bool.false_ne_true] at hreceiver

/-- The receiver of an instance member is always seen as of the declaring type,
too. -/
theorem Sees.declaring (hs : r.Sees place owner value s) (hstatic : place.isStatic = false) :
    ∃ d ∈ s.receiver, r.find? place.declaringType = some d := by
  have hreceiver := hs.receiverTypes_eq hstatic
  cases owner with
  | none =>
    obtain ⟨d, hd, hts⟩ := receiverTypes_none.1 hreceiver
    exact ⟨d, by simp [hts], hd⟩
  | some o =>
    obtain ⟨d, hd, ⟨-, hts⟩ | ⟨-, t, -, hts⟩⟩ := receiverTypes_some.1 hreceiver
    · exact ⟨d, by simp [hts], hd⟩
    · exact ⟨d, by simp [hts], hd⟩

/-- What is seen through a view is there without one. -/
theorem Sees.plain (hs : r.Sees place owner value s) : ∃ s', r.Sees place none none s' := by
  cases hstatic : place.isStatic with
  | true => exact ⟨⟨[], [s.type], s.type⟩, hs.type, inputTypes_none.2 rfl, by simp [hstatic]⟩
  | false =>
    obtain ⟨d, -, hd⟩ := hs.declaring hstatic
    refine ⟨⟨[d], [s.type], s.type⟩, hs.type, inputTypes_none.2 rfl, ?_⟩
    rw [hstatic, if_neg Bool.false_ne_true]
    exact receiverTypes_none.2 ⟨d, hd, rfl⟩

/-- The types of a field are those that any member's would be. -/
theorem fieldTypes?_iff_sees :
    r.fieldTypes? f owner value = some s ↔ r.Sees f.place owner value s :=
  fieldTypes?_eq_some.trans ⟨fun ⟨ht, hi, hr⟩ => ⟨ht, hi, hr⟩, fun ⟨ht, hi, hr⟩ => ⟨ht, hi, hr⟩⟩

/-- So are those of a property whose accessor method agrees with it. -/
theorem hasPropertyTypes_iff_sees (hstatic : m.isStatic = p.isStatic)
    (hdeclaring : m.declaringType = p.declaringType) :
    r.HasPropertyTypes p m owner value s ↔ r.Sees p.place owner value s := by
  constructor
  · rintro ⟨htype, hinput, hreceiver⟩
    rw [hstatic, hdeclaring] at hreceiver
    exact ⟨htype, hinput, hreceiver⟩
  · rintro ⟨htype, hinput, hreceiver⟩
    refine ⟨htype, hinput, ?_⟩
    rw [hstatic, hdeclaring]
    exact hreceiver

/-- **A type declares a property**, together with its accessor methods. -/
structure Declares (r : Registry) (u : TypeDef) (p : Property) : Prop where
  mem : u ∈ r.types
  property : p ∈ u.properties
  declared : p.DeclaredBy u.handle
  defined : u.handle.isBuiltin = false
  accessors : p.AccessorsIn u.methods
  direct : ∀ m ∈ u.methods, m.isStatic = true → m.slot = none
  declaring : ∀ m ∈ u.methods, m.declaringType = p.declaringType

theorem Built.declares (hr : r.Built) {u : TypeDef} (hu : u ∈ r.types) (hp : p ∈ u.properties) :
    r.Declares u p := by
  obtain ⟨ids, hb⟩ := hr
  have hdeclared := (hb.addedTo u hu p hp).declaredBy
  exact
    { mem := hu, property := hp, declared := hdeclared
      defined := hb.isBuiltin_of_properties u hu p hp
      accessors := (hb.contracts.regular u hu).properties p hp
      direct := fun m hm => hb.wellFormed.slot_eq_none hu hm
      declaring := fun m hm =>
        (hb.methods_declaring u hu m hm).trans hdeclared.declaringType.symm }

/-- Whatever property a type of a built registry has, one declares it. -/
theorem Built.exists_declares (hr : r.Built) {t : TypeDef} (ht : t ∈ r.types)
    (hp : p ∈ t.allProperties) : ∃ u, r.Declares u p := by
  obtain ⟨u, hu, hpu⟩ := hr.elim fun ids hb => hb.exists_declaring_property t ht p hp
  exact ⟨u, hr.declares hu hpu⟩

namespace Declares

variable {u : TypeDef}

/-- The types of an access are those that its get method would need. -/
theorem sees_of_getter (hu : r.Declares u p) (hm : p.getter = some m) :
    r.HasPropertyTypes p m owner value s ↔ r.Sees p.place owner value s :=
  hasPropertyTypes_iff_sees (hu.declared.getter m hm) (hu.declaring m (hu.accessors.getter m hm).1)

theorem sees_of_setter (hu : r.Declares u p) (hm : p.setter = some m) :
    r.HasPropertyTypes p m owner value s ↔ r.Sees p.place owner value s :=
  hasPropertyTypes_iff_sees (hu.declared.setter m hm) (hu.declaring m (hu.accessors.setter m hm).1)

end Declares

end Registry

/-! ## What accessors do -/

namespace Reflector

variable {r : Reflector} {x : ValueMember} {view : Option View} {a : Accessor}

/-- **A getter reads its member**, seen through the view's owner if there is a
view. -/
theorem get_eq_fetch (hr : r.registry.Built) (hx : x.In r.registry)
    (ha : r.Compiles (x.getter view) a) :
    ∃ s, r.registry.Sees x.place (view.map (·.owner)) none s ∧
      ∀ natives receiver, a.get natives receiver =
        Exec.mapFault .runtime (x.fetch natives s receiver) := by
  cases x with
  | field f =>
    obtain ⟨s, hs, hget⟩ := get_eq_read ha
    refine ⟨s, Registry.fieldTypes?_iff_sees.1 hs, fun natives receiver => ?_⟩
    rw [hget, ValueMember.fetch_field]
  | property p choice =>
    obtain ⟨t, ht, hp⟩ := hx
    obtain ⟨u, hu⟩ := hr.exists_declares ht hp
    obtain ⟨m, s, hm, hs, hget⟩ := get_eq_read_property hu.accessors hu.direct ha
    refine ⟨s, (hu.sees_of_getter hm).1 hs, fun natives receiver => ?_⟩
    rw [hget, ValueMember.fetch_property hm (hu.declared.getter m hm)]

/-- **A setter writes its member**, seen through both types of the view. -/
theorem set_eq_put (hr : r.registry.Built) (hx : x.In r.registry)
    (ha : r.Compiles (x.setter view) a) :
    ∃ s, r.registry.Sees x.place (view.map (·.owner)) (view.map (·.value)) s ∧
      ∀ natives receiver input, a.set natives receiver input =
        Exec.mapFault .runtime (x.put natives s receiver input) := by
  cases x with
  | field f =>
    obtain ⟨s, hs, hset⟩ := set_eq_write ha
    refine ⟨s, Registry.fieldTypes?_iff_sees.1 hs, fun natives receiver input => ?_⟩
    rw [hset, ValueMember.put_field]
  | property p choice =>
    obtain ⟨t, ht, hp⟩ := hx
    obtain ⟨u, hu⟩ := hr.exists_declares ht hp
    obtain ⟨m, s, hm, hs, hset⟩ := set_eq_write_property hu.accessors hu.direct ha
    refine ⟨s, (hu.sees_of_setter hm).1 hs, fun natives receiver input => ?_⟩
    rw [hset, ValueMember.put_property hm (hu.declared.setter m hm)]

end Reflector

end MemberAccess
