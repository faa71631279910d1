import MemberAccess.Proofs.Accessor.Made
import MemberAccess.Proofs.Catalog.Properties
/-!
# Accessor — static members have no receiver

One instruction alone looks at the receiver of a call. A body without it does
the same on every receiver: each step does (`Code.step_withReceiver`), and so
does a run (`Code.IgnoresReceiver.runFrom_withReceiver`), whatever natives do
to the heap on the way. The bodies that are compiled for static members are of
this kind, with guards or without, through a view or without one
(`Registry.Built.ignoresReceiver_planAt`). So what is asked of a static member
does not depend on what it is asked of (`Reflector.static_ignores_receiver`).
-/

namespace MemberAccess

/-! ## Bodies that do not look at the receiver -/

/-- The same call of a body on another receiver. -/
def Frame.withReceiver (frame : Frame) (v : Value) : Frame := { frame with receiver := v }

/-- **A body that never looks at its receiver.** -/
def Code.IgnoresReceiver (code : Code) : Prop := .loadReceiver ∉ code.ops

namespace Code

variable {natives : Natives} {code : Code} {frame : Frame} {op : Op}

/-- **Every other instruction** does the same on every receiver. -/
theorem step_withReceiver (hop : op ≠ .loadReceiver) (v : Value) (c : Config) :
    step natives code (frame.withReceiver v) c op = step natives code frame c op := by
  cases op with
  | loadReceiver => exact absurd rfl hop
  | _ => rfl

/-- **And so does a run** of a body that has only other ones. -/
theorem IgnoresReceiver.runFrom_withReceiver (hcode : code.IgnoresReceiver) (v : Value)
    (bound : Nat) (c : Config) :
    code.runFrom natives (frame.withReceiver v) bound c = code.runFrom natives frame bound c := by
  induction bound generalizing c with
  | zero =>
    unfold runFrom
    cases code.ops[c.pc]? <;> rfl
  | succ bound ih =>
    unfold runFrom
    cases hop : code.ops[c.pc]? with
    | none => rfl
    | some op =>
      have hne : op ≠ .loadReceiver := fun heq => hcode (heq ▸ List.mem_of_getElem? hop)
      simp only [step_withReceiver hne]
      refine bind_congr fun progress => ?_
      cases progress with
      | next c => exact ih c
      | done v => rfl

end Code

namespace Accessor

variable {a : Accessor} {natives : Natives}

theorem call_withReceiver (ha : a.code.IgnoresReceiver) (frame : Frame) (v : Value) :
    a.call natives (frame.withReceiver v) = a.call natives frame :=
  ha.runFrom_withReceiver v _ _

end Accessor

/-! ## The parts of bodies -/

namespace Op

theorem callOf_ne_loadReceiver (m : Method) : callOf m ≠ .loadReceiver := by
  unfold callOf
  split <;> nofun

theorem loadReceiver_notMem_boxIfNeeded (t : TypeDef) : .loadReceiver ∉ boxIfNeeded t := by
  unfold boxIfNeeded
  split <;> simp

theorem loadReceiver_notMem_inputCasts (ts : List TypeDef) : .loadReceiver ∉ inputCasts ts := by
  simp [inputCasts]

theorem loadReceiver_notMem_argumentCasts (i : Nat) (ts : List TypeDef) :
    .loadReceiver ∉ argumentCasts i ts := by
  induction ts generalizing i with
  | nil => simp [argumentCasts]
  | cons t ts ih => simp [argumentCasts, ih]

end Op

/-- A guard that needs no receiver does not look at it. -/
theorem Guard.loadReceiver_notMem_ops {g : Guard} (hg : g.receiver = false) :
    .loadReceiver ∉ g.ops := by
  obtain ⟨receiver, n⟩ := g
  subst hg
  cases n <;> simp [ops, lines, isTrivial, receiverLines, argumentLines, Line.op?]

theorem CallTypes.loadReceiver_notMem_resultOps (s : CallTypes) :
    .loadReceiver ∉ s.resultOps := by
  unfold resultOps
  cases s.result with
  | none => simp
  | some t => exact Op.loadReceiver_notMem_boxIfNeeded t

/-! ## Bodies of static members -/

namespace Registry

variable {r : Registry} {code : Code} {f : Field} {p : Property} {m : Method}
  {owner value : Option TypeHandle} {validate : Bool}

theorem ignoresReceiver_of_fieldGetter (hs : f.isStatic = true)
    (h : r.fieldGetter f owner = .ok code) : code.IgnoresReceiver := by
  obtain ⟨s, htypes⟩ := types_of_fieldGetter h
  obtain ⟨code', hcode, hbody⟩ := fieldGetter_of_types htypes
  obtain rfl : code = code' := Except.ok.inj (h.symm.trans hcode)
  rw [Code.IgnoresReceiver, hbody.ops_eq, Field.getterOps]
  cases hstorage : f.storage with
  | slot i => simp [Field.isStatic_of_slot hstorage] at hs
  | cell c => simp [Op.loadReceiver_notMem_boxIfNeeded]

theorem ignoresReceiver_of_fieldSetter (hs : f.isStatic = true)
    (h : r.fieldSetter f owner value = .ok code) : code.IgnoresReceiver := by
  obtain ⟨s, htypes⟩ := types_of_fieldSetter h
  obtain ⟨code', hcode, hbody⟩ := fieldSetter_of_types htypes
  obtain rfl : code = code' := Except.ok.inj (h.symm.trans hcode)
  rw [Code.IgnoresReceiver, hbody.ops_eq, Field.setterOps]
  cases hstorage : f.storage with
  | slot i => simp [Field.isStatic_of_slot hstorage] at hs
  | cell c => simp [Op.loadReceiver_notMem_inputCasts]

theorem ignoresReceiver_of_propertyGetter (hs : m.isStatic = true)
    (h : r.propertyGetter p m owner = .ok code) : code.IgnoresReceiver := by
  obtain ⟨s, -, -, hbody⟩ := propertyGetter_eq_ok h
  rw [Code.IgnoresReceiver, hbody.ops_eq, Property.getterOps, Method.subjectOps, if_pos hs]
  simp [(Op.callOf_ne_loadReceiver m).symm, Op.loadReceiver_notMem_boxIfNeeded]

theorem ignoresReceiver_of_propertySetter (hs : m.isStatic = true)
    (h : r.propertySetter p m owner value = .ok code) : code.IgnoresReceiver := by
  obtain ⟨s, -, -, hbody⟩ := propertySetter_eq_ok h
  rw [Code.IgnoresReceiver, hbody.ops_eq, Property.setterOps, Method.subjectOps, if_pos hs]
  simp [(Op.callOf_ne_loadReceiver m).symm, Op.loadReceiver_notMem_inputCasts]

/-- The guard of a static method checks the arguments alone. -/
theorem ignoresReceiver_of_methodInvoker (hs : m.isStatic = true)
    (h : r.methodInvoker m validate = .ok code) : code.IgnoresReceiver := by
  obtain ⟨s, htypes⟩ := callTypes?_of_methodInvoker h
  obtain ⟨code', hcode, hbody⟩ := methodInvoker_of_callTypes? htypes validate
  obtain rfl : code = code' := Except.ok.inj (h.symm.trans hcode)
  have hreceiver : s.receiverOps = [] := by
    obtain ⟨hnone, -⟩ := callTypes?_eq_some.1 htypes
    rw [if_pos hs] at hnone
    rw [CallTypes.receiverOps, hnone]
    rfl
  have hguard : (invokerGuard m validate).receiver = false := by
    cases validate <;> simp [invokerGuard, hs]
  rw [Code.IgnoresReceiver, hbody.ops_eq, CallTypes.ops, hreceiver]
  simp [(Op.callOf_ne_loadReceiver m).symm, Guard.loadReceiver_notMem_ops hguard,
    Op.loadReceiver_notMem_argumentCasts, s.loadReceiver_notMem_resultOps]

end Registry

/-! ## Members -/

namespace Member

/-- **Whether a member is static.** Constructors are not: they make what they
work on. -/
def isStatic : Member → Bool
  | field f => f.isStatic
  | property p => p.isStatic
  | method m => m.isStatic
  | constructor _ => false

/-- **Whether a type of a registry has the member**, declared or inherited. -/
def In (r : Registry) : Member → Prop
  | field f => ∃ t ∈ r.types, f ∈ t.allFields
  | property p => ∃ t ∈ r.types, p ∈ t.allProperties
  | method m => ∃ t ∈ r.types, m ∈ t.allMethods
  | constructor k => ∃ t ∈ r.types, k ∈ t.constructors

end Member

/-- **Both accessor methods of a static property are static.** -/
theorem Registry.Built.isStatic_of_property {r : Registry} {p : Property} (hr : r.Built)
    (hp : (Member.property p).In r) (hs : p.isStatic = true) :
    ∀ m, p.getter = some m ∨ p.setter = some m → m.isStatic = true := by
  obtain ⟨ids, hb⟩ := hr
  obtain ⟨t, ht, hmem⟩ := hp
  obtain ⟨u, hu, hdeclared⟩ := hb.exists_declaring_property t ht p hmem
  have hdecl := (hb.addedTo u hu p hdeclared).declaredBy
  rintro m (hm | hm)
  · exact (hdecl.getter m hm).trans hs
  · exact (hdecl.setter m hm).trans hs

namespace Reflector

variable {r : Reflector} {f : Field} {p : Property} {m : Method} {nonPublic validate : Bool}
  {view : Option View}

theorem plans_static_fieldGetter (hs : f.isStatic = true) :
    Plans Code.IgnoresReceiver (r.planFieldGetter (some f) view) := by
  refine .bind fun g hg => .ok fun code hcode => ?_
  obtain rfl : f = g := Option.some.inj (present_eq_ok.1 hg)
  obtain ⟨_, -, hcode⟩ := bind_eq_ok.1 hcode
  exact Registry.ignoresReceiver_of_fieldGetter hs hcode

theorem plans_static_fieldSetter (hs : f.isStatic = true) :
    Plans Code.IgnoresReceiver (r.planFieldSetter (some f) view) := by
  refine .bind fun g hg => .ok fun code hcode => ?_
  obtain rfl : f = g := Option.some.inj (present_eq_ok.1 hg)
  obtain ⟨_, -, hcode⟩ := bind_eq_ok.1 hcode
  exact Registry.ignoresReceiver_of_fieldSetter hs hcode

/-- A property's getter is as static as its get method. -/
theorem plans_static_propertyGetter (hp : ∀ m, p.getter = some m → m.isStatic = true) :
    Plans Code.IgnoresReceiver (r.planPropertyGetter (some p) nonPublic view) := by
  refine .bind fun p' hp' => .bind fun m hm => .ok fun code hcode => ?_
  obtain rfl : p = p' := Option.some.inj (present_eq_ok.1 hp')
  obtain ⟨_, -, hcode⟩ := bind_eq_ok.1 hcode
  exact Registry.ignoresReceiver_of_propertyGetter (hp m (Property.resolveGet_eq_ok hm).2) hcode

theorem plans_static_propertySetter (hp : ∀ m, p.setter = some m → m.isStatic = true) :
    Plans Code.IgnoresReceiver (r.planPropertySetter (some p) nonPublic view) := by
  refine .bind fun p' hp' => .bind fun m hm => .ok fun code hcode => ?_
  obtain rfl : p = p' := Option.some.inj (present_eq_ok.1 hp')
  obtain ⟨_, -, hcode⟩ := bind_eq_ok.1 hcode
  exact Registry.ignoresReceiver_of_propertySetter (hp m (Property.resolveSet_eq_ok hm).2) hcode

theorem plans_static_methodInvoker (hs : m.isStatic = true) :
    Plans Code.IgnoresReceiver (r.planMethodInvoker (some m) validate) := by
  refine .bind fun n hn => .ok fun code hcode => ?_
  obtain rfl : m = n := Option.some.inj (present_eq_ok.1 hn)
  exact Registry.ignoresReceiver_of_methodInvoker hs hcode

end Reflector

/-- **Whatever is compiled for a static member** does not look at the
receiver. -/
theorem Registry.Built.ignoresReceiver_planAt {r : Registry} {m : Member} (hr : r.Built)
    (hm : m.In r) (hs : m.isStatic = true) (k : CacheKey) :
    Plans Code.IgnoresReceiver (r.planAt k (.member m)) := by
  -- the key says whether the accessor reads or writes
  cases m with
  | field f =>
    simp only [planAt]
    split
    · exact Reflector.plans_static_fieldGetter hs
    · exact Reflector.plans_static_fieldSetter hs
  | property p =>
    have hmethods := hr.isStatic_of_property hm hs
    simp only [planAt]
    split
    · exact Reflector.plans_static_propertyGetter fun m hget => hmethods m (.inl hget)
    · exact Reflector.plans_static_propertySetter fun m hset => hmethods m (.inr hset)
  | method m => exact Reflector.plans_static_methodInvoker hs
  | constructor k => cases hs

namespace Reflector

variable {r : Reflector} {q : Request} {m : Member} {a : Accessor}

/-- **The body of every accessor** of a static member is of this kind. -/
theorem ignoresReceiver_of_compiles (hr : r.registry.Built) (hm : m.In r.registry)
    (hs : m.isStatic = true) (hq : q.subject? = some (.member m)) (ha : r.Compiles q a) :
    a.code.IgnoresReceiver := by
  obtain ⟨p, hplan, hcode, -⟩ := compiles_iff.1 ha
  obtain ⟨s, hsubject, hfits⟩ := fits_of_plan hplan
  obtain rfl : Subject.member m = s := Option.some.inj (hq.symm.trans hsubject)
  exact hr.ignoresReceiver_planAt hm hs p.key p hfits.recomputed a.code hcode

/-- **Static members ignore the receiver.** Whatever accessor is asked for, of
whatever static member of a built registry, and on whatever heap it is used:
reading, reading converted, writing and invoking answer alike on any two
receivers, and leave the heap alike. -/
theorem static_ignores_receiver (hr : r.registry.Built) (hm : m.In r.registry)
    (hs : m.isStatic = true) (hq : q.subject? = some (.member m)) (ha : r.Compiles q a)
    (natives : Natives) (h : Heap) (v w : Value) :
    (a.get natives v).run h = (a.get natives w).run h ∧
      (∀ c, (a.getAs natives c v).run h = (a.getAs natives c w).run h) ∧
      (∀ input, (a.set natives v input).run h = (a.set natives w input).run h) ∧
      ∀ arguments, (a.invoke natives v arguments).run h =
        (a.invoke natives w arguments).run h := by
  have hcode := ignoresReceiver_of_compiles hr hm hs hq ha
  have hget : a.get natives v = a.get natives w :=
    Accessor.call_withReceiver hcode (.getter w) v
  refine ⟨by rw [hget], fun c => ?_, fun input => ?_, fun arguments => ?_⟩
  · rw [Accessor.getAs, Accessor.getAs, hget]
  · have hset : a.call natives (.setter v input) = a.call natives (.setter w input) :=
      Accessor.call_withReceiver hcode (.setter w input) v
    rw [Accessor.set, Accessor.set, hset]
  · have hinvoke : a.invoke natives v arguments = a.invoke natives w arguments :=
      Accessor.call_withReceiver hcode (.invoker w arguments) v
    rw [hinvoke]

end Reflector

/-! ## Static members at work -/

namespace Sample

/-- Turnstiles are counted together, and let guests in together. -/
def turnstileDefinition : TypeDefinition where
  name := "Turnstile"
  kind := .classType
  properties := [{ PropertyDefinition.auto "count" .int32 with isStatic := true }]
  methods := [{
    name := "enter"
    parameters := [⟨"guests", .int32⟩]
    returnType := .int32
    isStatic := true
    body := some (.native ⟨0⟩) }]

def hiddenCount : Field := ⟨⟨66⟩, "<count>backing", ⟨65⟩, .int32, .owner, .cell ⟨0⟩⟩

def enter : Method where
  id := ⟨67⟩
  name := "enter"
  declaringType := ⟨65⟩
  parameters := [⟨"guests", .int32, 0⟩]
  returnType := .int32
  visibility := .anyone
  isStatic := true
  slot := none
  body := some (.native ⟨0⟩)

def getCount : Method where
  id := ⟨68⟩
  name := "get_count"
  declaringType := ⟨65⟩
  parameters := []
  returnType := .int32
  visibility := .anyone
  isStatic := true
  slot := none
  body := some (.readCell ⟨0⟩)

def setCount : Method where
  id := ⟨69⟩
  name := "set_count"
  declaringType := ⟨65⟩
  parameters := [⟨"value", .int32, 0⟩]
  returnType := .void
  visibility := .anyone
  isStatic := true
  slot := none
  body := some (.writeCell ⟨0⟩)

def count : Property := ⟨⟨70⟩, "count", ⟨65⟩, .int32, some getCount, some setCount, []⟩

def turnstile : TypeDef :=
  { TypeDef.blank ⟨65⟩ "Turnstile" .classType with
    base := some .object
    fields := [hiddenCount]
    properties := [count]
    methods := [enter, getCount, setCount]
    constructors := [⟨⟨71⟩, ⟨65⟩, [], .anyone, none⟩] }

def entrance : Catalog := ⟨(Catalog.standard {}).1.types ++ [turnstile]⟩

theorem define_turnstile :
    ((Catalog.standard {}).1.define turnstileDefinition (Catalog.standard {}).2).run {} =
      some (.ok ⟨⟨65⟩, entrance, ⟨72⟩⟩, { cells := #[.int32 0] }) := by rfl

def entranceRegistry : Registry := (entrance.freeze ⟨72⟩).1

theorem entranceRegistry_built : entranceRegistry.Built :=
  ⟨⟨72⟩, .define (.standard {} (by decide)) (Nat.le_refl _) define_turnstile⟩

/-- One turnstile, and the count of all of them. -/
def lobby : Heap where
  objects := #[⟨turnstile, []⟩]
  cells := #[.int32 0]

/-- **The count, seen through a view**, is written on null as on a turnstile,
and guests enter, arguments checked, by a number as by nothing. -/
theorem static_ignores_receiver_turnstile :
    entranceRegistry.Built ∧
      ((Member.property count).In entranceRegistry ∧ (Member.property count).isStatic = true ∧
        ∃ a, Reflector.Compiles ⟨entranceRegistry, {}⟩
            (.propertySetter (some count) none (some ⟨turnstile.handle, .int32⟩)) a ∧
          ∀ natives input, (a.set natives .null input).run lobby =
            (a.set natives (.object ⟨0⟩) input).run lobby) ∧
      (Member.method enter).In entranceRegistry ∧ (Member.method enter).isStatic = true ∧
        ∃ a, Reflector.Compiles ⟨entranceRegistry, {}⟩ (.memberAccessor (some (.method enter))) a ∧
          ∀ natives arguments, (a.invoke natives (.int32 3) arguments).run lobby =
            (a.invoke natives .null arguments).run lobby := by
  have hcount : (Member.property count).In entranceRegistry := ⟨turnstile, by decide, by decide⟩
  have henter : (Member.method enter).In entranceRegistry := ⟨turnstile, by decide, by decide⟩
  obtain ⟨a, ha⟩ : ∃ a, Reflector.Compiles ⟨entranceRegistry, {}⟩
    (.propertySetter (some count) none (some ⟨turnstile.handle, .int32⟩)) a := ⟨_, {}, rfl⟩
  obtain ⟨b, hb⟩ : ∃ b, Reflector.Compiles ⟨entranceRegistry, {}⟩
    (.memberAccessor (some (.method enter))) b := ⟨_, {}, rfl⟩
  refine ⟨entranceRegistry_built, ⟨hcount, rfl, a, ha, fun natives => ?_⟩, henter, rfl, b, hb,
    fun natives => ?_⟩
  · obtain ⟨-, -, hset, -⟩ := Reflector.static_ignores_receiver entranceRegistry_built hcount rfl
      rfl ha natives lobby .null (.object ⟨0⟩)
    exact hset
  · obtain ⟨-, -, -, hinvoke⟩ := Reflector.static_ignores_receiver entranceRegistry_built henter
      rfl rfl hb natives lobby (.int32 3) .null
    exact hinvoke

end Sample

end MemberAccess
