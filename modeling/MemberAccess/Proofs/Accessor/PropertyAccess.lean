import MemberAccess.Proofs.Accessor.DirectCall
import MemberAccess.Proofs.Accessor.FieldAccess
import MemberAccess.Proofs.Catalog.Contracts
/-!
# Accessor — a property access is a call of its accessor method

Without a stack or a compiler: an input is coerced first, then the receiver is
cast and has to be an object, one body runs, and a value of a value type is
copied on the way out (`Property.read`, `Property.write`). The accessors of a
property whose accessor methods have the parameters that reading and writing
call for are just that, through a view or without one.
-/

namespace MemberAccess

namespace Method

/-- **What an accessor method is called with**: the receiver, cast to types,
which has to be an object, unless the method is static. -/
def invocation (m : Method) (ts : List TypeDef) (receiver : Value) (arguments : List Value) :
    Exec RuntimeFault Invocation :=
  if m.isStatic then pure ⟨none, arguments⟩
  else do
    let v ← Exec.read (·.castReceiver ts receiver)
    let o ← Exec.read (·.expectObject v)
    return ⟨some o, arguments⟩

/-- The receiver of an accessor method on the stack, if it has one. -/
def subjectOps (m : Method) (ts : List TypeDef) : List Op :=
  if m.isStatic then [] else Op.receiverCasts ts

theorem straight_subjectOps (m : Method) (ts : List TypeDef) :
    ∀ op ∈ m.subjectOps ts, op.IsStraight := by
  unfold subjectOps
  split
  · simp
  · exact Op.straight_receiverCasts ts

theorem heightAfter_subjectOps (m : Method) (ts : List TypeDef) :
    Op.heightAfter (m.subjectOps ts) 0 = some (if m.isStatic then 0 else 1) := by
  unfold subjectOps
  cases m.isStatic with
  | true => rfl
  | false => exact Op.heightAfter_receiverCasts ts 0

end Method

namespace Property

open Exec

variable (natives : Natives) (m : Method) (s : FieldTypes)

/-- **Reads a property** through its get method. -/
def read (receiver : Value) : Exec RuntimeFault Value := do
  let inv ← m.invocation s.receiver receiver []
  let v ← m.runBody natives inv
  handOut s.type v

/-- **Writes a property** through its set method. The input is coerced before
the receiver is looked at. -/
def write (receiver input : Value) : Exec RuntimeFault Unit := do
  let v ← castValues s.input input
  let inv ← m.invocation s.receiver receiver [v]
  let _ ← m.runBody natives inv

/-- The instructions of a getter. -/
def getterOps : List Op :=
  m.subjectOps s.receiver ++ ([Op.callOf m] ++ (Op.boxIfNeeded s.type ++ [.ret]))

/-- The instructions of a setter. -/
def setterOps : List Op :=
  Op.inputCasts s.input ++ (m.subjectOps s.receiver ++ ([.loadLocal 0, Op.callOf m] ++ [.retVoid]))

theorem straight_getterOps : ∀ op ∈ getterOps m s, op.IsStraight := by
  intro op hop
  simp only [getterOps, List.mem_append, List.mem_cons, List.not_mem_nil, or_false] at hop
  rcases hop with hop | rfl | hop | rfl
  · exact m.straight_subjectOps s.receiver op hop
  · exact Op.straight_callOf m
  · exact Op.straight_boxIfNeeded s.type op hop
  · rfl

theorem straight_setterOps : ∀ op ∈ setterOps m s, op.IsStraight := by
  intro op hop
  simp only [setterOps, List.mem_append, List.mem_cons, List.not_mem_nil, or_false] at hop
  rcases hop with hop | hop | (rfl | rfl) | rfl
  · exact Op.straight_inputCasts s.input op hop
  · exact m.straight_subjectOps s.receiver op hop
  · rfl
  · exact Op.straight_callOf m
  · rfl

end Property

/-! ## Walking through an access -/

namespace Code

variable {natives : Natives} {frame : Frame} {m : Method} {s : FieldTypes} {body : String}

/-- **An instance call** takes the receiver from below the arguments; it has
to be an object. -/
theorem step_callOf_value (hs : m.isStatic = false) {args : List Value}
    (hargs : args.length = m.parameters.length) (v : Value) (c : Config) :
    step natives default frame ((c.push v).pushAll args) (Op.callOf m) =
      Exec.mapFault .runtime (Exec.read (·.expectObject v) >>= fun o =>
        m.runBody natives ⟨some o, args⟩) >>= fun w =>
          pure (.next (if m.returnsVoid then c else c.push w)) := by
  have hslot : m.isStatic = true → m.slot = none := by simp [hs]
  simp only [step_callOf, call, callMethod_eq hslot, Exec.mapFault_bind, bind_assoc]
  rw [← hargs, popN_pushAll, hs]
  rfl

/-- **Walking up to the call** of an accessor method runs its body on what it
is called with. -/
theorem walk_subject {load : List Op} {args : List Value} {c : Config} (ts : List TypeDef)
    (hload : ∀ stack, walk natives frame load { c with stack := stack } =
      pure (.next ({ c with stack := stack }.pushAll args)))
    (hargs : args.length = m.parameters.length) (hslot : m.isStatic = true → m.slot = none) :
    walk natives frame (m.subjectOps ts ++ (load ++ [Op.callOf m])) c =
      Exec.mapFault .runtime (m.invocation ts frame.receiver args >>= m.runBody natives) >>=
        fun w => pure (.next (if m.returnsVoid then c else c.push w)) := by
  unfold Method.subjectOps Method.invocation
  cases hs : m.isStatic with
  | true =>
    simp only [if_true, List.nil_append, walk_append, pure_bind]
    rw [hload c.stack, pure_bind, Progress.andThen_next, walk_cons,
      step_callOf_static hs (hslot hs) hargs, bind_assoc]
    rfl
  | false =>
    rw [if_neg Bool.false_ne_true, if_neg Bool.false_ne_true, walk_append, walk_receiverCasts]
    simp only [Exec.mapFault_bind, bind_assoc, pure_bind, Progress.andThen_next]
    refine bind_congr fun v => ?_
    have hpush : walk natives frame load (c.push v) = pure (.next ((c.push v).pushAll args)) :=
      hload (v :: c.stack)
    rw [walk_append, hpush, pure_bind, Progress.andThen_next, walk_cons,
      step_callOf_value hs hargs, bind_assoc]
    simp only [Exec.mapFault_bind, bind_assoc]
    rfl

/-- **The body of a getter reads the property.** -/
theorem walk_propertyGetter (hargs : m.parameters.length = 0) (hvoid : m.returnsVoid = false)
    (hslot : m.isStatic = true → m.slot = none) :
    walk natives frame (Property.getterOps m s) {} >>= Progress.answer body =
      Exec.mapFault .runtime (Property.read natives m s frame.receiver) := by
  have hsubject := @walk_subject natives frame m [] [] {} s.receiver (fun _ => rfl) hargs.symm hslot
  rw [List.nil_append] at hsubject
  rw [Property.getterOps, ← List.append_assoc, walk_append, hsubject]
  simp only [hvoid, Bool.false_eq_true, if_false, bind_assoc, pure_bind, Progress.andThen_next,
    walk_boxIfNeeded, Property.read, Exec.mapFault_bind]

/-- **The body of a setter writes the property.** -/
theorem walk_propertySetter (hargs : m.parameters.length = 1) (hvoid : m.returnsVoid = true)
    (hslot : m.isStatic = true → m.slot = none) :
    walk natives frame (Property.setterOps m s) { locals := [.null] } >>= Progress.answer body =
      Exec.mapFault .runtime (Property.write natives m s frame.receiver frame.input) >>=
        fun _ => pure .null := by
  have hsubject (v : Value) := @walk_subject natives frame m [.loadLocal 0] [v] { locals := [v] }
    s.receiver (fun _ => rfl) hargs.symm hslot
  rw [Property.setterOps, walk_append, walk_inputCasts _ (by simp), Property.write,
    Exec.mapFault_bind]
  simp only [bind_assoc, pure_bind, Progress.andThen_next, List.set_cons_zero]
  refine bind_congr fun v => ?_
  have hops : m.subjectOps s.receiver ++ ([.loadLocal 0, Op.callOf m] ++ [.retVoid]) =
      m.subjectOps s.receiver ++ ([.loadLocal 0] ++ [Op.callOf m]) ++ [.retVoid] := by simp
  rw [hops, walk_append, hsubject v]
  simp only [hvoid, if_true, Exec.mapFault_bind, bind_assoc, pure_bind, Progress.andThen_next]
  rfl

end Code

/-! ## What is compiled -/

namespace Registry

variable {r : Registry} {p : Property} {m : Method} {owner value : Option TypeHandle} {code : Code}

/-- **The types that an access to a property works with**, its accessor method
given. Static methods have no receiver. -/
structure HasPropertyTypes (r : Registry) (p : Property) (m : Method)
    (owner value : Option TypeHandle) (s : FieldTypes) : Prop where
  type : r.find? p.type = some s.type
  input : r.inputTypes s.type value = some s.input
  receiver : if m.isStatic then s.receiver = []
    else r.receiverTypes m.declaringType owner = some s.receiver

/-- The receiver of an accessor method is compiled to casts. -/
theorem accessorReceiver_eq_ok {ops : List Op} :
    r.accessorReceiver m owner = .ok ops ↔ ∃ ts, ops = m.subjectOps ts ∧ if m.isStatic then ts = []
      else r.receiverTypes m.declaringType owner = some ts := by
  unfold accessorReceiver Method.subjectOps
  cases hs : m.isStatic with
  | true => simp [eq_comm]
  | false =>
    rw [if_neg Bool.false_ne_true, receiverOps_eq_ok]
    simp only [Bool.false_eq_true, if_false, and_comm]

theorem compileListing_eq_ok_iff {l : Listing} {name : String} :
    compileListing l name = .ok code ↔ l.assemble name = .ok code := by
  unfold compileListing
  cases l.assemble name <;> simp [Except.mapError]

/-- What a getter is compiled from. -/
theorem propertyGetter_eq_ok_iff :
    r.propertyGetter p m owner = .ok code ↔ ∃ s, r.HasPropertyTypes p m owner none s ∧
      (Listing.straight (Property.getterOps m s) 0).assemble
        (r.bodyName p.declaringType p.name "get") = .ok code := by
  have hlisting (ts : List TypeDef) (type : TypeDef) :
      m.subjectOps ts ++ [Op.callOf m] ++ Op.boxIfNeeded type ++ [.ret] =
        Property.getterOps m ⟨ts, [type], type⟩ := by simp [Property.getterOps]
  unfold propertyGetter
  constructor
  · intro h
    obtain ⟨type, htype, h⟩ := bind_eq_ok.1 h
    obtain ⟨ops, hops, h⟩ := bind_eq_ok.1 h
    obtain ⟨ts, rfl, hts⟩ := accessorReceiver_eq_ok.1 hops
    rw [hlisting, compileListing_eq_ok_iff] at h
    exact ⟨_, ⟨require_eq_ok.1 htype, by simp [inputTypes], hts⟩, h⟩
  · rintro ⟨⟨ts, input, type⟩, hs, h⟩
    have hinput : [type] = input := by simpa [inputTypes] using hs.input
    subst hinput
    have hreceiver := accessorReceiver_eq_ok.2 ⟨ts, rfl, hs.receiver⟩
    refine bind_eq_ok.2 ⟨type, require_eq_ok.2 hs.type, bind_eq_ok.2 ⟨_, hreceiver, ?_⟩⟩
    rw [hlisting, compileListing_eq_ok_iff]
    exact h

/-- What a setter is compiled from. -/
theorem propertySetter_eq_ok_iff :
    r.propertySetter p m owner value = .ok code ↔ ∃ s, r.HasPropertyTypes p m owner value s ∧
      (Listing.straight (Property.setterOps m s) 1).assemble
        (r.bodyName p.declaringType p.name "set") = .ok code := by
  have hlisting (ts is : List TypeDef) (type : TypeDef) :
      Op.inputCasts is ++ m.subjectOps ts ++ [.loadLocal 0, Op.callOf m, .retVoid] =
        Property.setterOps m ⟨ts, is, type⟩ := by simp [Property.setterOps]
  unfold propertySetter
  constructor
  · intro h
    obtain ⟨type, htype, h⟩ := bind_eq_ok.1 h
    obtain ⟨input, hinput, h⟩ := bind_eq_ok.1 h
    obtain ⟨ops, hops, h⟩ := bind_eq_ok.1 h
    obtain ⟨is, his, rfl⟩ := inputOps_eq_ok.1 hinput
    obtain ⟨ts, rfl, hts⟩ := accessorReceiver_eq_ok.1 hops
    rw [hlisting ts is type, compileListing_eq_ok_iff] at h
    exact ⟨_, ⟨require_eq_ok.1 htype, his, hts⟩, h⟩
  · rintro ⟨⟨ts, is, type⟩, hs, h⟩
    have hinput : r.inputOps type value "property" = .ok (Op.inputCasts is) :=
      inputOps_eq_ok.2 ⟨is, hs.input, rfl⟩
    have hreceiver := accessorReceiver_eq_ok.2 ⟨ts, rfl, hs.receiver⟩
    refine bind_eq_ok.2 ⟨type, require_eq_ok.2 hs.type, bind_eq_ok.2 ⟨_, hinput, ?_⟩⟩
    refine bind_eq_ok.2 ⟨_, hreceiver, ?_⟩
    rw [hlisting ts is type, compileListing_eq_ok_iff]
    exact h

/-- **The body of a getter.** -/
theorem propertyGetter_eq_ok (h : r.propertyGetter p m owner = .ok code) :
    ∃ s, r.HasPropertyTypes p m owner none s ∧ Op.Balanced (Property.getterOps m s) ∧
      code.Unguarded (r.bodyName p.declaringType p.name "get") (Property.getterOps m s) 0 := by
  obtain ⟨s, hs, h⟩ := propertyGetter_eq_ok_iff.1 h
  exact ⟨s, hs, Listing.unguarded_of_assemble (Property.straight_getterOps m s) h⟩

/-- **The body of a setter.** -/
theorem propertySetter_eq_ok (h : r.propertySetter p m owner value = .ok code) :
    ∃ s, r.HasPropertyTypes p m owner value s ∧ Op.Balanced (Property.setterOps m s) ∧
      code.Unguarded (r.bodyName p.declaringType p.name "set") (Property.setterOps m s) 1 := by
  obtain ⟨s, hs, h⟩ := propertySetter_eq_ok_iff.1 h
  exact ⟨s, hs, Listing.unguarded_of_assemble (Property.straight_setterOps m s) h⟩

end Registry

namespace Property

variable {p : Property} {m : Method} {s : FieldTypes} {ms : List Method}

/-- **A getter is balanced** when its get method returns something. -/
theorem balanced_getterOps (hargs : m.parameters.length = 0) (hvoid : m.returnsVoid = false) :
    Op.Balanced (getterOps m s) where
  straight := straight_getterOps m s
  height := by
    have hbox : Op.heightAfter (Op.boxIfNeeded s.type ++ [.ret]) 1 = some 0 := by
      rw [Op.heightAfter_append, Op.heightAfter_boxIfNeeded]
      rfl
    rw [getterOps, Op.heightAfter_append, m.heightAfter_subjectOps, Option.bind_some,
      List.singleton_append, Op.heightAfter_cons, Op.effect_callOf, Op.callPops, hargs,
      Nat.zero_add, if_neg (Nat.lt_irrefl _), Nat.sub_self, Op.callPushes, hvoid]
    exact hbox
  last := by simp [getterOps, List.getLast?_append, List.getLast?_cons, Op.isTerminator]

/-- **A setter is balanced** when its set method returns nothing. -/
theorem balanced_setterOps (hargs : m.parameters.length = 1) (hvoid : m.returnsVoid = true) :
    Op.Balanced (setterOps m s) where
  straight := straight_setterOps m s
  height := by
    have hload (d : Nat) (ops : List Op) :
        Op.heightAfter (.loadLocal 0 :: ops) d = Op.heightAfter ops (d + 1) := rfl
    rw [setterOps, Op.heightAfter_append, Op.heightAfter_inputCasts, Option.bind_some,
      Op.heightAfter_append, m.heightAfter_subjectOps, Option.bind_some, List.cons_append, hload,
      List.cons_append, Op.heightAfter_cons, Op.effect_callOf, Op.callPops, hargs, Nat.add_comm,
      if_neg (Nat.lt_irrefl _), Nat.sub_self, Op.callPushes, hvoid]
    rfl
  last := by simp [setterOps, List.getLast?_append, Op.isTerminator]

/-- Behind a get method that returns nothing there is nothing to return. -/
theorem heightAfter_getterOps (hargs : m.parameters.length = 0) (hvoid : m.returnsVoid = true) :
    Op.heightAfter (getterOps m s) 0 = none := by
  rw [getterOps, Op.heightAfter_append, m.heightAfter_subjectOps, Option.bind_some,
    List.singleton_append, Op.heightAfter_cons, Op.effect_callOf, Op.callPops, hargs, Nat.zero_add,
    if_neg (Nat.lt_irrefl _), Nat.sub_self, Op.callPushes, hvoid, Op.boxIfNeeded]
  cases hv : s.type.isValueType <;> simp [Op.heightAfter_cons, Op.effect]

/-- A getter that is balanced has a value to return: its get method returns
something. -/
theorem returnsVoid_of_balanced (h : Op.Balanced (getterOps m s))
    (hargs : m.parameters.length = 0) : m.returnsVoid = false := by
  by_contra hvoid
  have hnone := heightAfter_getterOps (s := s) hargs (by simpa using hvoid)
  rw [h.height] at hnone
  cases hnone

/-- A set method returns nothing. -/
theorem AccessorsIn.returnsVoid (hp : p.AccessorsIn ms) (hm : p.setter = some m) :
    m.returnsVoid = true := by
  rw [Method.returnsVoid, (hp.setter m hm).2.2]
  rfl

end Property

/-- Only a property without index parameters has a getter, which calls its get
method. -/
theorem Property.resolveGet_eq_ok {p : Property} {nonPublic : Bool} {m : Method}
    (h : p.resolveGet nonPublic = .ok m) : p.indexParameters = [] ∧ p.getter = some m := by
  unfold resolveGet at h
  split at h
  · cases h
  · rename_i hindexed
    split at h
    · rename_i hm
      cases h
      exact ⟨by simpa [isIndexed] using hindexed, (Option.filter_eq_some_iff.1 hm).1⟩
    · cases h
    · cases h

/-- The same for setters. -/
theorem Property.resolveSet_eq_ok {p : Property} {nonPublic : Bool} {m : Method}
    (h : p.resolveSet nonPublic = .ok m) : p.indexParameters = [] ∧ p.setter = some m := by
  unfold resolveSet at h
  split at h
  · cases h
  · rename_i hindexed
    split at h
    · rename_i hm
      cases h
      exact ⟨by simpa [isIndexed] using hindexed, (Option.filter_eq_some_iff.1 hm).1⟩
    · cases h
    · cases h

/-- A get method that may be used is the one that a getter calls. -/
theorem Property.resolveGet_of_getMethod? {p : Property} {nonPublic : Bool} {m : Method}
    (hindex : p.indexParameters = []) (hm : p.getMethod? nonPublic = some m) :
    p.resolveGet nonPublic = .ok m := by
  rw [resolveGet, isIndexed, hindex, hm]
  rfl

/-- The same for set methods. -/
theorem Property.resolveSet_of_setMethod? {p : Property} {nonPublic : Bool} {m : Method}
    (hindex : p.indexParameters = []) (hm : p.setMethod? nonPublic = some m) :
    p.resolveSet nonPublic = .ok m := by
  rw [resolveSet, isIndexed, hindex, hm]
  rfl

namespace Reflector

variable {r : Reflector} {p : Property} {choice : Option Bool} {view : Option View} {a : Accessor}
  {ms : List Method}

/-- **What a getter is compiled from**: a get method that may be used, and a
view that passes. -/
theorem parts_of_propertyGetter (ha : r.Compiles (.propertyGetter (some p) choice view) a) :
    ∃ m, p.resolveGet (r.nonPublic choice) = .ok m ∧
      r.registry.checkView p.place view .read "property" = .ok () ∧
      r.registry.propertyGetter p m (view.map (·.owner)) = .ok a.code := by
  obtain ⟨plan, hplan, hcode, -, -⟩ := compiles_iff.1 ha
  obtain ⟨_, hsome, hplan⟩ := bind_eq_ok.1 hplan
  cases hsome
  obtain ⟨m, hm, hplan⟩ := bind_eq_ok.1 hplan
  cases hplan
  obtain ⟨u, hview, hcode⟩ := bind_eq_ok.1 hcode
  exact ⟨m, hm, hview, hcode⟩

/-- The same for setters. -/
theorem parts_of_propertySetter (ha : r.Compiles (.propertySetter (some p) choice view) a) :
    ∃ m, p.resolveSet (r.nonPublic choice) = .ok m ∧
      r.registry.checkView p.place view .write "property" = .ok () ∧
      r.registry.propertySetter p m (view.map (·.owner)) (view.map (·.value)) = .ok a.code := by
  obtain ⟨plan, hplan, hcode, -, -⟩ := compiles_iff.1 ha
  obtain ⟨_, hsome, hplan⟩ := bind_eq_ok.1 hplan
  cases hsome
  obtain ⟨m, hm, hplan⟩ := bind_eq_ok.1 hplan
  cases hplan
  obtain ⟨u, hview, hcode⟩ := bind_eq_ok.1 hcode
  exact ⟨m, hm, hview, hcode⟩

/-- Only properties without index parameters have getters. -/
theorem indexParameters_of_get (ha : r.Compiles (.propertyGetter (some p) choice view) a) :
    p.indexParameters = [] := by
  obtain ⟨m, hm, -⟩ := parts_of_propertyGetter ha
  exact (Property.resolveGet_eq_ok hm).1

/-- The same for setters. -/
theorem indexParameters_of_set (ha : r.Compiles (.propertySetter (some p) choice view) a) :
    p.indexParameters = [] := by
  obtain ⟨m, hm, -⟩ := parts_of_propertySetter ha
  exact (Property.resolveSet_eq_ok hm).1

/-- Only properties of a type that has values have getters. -/
theorem type_ne_void_of_get (hp : p.AccessorsIn ms)
    (ha : r.Compiles (.propertyGetter (some p) choice view) a) : p.type ≠ .void := by
  obtain ⟨m, hm, -, hcode⟩ := parts_of_propertyGetter ha
  obtain ⟨s, -, hbalanced, -⟩ := Registry.propertyGetter_eq_ok hcode
  obtain ⟨hindex, hgetter⟩ := Property.resolveGet_eq_ok hm
  obtain ⟨-, hargs, hreturn⟩ := hp.getter m hgetter
  rw [hindex, List.length_nil] at hargs
  have hreturns := Property.returnsVoid_of_balanced hbalanced hargs
  rw [Method.returnsVoid, hreturn] at hreturns
  exact fun hvoid => by simp [hvoid] at hreturns

/-- **A getter reads the property**, through a view or without one. -/
theorem get_eq_read_property (hp : p.AccessorsIn ms)
    (hslot : ∀ m ∈ ms, m.isStatic = true → m.slot = none)
    (ha : r.Compiles (.propertyGetter (some p) choice view) a) :
    ∃ m s, p.getter = some m ∧ r.registry.HasPropertyTypes p m (view.map (·.owner)) none s ∧
      ∀ natives receiver, a.get natives receiver =
        Exec.mapFault .runtime (Property.read natives m s receiver) := by
  obtain ⟨m, hm, -, hcode⟩ := parts_of_propertyGetter ha
  obtain ⟨s, hs, hbalanced, hbody⟩ := Registry.propertyGetter_eq_ok hcode
  obtain ⟨hindex, hgetter⟩ := Property.resolveGet_eq_ok hm
  obtain ⟨hmem, hargs, -⟩ := hp.getter m hgetter
  rw [hindex, List.length_nil] at hargs
  refine ⟨m, s, hgetter, hs, fun natives receiver => ?_⟩
  rw [Accessor.get, Accessor.call_of_unguarded hbody hbalanced.straight]
  exact Code.walk_propertyGetter hargs (Property.returnsVoid_of_balanced hbalanced hargs)
    (hslot m hmem)

/-- **A setter writes the property**, through a view or without one. -/
theorem set_eq_write_property (hp : p.AccessorsIn ms)
    (hslot : ∀ m ∈ ms, m.isStatic = true → m.slot = none)
    (ha : r.Compiles (.propertySetter (some p) choice view) a) :
    ∃ m s, p.setter = some m ∧
      r.registry.HasPropertyTypes p m (view.map (·.owner)) (view.map (·.value)) s ∧
      ∀ natives receiver input, a.set natives receiver input =
        Exec.mapFault .runtime (Property.write natives m s receiver input) := by
  obtain ⟨m, hm, -, hcode⟩ := parts_of_propertySetter ha
  obtain ⟨s, hs, hbalanced, hbody⟩ := Registry.propertySetter_eq_ok hcode
  obtain ⟨hindex, hsetter⟩ := Property.resolveSet_eq_ok hm
  obtain ⟨hmem, hargs, -⟩ := hp.setter m hsetter
  rw [hindex, List.length_nil] at hargs
  refine ⟨m, s, hsetter, hs, fun natives receiver input => ?_⟩
  rw [Accessor.set, Accessor.call_of_unguarded hbody hbalanced.straight]
  have hwalk := @Code.walk_propertySetter natives (.setter receiver input) m s
    (r.registry.bodyName p.declaringType p.name "set") hargs (hp.returnsVoid hsetter) (hslot m hmem)
  rw [List.replicate_one, hwalk, bind_assoc]
  exact bind_pure _

variable {m : Method} {s : FieldTypes}

/-- **A property has a getter** once the types are found, if there is a get
method that may be used and it returns something. -/
theorem exists_get_of_resolveGet (hp : p.AccessorsIn ms)
    (hm : p.resolveGet (r.nonPublic choice) = .ok m)
    (hs : r.registry.HasPropertyTypes p m none none s) (hvoid : p.type ≠ .void) :
    ∃ a, r.Compiles (.propertyGetter (some p) choice none) a := by
  obtain ⟨hindex, hgetter⟩ := Property.resolveGet_eq_ok hm
  obtain ⟨-, hargs, hreturn⟩ := hp.getter m hgetter
  rw [hindex, List.length_nil] at hargs
  have hreturns : m.returnsVoid = false := by simpa [Method.returnsVoid, hreturn] using hvoid
  obtain ⟨code, hcode, -⟩ := Listing.assemble_straight
    (Property.balanced_getterOps (s := s) hargs hreturns) 0
    (r.registry.bodyName p.declaringType p.name "get")
  obtain ⟨a, ha, -⟩ := exists_compiles (r := r) (q := .propertyGetter (some p) choice none)
    (bind_eq_ok.2 ⟨p, rfl, bind_eq_ok.2 ⟨m, hm, rfl⟩⟩)
    (Registry.propertyGetter_eq_ok_iff.2 ⟨s, hs, hcode⟩)
  exact ⟨a, ha⟩

/-- **And a setter**, if there is a set method that may be used. -/
theorem exists_set_of_resolveSet (hp : p.AccessorsIn ms)
    (hm : p.resolveSet (r.nonPublic choice) = .ok m)
    (hs : r.registry.HasPropertyTypes p m none none s) :
    ∃ a, r.Compiles (.propertySetter (some p) choice none) a := by
  obtain ⟨hindex, hsetter⟩ := Property.resolveSet_eq_ok hm
  obtain ⟨-, hargs, -⟩ := hp.setter m hsetter
  rw [hindex, List.length_nil] at hargs
  obtain ⟨code, hcode, -⟩ := Listing.assemble_straight
    (Property.balanced_setterOps (s := s) hargs (hp.returnsVoid hsetter)) 1
    (r.registry.bodyName p.declaringType p.name "set")
  obtain ⟨a, ha, -⟩ := exists_compiles (r := r) (q := .propertySetter (some p) choice none)
    (bind_eq_ok.2 ⟨p, rfl, bind_eq_ok.2 ⟨m, hm, rfl⟩⟩)
    (Registry.propertySetter_eq_ok_iff.2 ⟨s, hs, hcode⟩)
  exact ⟨a, ha⟩

/-- A property that is not indexed has a getter on request if it has a get
method. -/
theorem exists_get_property (hp : p.AccessorsIn ms) (hindex : p.indexParameters = [])
    (hm : p.getter = some m) (hs : r.registry.HasPropertyTypes p m none none s)
    (hvoid : p.type ≠ .void) : ∃ a, r.Compiles (.propertyGetter (some p) (some true) none) a := by
  have hmethod : p.getMethod? true = some m := by
    rw [Property.getMethod?, hm]
    rfl
  exact exists_get_of_resolveGet hp (Property.resolveGet_of_getMethod? hindex hmethod) hs hvoid

/-- And a setter if it has a set method. -/
theorem exists_set_property (hp : p.AccessorsIn ms) (hindex : p.indexParameters = [])
    (hm : p.setter = some m) (hs : r.registry.HasPropertyTypes p m none none s) :
    ∃ a, r.Compiles (.propertySetter (some p) (some true) none) a := by
  have hmethod : p.setMethod? true = some m := by
    rw [Property.setMethod?, hm]
    rfl
  exact exists_set_of_resolveSet hp (Property.resolveSet_of_setMethod? hindex hmethod) hs

end Reflector

end MemberAccess
