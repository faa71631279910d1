import MemberAccess.Proofs.Accessor.Invoke
import MemberAccess.Proofs.Accessor.ValueMembers
import MemberAccess.Proofs.Catalog.Accessors
/-!
# Accessor — property accessors and the invokers of accessor methods

A property and its accessor methods are called in two ways, by a getter or a
setter and by an invoker. A getter is the invoker of the get method without
arguments. A setter coerces its input before it looks at the receiver, an
invoker does it the other way round; so where a receiver is refused the input
may be refused first, and nowhere else do the two differ
(`Reflector.delegates`).
-/

namespace MemberAccess

/-! ## Checks -/

namespace Exec

variable {ε α : Type} {fault? : Heap → Option ε} {k : Unit → Exec ε α} {h : Heap} {e : ε}

/-- A check that finds nothing. -/
theorem run_check_of_none (hnone : fault? h = none) :
    (check fault? >>= k).run h = (k ()).run h := by
  simp only [check, run_bind, run_read, hnone]

/-- A check that finds a fault ends there. -/
theorem run_check_of_some (hsome : fault? h = some e) :
    (check fault? >>= k).run h = some (.error e, h) := by
  simp only [check, run_bind, run_read, hsome]

end Exec

namespace Heap

variable {h h₁ : Heap} {v : Value} {t : TypeDef}

/-- Whether and why a receiver is refused does not change while other objects
come. -/
theorem Keeps.receiverFault?_eq (hk : h.Keeps h₁) (hv : h.Reaches v) :
    h₁.receiverFault? v t = h.receiverFault? v t := by
  unfold receiverFault?
  rw [hk.isInstance_eq hv, hk.typeName_eq hv]

end Heap

/-! ## Calls of accessor methods -/

namespace Method

variable {natives : Natives} {m : Method} {u : TypeDef} {receiver v : Value} {args : List Value}

/-- **What an accessor method is called with**: the receiver is checked, and
has to be an object. -/
theorem invocation_eq_check (hstatic : m.isStatic = false) (hu : u.handle.isBuiltin = false) :
    m.invocation [u] receiver args =
      Exec.check (·.receiverFault? receiver u) >>= fun _ =>
        Exec.ofExcept (Invocation.on receiver args) := by
  have hobject := TypeHandle.ne_object hu
  rw [invocation, if_neg (by simp [hstatic]), Heap.read_castReceiver hobject, bind_assoc]
  refine Exec.ext_run fun h => Exec.run_bind_congr rfl fun _ h₁ hcheck => ?_
  -- what passes for a defined type is null or an object
  cases receiver with
  | null => rfl
  | object o => rfl
  | _ => rcases Heap.null_or_object_of_check hu hcheck with hnull | hobj <;> contradiction

/-- The types that a call of a method works with that a type declares. -/
def callTypes (m : Method) (u : TypeDef) (parameters : List TypeDef) (result : Option TypeDef) :
    CallTypes :=
  ⟨if m.isStatic then none else some u, parameters, result⟩

theorem callTypes_static (hstatic : m.isStatic = true) {ps : List TypeDef}
    {result : Option TypeDef} : m.callTypes u ps result = ⟨none, ps, result⟩ := by
  rw [callTypes, if_pos hstatic]

theorem callTypes_instance (hstatic : m.isStatic = false) {ps : List TypeDef}
    {result : Option TypeDef} : m.callTypes u ps result = ⟨some u, ps, result⟩ := by
  rw [callTypes, if_neg (by simp [hstatic])]

end Method

namespace Property

variable {natives : Natives} {m : Method} {u type : TypeDef} {s : FieldTypes} {receiver v : Value}
  {h h' : Heap} {fault : RuntimeFault}

/-- **A property is read** by a direct call of its get method without
arguments. -/
theorem read_eq_directCall (hm : m.TakesReceiver s u) :
    read natives m s receiver =
      m.directCall natives (m.callTypes u [] (some s.type)) receiver (some []) := by
  have hprepare : m.invocation s.receiver receiver [] =
      (m.callTypes u [] (some s.type)).prepare receiver (some []) := by
    cases hstatic : m.isStatic with
    | true =>
      rw [Method.callTypes_static hstatic, Method.invocation, if_pos hstatic]
      rfl
    | false =>
      rw [Method.callTypes_instance hstatic, hm.receiver hstatic,
        Method.invocation_eq_check hstatic hm.builtin]
      rfl
  rw [read, Method.directCall, hprepare]
  rfl

/-- **What a set method is called for**, once everything has been checked. -/
def assign (natives : Natives) (m : Method) (receiver w : Value) : Exec RuntimeFault Unit := do
  let inv ← Exec.ofExcept (Invocation.on receiver [w])
  let _ ← m.runBody natives inv

/-- A call checks the receiver and coerces its argument then. -/
theorem directCall_eq_assign (hstatic : m.isStatic = false) :
    (m.directCall natives (m.callTypes u [type] none) receiver (some [v]) >>= fun _ => pure ()) =
      Exec.check (·.receiverFault? receiver u) >>= fun _ => Exec.castValue v type >>= fun w =>
        assign natives m receiver w := by
  simp only [Method.directCall, CallTypes.prepare, Method.callTypes_instance hstatic,
    CallTypes.handOut, Exec.coerceArguments, fetchArgument, assign, bind_assoc, pure_bind]
  rfl

/-- **A receiver that is refused** is refused by a call, as it comes. -/
theorem run_directCall_of_refused {arguments : Option (List Value)} (hstatic : m.isStatic = false)
    (hfault : h.receiverFault? receiver u = some fault) :
    (m.directCall natives (m.callTypes u [type] none) receiver arguments).run h =
      some (.error fault, h) := by
  rw [Method.directCall, CallTypes.prepare, Method.callTypes_instance hstatic]
  exact Exec.run_bind_eq_error.2 (.inl (Exec.run_check_of_some hfault))

section

variable (hm : m.TakesReceiver s u) (hinput : s.input = [type])

include hm hinput

/-- A setter coerces its input and checks the receiver then. -/
theorem write_eq_assign (hstatic : m.isStatic = false) :
    write natives m s receiver v = Exec.castValue v type >>= fun w =>
      Exec.check (·.receiverFault? receiver u) >>= fun _ => assign natives m receiver w := by
  rw [write, hinput, Exec.castValues_singleton, hm.receiver hstatic]
  refine bind_congr fun w => ?_
  rw [Method.invocation_eq_check hstatic hm.builtin, bind_assoc]
  rfl

/-- **A property is written** by a direct call of its set method on a receiver
that is not refused. -/
theorem run_write_of_allowed (natives : Natives) (v : Value) (hr : h.Reaches receiver)
    (hallowed : m.isStatic = true ∨ h.receiverFault? receiver u = none) :
    (write natives m s receiver v).run h =
      (m.directCall natives (m.callTypes u [type] none) receiver (some [v]) >>=
        fun _ => pure ()).run h := by
  cases hstatic : m.isStatic with
  | true =>
    simp only [write, hinput, Exec.castValues_singleton, Method.invocation, hstatic, if_true,
      Method.directCall, CallTypes.prepare, Method.callTypes_static hstatic, CallTypes.handOut,
      Exec.coerceArguments, fetchArgument, bind_assoc, pure_bind]
    rfl
  | false =>
    have hnone := hallowed.resolve_left (by simp [hstatic])
    rw [write_eq_assign hm hinput hstatic, directCall_eq_assign hstatic,
      Exec.run_check_of_none hnone]
    refine Exec.run_bind_congr rfl fun w h₁ hcast => ?_
    -- coercing the input does not change what is thought of the receiver
    have hgrows := Exec.within_castValue v type h _ h₁ hcast
    exact Exec.run_check_of_none ((hgrows.keeps.receiverFault?_eq hr).trans hnone)

/-- **A setter refuses a receiver after it has coerced its input**, if it can. -/
theorem write_cases_of_refused (hstatic : m.isStatic = false) (hr : h.Reaches receiver)
    (hfault : h.receiverFault? receiver u = some fault) (hv : h.isAdmissible v type = true)
    {out : Except RuntimeFault Unit}
    (hrun : (write natives m s receiver v).run h = some (out, h')) :
    out = .error fault ∧ h.Grows h' := by
  rw [write_eq_assign hm hinput hstatic] at hrun
  rcases Exec.run_bind_cases hrun with ⟨e, hcast, rfl⟩ | ⟨w, h₁, hcast, hrest⟩
  · obtain ⟨w, hw⟩ := Exec.ok_of_castValue hv hcast
    cases hw
  · have hgrows := Exec.within_castValue v type h _ h₁ hcast
    have hfault₁ := (hgrows.keeps.receiverFault?_eq hr).trans hfault
    cases (Exec.run_check_of_some hfault₁).symm.trans hrest
    exact ⟨rfl, hgrows⟩

/-- It can where the input can be copied, if it has to be. -/
theorem exists_run_write_of_refused (natives : Natives) (hstatic : m.isStatic = false)
    (hr : h.Reaches receiver) (hfault : h.receiverFault? receiver u = some fault)
    (hv : h.isAdmissible v type = true) (hc : h.Closed) (hreach : h.Reaches v)
    (hread : type.isValueType = true → h.HasContents v) :
    ∃ h', (write natives m s receiver v).run h = some (.error fault, h') := by
  obtain ⟨w, h₁, hcast, hcoerced⟩ := Exec.run_castValue hc hread hreach hv
  have hfault₁ := (hcoerced.copies.keeps.receiverFault?_eq hr).trans hfault
  refine ⟨h₁, ?_⟩
  rw [write_eq_assign hm hinput hstatic]
  exact Exec.run_bind_eq_error.2 (.inr ⟨w, h₁, hcast, Exec.run_check_of_some hfault₁⟩)

end

end Property

/-! ## The types of accessor methods -/

namespace Registry

variable {r : Registry} {p : Property} {m : Method} {u type : TypeDef}

namespace Declares

/-- The declaring type is found. -/
theorem find?_eq (hu : r.Declares u p) (hr : r.Built) : r.find? p.declaringType = some u := by
  obtain ⟨ids, hb⟩ := hr
  rw [hu.declared.declaringType]
  exact hb.wellFormed.find?_eq hu.mem

/-- **The types of a call** of an accessor method. -/
theorem callTypes?_eq (hu : r.Declares u p) (hr : r.Built) (hm : m ∈ u.methods)
    {ps : List TypeDef} {result : Option TypeDef}
    (hparameters : m.parameterTypes.mapM r.find? = some ps)
    (hresult : if m.returnsVoid then result = none else
      ∃ t, r.find? m.returnType = some t ∧ result = some t) :
    r.callTypes? m = some (m.callTypes u ps result) := by
  refine callTypes?_eq_some.2 ⟨?_, hparameters, hresult⟩
  cases hstatic : m.isStatic with
  | true => rw [if_pos rfl, Method.callTypes_static hstatic]
  | false =>
    rw [if_neg Bool.false_ne_true, Method.callTypes_instance hstatic, hu.declaring m hm]
    exact ⟨u, hu.find?_eq hr, rfl⟩

/-- A get method takes nothing and returns what the property holds. -/
theorem callTypes?_getter (hu : r.Declares u p) (hr : r.Built) (hm : p.getter = some m)
    (hindex : p.indexParameters = []) (htype : r.find? p.type = some type)
    (hvoid : p.type ≠ .void) : r.callTypes? m = some (m.callTypes u [] (some type)) := by
  obtain ⟨hmem, hlen, hreturn⟩ := hu.accessors.getter m hm
  rw [hindex, List.length_nil, List.length_eq_zero_iff] at hlen
  refine hu.callTypes?_eq hr hmem ?_ ?_
  · rw [Method.parameterTypes, hlen]
    rfl
  · rw [if_neg (by simpa [Method.returnsVoid, hreturn] using hvoid), hreturn]
    exact ⟨type, htype, rfl⟩

/-- A set method takes what the property holds and returns nothing. -/
theorem callTypes?_setter (hu : r.Declares u p) (hr : r.Built) (hm : p.setter = some m)
    (hindex : p.indexParameters = []) (htype : r.find? p.type = some type) :
    r.callTypes? m = some (m.callTypes u [type] none) := by
  have hparameters : m.parameterTypes = [p.type] := by
    obtain ⟨place, hplace⟩ := hr.elim fun ids hb => hb.keepsProperties u hu.mem p hu.property
    simpa [hindex] using hplace.input m hm
  refine hu.callTypes?_eq hr (hu.accessors.setter m hm).1 ?_ ?_
  · rw [hparameters]
    simp [htype]
  · rw [if_pos (hu.accessors.returnsVoid hm)]

end Declares

end Registry

/-! ## Compiled -/

namespace Reflector

variable {r : Reflector} {p : Property} {m : Method} {u t type : TypeDef} {a b : Accessor}
  {choice : Option Bool} {cs : CallTypes}

/-- A method whose types are found has an invoker without guards. -/
theorem exists_invoker_of_callTypes? (hcs : r.registry.callTypes? m = some cs) :
    ∃ b, r.Compiles (.methodInvoker (some m) (some false)) b := by
  obtain ⟨code, hcode, -⟩ := Registry.methodInvoker_of_callTypes? hcs false
  exact ⟨⟨.invoker, none, code, ⟨0⟩⟩, compiles_methodInvoker.2 ⟨hcode, rfl, rfl⟩⟩

/-- It is a direct call on these types. -/
theorem invoke_eq_of_callTypes? (hr : r.registry.Built) (hu : u ∈ r.registry.types)
    (hm : m ∈ u.methods) (hcs : r.registry.callTypes? m = some cs)
    (hb : r.Compiles (.methodInvoker (some m) (some false)) b) (natives : Natives)
    (receiver : Value) (arguments : Option (List Value)) :
    b.invoke natives receiver arguments =
      Exec.mapFault .runtime (m.directCall natives cs receiver arguments) := by
  obtain ⟨cs', hcs', hcall⟩ := invoke_eq_refuse hr hu (List.mem_append_left _ hm) hb
  obtain rfl : cs = cs' := Option.some.inj (hcs.symm.trans hcs')
  exact hcall natives receiver arguments

/-- **A getter is the invoker of its get method** without arguments. -/
theorem get_eq_invoke (hr : r.registry.Built) (hu : r.registry.Declares u p)
    (hindex : p.indexParameters = []) (htype : r.registry.find? p.type = some type)
    (hvoid : p.type ≠ .void) (hm : p.getter = some m)
    (ha : r.Compiles (.propertyGetter (some p) choice none) a)
    (hb : r.Compiles (.methodInvoker (some m) (some false)) b) (natives : Natives)
    (receiver : Value) : a.get natives receiver = b.invoke natives receiver (some []) := by
  obtain ⟨m', s, hm', hs, hget⟩ := get_eq_read_property hu.accessors hu.direct ha
  obtain rfl : m = m' := Option.some.inj (hm.symm.trans hm')
  have hmem := (hu.accessors.getter m hm).1
  obtain ⟨s', hs', htakes, rfl, -⟩ := hr.exists_propertyTypes hu.mem hmem htype
  obtain rfl := hs.unique hs'
  rw [hget, invoke_eq_of_callTypes? hr hu.mem hmem
    (hu.callTypes?_getter hr hm hindex htype hvoid) hb, Property.read_eq_directCall htakes]

/-- **A setter is the invoker of its set method** on a receiver that is not
refused. One that is refused both refuse, but the setter coerces its input
first. -/
theorem set_cases_of_invoke (hr : r.registry.Built) (hu : r.registry.Declares u p)
    (hindex : p.indexParameters = []) (htype : r.registry.find? p.type = some type)
    (hm : p.setter = some m) (ha : r.Compiles (.propertySetter (some p) choice none) a)
    (hb : r.Compiles (.methodInvoker (some m) (some false)) b) (natives : Natives) {h : Heap}
    {receiver : Value} (v : Value) (hreach : h.Reaches receiver) :
    (p.isStatic = true ∨ h.receiverFault? receiver u = none →
      (a.set natives receiver v).run h =
        (b.invoke natives receiver (some [v]) >>= fun _ => pure ()).run h) ∧
    ∀ fault, p.isStatic = false → h.receiverFault? receiver u = some fault →
      (b.invoke natives receiver (some [v])).run h = some (.error (.runtime fault), h) ∧
      (h.isAdmissible v type = false → (a.set natives receiver v).run h =
        some (.error (.runtime (h.castFault v type.name)), h)) ∧
      (h.isAdmissible v type = true →
        (∀ out h', (a.set natives receiver v).run h = some (out, h') →
          out = .error (.runtime fault) ∧ h.Grows h') ∧
        (h.Closed → h.Reaches v → (type.isValueType = true → h.HasContents v) →
          ∃ h', (a.set natives receiver v).run h = some (.error (.runtime fault), h'))) := by
  obtain ⟨m', s, hm', hs, hset⟩ := set_eq_write_property hu.accessors hu.direct ha
  obtain rfl : m = m' := Option.some.inj (hm.symm.trans hm')
  have hmem := (hu.accessors.setter m hm).1
  obtain ⟨s', hs', htakes, -, hinput⟩ := hr.exists_propertyTypes hu.mem hmem htype
  obtain rfl := hs.unique hs'
  have hcs := hu.callTypes?_setter hr hm hindex htype
  have hinvoke := invoke_eq_of_callTypes? hr hu.mem hmem hcs hb natives receiver
  rw [hset, hinvoke]
  have hstatic : m.isStatic = p.isStatic := hu.declared.setter m hm
  rw [← hstatic]
  constructor
  · intro hallowed
    have hrun := Property.run_write_of_allowed htakes hinput natives v hreach hallowed
    exact (Exec.run_mapFault_congr hrun).trans (by rw [Exec.mapFault_bind]; rfl)
  · intro fault hinstance hfault
    refine ⟨?_, fun hv => ?_, fun hv => ⟨fun out h' hrun => ?_, fun hc hreaches hread => ?_⟩⟩
    · exact Exec.run_mapFault_eq_error.2
        ⟨fault, Property.run_directCall_of_refused hinstance hfault, rfl⟩
    · refine Exec.run_mapFault_eq_error.2 ⟨_, ?_, rfl⟩
      rw [Property.write_eq_assign htakes hinput hinstance]
      exact Exec.run_bind_eq_error.2 (.inl (Exec.run_castValue_of_not hv))
    · obtain ⟨out₀, hrun₀, -⟩ := Exec.run_mapFault_cases hrun
      obtain ⟨rfl, hgrows⟩ :=
        Property.write_cases_of_refused htakes hinput hinstance hreach hfault hv hrun₀
      cases hrun.symm.trans (Exec.run_mapFault_eq_error.2 ⟨fault, hrun₀, rfl⟩)
      exact ⟨rfl, hgrows⟩
    · obtain ⟨h', hrun⟩ := Property.exists_run_write_of_refused htakes hinput natives
        hinstance hreach hfault hv hc hreaches hread
      exact ⟨h', Exec.run_mapFault_eq_error.2 ⟨fault, hrun, rfl⟩⟩

/-- So either succeeds when the other does, with the same effects. -/
theorem set_eq_ok_iff_invoke (hr : r.registry.Built) (hu : r.registry.Declares u p)
    (hindex : p.indexParameters = []) (htype : r.registry.find? p.type = some type)
    (hm : p.setter = some m) (ha : r.Compiles (.propertySetter (some p) choice none) a)
    (hb : r.Compiles (.methodInvoker (some m) (some false)) b) (natives : Natives) {h h' : Heap}
    {receiver : Value} (v : Value) (hreach : h.Reaches receiver) :
    (a.set natives receiver v).run h = some (.ok (), h') ↔
      ∃ w, (b.invoke natives receiver (some [v])).run h = some (.ok w, h') := by
  obtain ⟨hallowed, hrefused⟩ := set_cases_of_invoke hr hu hindex htype hm ha hb natives v hreach
  by_cases hpasses : p.isStatic = true ∨ h.receiverFault? receiver u = none
  · rw [hallowed hpasses, Exec.run_bind_eq_ok]
    constructor
    · rintro ⟨w, h₁, hrun, hpure⟩
      cases hpure
      exact ⟨w, hrun⟩
    · rintro ⟨w, hrun⟩
      exact ⟨w, h', hrun, rfl⟩
  · -- neither succeeds
    obtain ⟨hinstance, fault, hfault⟩ :
        p.isStatic = false ∧ ∃ fault, h.receiverFault? receiver u = some fault := by
      simpa [Option.ne_none_iff_exists'] using hpasses
    obtain ⟨hinvoke, hbad, hgood⟩ := hrefused fault hinstance hfault
    rw [hinvoke]
    refine ⟨fun hset => ?_, nofun⟩
    cases hv : h.isAdmissible v type with
    | false => cases hset.symm.trans (hbad hv)
    | true => cases ((hgood hv).1 _ _ hset).1

/-- **Property accessors agree with the invokers of accessor methods.** The
getter of a property is the invoker of its get method without arguments. Its
setter succeeds when the invoker of its set method does, with the same effects;
on a receiver that is not refused the two do the same in every respect. One
that is refused the invoker refuses at once, the setter after it has coerced its
input; so the setter reports an input that is not admissible, and else the
receiver. -/
theorem delegates (hr : r.registry.Built) (ht : t ∈ r.registry.types) (hp : p ∈ t.allProperties)
    (hindex : p.indexParameters = []) (htype : r.registry.find? p.type = some type)
    (hvoid : p.type ≠ .void) :
    (∀ choice g, p.getMethod? (r.nonPublic choice) = some g →
      (∃ a, r.Compiles (.propertyGetter (some p) choice none) a) ∧
      (∃ b, r.Compiles (.methodInvoker (some g) (some false)) b) ∧
      ∀ a b, r.Compiles (.propertyGetter (some p) choice none) a →
        r.Compiles (.methodInvoker (some g) (some false)) b → ∀ natives receiver,
          a.get natives receiver = b.invoke natives receiver (some [])) ∧
    ∀ choice m, p.setMethod? (r.nonPublic choice) = some m →
      (∃ a, r.Compiles (.propertySetter (some p) choice none) a) ∧
      (∃ b, r.Compiles (.methodInvoker (some m) (some false)) b) ∧
      ∃ u, r.registry.find? p.declaringType = some u ∧
      ∀ a b, r.Compiles (.propertySetter (some p) choice none) a →
        r.Compiles (.methodInvoker (some m) (some false)) b → ∀ natives h receiver v,
        h.Reaches receiver →
          (∀ h', (a.set natives receiver v).run h = some (.ok (), h') ↔
            ∃ w, (b.invoke natives receiver (some [v])).run h = some (.ok w, h')) ∧
          (p.isStatic = true ∨ h.receiverFault? receiver u = none →
            (a.set natives receiver v).run h =
              (b.invoke natives receiver (some [v]) >>= fun _ => pure ()).run h) ∧
          ∀ fault, p.isStatic = false → h.receiverFault? receiver u = some fault →
            (b.invoke natives receiver (some [v])).run h = some (.error (.runtime fault), h) ∧
            (h.isAdmissible v type = false → (a.set natives receiver v).run h =
              some (.error (.runtime (h.castFault v type.name)), h)) ∧
            (h.isAdmissible v type = true →
              (∀ out h', (a.set natives receiver v).run h = some (out, h') →
                out = .error (.runtime fault) ∧ h.Grows h') ∧
              (h.Closed → h.Reaches v → (type.isValueType = true → h.HasContents v) →
                ∃ h', (a.set natives receiver v).run h =
                  some (.error (.runtime fault), h'))) := by
  obtain ⟨u, hu⟩ := hr.exists_declares ht hp
  constructor
  · intro choice g hg
    have hresolve := Property.resolveGet_of_getMethod? hindex hg
    have hgetter := (Property.resolveGet_eq_ok hresolve).2
    have hmem := (hu.accessors.getter g hgetter).1
    have hcs := hu.callTypes?_getter hr hgetter hindex htype hvoid
    obtain ⟨s, hs, -⟩ := hr.exists_propertyTypes hu.mem hmem htype
    exact ⟨exists_get_of_resolveGet hu.accessors hresolve hs hvoid,
      exists_invoker_of_callTypes? hcs,
      fun a b ha hb => get_eq_invoke hr hu hindex htype hvoid hgetter ha hb⟩
  · intro choice m hm
    have hresolve := Property.resolveSet_of_setMethod? hindex hm
    have hsetter := (Property.resolveSet_eq_ok hresolve).2
    have hmem := (hu.accessors.setter m hsetter).1
    obtain ⟨s, hs, -⟩ := hr.exists_propertyTypes hu.mem hmem htype
    refine ⟨exists_set_of_resolveSet hu.accessors hresolve hs,
      exists_invoker_of_callTypes? (hu.callTypes?_setter hr hsetter hindex htype), u,
      hu.find?_eq hr, fun a b ha hb natives h receiver v hreach => ?_⟩
    obtain ⟨hallowed, hrefused⟩ :=
      set_cases_of_invoke hr hu hindex htype hsetter ha hb natives v hreach
    refine ⟨fun h' => ?_, hallowed, hrefused⟩
    exact set_eq_ok_iff_invoke hr hu hindex htype hsetter ha hb natives v hreach

end Reflector

namespace Sample

/-- Of a dial the level is read as its get method is called. A number is no
meter: it is refused as a receiver, but only after the input has been. -/
theorem delegates_level :
    (∃ a b, Reflector.Compiles ⟨dashboardRegistry, {}⟩
        (.propertyGetter (some level) (some true) none) a ∧
      Reflector.Compiles ⟨dashboardRegistry, {}⟩ (.methodInvoker (some getLevel) (some false)) b ∧
      ∀ natives, a.get natives (.object ⟨1⟩) = b.invoke natives (.object ⟨1⟩) (some [])) ∧
    ∃ a b, Reflector.Compiles ⟨dashboardRegistry, {}⟩
        (.propertySetter (some level) (some true) none) a ∧
      Reflector.Compiles ⟨dashboardRegistry, {}⟩ (.methodInvoker (some setLevel) (some false)) b ∧
      ∀ natives, (a.set natives (.object ⟨1⟩) (.int32 5)).run panel =
          (b.invoke natives (.object ⟨1⟩) (some [.int32 5]) >>= fun _ => pure ()).run panel ∧
        (b.invoke natives (.int32 3) (some [.null])).run panel =
          some (.error (.runtime (.invalidCast "Int32" "Meter")), panel) ∧
        (a.set natives (.int32 3) .null).run panel =
          some (.error (.runtime (.invalidCast "null" "Int32")), panel) := by
  have hmeter : meter ∈ (Reflector.registry ⟨dashboardRegistry, {}⟩).types := by decide
  have hlevel : level ∈ meter.allProperties := by decide
  have hnumber : dashboardRegistry.find? level.type = some (Catalog.builtinType ⟨64⟩ .int32) := by
    decide
  obtain ⟨hgetters, hsetters⟩ := Reflector.delegates dashboardRegistry_built hmeter hlevel rfl
    hnumber (by decide)
  constructor
  · obtain ⟨⟨a, ha⟩, ⟨b, hb⟩, hsame⟩ := hgetters (some true) getLevel rfl
    exact ⟨a, b, ha, hb, fun natives => hsame a b ha hb natives _⟩
  · obtain ⟨⟨a, ha⟩, ⟨b, hb⟩, u, hu, hsame⟩ := hsetters (some true) setLevel rfl
    have hdeclaring : dashboardRegistry.find? level.declaringType = some meter := by decide
    obtain rfl : u = meter := Option.some.inj (hu.symm.trans hdeclaring)
    have hdial : panel.Reaches (.object ⟨1⟩) := by
      rintro p ⟨⟩
      exact Nat.one_lt_two
    refine ⟨a, b, ha, hb, fun natives => ⟨?_, ?_, ?_⟩⟩
    · exact (hsame a b ha hb natives panel _ _ hdial).2.1 (.inr (by decide))
    · exact ((hsame a b ha hb natives panel (.int32 3) .null nofun).2.2 _ rfl (by rfl)).1
    · exact ((hsame a b ha hb natives panel (.int32 3) .null nofun).2.2 _ rfl (by rfl)).2.1 rfl

end Sample

end MemberAccess
