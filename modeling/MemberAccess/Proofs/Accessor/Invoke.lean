import MemberAccess.Proofs.Accessor.DirectCall
import MemberAccess.Proofs.Accessor.Factory
/-!
# Accessor — invokers and factories, with and without guards

The invoker of a method that is compiled without guards is a direct call
(`Reflector.invoke_eq_directCall`); with guards, invokers and factories refuse
what their guard refuses and are otherwise the ones without
(`Reflector.validated_eq_refuse`).
-/

namespace MemberAccess

namespace Reflector

variable {r : Reflector} {m : Method} {k : Constructor} {a b : Accessor} {validate : Bool}

/-! ## What is compiled -/

/-- **An invoker is compiled** once the types of its method are found. -/
theorem compiles_methodInvoker :
    r.Compiles (.methodInvoker (some m) (some validate)) a ↔
      r.registry.methodInvoker m validate = .ok a.code ∧ a.shape = .invoker ∧ a.view = none := by
  rw [compiles_iff]
  constructor
  · rintro ⟨p, hp, hcode, hshape, hview⟩
    cases hp
    exact ⟨hcode, hshape, hview⟩
  · rintro ⟨hcode, hshape, hview⟩
    exact ⟨_, rfl, hcode, hshape, hview⟩

/-! ## Calls -/

/-- **A method of a built registry is declared by a defined type**, and is in
no slot when it is static. -/
theorem declared_of_mem (hr : r.registry.Built) {t : TypeDef} (ht : t ∈ r.registry.types)
    (hm : m ∈ t.allMethods) :
    (m.isStatic = true → m.slot = none) ∧ m.declaringType.isBuiltin = false := by
  obtain ⟨ids, hbuilt⟩ := hr
  exact ((hbuilt.wellFormed).methods t ht m hm).symm

/-- **An invoker behind its guard**, called. -/
theorem invoke_eq_refuse (hr : r.registry.Built) {t : TypeDef} (ht : t ∈ r.registry.types)
    (hm : m ∈ t.allMethods) (ha : r.Compiles (.methodInvoker (some m) (some validate)) a) :
    ∃ s, r.registry.callTypes? m = some s ∧ ∀ natives receiver arguments,
      a.invoke natives receiver arguments =
        Exec.refuse ((Registry.invokerGuard m validate).verdict? (.invoker receiver arguments))
          (Exec.mapFault .runtime (m.directCall natives s receiver arguments)) := by
  have hcode := (compiles_methodInvoker.1 ha).1
  obtain ⟨s, hs⟩ := Registry.callTypes?_of_methodInvoker hcode
  refine ⟨s, hs, fun natives receiver arguments => ?_⟩
  obtain ⟨code, hcode', hguarded⟩ := Registry.methodInvoker_of_callTypes? hs validate
  obtain rfl : a.code = code := Except.ok.inj (hcode.symm.trans hcode')
  obtain ⟨hslot, hbuiltin⟩ := declared_of_mem hr ht hm
  -- receivers are checked against the declaring type, which is a defined one
  have hdeclaring : ∀ t, s.receiver = some t → t.handle.isBuiltin = false := by
    intro u hu
    have hreceiver := (Registry.callTypes?_eq_some.1 hs).1
    cases hstatic : m.isStatic with
    | true => simp [hstatic, hu] at hreceiver
    | false =>
      rw [hstatic, if_neg Bool.false_ne_true] at hreceiver
      obtain ⟨v, hv, huv⟩ := hreceiver
      obtain rfl : u = v := Option.some.inj (hu.symm.trans huv)
      rw [Catalog.handle_of_find? hv]
      exact hbuiltin
  rw [Accessor.invoke, Accessor.call_of_guarded hguarded CallTypes.straight_ops,
    Code.walk_call (Registry.fit_of_callTypes? hs) hslot hdeclaring]
  rfl

/-- **An invoker without guards is a direct call.** What is not prepared, by
a receiver that is refused, by an argument that is missing or does not fit, or
by a receiver that is absent, leaves everything as it was; a body runs on the
very receiver and on exactly the declared arguments. -/
theorem invoke_eq_directCall (hr : r.registry.Built) {t : TypeDef} (ht : t ∈ r.registry.types)
    (hm : m ∈ t.allMethods) (ha : r.Compiles (.methodInvoker (some m) (some false)) a) :
    ∃ s, r.registry.callTypes? m = some s ∧
      ∀ (natives : Natives) (receiver : Value) (arguments : Option (List Value)),
        a.invoke natives receiver arguments =
            Exec.mapFault .runtime (m.directCall natives s receiver arguments) ∧
          (∀ h fault h', (s.prepare receiver arguments).run h = some (.error fault, h') →
            (a.invoke natives receiver arguments).run h = some (.error (.runtime fault), h') ∧
              h.Grows h') ∧
          ∀ h inv h', (s.prepare receiver arguments).run h = some (.ok inv, h') →
            inv.this.map .object = (if m.isStatic then none else some receiver) ∧
              inv.arguments.length = m.parameters.length ∧ h.Grows h' := by
  obtain ⟨s, hs, hcall⟩ := invoke_eq_refuse hr ht hm ha
  have hfit := Registry.fit_of_callTypes? hs
  refine ⟨s, hs, fun natives receiver arguments => ⟨hcall natives receiver arguments, ?_, ?_⟩⟩
  · intro h fault h' hrun
    refine ⟨?_, s.within_prepare receiver arguments h _ h' hrun⟩
    have hdirect : (m.directCall natives s receiver arguments).run h = some (.error fault, h') :=
      Exec.run_bind_eq_error.2 (.inl hrun)
    rw [hcall]
    exact Exec.run_mapFault_eq_error.2 ⟨fault, hdirect, rfl⟩
  · intro h inv h' hrun
    obtain ⟨hthis, hargs⟩ := CallTypes.prepare_eq_ok hrun
    have hlen := (Exec.length_of_coerceArguments hargs).trans hfit.parameters
    refine ⟨?_, hlen, s.within_prepare receiver arguments h _ h' hrun⟩
    rw [hthis, ← hfit.receiver]
    cases s.receiver <;> rfl

end Reflector

/-- A pen is moved to a copy of a point. -/
theorem Sample.invoke_moveTo :
    ∃ a, Reflector.Compiles ⟨registry, {}⟩ (.methodInvoker (some moveTo) (some false)) a ∧
      ∀ natives, (a.invoke natives (.object ⟨1⟩) (some [.object ⟨0⟩])).run desk = some (.ok .null,
        { objects := #[⟨point, [.int32 7]⟩, ⟨pen, [.object ⟨2⟩]⟩, ⟨point, [.int32 7]⟩] }) := by
  have ht : pen ∈ registry.types := by decide
  have hm : moveTo ∈ pen.allMethods := by decide
  have ha : Reflector.Compiles ⟨registry, {}⟩ (.methodInvoker (some moveTo) (some false)) _ :=
    ⟨{}, rfl⟩
  obtain ⟨s, hs, hcall⟩ :=
    Reflector.invoke_eq_directCall (r := ⟨registry, {}⟩) registry_built ht hm ha
  cases hs
  refine ⟨_, ha, fun natives => ?_⟩
  rw [(hcall natives _ _).1]
  rfl

namespace Reflector

variable {r : Reflector} {m : Method} {k : Constructor} {a b : Accessor} {validate : Bool}

/-! ## Guards -/

/-- Guards decide nothing about whether an invoker is compiled. -/
theorem exists_invoker_iff :
    (∃ a, r.Compiles (.methodInvoker (some m) (some true)) a) ↔
      ∃ b, r.Compiles (.methodInvoker (some m) (some false)) b := by
  -- what an invoker is compiled from is the same with and without guards
  have hmove : ∀ validate validate', (∃ a, r.Compiles (.methodInvoker (some m) (some validate)) a) →
      ∃ b, r.Compiles (.methodInvoker (some m) (some validate')) b := by
    rintro validate validate' ⟨a, ha⟩
    obtain ⟨s, hs⟩ := Registry.callTypes?_of_methodInvoker (compiles_methodInvoker.1 ha).1
    obtain ⟨code, hcode, -⟩ := Registry.methodInvoker_of_callTypes? hs validate'
    exact ⟨⟨.invoker, none, code, ⟨0⟩⟩, compiles_methodInvoker.2 ⟨hcode, rfl, rfl⟩⟩
  exact ⟨hmove true false, hmove false true⟩

/-- Nor about whether a factory is. -/
theorem exists_factory_iff :
    (∃ a, r.Compiles (.constructorFactory (some k) (some true)) a) ↔
      ∃ b, r.Compiles (.constructorFactory (some k) (some false)) b := by
  have hmove : ∀ validate validate',
      (∃ a, r.Compiles (.constructorFactory (some k) (some validate)) a) →
      ∃ b, r.Compiles (.constructorFactory (some k) (some validate')) b := by
    rintro validate validate' ⟨a, ha⟩
    obtain ⟨declaring, hdeclaring, habstract, hcode, -, -⟩ := compiles_constructorFactory.1 ha
    obtain ⟨ts, hts⟩ := Registry.types_of_constructorFactory hcode
    obtain ⟨code, hcode, -⟩ := Registry.constructorFactory_of_types hts validate'
    exact ⟨⟨.factory, none, code, ⟨0⟩⟩,
      compiles_constructorFactory.2 ⟨declaring, hdeclaring, habstract, hcode, rfl, rfl⟩⟩
  exact ⟨hmove true false, hmove false true⟩

/-- An invoker with guards refuses what they refuse, and is otherwise the one
without. -/
theorem invoke_validated (hr : r.registry.Built) {t : TypeDef} (ht : t ∈ r.registry.types)
    (hm : m ∈ t.allMethods) (hn : m.parameters.length ≤ maxCount)
    (ha : r.Compiles (.methodInvoker (some m) (some true)) a)
    (hb : r.Compiles (.methodInvoker (some m) (some false)) b) (natives : Natives)
    (receiver : Value) (arguments : Option (List Value)) :
    a.invoke natives receiver arguments =
      Exec.refuse
        (Guard.refusal? ⟨!m.isStatic, m.parameters.length⟩ (.invoker receiver arguments))
        (b.invoke natives receiver arguments) := by
  obtain ⟨s, hs, hvalidated⟩ := invoke_eq_refuse hr ht hm ha
  obtain ⟨s', hs', hplain⟩ := invoke_eq_refuse hr ht hm hb
  obtain rfl : s = s' := Option.some.inj (hs.symm.trans hs')
  rw [hvalidated, hplain, Guard.verdict?_eq_refusal? hn]
  rfl

/-- The invoker of a method without parameters does not look at the
arguments. -/
theorem invoke_of_no_parameters (hr : r.registry.Built) {t : TypeDef} (ht : t ∈ r.registry.types)
    (hm : m ∈ t.allMethods) (hzero : m.parameters.length = 0)
    (ha : r.Compiles (.methodInvoker (some m) (some validate)) a) (natives : Natives)
    (receiver : Value) (arguments arguments' : Option (List Value)) :
    a.invoke natives receiver arguments = a.invoke natives receiver arguments' := by
  obtain ⟨s, hs, hcall⟩ := invoke_eq_refuse hr ht hm ha
  have hparameters : s.parameters = [] := by
    have hlen := (Registry.fit_of_callTypes? hs).parameters
    rwa [hzero, List.length_eq_zero_iff] at hlen
  have hprepare : s.prepare receiver arguments = s.prepare receiver arguments' := by
    unfold CallTypes.prepare
    rw [hparameters]
    rfl
  have hcount : (Registry.invokerGuard m validate).parameterCount = 0 := by
    unfold Registry.invokerGuard
    rw [hzero]
    cases validate <;> rfl
  rw [hcall, hcall, Guard.verdict?_of_zero hcount, Guard.verdict?_of_zero hcount,
    Method.directCall, Method.directCall, hprepare]
  rfl

/-- A factory with guards refuses what they refuse, and is otherwise the one
without. -/
theorem create_validated (hn : k.parameters.length ≤ maxCount)
    (ha : r.Compiles (.constructorFactory (some k) (some true)) a)
    (hb : r.Compiles (.constructorFactory (some k) (some false)) b) (natives : Natives)
    (arguments : Option (List Value)) :
    a.create natives arguments =
      Exec.refuse (Guard.refusal? ⟨false, k.parameters.length⟩ (.factory arguments))
        (b.create natives arguments) := by
  obtain ⟨declaring, ts, hdeclaring, hts, hvalidated⟩ := create_eq_refuse ha
  obtain ⟨declaring', ts', hdeclaring', hts', hplain⟩ := create_eq_refuse hb
  obtain rfl : declaring = declaring' := Option.some.inj (hdeclaring.symm.trans hdeclaring')
  obtain rfl : ts = ts' := Option.some.inj (hts.symm.trans hts')
  rw [hvalidated, hplain, Guard.verdict?_eq_refusal? hn]
  rfl

/-- The factory of a constructor without parameters does not look at the
arguments. -/
theorem create_of_no_parameters (hzero : k.parameters.length = 0)
    (ha : r.Compiles (.constructorFactory (some k) (some validate)) a) (natives : Natives)
    (arguments arguments' : Option (List Value)) :
    a.create natives arguments = a.create natives arguments' := by
  obtain ⟨declaring, ts, -, hts, hcall⟩ := create_eq_refuse ha
  have hnil : ts = [] := by
    have hlen := length_of_mapM hts
    rwa [Constructor.parameterTypes, List.length_map, hzero, List.length_eq_zero_iff] at hlen
  have hinstance : k.newInstance natives declaring ts arguments =
      k.newInstance natives declaring ts arguments' := by
    rw [hnil]
    rfl
  have hcount : (Registry.factoryGuard k validate).parameterCount = 0 := by
    unfold Registry.factoryGuard
    rw [hzero]
    cases validate <;> rfl
  rw [hcall, hcall, Guard.verdict?_of_zero hcount, Guard.verdict?_of_zero hcount, hinstance]
  rfl

/-- **With guards, an invoker or factory refuses what its guard refuses, and
is otherwise the one without.** A refusal is the whole run: no body runs and
the heap stays as it is. Without parameters the argument array makes no
difference, be it absent or of any length. -/
theorem validated_eq_refuse (hr : r.registry.Built) {t : TypeDef} (ht : t ∈ r.registry.types) :
    (∀ m ∈ t.allMethods, m.parameters.length ≤ maxCount →
      ((∃ a, r.Compiles (.methodInvoker (some m) (some true)) a) ↔
        ∃ b, r.Compiles (.methodInvoker (some m) (some false)) b) ∧
      ∀ a b, r.Compiles (.methodInvoker (some m) (some true)) a →
        r.Compiles (.methodInvoker (some m) (some false)) b →
        ∀ (natives : Natives) (receiver : Value) (arguments : Option (List Value)),
          a.invoke natives receiver arguments =
            Exec.refuse
              (Guard.refusal? ⟨!m.isStatic, m.parameters.length⟩ (.invoker receiver arguments))
              (b.invoke natives receiver arguments) ∧
          (m.parameters.length = 0 → ∀ arguments',
            a.invoke natives receiver arguments = a.invoke natives receiver arguments')) ∧
    ∀ k ∈ t.constructors, k.parameters.length ≤ maxCount →
      ((∃ a, r.Compiles (.constructorFactory (some k) (some true)) a) ↔
        ∃ b, r.Compiles (.constructorFactory (some k) (some false)) b) ∧
      ∀ a b, r.Compiles (.constructorFactory (some k) (some true)) a →
        r.Compiles (.constructorFactory (some k) (some false)) b →
        ∀ (natives : Natives) (arguments : Option (List Value)),
          a.create natives arguments =
            Exec.refuse (Guard.refusal? ⟨false, k.parameters.length⟩ (.factory arguments))
              (b.create natives arguments) ∧
          (k.parameters.length = 0 → ∀ arguments',
            a.create natives arguments = a.create natives arguments') := by
  constructor
  · intro m hm hn
    refine ⟨exists_invoker_iff, fun a b ha hb natives receiver arguments => ?_⟩
    exact ⟨invoke_validated hr ht hm hn ha hb natives receiver arguments, fun hzero arguments' =>
      invoke_of_no_parameters hr ht hm hzero ha natives receiver arguments arguments'⟩
  · intro k _ hn
    refine ⟨exists_factory_iff, fun a b ha hb natives arguments => ?_⟩
    exact ⟨create_validated hn ha hb natives arguments, fun hzero arguments' =>
      create_of_no_parameters hzero ha natives arguments arguments'⟩

end Reflector

/-- What the guard of the same method refuses. -/
theorem Sample.validated_moveTo :
    ∃ a, Reflector.Compiles ⟨registry, {}⟩ (.methodInvoker (some moveTo) (some true)) a ∧
      ∀ natives,
        (a.invoke natives .null none).run desk = some (.error (.nullArgument "receiver"), desk) ∧
        (a.invoke natives (.object ⟨1⟩) none).run desk =
          some (.error (.nullArgument "arguments"), desk) ∧
        (a.invoke natives (.object ⟨1⟩) (some [])).run desk =
          some (.error (.notEnoughArguments "arguments" 1 0), desk) := by
  have ht : pen ∈ registry.types := by decide
  have hm : moveTo ∈ pen.allMethods := by decide
  have ha : Reflector.Compiles ⟨registry, {}⟩ (.methodInvoker (some moveTo) (some true)) _ :=
    ⟨{}, rfl⟩
  have hb : Reflector.Compiles ⟨registry, {}⟩ (.methodInvoker (some moveTo) (some false)) _ :=
    ⟨{}, rfl⟩
  obtain ⟨hmethods, -⟩ := Reflector.validated_eq_refuse (r := ⟨registry, {}⟩) registry_built ht
  have hrun := (hmethods moveTo hm (by decide)).2 _ _ ha hb
  refine ⟨_, ha, fun natives => ⟨?_, ?_, ?_⟩⟩
  · rw [(hrun natives _ _).1]
    rfl
  · rw [(hrun natives _ _).1]
    rfl
  · rw [(hrun natives _ _).1]
    rfl

end MemberAccess
