import MemberAccess.Accessor.Cache
import MemberAccess.Proofs.Accessor.Parts
import MemberAccess.Proofs.Partial
/-!
# Accessor — which accessor a request compiles to

`Compiles` relates a request to the accessors that a reflector answers it with
when nothing has been compiled before; two of them differ in the identity of
their bodies alone. What the body is follows from the member: the types that
the compiler looks up for a method (`Registry.callTypes?`) and for a field's
accessors are all that can be missing, and with them the body is written down.
-/

namespace MemberAccess

/-- **An accessor that a request is answered with** when nothing is cached. -/
def Reflector.Compiles (r : Reflector) (q : Request) (a : Accessor) : Prop :=
  ∃ ids, (Workshop.request ⟨{}, ids⟩ r q).1 = .ok a

namespace Reflector

variable {r : Reflector} {q : Request} {a : Accessor}

/-- **What is compiled is what was planned.** -/
theorem compiles_iff :
    r.Compiles q a ↔
      ∃ p, r.plan q = .ok p ∧ p.code = .ok a.code ∧ a.shape = p.shape ∧ a.view = p.key.view := by
  unfold Compiles
  cases hp : r.plan q with
  | error e => simp [Workshop.request, hp]
  | ok p =>
    have hfetch : ∀ ids, (Workshop.request ⟨{}, ids⟩ r q).1 =
        (Workshop.compile ⟨{}, ids⟩ p).map (·.1) := by
      intro ids
      simp only [Workshop.request, hp, Workshop.fetch, Cache.find?, List.lookup_nil,
        Option.filter_none]
      cases Workshop.compile ⟨{}, ids⟩ p <;> rfl
    simp only [hfetch, Workshop.compile, Except.ok.injEq, exists_eq_left']
    cases hc : p.code with
    | error e => simp [bind, Except.bind, Except.map]
    | ok code =>
      simp only [bind, Except.bind, pure, Except.pure, Except.map, Except.ok.injEq]
      obtain ⟨shape, view, code', body⟩ := a
      constructor
      · rintro ⟨ids, ha⟩
        cases ha
        exact ⟨rfl, rfl, rfl⟩
      · rintro ⟨rfl, rfl, rfl⟩
        exact ⟨⟨body.raw⟩, rfl⟩

/-- An accessor exists once its plan has code. -/
theorem exists_compiles {p : Plan} {code : Code} (hp : r.plan q = .ok p) (hc : p.code = .ok code) :
    ∃ a, r.Compiles q a ∧ a.code = code :=
  ⟨{ shape := p.shape, view := p.key.view, code := code, body := ⟨0⟩ },
    compiles_iff.2 ⟨p, hp, hc, rfl, rfl⟩, rfl⟩

end Reflector

theorem compileListing_eq_ok {l : Listing} {name : String} {code : Code}
    (h : l.assemble name = .ok code) : compileListing l name = .ok code := by
  rw [compileListing, h]
  rfl

/-! ## Methods -/

/-- **The types a call of a method works with**: the declaring type of an
instance method, those of its parameters, and that of its result unless it
returns nothing. -/
structure CallTypes where
  receiver : Option TypeDef
  parameters : List TypeDef
  result : Option TypeDef

/-- The types of a method, if the registry has them all. -/
def Registry.callTypes? (r : Registry) (m : Method) : Option CallTypes := do
  let receiver ← if m.isStatic then pure none else (r.find? m.declaringType).map some
  let parameters ← m.parameterTypes.mapM r.find?
  let result ← if m.returnsVoid then pure none else (r.find? m.returnType).map some
  return ⟨receiver, parameters, result⟩

namespace CallTypes

/-- The receiver, loaded and cast, if there is one. -/
def receiverOps (s : CallTypes) : List Op := s.receiver.elim [] fun t => Op.receiverCasts [t]

/-- What becomes of the result: it is copied, or null takes its place. -/
def resultOps (s : CallTypes) : List Op := s.result.elim [.loadNull] Op.boxIfNeeded

/-- The instructions that call a method on these types. -/
def ops (m : Method) (s : CallTypes) : List Op :=
  s.receiverOps ++ (Op.argumentCasts 0 s.parameters ++ (Op.callOf m :: (s.resultOps ++ [.ret])))

variable {m : Method} {s : CallTypes}

theorem straight_receiverOps (s : CallTypes) : ∀ op ∈ s.receiverOps, op.IsStraight := by
  unfold receiverOps
  cases s.receiver with
  | none => simp
  | some t => exact Op.straight_receiverCasts [t]

theorem straight_resultOps (s : CallTypes) : ∀ op ∈ s.resultOps, op.IsStraight := by
  unfold resultOps
  cases s.result with
  | none => simp [Op.IsStraight, Op.target?]
  | some t => exact Op.straight_boxIfNeeded t

theorem straight_ops : ∀ op ∈ s.ops m, op.IsStraight := by
  intro op hop
  simp only [ops, List.mem_append, List.mem_cons, List.not_mem_nil, or_false] at hop
  rcases hop with hop | hop | rfl | hop | rfl
  · exact s.straight_receiverOps op hop
  · exact Op.straight_argumentCasts _ _ op hop
  · exact Op.straight_callOf m
  · exact s.straight_resultOps op hop
  · rfl

/-- **The types fit the method**: as many parameters, a receiver unless it is
static, a result unless it returns nothing. -/
structure Fit (m : Method) (s : CallTypes) : Prop where
  receiver : s.receiver.isNone = m.isStatic
  parameters : s.parameters.length = m.parameters.length
  result : s.result.isNone = m.returnsVoid

/-- A call takes the receiver and the arguments and leaves the result. -/
theorem balanced_ops (hs : s.Fit m) : Op.Balanced (s.ops m) where
  straight := straight_ops
  height := by
    have hreceiver : Op.heightAfter s.receiverOps 0 = some (if m.isStatic then 0 else 1) := by
      rw [← hs.receiver, receiverOps]
      cases s.receiver with
      | none => rfl
      | some t => exact Op.heightAfter_receiverCasts [t] 0
    have hresult : Op.heightAfter (s.resultOps ++ [.ret]) (Op.callPushes m) = some 0 := by
      rw [Op.heightAfter_append, Op.callPushes, ← hs.result, resultOps]
      cases s.result with
      | none => rfl
      | some t =>
        have hbox := Op.heightAfter_boxIfNeeded t 0
        simp only [Option.isNone_some, Bool.false_eq_true, if_false, Option.elim_some, hbox]
        rfl
    -- the call finds what it pops: the arguments, and the receiver if there is one
    have hpops : ¬ (if m.isStatic then 0 else 1) + s.parameters.length < Op.callPops m := by
      rw [Op.callPops, hs.parameters]
      omega
    have hzero : (if m.isStatic then 0 else 1) + s.parameters.length - Op.callPops m +
        Op.callPushes m = Op.callPushes m := by
      rw [Op.callPops, hs.parameters]
      omega
    rw [ops, Op.heightAfter_append, hreceiver, Option.bind_some, Op.heightAfter_append,
      Op.heightAfter_argumentCasts, Option.bind_some, Op.heightAfter_cons, Op.effect_callOf,
      if_neg hpops, hzero, hresult]
  last := by simp [ops, List.getLast?_append, List.getLast?_cons, Op.isTerminator]

end CallTypes

namespace Registry

variable {r : Registry} {m : Method} {s : CallTypes} {code : Code} {validate : Bool}

theorem callTypes?_eq_some :
    r.callTypes? m = some s ↔
      (if m.isStatic then s.receiver = none else
        ∃ t, r.find? m.declaringType = some t ∧ s.receiver = some t) ∧
      m.parameterTypes.mapM r.find? = some s.parameters ∧
      (if m.returnsVoid then s.result = none else
        ∃ t, r.find? m.returnType = some t ∧ s.result = some t) := by
  obtain ⟨receiver, parameters, result⟩ := s
  unfold callTypes?
  cases m.isStatic <;> cases m.returnsVoid <;> cases r.find? m.declaringType <;>
    cases m.parameterTypes.mapM r.find? <;> cases r.find? m.returnType <;>
      simp [eq_comm]

theorem fit_of_callTypes? (h : r.callTypes? m = some s) : s.Fit m := by
  obtain ⟨hreceiver, hparameters, hresult⟩ := callTypes?_eq_some.1 h
  refine ⟨?_, ?_, ?_⟩
  · cases hs : m.isStatic with
    | true => simpa [hs] using hreceiver
    | false =>
      obtain ⟨t, -, ht⟩ := by simpa [hs] using hreceiver
      simp [ht]
  · rw [length_of_mapM hparameters, Method.parameterTypes, List.length_map]
  · cases hv : m.returnsVoid with
    | true => simpa [hv] using hresult
    | false =>
      obtain ⟨t, -, ht⟩ := by simpa [hv] using hresult
      simp [ht]

/-- The instructions that load the receiver of a method, if it has one. -/
def thisOps (r : Registry) (m : Method) : Except AccessorError (List Op) :=
  if m.isStatic then .ok [] else r.receiverOps m.declaringType none "method"

/-- An invoker is made of its parts: the receiver, the arguments, the result. -/
theorem methodInvoker_eq (m : Method) (validate : Bool) :
    r.methodInvoker m validate = (do
      let receiver ← r.thisOps m
      let arguments ← r.argumentsOps m.parameterTypes "method"
      let result ← r.resultOps m
      compileListing
        { lines := (invokerGuard m validate).lines ++
            (receiver ++ (arguments ++ (Op.callOf m :: (result ++ [.ret])))).map .op
          labelCount := (invokerGuard m validate).labelCount }
        (r.bodyName m.declaringType m.name "invoke")) := by
  have hops : ∀ receiver arguments result : List Op,
      receiver ++ arguments ++ [Op.callOf m] ++ result ++ [.ret] =
        receiver ++ (arguments ++ (Op.callOf m :: (result ++ [.ret]))) := by simp
  unfold methodInvoker thisOps
  simp only [hops]
  cases m.isStatic <;> rfl

/-- **The body of an invoker**: the guard's checks, then the call. -/
theorem methodInvoker_of_callTypes? (h : r.callTypes? m = some s) (validate : Bool) :
    ∃ code, r.methodInvoker m validate = .ok code ∧
      code.Guarded (r.bodyName m.declaringType m.name "invoke") (invokerGuard m validate)
        (s.ops m) := by
  obtain ⟨hreceiver, hparameters, hresult⟩ := callTypes?_eq_some.1 h
  have harguments : r.argumentsOps m.parameterTypes "method" =
      .ok (Op.argumentCasts 0 s.parameters) := argumentsFrom_eq_ok.2 ⟨_, hparameters, rfl⟩
  have hreceiverOps : r.thisOps m = .ok s.receiverOps := by
    unfold thisOps CallTypes.receiverOps
    cases hs : m.isStatic with
    | true =>
      simp only [hs, if_true] at hreceiver
      simp [hreceiver]
    | false =>
      obtain ⟨t, ht, hr⟩ := by simpa [hs] using hreceiver
      simp only [hr, Bool.false_eq_true, if_false]
      exact receiverOps_eq_ok.2 ⟨[t], by simp [receiverTypes, ht], rfl⟩
  have hresultOps : r.resultOps m = .ok s.resultOps := by
    unfold resultOps CallTypes.resultOps
    cases hv : m.returnsVoid with
    | true =>
      simp only [hv, if_true] at hresult
      simp [hresult]
    | false =>
      obtain ⟨t, ht, hr⟩ := by simpa [hv] using hresult
      simp only [hr, require_eq_ok.2 ht]
      rfl
  obtain ⟨code, hcode, hguarded⟩ := Guard.assemble_guarded (invokerGuard m validate)
    (CallTypes.balanced_ops (fit_of_callTypes? h)) (r.bodyName m.declaringType m.name "invoke")
  refine ⟨code, ?_, hguarded⟩
  rw [methodInvoker_eq, hreceiverOps, harguments, hresultOps]
  exact compileListing_eq_ok hcode

/-- The parts of an invoker name the types that it needs. -/
theorem callTypes?_of_parts {receiver arguments result : List Op}
    (hreceiver : r.thisOps m = .ok receiver)
    (harguments : r.argumentsOps m.parameterTypes "method" = .ok arguments)
    (hresult : r.resultOps m = .ok result) : ∃ s, r.callTypes? m = some s := by
  obtain ⟨ts, hts, -⟩ := argumentsFrom_eq_ok.1 harguments
  have hthis : ∃ o : Option TypeDef, if m.isStatic then o = none else
      ∃ t, r.find? m.declaringType = some t ∧ o = some t := by
    cases hs : m.isStatic with
    | true => exact ⟨none, rfl⟩
    | false =>
      simp only [thisOps, hs, Bool.false_eq_true, if_false] at hreceiver
      obtain ⟨us, hus, -⟩ := receiverOps_eq_ok.1 hreceiver
      cases hd : r.find? m.declaringType with
      | none => simp [receiverTypes, hd] at hus
      | some t => exact ⟨some t, t, rfl, rfl⟩
  have hout : ∃ o : Option TypeDef, if m.returnsVoid then o = none else
      ∃ t, r.find? m.returnType = some t ∧ o = some t := by
    unfold resultOps at hresult
    cases hv : m.returnsVoid with
    | true => exact ⟨none, rfl⟩
    | false =>
      cases hd : r.find? m.returnType with
      | none => simp [hv, require, hd, bind, Except.bind] at hresult
      | some t => exact ⟨some t, t, rfl, rfl⟩
  obtain ⟨this, hthis⟩ := hthis
  obtain ⟨out, hout⟩ := hout
  exact ⟨⟨this, ts, out⟩, callTypes?_eq_some.2 ⟨hthis, hts, hout⟩⟩

/-- An invoker needs the types of its method and nothing else. -/
theorem callTypes?_of_methodInvoker (h : r.methodInvoker m validate = .ok code) :
    ∃ s, r.callTypes? m = some s := by
  rw [methodInvoker_eq] at h
  obtain ⟨receiver, hreceiver, h⟩ := bind_eq_ok.1 h
  obtain ⟨arguments, harguments, h⟩ := bind_eq_ok.1 h
  obtain ⟨result, hresult, -⟩ := bind_eq_ok.1 h
  exact callTypes?_of_parts hreceiver harguments hresult

end Registry

/-! ## Constructors -/

namespace Constructor

/-- The instructions that run a constructor on arguments of these types. -/
def ops (k : Constructor) (declaring : TypeDef) (ts : List TypeDef) : List Op :=
  Op.argumentCasts 0 ts ++ [.newObject declaring k.parameters.length k.body, .ret]

variable {k : Constructor} {declaring : TypeDef} {ts : List TypeDef}

theorem straight_ops : ∀ op ∈ k.ops declaring ts, op.IsStraight := by
  intro op hop
  simp only [ops, List.mem_append, List.mem_cons, List.not_mem_nil, or_false] at hop
  rcases hop with hop | rfl | rfl
  · exact Op.straight_argumentCasts _ _ op hop
  · rfl
  · rfl

/-- A new object takes the arguments and leaves itself. -/
theorem balanced_ops (hlen : ts.length = k.parameters.length) :
    Op.Balanced (k.ops declaring ts) where
  straight := straight_ops
  height := by
    rw [ops, Op.heightAfter_append, Op.heightAfter_argumentCasts, Option.bind_some, hlen,
      Op.heightAfter_cons]
    simp [Op.effect, Op.heightAfter_cons]
  last := by simp [ops, List.getLast?_append, Op.isTerminator]

end Constructor

namespace Registry

variable {r : Registry} {k : Constructor} {declaring : TypeDef} {ts : List TypeDef} {code : Code}
  {validate : Bool}

/-- **The body of a factory**: the guard's checks, then the constructor. -/
theorem constructorFactory_of_types (hts : k.parameterTypes.mapM r.find? = some ts)
    (validate : Bool) :
    ∃ code, r.constructorFactory k declaring validate = .ok code ∧
      code.Guarded (r.bodyName declaring.handle ".ctor" "new") (factoryGuard k validate)
        (k.ops declaring ts) := by
  have hlen : ts.length = k.parameters.length := by
    rw [length_of_mapM hts, Constructor.parameterTypes, List.length_map]
  have harguments : r.argumentsOps k.parameterTypes "constructor" =
      .ok (Op.argumentCasts 0 ts) := argumentsFrom_eq_ok.2 ⟨_, hts, rfl⟩
  obtain ⟨code, hcode, hguarded⟩ := Guard.assemble_guarded (factoryGuard k validate)
    (Constructor.balanced_ops hlen) (r.bodyName declaring.handle ".ctor" "new")
  refine ⟨code, ?_, hguarded⟩
  unfold constructorFactory
  rw [harguments]
  exact compileListing_eq_ok hcode

/-- A factory needs the types of its parameters. -/
theorem types_of_constructorFactory (h : r.constructorFactory k declaring validate = .ok code) :
    ∃ ts, k.parameterTypes.mapM r.find? = some ts := by
  unfold constructorFactory at h
  obtain ⟨arguments, harguments, -⟩ := bind_eq_ok.1 h
  obtain ⟨ts, hts, -⟩ := argumentsFrom_eq_ok.1 harguments
  exact ⟨ts, hts⟩

end Registry

end MemberAccess
