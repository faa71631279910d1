import MemberAccess.Proofs.Accessor.Factory
import MemberAccess.Proofs.Accessor.Keys
import MemberAccess.Proofs.Accessor.PropertyAccess
/-!
# Accessor — what a request is turned down with

A request that fails should say that its descriptor is absent or that the member
has not the right shape (`AccessorError.IsRefusal`). Every part that a body is
compiled from fails in that way only, and a body written down from its parts is
balanced whatever the member is: static or not, with any number of parameters,
returning something or nothing. One body is not. The getter of a property of
type `Void` returns what its get method leaves, which is nothing
(`Reflector.request_rejected`).
-/

namespace MemberAccess

/-- **A refusal**: the descriptor is absent, or what it describes is of another
shape than was asked for. -/
def AccessorError.IsRefusal : AccessorError → Prop
  | .nullArgument _ | .invalidShape _ _ => True
  | _ => False

/-- **All failures of a computation are of a kind.** -/
def FailsWith {ε α : Type} (P : ε → Prop) (x : Except ε α) : Prop := ∀ e, x = .error e → P e

namespace FailsWith

variable {ε α β : Type} {P Q : ε → Prop} {x : Except ε α}

theorem of_ok {a : α} (h : x = .ok a) : FailsWith P x := by
  intro e he
  rw [h] at he
  cases he

theorem error {e : ε} (he : P e) : FailsWith P (.error e : Except ε α) := by
  intro e' he'
  cases he'
  exact he

theorem mono (h : FailsWith P x) (hPQ : ∀ e, P e → Q e) : FailsWith Q x :=
  fun e he => hPQ e (h e he)

/-- **A sequence fails in its first part, or in its second.** -/
theorem bind {f : α → Except ε β} (hx : FailsWith P x)
    (hf : ∀ a, x = .ok a → FailsWith P (f a)) : FailsWith P (x >>= f) := by
  intro e he
  cases hresult : x with
  | error e' =>
    rw [hresult] at he
    cases he
    exact hx e hresult
  | ok a =>
    rw [hresult] at he
    exact hf a hresult e he

end FailsWith

/-! ## The parts of bodies -/

section Parts

open AccessorError (IsRefusal)

theorem refuses_present {α : Type} (x : Option α) (param : String) :
    FailsWith IsRefusal (present x param) := by
  cases x with
  | none => exact .error trivial
  | some a => exact .of_ok rfl

/-- A balanced list of instructions does not fail to be a body. -/
theorem refuses_straight {ops : List Op} (h : Op.Balanced ops) (locals : Nat) (name : String) :
    FailsWith IsRefusal (compileListing (.straight ops locals) name) := by
  obtain ⟨code, hcode, -⟩ := Listing.assemble_straight h locals name
  exact .of_ok (compileListing_eq_ok hcode)

namespace Registry

variable (r : Registry)

theorem refuses_require (h : TypeHandle) (param : String) :
    FailsWith IsRefusal (r.require h param) := by
  unfold require
  split
  · exact .of_ok rfl
  · exact .error trivial

theorem refuses_receiverCheck (h : TypeHandle) (param : String) :
    FailsWith IsRefusal (r.receiverCheck h param) :=
  (r.refuses_require h param).bind fun _ _ => .of_ok rfl

theorem refuses_receiverOps (declaring : TypeHandle) (owner : Option TypeHandle)
    (param : String) : FailsWith IsRefusal (r.receiverOps declaring owner param) := by
  have hown (view : List Op) : FailsWith IsRefusal
      (r.receiverCheck declaring param >>= fun own => .ok (.loadReceiver :: view ++ own)) :=
    (r.refuses_receiverCheck declaring param).bind fun _ _ => .of_ok rfl
  unfold receiverOps
  split
  · exact (r.refuses_receiverCheck _ param).bind fun view _ => hown view
  · exact hown []

theorem refuses_inputOps (member : TypeDef) (value : Option TypeHandle) (param : String) :
    FailsWith IsRefusal (r.inputOps member value param) := by
  unfold inputOps
  split
  · exact (r.refuses_require _ param).bind fun _ _ => .of_ok rfl
  · exact .of_ok rfl

theorem refuses_argumentsFrom (param : String) (i : Nat) (hs : List TypeHandle) :
    FailsWith IsRefusal (r.argumentsFrom param i hs) := by
  induction hs generalizing i with
  | nil => exact .of_ok rfl
  | cons h hs ih =>
    refine FailsWith.bind ?_ fun _ _ => (ih (i + 1)).bind fun _ _ => .of_ok rfl
    exact (r.refuses_require h param).bind fun _ _ => .of_ok rfl

theorem refuses_checkView (place : Place) (view : Option View) (access : Access)
    (param : String) : FailsWith IsRefusal (r.checkView place view access param) := by
  unfold checkView
  split
  · unfold View.check
    split
    · exact .of_ok rfl
    · exact .error trivial
  · exact .of_ok rfl

/-! ## The bodies -/

variable {r} {f : Field} {p : Property} {m : Method} {k : Constructor} {t declaring : TypeDef}
  {owner value : Option TypeHandle} {validate : Bool} {ms : List Method}

theorem refuses_fieldGetter : FailsWith IsRefusal (r.fieldGetter f owner) := by
  refine (r.refuses_require f.type "field").bind fun type _ => ?_
  -- the receiver is cast to some types, and which they are does not matter
  have hbody (ts : List TypeDef) :=
    refuses_straight (Field.balanced_getterOps (f := f) (s := ⟨ts, [], type⟩)) 0
      (r.bodyName f.declaringType f.name "get")
  unfold Field.getterOps at hbody
  cases hstorage : f.storage with
  | cell c =>
    simp only [hstorage] at hbody
    exact hbody []
  | slot i =>
    simp only [hstorage] at hbody
    refine (r.refuses_receiverOps _ _ _).bind fun ops hops => ?_
    obtain ⟨ts, -, rfl⟩ := receiverOps_eq_ok.1 hops
    exact hbody ts

theorem refuses_fieldSetter : FailsWith IsRefusal (r.fieldSetter f owner value) := by
  refine (r.refuses_require f.type "field").bind fun type _ => ?_
  refine (r.refuses_inputOps type value "field").bind fun input hinput => ?_
  obtain ⟨is, -, rfl⟩ := inputOps_eq_ok.1 hinput
  have hbody (ts : List TypeDef) :=
    refuses_straight (Field.balanced_setterOps (f := f) (s := ⟨ts, is, type⟩)) 1
      (r.bodyName f.declaringType f.name "set")
  unfold Field.setterOps at hbody
  cases hstorage : f.storage with
  | cell c =>
    simp only [hstorage] at hbody
    exact hbody []
  | slot i =>
    simp only [hstorage] at hbody
    refine (r.refuses_receiverOps _ _ _).bind fun ops hops => ?_
    obtain ⟨ts, -, rfl⟩ := receiverOps_eq_ok.1 hops
    exact hbody ts

theorem refuses_accessorReceiver : FailsWith IsRefusal (r.accessorReceiver m owner) := by
  unfold accessorReceiver
  split
  · exact .of_ok rfl
  · exact r.refuses_receiverOps _ _ _

/-- The parts of a property's getter, and then its body. -/
theorem failsWith_propertyGetter {P : AccessorError → Prop} (hP : ∀ e, IsRefusal e → P e)
    (hbody : ∀ s : FieldTypes, FailsWith P (compileListing (.straight (Property.getterOps m s) 0)
      (r.bodyName p.declaringType p.name "get"))) :
    FailsWith P (r.propertyGetter p m owner) := by
  refine ((r.refuses_require p.type "property").mono hP).bind fun type _ => ?_
  refine (refuses_accessorReceiver.mono hP).bind fun ops hops => ?_
  obtain ⟨ts, rfl, -⟩ := accessorReceiver_eq_ok.1 hops
  have hlisting : m.subjectOps ts ++ [Op.callOf m] ++ Op.boxIfNeeded type ++ [.ret] =
      Property.getterOps m ⟨ts, [], type⟩ := by simp [Property.getterOps]
  rw [hlisting]
  exact hbody _

/-- **The getter of a property that returns something.** -/
theorem refuses_propertyGetter (hargs : m.parameters.length = 0) (hvoid : m.returnsVoid = false) :
    FailsWith IsRefusal (r.propertyGetter p m owner) :=
  failsWith_propertyGetter (fun _ he => he) fun _ =>
    refuses_straight (Property.balanced_getterOps hargs hvoid) 0 _

theorem refuses_propertySetter (hargs : m.parameters.length = 1) (hvoid : m.returnsVoid = true) :
    FailsWith IsRefusal (r.propertySetter p m owner value) := by
  refine (r.refuses_require p.type "property").bind fun type _ => ?_
  refine (r.refuses_inputOps type value "property").bind fun input hinput => ?_
  obtain ⟨is, -, rfl⟩ := inputOps_eq_ok.1 hinput
  refine refuses_accessorReceiver.bind fun ops hops => ?_
  obtain ⟨ts, rfl, -⟩ := accessorReceiver_eq_ok.1 hops
  have hlisting : Op.inputCasts is ++ m.subjectOps ts ++ [.loadLocal 0, Op.callOf m, .retVoid] =
      Property.setterOps m ⟨ts, is, type⟩ := by simp [Property.setterOps]
  rw [hlisting]
  exact refuses_straight (Property.balanced_setterOps hargs hvoid) 1 _

/-- **Invokers are compiled once their types are found**, static or not and
whether they return something. -/
theorem refuses_methodInvoker : FailsWith IsRefusal (r.methodInvoker m validate) := by
  have hresult : FailsWith IsRefusal (r.resultOps m) := by
    unfold resultOps
    split
    · exact .of_ok rfl
    · exact (r.refuses_require _ _).bind fun _ _ => .of_ok rfl
  have hreceiver : FailsWith IsRefusal (r.thisOps m) := by
    unfold thisOps
    split
    · exact .of_ok rfl
    · exact r.refuses_receiverOps _ _ _
  cases htypes : r.callTypes? m with
  | some s =>
    obtain ⟨code, hcode, -⟩ := methodInvoker_of_callTypes? htypes validate
    exact .of_ok hcode
  | none =>
    rw [methodInvoker_eq]
    refine hreceiver.bind fun receiver hreceiver => ?_
    refine (r.refuses_argumentsFrom _ _ _).bind fun arguments harguments => ?_
    refine hresult.bind fun result hresult => ?_
    -- with all its parts there the method has its types
    obtain ⟨s, hs⟩ := callTypes?_of_parts hreceiver harguments hresult
    rw [htypes] at hs
    cases hs

theorem refuses_constructorFactory :
    FailsWith IsRefusal (r.constructorFactory k declaring validate) := by
  cases htypes : k.parameterTypes.mapM r.find? with
  | some ts =>
    obtain ⟨code, hcode, -⟩ := @constructorFactory_of_types r k declaring ts htypes validate
    exact .of_ok hcode
  | none =>
    refine (r.refuses_argumentsFrom "constructor" 0 k.parameterTypes).bind fun ops hops => ?_
    obtain ⟨ts, hts, -⟩ := argumentsFrom_eq_ok.1 hops
    rw [htypes] at hts
    cases hts

end Registry

end Parts

/-! ## Requests -/

/-- An instruction that takes more than there is. -/
def AccessorError.IsUnderflow : AccessorError → Prop
  | .malformed (.stackUnderflow _ _ _) => True
  | _ => False

/-- **A getter with nothing to return** is refused by the builder, if it comes
that far. -/
theorem Registry.underflows_propertyGetter {r : Registry} {p : Property} {m : Method}
    {owner : Option TypeHandle} (hargs : m.parameters.length = 0) (hvoid : m.returnsVoid = true) :
    FailsWith (fun e => e.IsRefusal ∨ e.IsUnderflow) (r.propertyGetter p m owner) := by
  refine failsWith_propertyGetter (fun _ he => .inl he) fun s e he => ?_
  unfold compileListing at he
  cases hassemble : (Listing.straight (Property.getterOps m s) 0).assemble
      (r.bodyName p.declaringType p.name "get") with
  | ok code =>
    rw [hassemble] at he
    cases he
  | error f =>
    rw [hassemble] at he
    obtain ⟨i, op, rfl⟩ :=
      Listing.underflow_of_assemble (Property.heightAfter_getterOps hargs hvoid) hassemble
    cases he
    exact .inr trivial

/-- **All that can go wrong with a request**: its plan fails, or the body that
it plans. -/
structure PlanFailsWith (P : AccessorError → Prop) (x : Except AccessorError Plan) : Prop where
  plan : FailsWith P x
  code : ∀ p, x = .ok p → FailsWith P p.code

namespace PlanFailsWith

variable {P Q : AccessorError → Prop} {α : Type}

theorem of_plan {p : Plan} (h : FailsWith P p.code) : PlanFailsWith P (.ok p) where
  plan := .of_ok rfl
  code p' hp' := by
    cases hp'
    exact h

theorem bind {x : Except AccessorError α} {f : α → Except AccessorError Plan}
    (hx : FailsWith P x) (hf : ∀ a, x = .ok a → PlanFailsWith P (f a)) :
    PlanFailsWith P (x >>= f) where
  plan := hx.bind fun a ha => (hf a ha).plan
  code p hp := by
    obtain ⟨a, ha, hplan⟩ := bind_eq_ok.1 hp
    exact (hf a ha).code p hplan

theorem error {e : AccessorError} (he : P e) : PlanFailsWith P (.error e) where
  plan := .error he
  code p hp := by cases hp

theorem mono {x : Except AccessorError Plan} (h : PlanFailsWith P x) (hPQ : ∀ e, P e → Q e) :
    PlanFailsWith Q x where
  plan := h.plan.mono hPQ
  code p hp := (h.code p hp).mono hPQ

end PlanFailsWith

/-- The property whose getter a request asks for. -/
def Request.readProperty? : Request → Option Property
  | .propertyGetter p _ _ => p
  | .memberGetter (some (.property p)) | .memberAccessor (some (.property p)) => some p
  | _ => none

/-- The requests that ask for a property's getter. -/
theorem Request.readProperty?_eq_some {q : Request} {p : Property} :
    q.readProperty? = some p ↔ (∃ choice view, q = .propertyGetter (some p) choice view) ∨
      q = .memberGetter (some (.property p)) ∨ q = .memberAccessor (some (.property p)) := by
  constructor
  · intro hq
    cases q with
    | propertyGetter p' choice view =>
      obtain rfl : p' = some p := hq
      exact .inl ⟨choice, view, rfl⟩
    | memberGetter m =>
      cases m with
      | none => cases hq
      | some m =>
        cases m with
        | property p' =>
          cases hq
          exact .inr (.inl rfl)
        | field | method | constructor => cases hq
    | memberAccessor m =>
      cases m with
      | none => cases hq
      | some m =>
        cases m with
        | property p' =>
          cases hq
          exact .inr (.inr rfl)
        | field | method | constructor => cases hq
    | fieldGetter | fieldSetter | propertySetter | methodInvoker | constructorFactory | typeFactory
    | memberSetter => cases hq
  · rintro (⟨choice, view, rfl⟩ | rfl | rfl) <;> rfl

/-- **The ways in which a request can fail.** Underflow is left to getters of
properties that are nothing. -/
def Request.CanFailWith (q : Request) (e : AccessorError) : Prop :=
  e.IsRefusal ∨ e.IsUnderflow ∧ ∃ p, q.readProperty? = some p ∧ p.type = .void

namespace Property

variable {p : Property} {ms : List Method}

theorem refuses_resolveGet (nonPublic : Bool) :
    FailsWith AccessorError.IsRefusal (p.resolveGet nonPublic) := by
  unfold resolveGet
  split
  · exact .error trivial
  · split
    · exact .of_ok rfl
    · exact .error trivial
    · exact .error trivial

theorem refuses_resolveSet (nonPublic : Bool) :
    FailsWith AccessorError.IsRefusal (p.resolveSet nonPublic) := by
  unfold resolveSet
  split
  · exact .error trivial
  · split
    · exact .of_ok rfl
    · exact .error trivial
    · exact .error trivial

/-- A get method that a getter calls takes nothing and returns what the property
is. -/
theorem AccessorsIn.of_resolveGet (hp : p.AccessorsIn ms) {nonPublic : Bool} {m : Method}
    (hm : p.resolveGet nonPublic = .ok m) : m.parameters.length = 0 ∧ m.returnType = p.type := by
  obtain ⟨hindex, hgetter⟩ := resolveGet_eq_ok hm
  obtain ⟨-, hargs, hreturn⟩ := hp.getter m hgetter
  rw [hindex, List.length_nil] at hargs
  exact ⟨hargs, hreturn⟩

/-- A set method that a setter calls takes one value and returns nothing. -/
theorem AccessorsIn.of_resolveSet (hp : p.AccessorsIn ms) {nonPublic : Bool} {m : Method}
    (hm : p.resolveSet nonPublic = .ok m) :
    m.parameters.length = 1 ∧ m.returnsVoid = true := by
  obtain ⟨hindex, hsetter⟩ := resolveSet_eq_ok hm
  obtain ⟨-, hargs, -⟩ := hp.setter m hsetter
  rw [hindex, List.length_nil] at hargs
  exact ⟨hargs, hp.returnsVoid hsetter⟩

end Property

namespace Reflector

open AccessorError (IsRefusal)

variable {r : Reflector} {q : Request}

theorem refuses_planFieldGetter (f : Option Field) (view : Option View) :
    PlanFailsWith IsRefusal (r.planFieldGetter f view) :=
  .bind (refuses_present f _) fun _ _ => .of_plan <|
    (Registry.refuses_checkView _ _ _ _ _).bind fun _ _ => Registry.refuses_fieldGetter

theorem refuses_planFieldSetter (f : Option Field) (view : Option View) :
    PlanFailsWith IsRefusal (r.planFieldSetter f view) :=
  .bind (refuses_present f _) fun _ _ => .of_plan <|
    (Registry.refuses_checkView _ _ _ _ _).bind fun _ _ => Registry.refuses_fieldSetter

theorem refuses_planPropertySetter {p : Option Property} (nonPublic : Bool) (view : Option View)
    (hp : ∀ p', p = some p' → ∃ ms, p'.AccessorsIn ms) :
    PlanFailsWith IsRefusal (r.planPropertySetter p nonPublic view) := by
  refine .bind (refuses_present p _) fun p' hpresent => ?_
  refine .bind (Property.refuses_resolveSet nonPublic) fun m hm => .of_plan ?_
  obtain ⟨ms, haccessors⟩ := hp p' (present_eq_ok.1 hpresent)
  obtain ⟨hargs, hvoid⟩ := haccessors.of_resolveSet hm
  exact (Registry.refuses_checkView _ _ _ _ _).bind fun _ _ =>
    Registry.refuses_propertySetter hargs hvoid

/-- **The getter of a property** fails with an underflow only if the property is
nothing. -/
theorem failsWith_planPropertyGetter {p : Option Property} (nonPublic : Bool) (view : Option View)
    (hp : ∀ p', p = some p' → ∃ ms, p'.AccessorsIn ms) :
    PlanFailsWith (fun e => e.IsRefusal ∨ e.IsUnderflow ∧ ∃ p', p = some p' ∧ p'.type = .void)
      (r.planPropertyGetter p nonPublic view) := by
  have hrefusal : ∀ e : AccessorError, e.IsRefusal →
      e.IsRefusal ∨ e.IsUnderflow ∧ ∃ p', p = some p' ∧ p'.type = .void := fun _ he => .inl he
  refine .bind ((refuses_present p _).mono hrefusal) fun p' hpresent => ?_
  obtain rfl := present_eq_ok.1 hpresent
  refine .bind ((Property.refuses_resolveGet nonPublic).mono hrefusal) fun m hm => .of_plan ?_
  refine ((Registry.refuses_checkView _ _ _ _ _).mono hrefusal).bind fun _ _ => ?_
  obtain ⟨ms, haccessors⟩ := hp p' rfl
  obtain ⟨hargs, hreturn⟩ := haccessors.of_resolveGet hm
  by_cases hvoid : p'.type = .void
  · have hnothing : m.returnsVoid = true := by simp [Method.returnsVoid, hreturn, hvoid]
    refine (Registry.underflows_propertyGetter hargs hnothing).mono fun e he => ?_
    exact he.imp_right fun hunderflow => ⟨hunderflow, p', rfl, hvoid⟩
  · have hsomething : m.returnsVoid = false := by simp [Method.returnsVoid, hreturn, hvoid]
    exact (Registry.refuses_propertyGetter hargs hsomething).mono hrefusal

theorem refuses_planMethodInvoker (m : Option Method) (validate : Bool) :
    PlanFailsWith IsRefusal (r.planMethodInvoker m validate) :=
  .bind (refuses_present m _) fun _ _ => .of_plan Registry.refuses_methodInvoker

theorem refuses_planConstructorFactory (k : Option Constructor) (validate : Bool) :
    PlanFailsWith IsRefusal (r.planConstructorFactory k validate) := by
  refine .bind (refuses_present k _) fun _ _ => ?_
  refine .bind (Registry.refuses_require _ _ _) fun declaring _ => ?_
  split
  · exact .error trivial
  · exact .of_plan Registry.refuses_constructorFactory

theorem refuses_planTypeFactory (t : Option TypeDef) :
    PlanFailsWith IsRefusal (r.planTypeFactory t) := by
  refine .bind (refuses_present t _) fun t _ => ?_
  split
  · exact .error trivial
  · exact .of_plan (refuses_straight t.balanced_defaultOps 0 _)

/-- **How a request's plan and body can fail.** Of a property it is needed that
its accessor methods are what its accessors take them for. -/
theorem failsWith_plan
    (hq : ∀ p, q.subject? = some (.member (.property p)) → ∃ ms, p.AccessorsIn ms) :
    PlanFailsWith q.CanFailWith (r.plan q) := by
  have hrefusal : ∀ e : AccessorError, e.IsRefusal → q.CanFailWith e := fun _ he => .inl he
  cases q with
  | fieldGetter f view => exact (refuses_planFieldGetter f view).mono hrefusal
  | fieldSetter f view => exact (refuses_planFieldSetter f view).mono hrefusal
  | propertyGetter p choice view =>
    refine failsWith_planPropertyGetter _ view fun p' hp' => hq p' ?_
    obtain rfl : p = some p' := hp'
    rfl
  | propertySetter p choice view =>
    refine (refuses_planPropertySetter _ view fun p' hp' => hq p' ?_).mono hrefusal
    rw [hp']
    rfl
  | methodInvoker m choice => exact (refuses_planMethodInvoker m _).mono hrefusal
  | constructorFactory k choice => exact (refuses_planConstructorFactory k _).mono hrefusal
  | typeFactory t => exact (refuses_planTypeFactory t).mono hrefusal
  | memberGetter m =>
    refine .bind ((refuses_present m _).mono hrefusal) fun m' hm' => ?_
    obtain rfl := present_eq_ok.1 hm'
    cases m' with
    | field f => exact (refuses_planFieldGetter _ none).mono hrefusal
    | property p =>
      refine failsWith_planPropertyGetter _ none fun p' hp' => hq p' ?_
      cases hp'
      rfl
    | method m => exact .error (.inl trivial)
    | constructor k => exact .error (.inl trivial)
  | memberSetter m =>
    refine .bind ((refuses_present m _).mono hrefusal) fun m' hm' => ?_
    obtain rfl := present_eq_ok.1 hm'
    cases m' with
    | field f => exact (refuses_planFieldSetter _ none).mono hrefusal
    | property p =>
      refine (refuses_planPropertySetter _ none fun p' hp' => hq p' ?_).mono hrefusal
      cases hp'
      rfl
    | method m => exact .error (.inl trivial)
    | constructor k => exact .error (.inl trivial)
  | memberAccessor m =>
    refine .bind ((refuses_present m _).mono hrefusal) fun m' hm' => ?_
    obtain rfl := present_eq_ok.1 hm'
    cases m' with
    | field f => exact (refuses_planFieldGetter _ none).mono hrefusal
    | property p =>
      refine failsWith_planPropertyGetter _ none fun p' hp' => hq p' ?_
      cases hp'
      rfl
    | method m => exact (refuses_planMethodInvoker _ _).mono hrefusal
    | constructor k => exact (refuses_planConstructorFactory _ _).mono hrefusal

/-- A request fails as its plan does, or as the body that it plans. -/
theorem request_eq_error {w : Workshop} {e : AccessorError}
    (h : (w.request r q).1 = .error e) :
    r.plan q = .error e ∨ ∃ p, r.plan q = .ok p ∧ p.code = .error e := by
  unfold Workshop.request at h
  cases hplan : r.plan q with
  | error e' =>
    rw [hplan] at h
    cases h
    exact .inl rfl
  | ok p =>
    rw [hplan] at h
    refine .inr ⟨p, rfl, ?_⟩
    simp only [Workshop.fetch] at h
    split at h
    · cases h
    · -- nothing is cached, so the body is compiled
      cases hcode : p.code with
      | ok code =>
        simp only [Workshop.compile, hcode, bind, Except.bind, pure, Except.pure] at h
        split at h <;> cases h
      | error e' =>
        simp only [Workshop.compile, hcode, bind, Except.bind] at h
        cases h
        rfl

/-- A getter of nothing is planned and never compiled. -/
theorem not_compiles_propertyGetter {p : Property} {ms : List Method} (hp : p.AccessorsIn ms)
    (hvoid : p.type = .void) {choice : Bool} {view : Option View} {plan : Plan} {code : Code}
    (hplan : r.planPropertyGetter (some p) choice view = .ok plan) :
    plan.code ≠ .ok code := by
  intro hcode
  obtain ⟨_, hsome, hplan⟩ := bind_eq_ok.1 hplan
  cases hsome
  obtain ⟨m, hm, hplan⟩ := bind_eq_ok.1 hplan
  cases hplan
  obtain ⟨_, -, hcode⟩ := bind_eq_ok.1 hcode
  obtain ⟨s, -, hbalanced, -⟩ := Registry.propertyGetter_eq_ok hcode
  obtain ⟨hargs, hreturn⟩ := hp.of_resolveGet hm
  have hsomething := Property.returnsVoid_of_balanced hbalanced hargs
  simp [Method.returnsVoid, hreturn, hvoid] at hsomething

/-- Whatever the request, the plan is that of a property's getter. -/
theorem plan_of_readProperty? {p : Property} (hq : q.readProperty? = some p) :
    q.subject? = some (.member (.property p)) ∧
      ∃ choice view, r.plan q = r.planPropertyGetter (some p) choice view := by
  rcases Request.readProperty?_eq_some.1 hq with ⟨choice, view, rfl⟩ | rfl | rfl <;>
    exact ⟨rfl, _, _, rfl⟩

/-- **What a request is turned down with.** In a registry that has been built,
whatever is asked about its members and types, with whatever flags and view and
whatever is cached: a request that fails is refused, unless it is for the getter
of a property of type `Void`, which can also fail because its body underflows.
Such a getter is never compiled. -/
theorem request_rejected (hr : r.registry.Built)
    (hq : ∀ p, q.subject? = some (.member (.property p)) →
      ∃ t ∈ r.registry.types, p ∈ t.properties) :
    (∀ w e, (Workshop.request w r q).1 = .error e → q.CanFailWith e) ∧
      ∀ p, q.readProperty? = some p → p.type = .void → ∀ a, ¬ r.Compiles q a := by
  obtain ⟨ids, hb⟩ := hr
  have haccessors : ∀ p, q.subject? = some (.member (.property p)) → ∃ ms, p.AccessorsIn ms := by
    intro p hp
    obtain ⟨t, ht, hmem⟩ := hq p hp
    exact ⟨t.methods, (hb.contracts.regular t ht).properties p hmem⟩
  refine ⟨fun w e he => ?_, fun p hp hvoid a ha => ?_⟩
  · have hplan := @failsWith_plan r q haccessors
    rcases request_eq_error he with hfail | ⟨plan, hok, hfail⟩
    · exact hplan.plan e hfail
    · exact hplan.code plan hok e hfail
  · obtain ⟨hsubject, choice, view, hgetter⟩ := @plan_of_readProperty? r q p hp
    obtain ⟨ms, hms⟩ := haccessors p hsubject
    obtain ⟨plan, hplan, hcode, -⟩ := compiles_iff.1 ha
    exact not_compiles_propertyGetter hms hvoid (hgetter ▸ hplan) hcode

end Reflector

namespace Sample

/-- A class with a property that is nothing. -/
def bellDefinition : TypeDefinition where
  name := "Bell"
  kind := .classType
  properties := [{ name := "ring", type := .void, getter := some { body := .native ⟨0⟩ } }]

def getRing : Method where
  id := ⟨66⟩
  name := "get_ring"
  declaringType := ⟨65⟩
  parameters := []
  returnType := .void
  visibility := .anyone
  isStatic := false
  slot := none
  body := some (.native ⟨0⟩)

def ring : Property := ⟨⟨67⟩, "ring", ⟨65⟩, .void, some getRing, none, []⟩

def bell : TypeDef :=
  { TypeDef.blank ⟨65⟩ "Bell" .classType with
    base := some .object
    properties := [ring]
    methods := [getRing]
    constructors := [⟨⟨68⟩, ⟨65⟩, [], .anyone, none⟩] }

def belfry : Catalog := ⟨(Catalog.standard {}).1.types ++ [bell]⟩

theorem define_bell :
    ((Catalog.standard {}).1.define bellDefinition (Catalog.standard {}).2).run {} =
      some (.ok ⟨⟨65⟩, belfry, ⟨69⟩⟩, {}) := by rfl

def belfryRegistry : Registry := (belfry.freeze ⟨69⟩).1

theorem belfryRegistry_built : belfryRegistry.Built :=
  ⟨⟨69⟩, .define (.standard {} (by decide)) (Nat.le_refl _) define_bell⟩

/-- The getter of the bell's property fails in the one way that is left. -/
theorem rejected_ring :
    belfryRegistry.Built ∧ ring ∈ bell.properties ∧ bell ∈ belfryRegistry.types ∧
      Request.CanFailWith (.propertyGetter (some ring) none none)
        (.malformed (.stackUnderflow 3 .ret "Bell.ring:get")) ∧
      ∀ a, ¬ Reflector.Compiles ⟨belfryRegistry, {}⟩ (.propertyGetter (some ring) none none) a := by
  have hring : ring ∈ bell.properties := by decide
  have hbell : bell ∈ belfryRegistry.types := by decide
  obtain ⟨hfail, hnever⟩ := @Reflector.request_rejected ⟨belfryRegistry, {}⟩
    (.propertyGetter (some ring) none none) belfryRegistry_built
    fun p hp => ⟨bell, hbell, by cases hp; exact hring⟩
  exact ⟨belfryRegistry_built, hring, hbell, hfail ⟨{}, {}⟩ _ rfl, hnever ring rfl rfl⟩

/-- **A request that is not refused**: what it is turned down with is a body that
takes a value where there is none. -/
theorem ring_underflows :
    belfryRegistry.Built ∧ bell ∈ belfryRegistry.types ∧ ring ∈ bell.properties ∧
      (Workshop.request ⟨{}, {}⟩ ⟨belfryRegistry, {}⟩ (.propertyGetter (some ring) none none)).1 =
        .error (.malformed (.stackUnderflow 3 .ret "Bell.ring:get")) :=
  ⟨belfryRegistry_built, by decide, by decide, rfl⟩

end Sample

end MemberAccess
