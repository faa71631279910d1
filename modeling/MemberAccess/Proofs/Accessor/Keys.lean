import MemberAccess.Accessor.Cache
import MemberAccess.Proofs.Partial
/-!
# Accessor — what a key says about its plan

A plan is recomputed from its key and from what was asked about: the
descriptor of a member, or the definition of a type (`Registry.planAt`). All
else that a request carries, its spelling and the defaults of the reflector it
is made to, is in the key. So the key fixes the plan's form, and requests
about one subject under one key have one plan.
-/

namespace MemberAccess

/-- **What a request is about.** -/
inductive Subject where
  | member (m : Member)
  | type (t : TypeDef)

namespace Subject

/-- What a subject is known by in a key. -/
def target : Subject → CacheTarget
  | member m => .member m.id
  | type t => .type t.handle

end Subject

/-- What a request is about, unless it leaves that absent. -/
def Request.subject? : Request → Option Subject
  | .fieldGetter f _ | .fieldSetter f _ => f.map fun f => .member (.field f)
  | .propertyGetter p _ _ | .propertySetter p _ _ => p.map fun p => .member (.property p)
  | .methodInvoker m _ => m.map fun m => .member (.method m)
  | .constructorFactory k _ => k.map fun k => .member (.constructor k)
  | .typeFactory t => t.map .type
  | .memberGetter m | .memberSetter m | .memberAccessor m => m.map .member

/-- **The form that a key dictates**: what the accessor is for, and whether it
is seen through a view. -/
def CacheKey.shape (k : CacheKey) : Shape :=
  match k.purpose with
  | .fieldGetter | .propertyGetter => if k.view.isSome then .typedGetter else .getter
  | .fieldSetter | .propertySetter => if k.view.isSome then .typedSetter else .setter
  | .methodInvoker => .invoker
  | .constructorFactory => .factory
  | .defaultFactory => .defaultFactory

namespace Registry

variable (r : Registry)

/-- **The plan that a key and its subject stand for.** -/
def planAt (k : CacheKey) : Subject → Except AccessorError Plan
  | .member (.field f) =>
    match k.purpose with
    | .fieldGetter => Reflector.planFieldGetter ⟨r, {}⟩ (some f) k.view
    | _ => Reflector.planFieldSetter ⟨r, {}⟩ (some f) k.view
  | .member (.property p) =>
    match k.purpose with
    | .propertyGetter =>
      Reflector.planPropertyGetter ⟨r, {}⟩ (some p) k.options.includeNonPublic k.view
    | _ => Reflector.planPropertySetter ⟨r, {}⟩ (some p) k.options.includeNonPublic k.view
  | .member (.method m) => Reflector.planMethodInvoker ⟨r, {}⟩ (some m) k.options.validateArguments
  | .member (.constructor c) =>
    Reflector.planConstructorFactory ⟨r, {}⟩ (some c) k.options.validateArguments
  | .type t => Reflector.planTypeFactory ⟨r, {}⟩ (some t)

end Registry

theorem present_eq_ok {α : Type} {x : Option α} {param : String} {a : α} :
    present x param = .ok a ↔ x = some a := by
  unfold present
  split <;> simp_all

namespace Plan

/-- **A plan fits its key**: the key names the registry and the subject, has
the plan's form, and gives the plan back. -/
structure Fits (p : Plan) (r : Registry) (s : Subject) : Prop where
  registry : p.key.registry = r.id
  target : p.key.target = s.target
  shape : p.shape = p.key.shape
  recomputed : r.planAt p.key s = .ok p

/-- A plan for what a request is about, which then is there. -/
def FitsSome (p : Plan) (r : Registry) (s? : Option Subject) : Prop :=
  ∃ s, s? = some s ∧ p.Fits r s

variable {r : Reflector} {p : Plan} {view : Option View} {choice : Bool}

theorem fits_fieldGetter {f : Option Field} (h : r.planFieldGetter f view = .ok p) :
    p.FitsSome r.registry (f.map fun f => .member (.field f)) := by
  obtain ⟨f, hf, h⟩ := bind_eq_ok.1 h
  obtain rfl := present_eq_ok.1 hf
  cases h
  exact ⟨_, rfl, rfl, rfl, rfl, rfl⟩

theorem fits_fieldSetter {f : Option Field} (h : r.planFieldSetter f view = .ok p) :
    p.FitsSome r.registry (f.map fun f => .member (.field f)) := by
  obtain ⟨f, hf, h⟩ := bind_eq_ok.1 h
  obtain rfl := present_eq_ok.1 hf
  cases h
  exact ⟨_, rfl, rfl, rfl, rfl, rfl⟩

theorem fits_propertyGetter {q : Option Property}
    (hp : r.planPropertyGetter q choice view = .ok p) :
    p.FitsSome r.registry (q.map fun q => .member (.property q)) := by
  obtain ⟨q, hq, h⟩ := bind_eq_ok.1 hp
  obtain rfl := present_eq_ok.1 hq
  obtain ⟨m, -, h⟩ := bind_eq_ok.1 h
  cases h
  exact ⟨_, rfl, rfl, rfl, rfl, hp⟩

theorem fits_propertySetter {q : Option Property}
    (hp : r.planPropertySetter q choice view = .ok p) :
    p.FitsSome r.registry (q.map fun q => .member (.property q)) := by
  obtain ⟨q, hq, h⟩ := bind_eq_ok.1 hp
  obtain rfl := present_eq_ok.1 hq
  obtain ⟨m, -, h⟩ := bind_eq_ok.1 h
  cases h
  exact ⟨_, rfl, rfl, rfl, rfl, hp⟩

theorem fits_methodInvoker {m : Option Method} (h : r.planMethodInvoker m choice = .ok p) :
    p.FitsSome r.registry (m.map fun m => .member (.method m)) := by
  obtain ⟨m, hm, h⟩ := bind_eq_ok.1 h
  obtain rfl := present_eq_ok.1 hm
  cases h
  exact ⟨_, rfl, rfl, rfl, rfl, rfl⟩

theorem fits_constructorFactory {c : Option Constructor}
    (hp : r.planConstructorFactory c choice = .ok p) :
    p.FitsSome r.registry (c.map fun c => .member (.constructor c)) := by
  obtain ⟨c, hc, h⟩ := bind_eq_ok.1 hp
  obtain rfl := present_eq_ok.1 hc
  obtain ⟨t, -, h⟩ := bind_eq_ok.1 h
  split at h
  · cases h
  · cases h
    exact ⟨_, rfl, rfl, rfl, rfl, hp⟩

theorem fits_typeFactory {t : Option TypeDef} (hp : r.planTypeFactory t = .ok p) :
    p.FitsSome r.registry (t.map .type) := by
  obtain ⟨t, ht, h⟩ := bind_eq_ok.1 hp
  obtain rfl := present_eq_ok.1 ht
  split at h
  · cases h
  · cases h
    exact ⟨_, rfl, rfl, rfl, rfl, hp⟩

end Plan

namespace Reflector

variable {r : Reflector} {p : Plan}

/-- The natural accessor of a member, its getter and its setter are planned
as if the kind of the member had been named. -/
theorem fits_of_planMember {m : Member}
    (h : r.planMemberGetter m = .ok p ∨ r.planMemberSetter m = .ok p ∨
      r.planMemberAccessor m = .ok p) : p.FitsSome r.registry (some (.member m)) := by
  rcases h with h | h | h
  · cases m with
    | field f => exact Plan.fits_fieldGetter h
    | property q => exact Plan.fits_propertyGetter h
    | method m => cases h
    | constructor c => cases h
  · cases m with
    | field f => exact Plan.fits_fieldSetter h
    | property q => exact Plan.fits_propertySetter h
    | method m => cases h
    | constructor c => cases h
  · cases m with
    | field f => exact Plan.fits_fieldGetter h
    | property q => exact Plan.fits_propertyGetter h
    | method m => exact Plan.fits_methodInvoker h
    | constructor c => exact Plan.fits_constructorFactory h

/-- **Every plan fits its key.** -/
theorem fits_of_plan {q : Request} (h : r.plan q = .ok p) : p.FitsSome r.registry q.subject? := by
  cases q with
  | fieldGetter f view => exact Plan.fits_fieldGetter h
  | fieldSetter f view => exact Plan.fits_fieldSetter h
  | propertyGetter q choice view => exact Plan.fits_propertyGetter h
  | propertySetter q choice view => exact Plan.fits_propertySetter h
  | methodInvoker m choice => exact Plan.fits_methodInvoker h
  | constructorFactory c choice => exact Plan.fits_constructorFactory h
  | typeFactory t => exact Plan.fits_typeFactory h
  | memberGetter m =>
    obtain ⟨m, hm, h⟩ := bind_eq_ok.1 h
    obtain rfl := present_eq_ok.1 hm
    exact fits_of_planMember (.inl h)
  | memberSetter m =>
    obtain ⟨m, hm, h⟩ := bind_eq_ok.1 h
    obtain rfl := present_eq_ok.1 hm
    exact fits_of_planMember (.inr (.inl h))
  | memberAccessor m =>
    obtain ⟨m, hm, h⟩ := bind_eq_ok.1 h
    obtain rfl := present_eq_ok.1 hm
    exact fits_of_planMember (.inr (.inr h))

end Reflector

end MemberAccess
