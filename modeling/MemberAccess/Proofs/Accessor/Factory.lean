import MemberAccess.Proofs.Accessor.Compiled
import MemberAccess.Proofs.Accessor.Refusal
/-!
# Accessor — what factories create

A factory coerces the arguments that its constructor declares and creates an
instance from them (`Constructor.newInstance`), behind the checks of its guard
(`Reflector.create_eq_refuse`). A default factory creates a default instance
(`TypeDef.newDefault`) and takes nothing.
-/

namespace MemberAccess

open Exec in
/-- **A new instance from arguments**: they are coerced in order, and only
then is there an instance. -/
def Constructor.newInstance (natives : Natives) (k : Constructor) (declaring : TypeDef)
    (ts : List TypeDef) (arguments : Option (List Value)) : Exec RuntimeFault Value := do
  let args ← coerceArguments arguments 0 ts
  let o ← Code.construct natives declaring k.body args
  return .object o

open Exec in
/-- **A default instance**: the zero of a value type, handed out, or an
instance from the default constructor. -/
def TypeDef.newDefault (natives : Natives) (t : TypeDef) : Exec RuntimeFault Value :=
  if t.isValueType then zeroOf t >>= handOut t
  else Code.construct natives t (t.defaultConstructor?.bind (·.body)) [] >>= fun o =>
    return .object o

/-! ## Bodies -/

namespace Code

variable {natives : Natives} {frame : Frame} {k : Constructor} {t declaring : TypeDef}
  {ts : List TypeDef}

/-- A new object takes the place of its arguments. -/
theorem walk_newObject (args : List Value) (t : TypeDef) (native : Option NativeId)
    (body : String) :
    walk natives frame [.newObject t args.length native, .ret] (Config.pushAll {} args) >>=
        Progress.answer body =
      Exec.mapFault .runtime (construct natives t native args) >>= fun o => pure (.object o) := by
  simp only [walk_cons, step, popN_pushAll, bind_assoc]
  refine bind_congr fun o => ?_
  rfl

/-- **The body of a factory creates an instance.** -/
theorem walk_constructor (hlen : ts.length = k.parameters.length) (body : String) :
    walk natives frame (k.ops declaring ts) {} >>= Progress.answer body =
      Exec.mapFault .runtime (k.newInstance natives declaring ts frame.arguments) := by
  unfold Constructor.ops Constructor.newInstance
  rw [walk_append, walk_argumentCasts, Exec.mapFault_bind]
  simp only [bind_assoc, pure_bind, Progress.andThen_next]
  refine Exec.bind_congr_ok fun h args h₁ hargs => ?_
  rw [Exec.run_mapFault_eq_ok] at hargs
  -- the new object finds as many arguments as its constructor declares
  have hargsLen := (Exec.length_of_coerceArguments hargs).trans hlen
  rw [← hargsLen, walk_newObject, Exec.mapFault_bind]
  rfl

/-- **The body of a default factory creates a default instance.** -/
theorem walk_defaultOps (t : TypeDef) (body : String) :
    walk natives frame (t.defaultOps ++ [.ret]) {} >>= Progress.answer body =
      Exec.mapFault .runtime (t.newDefault natives) := by
  unfold TypeDef.defaultOps TypeDef.newDefault
  cases hvalue : t.isValueType with
  | true =>
    simp only [if_true, List.cons_append, walk_cons, step, continueWith, bind_assoc, pure_bind,
      Progress.andThen_next, walk_boxIfNeeded, Exec.mapFault_bind, Exec.zeroOf,
      Exec.mapFault_alloc?]
  | false =>
    rw [if_neg Bool.false_ne_true, if_neg Bool.false_ne_true, Exec.mapFault_bind]
    exact walk_newObject [] t _ body

end Code

/-! ## What is compiled -/

theorem TypeDef.balanced_defaultOps (t : TypeDef) : Op.Balanced (t.defaultOps ++ [.ret]) where
  straight := by
    intro op hop
    unfold defaultOps at hop
    cases hvalue : t.isValueType with
    | true =>
      simp only [hvalue, if_true, List.cons_append, List.mem_cons, List.mem_append,
        List.not_mem_nil, or_false] at hop
      rcases hop with rfl | hop | rfl
      · rfl
      · exact Op.straight_boxIfNeeded t op hop
      · rfl
    | false =>
      simp only [hvalue, Bool.false_eq_true, if_false, List.cons_append, List.nil_append,
        List.mem_cons, List.not_mem_nil, or_false] at hop
      rcases hop with rfl | rfl <;> rfl
  height := by
    unfold defaultOps Op.boxIfNeeded
    cases t.isValueType <;> rfl
  last := by simp [List.getLast?_append, Op.isTerminator]

namespace Reflector

variable {r : Reflector} {k : Constructor} {t : TypeDef} {a : Accessor} {validate : Bool}

/-- **A factory is compiled** for a type that is not abstract. -/
theorem compiles_constructorFactory :
    r.Compiles (.constructorFactory (some k) (some validate)) a ↔
      ∃ declaring, r.registry.find? k.declaringType = some declaring ∧
        declaring.isAbstract = false ∧
        r.registry.constructorFactory k declaring validate = .ok a.code ∧
        a.shape = .factory ∧ a.view = none := by
  rw [compiles_iff]
  constructor
  · rintro ⟨p, hp, hcode, hshape, hview⟩
    obtain ⟨k', hk, hp⟩ := bind_eq_ok.1 hp
    cases hk
    obtain ⟨declaring, hdeclaring, hp⟩ := bind_eq_ok.1 hp
    split at hp
    · cases hp
    · rename_i habstract
      cases hp
      exact ⟨declaring, Registry.require_eq_ok.1 hdeclaring, by simpa using habstract, hcode,
        hshape, hview⟩
  · rintro ⟨declaring, hdeclaring, habstract, hcode, hshape, hview⟩
    let p : Plan := {
      key := CacheKey.forMember r.registry.id k.id .constructorFactory
        { validateArguments := validate }
      shape := .factory
      code := r.registry.constructorFactory k declaring validate }
    refine ⟨p, ?_, hcode, hshape, hview⟩
    show r.planConstructorFactory (some k) validate = _
    refine bind_eq_ok.2 ⟨k, rfl, bind_eq_ok.2 ⟨declaring, Registry.require_eq_ok.2 hdeclaring, ?_⟩⟩
    rw [if_neg (by simp [habstract])]
    rfl

/-- **A factory behind its guard**, called. -/
theorem create_eq_refuse (ha : r.Compiles (.constructorFactory (some k) (some validate)) a) :
    ∃ declaring ts, r.registry.find? k.declaringType = some declaring ∧
      k.parameterTypes.mapM r.registry.find? = some ts ∧
      ∀ natives arguments, a.create natives arguments =
        Exec.refuse ((Registry.factoryGuard k validate).verdict? (.factory arguments))
          (Exec.mapFault .runtime (k.newInstance natives declaring ts arguments)) := by
  obtain ⟨declaring, hdeclaring, -, hcode, -, -⟩ := compiles_constructorFactory.1 ha
  obtain ⟨ts, hts⟩ := Registry.types_of_constructorFactory hcode
  obtain ⟨code, hcode', hguarded⟩ := Registry.constructorFactory_of_types hts validate
  obtain rfl : a.code = code := Except.ok.inj (hcode.symm.trans hcode')
  have hlen : ts.length = k.parameters.length := by
    rw [length_of_mapM hts, Constructor.parameterTypes, List.length_map]
  refine ⟨declaring, ts, hdeclaring, hts, fun natives arguments => ?_⟩
  rw [Accessor.create, Accessor.call_of_guarded hguarded Constructor.straight_ops,
    Code.walk_constructor hlen]
  rfl

/-- **A default factory**, called. -/
theorem createDefault_eq (ha : r.Compiles (.typeFactory (some t)) a) (natives : Natives) :
    a.createDefault natives = Exec.mapFault .runtime (t.newDefault natives) := by
  obtain ⟨p, hp, hcode, -, -⟩ := compiles_iff.1 ha
  obtain ⟨t', ht, hp⟩ := bind_eq_ok.1 hp
  cases ht
  split at hp
  · cases hp
  · cases hp
    obtain ⟨code, hcode', hbody⟩ := Listing.assemble_straight t.balanced_defaultOps 0
      (r.registry.bodyName t.handle ".ctor" "default")
    have hcompiled := compileListing_eq_ok hcode'
    obtain rfl : a.code = code := Except.ok.inj (hcode.symm.trans hcompiled)
    rw [Accessor.createDefault, Accessor.create,
      Accessor.call_of_unguarded hbody t.balanced_defaultOps.straight]
    exact Code.walk_defaultOps t _

end Reflector

end MemberAccess
