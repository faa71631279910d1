import MemberAccess.Proofs.Accessor.Factory
import MemberAccess.Proofs.Accessor.Keys
import MemberAccess.Proofs.Accessor.PropertyAccess
/-!
# Accessor — which instances bodies make

Two instructions make instances, each of a type that it carries. Of the bodies
that are compiled only factories have one of them: a constructor's factory for
the type that declares it, a default factory for its own. So whatever is asked
of a reflector, the accessor makes instances of the registry's types alone
(`Reflector.made_subset`).

What a request compiles to, one of the compilers has written: a property of all
their bodies holds of every accessor (`Registry.Emits.of_compiles`).
-/

namespace MemberAccess

namespace Op

/-- The type that an instruction makes an instance of. -/
def made? : Op → Option TypeDef
  | .newObject t _ _ | .initObject t => some t
  | _ => none

/-- **The types that instructions make instances of.** -/
def made (ops : List Op) : List TypeDef := ops.filterMap made?

@[simp] theorem made_nil : made [] = [] := rfl

@[simp] theorem made_cons (op : Op) (ops : List Op) :
    made (op :: ops) = op.made?.toList ++ made ops := by
  cases h : op.made? <;> simp [made, h]

@[simp] theorem made_append (xs ys : List Op) : made (xs ++ ys) = made xs ++ made ys :=
  List.filterMap_append

/-! The parts of bodies make nothing. -/

@[simp] theorem made_receiverCheck (t : TypeDef) : made (receiverCheck t) = [] := by
  unfold receiverCheck
  split <;> rfl

@[simp] theorem made_boxIfNeeded (t : TypeDef) : made (boxIfNeeded t) = [] := by
  unfold boxIfNeeded
  split <;> rfl

@[simp] theorem made?_callOf (m : Method) : (callOf m).made? = none := by
  unfold callOf
  split <;> rfl

@[simp] theorem made_receiverCasts (ts : List TypeDef) : made (receiverCasts ts) = [] := by
  unfold receiverCasts
  induction ts with
  | nil => rfl
  | cons t ts ih => simpa [made?] using ih

@[simp] theorem made_inputCasts (ts : List TypeDef) : made (inputCasts ts) = [] := by
  unfold inputCasts
  induction ts with
  | nil => rfl
  | cons t ts ih => simpa [made?] using ih

@[simp] theorem made_argumentCasts (i : Nat) (ts : List TypeDef) :
    made (argumentCasts i ts) = [] := by
  induction ts generalizing i with
  | nil => rfl
  | cons t ts ih => simpa [argumentCasts, made?] using ih (i + 1)

end Op

@[simp] theorem Guard.made_ops (g : Guard) : Op.made g.ops = [] := by
  obtain ⟨receiver, n⟩ := g
  cases receiver <;> cases n <;> rfl

theorem Method.made_subjectOps (m : Method) (ts : List TypeDef) :
    Op.made (m.subjectOps ts) = [] := by
  unfold subjectOps
  split
  · rfl
  · exact Op.made_receiverCasts ts

namespace CallTypes

theorem made_receiverOps (s : CallTypes) : Op.made s.receiverOps = [] := by
  unfold receiverOps
  cases s.receiver with
  | none => rfl
  | some t => exact Op.made_receiverCasts [t]

theorem made_resultOps (s : CallTypes) : Op.made s.resultOps = [] := by
  unfold resultOps
  cases s.result with
  | none => rfl
  | some t => exact Op.made_boxIfNeeded t

end CallTypes

/-- The types that a body makes instances of. -/
def Code.made (code : Code) : List TypeDef := Op.made code.ops

namespace Registry

variable {r : Registry} {code : Code} {f : Field} {p : Property} {m : Method} {k : Constructor}
  {t : TypeDef} {owner value : Option TypeHandle} {validate : Bool}

theorem made_fieldGetter (h : r.fieldGetter f owner = .ok code) : code.made = [] := by
  obtain ⟨s, hs⟩ := types_of_fieldGetter h
  obtain ⟨code', hcode, hbody⟩ := fieldGetter_of_types hs
  obtain rfl : code = code' := Except.ok.inj (h.symm.trans hcode)
  rw [Code.made, hbody.ops_eq, Field.getterOps]
  cases f.storage <;> simp [Op.made?]

theorem made_fieldSetter (h : r.fieldSetter f owner value = .ok code) : code.made = [] := by
  obtain ⟨s, hs⟩ := types_of_fieldSetter h
  obtain ⟨code', hcode, hbody⟩ := fieldSetter_of_types hs
  obtain rfl : code = code' := Except.ok.inj (h.symm.trans hcode)
  rw [Code.made, hbody.ops_eq, Field.setterOps]
  cases f.storage <;> simp [Op.made?]

theorem made_propertyGetter (h : r.propertyGetter p m owner = .ok code) : code.made = [] := by
  obtain ⟨s, -, -, hbody⟩ := propertyGetter_eq_ok h
  rw [Code.made, hbody.ops_eq, Property.getterOps]
  simp only [Op.made_append, Method.made_subjectOps, Op.made_cons, Op.made?_callOf]
  simp [Op.made?]

theorem made_propertySetter (h : r.propertySetter p m owner value = .ok code) :
    code.made = [] := by
  obtain ⟨s, -, -, hbody⟩ := propertySetter_eq_ok h
  rw [Code.made, hbody.ops_eq, Property.setterOps]
  simp only [Op.made_append, Method.made_subjectOps, Op.made_cons, Op.made?_callOf]
  simp [Op.made?]

theorem made_methodInvoker (h : r.methodInvoker m validate = .ok code) : code.made = [] := by
  obtain ⟨s, hs⟩ := callTypes?_of_methodInvoker h
  obtain ⟨code', hcode, hbody⟩ := methodInvoker_of_callTypes? hs validate
  obtain rfl : code = code' := Except.ok.inj (h.symm.trans hcode)
  rw [Code.made, hbody.ops_eq, CallTypes.ops]
  simp only [Op.made_append, Op.made_cons, Op.made?_callOf, s.made_receiverOps, s.made_resultOps]
  simp [Op.made?]

/-- **The factory of a constructor** makes what declares it. -/
theorem made_constructorFactory (h : r.constructorFactory k t validate = .ok code) :
    code.made = [t] := by
  obtain ⟨ts, hts⟩ := types_of_constructorFactory h
  obtain ⟨code', hcode, hbody⟩ := constructorFactory_of_types hts validate
  obtain rfl : code = code' := Except.ok.inj (h.symm.trans hcode)
  rw [Code.made, hbody.ops_eq, Constructor.ops]
  simp [Op.made?]

/-- **A default factory** makes its own type. -/
theorem made_defaultFactory (h : r.defaultFactory t = .ok code) : code.made = [t] := by
  obtain ⟨code', hcode, hbody⟩ := Listing.assemble_straight t.balanced_defaultOps 0
    (r.bodyName t.handle ".ctor" "default")
  obtain rfl : code = code' := Except.ok.inj (h.symm.trans (compileListing_eq_ok hcode))
  rw [Code.made, hbody.ops_eq, TypeDef.defaultOps]
  cases t.isValueType <;> simp [Op.made?]

end Registry

/-! ## Requests -/

/-- **What a plan is for**: the body that it comes to, if it does, is as
described. -/
def Plans (P : Code → Prop) (x : Except AccessorError Plan) : Prop :=
  ∀ p, x = .ok p → ∀ code, p.code = .ok code → P code

namespace Plans

variable {P : Code → Prop} {α : Type}

theorem ok {p : Plan} (h : ∀ code, p.code = .ok code → P code) : Plans P (.ok p) := by
  intro p' hp'
  cases hp'
  exact h

theorem error {e : AccessorError} : Plans P (.error e) := by
  intro p hp
  cases hp

theorem bind {x : Except AccessorError α} {f : α → Except AccessorError Plan}
    (hf : ∀ a, x = .ok a → Plans P (f a)) : Plans P (x >>= f) := by
  intro p hp
  obtain ⟨a, ha, hplan⟩ := bind_eq_ok.1 hp
  exact hf a ha p hplan

end Plans

/-- **What all compilers of a registry emit is as described.** The type that
declares a constructor was looked up. -/
structure Registry.Emits (r : Registry) (P : Code → Prop) : Prop where
  fieldGetter {f : Field} {owner : Option TypeHandle} {code : Code} :
    r.fieldGetter f owner = .ok code → P code
  fieldSetter {f : Field} {owner value : Option TypeHandle} {code : Code} :
    r.fieldSetter f owner value = .ok code → P code
  propertyGetter {p : Property} {m : Method} {owner : Option TypeHandle} {code : Code} :
    r.propertyGetter p m owner = .ok code → P code
  propertySetter {p : Property} {m : Method} {owner value : Option TypeHandle} {code : Code} :
    r.propertySetter p m owner value = .ok code → P code
  methodInvoker {m : Method} {validate : Bool} {code : Code} :
    r.methodInvoker m validate = .ok code → P code
  constructorFactory {k : Constructor} {t : TypeDef} {validate : Bool} {code : Code} :
    t ∈ r.types → r.constructorFactory k t validate = .ok code → P code

namespace Registry.Emits

variable {r : Reflector} {q : Request} {a : Accessor} {P : Code → Prop}

theorem planFieldGetter (he : r.registry.Emits P) (f : Option Field) (view : Option View) :
    Plans P (r.planFieldGetter f view) := by
  refine .bind fun f _ => .ok fun code hcode => ?_
  obtain ⟨_, -, hcode⟩ := bind_eq_ok.1 hcode
  exact he.fieldGetter hcode

theorem planFieldSetter (he : r.registry.Emits P) (f : Option Field) (view : Option View) :
    Plans P (r.planFieldSetter f view) := by
  refine .bind fun f _ => .ok fun code hcode => ?_
  obtain ⟨_, -, hcode⟩ := bind_eq_ok.1 hcode
  exact he.fieldSetter hcode

theorem planPropertyGetter (he : r.registry.Emits P) (p : Option Property) (nonPublic : Bool)
    (view : Option View) : Plans P (r.planPropertyGetter p nonPublic view) := by
  refine .bind fun p _ => .bind fun m _ => .ok fun code hcode => ?_
  obtain ⟨_, -, hcode⟩ := bind_eq_ok.1 hcode
  exact he.propertyGetter hcode

theorem planPropertySetter (he : r.registry.Emits P) (p : Option Property) (nonPublic : Bool)
    (view : Option View) : Plans P (r.planPropertySetter p nonPublic view) := by
  refine .bind fun p _ => .bind fun m _ => .ok fun code hcode => ?_
  obtain ⟨_, -, hcode⟩ := bind_eq_ok.1 hcode
  exact he.propertySetter hcode

theorem planMethodInvoker (he : r.registry.Emits P) (m : Option Method) (validate : Bool) :
    Plans P (r.planMethodInvoker m validate) :=
  .bind fun _ _ => .ok fun _ hcode => he.methodInvoker hcode

theorem planConstructorFactory (he : r.registry.Emits P) (k : Option Constructor)
    (validate : Bool) : Plans P (r.planConstructorFactory k validate) := by
  refine .bind fun k _ => .bind fun declaring hdeclaring => ?_
  split
  · exact .error
  · have hmem := List.mem_of_find?_eq_some (Registry.require_eq_ok.1 hdeclaring)
    exact .ok fun code hcode => he.constructorFactory hmem hcode

theorem planTypeFactory {t : Option TypeDef}
    (hdefault : ∀ u code, t = some u → r.registry.defaultFactory u = .ok code → P code) :
    Plans P (r.planTypeFactory t) := by
  refine .bind fun u hu => ?_
  split
  · exact .error
  · exact .ok fun code hcode => hdefault u code (present_eq_ok.1 hu) hcode

/-- **Every plan is for a body that some compiler emits.** Default factories
are apart, since a request names their type itself. -/
theorem plan (he : r.registry.Emits P)
    (hdefault : ∀ t code, q = .typeFactory (some t) → r.registry.defaultFactory t = .ok code →
      P code) : Plans P (r.plan q) := by
  cases q with
  | fieldGetter f view => exact he.planFieldGetter f view
  | fieldSetter f view => exact he.planFieldSetter f view
  | propertyGetter p choice view => exact he.planPropertyGetter p _ view
  | propertySetter p choice view => exact he.planPropertySetter p _ view
  | methodInvoker m choice => exact he.planMethodInvoker m _
  | constructorFactory k choice => exact he.planConstructorFactory k _
  | typeFactory t =>
    refine planTypeFactory fun u code hu hcode => hdefault u code ?_ hcode
    rw [hu]
  | memberGetter m =>
    refine .bind fun m _ => ?_
    cases m with
    | field f => exact he.planFieldGetter _ none
    | property p => exact he.planPropertyGetter _ _ none
    | method | constructor => exact .error
  | memberSetter m =>
    refine .bind fun m _ => ?_
    cases m with
    | field f => exact he.planFieldSetter _ none
    | property p => exact he.planPropertySetter _ _ none
    | method | constructor => exact .error
  | memberAccessor m =>
    refine .bind fun m _ => ?_
    cases m with
    | field f => exact he.planFieldGetter _ none
    | property p => exact he.planPropertyGetter _ _ none
    | method m => exact he.planMethodInvoker _ _
    | constructor k => exact he.planConstructorFactory _ _

/-- **Whatever a request compiles to is as described.** -/
theorem of_compiles (he : r.registry.Emits P)
    (hdefault : ∀ t code, q = .typeFactory (some t) → r.registry.defaultFactory t = .ok code →
      P code) (ha : r.Compiles q a) : P a.code := by
  obtain ⟨p, hplan, hcode, -⟩ := Reflector.compiles_iff.1 ha
  exact he.plan hdefault p hplan a.code hcode

end Registry.Emits

namespace Registry

/-- Bodies make instances of the type that declares a constructor, and of no
other. -/
theorem emits_made (r : Registry) : r.Emits (·.made ⊆ r.types) := by
  have hnone : ∀ {code : Code}, code.made = [] → code.made ⊆ r.types := by
    intro code h
    rw [h]
    exact List.nil_subset _
  exact {
    fieldGetter := fun h => hnone (made_fieldGetter h)
    fieldSetter := fun h => hnone (made_fieldSetter h)
    propertyGetter := fun h => hnone (made_propertyGetter h)
    propertySetter := fun h => hnone (made_propertySetter h)
    methodInvoker := fun h => hnone (made_methodInvoker h)
    constructorFactory := fun ht h => by
      rw [made_constructorFactory h]
      exact fun u hu => List.mem_singleton.1 hu ▸ ht }

end Registry

/-- **Every accessor makes instances of the registry's types alone.** A default
factory has to be asked for a type of the registry. -/
theorem Reflector.made_subset {r : Reflector} {q : Request} {a : Accessor}
    (hq : ∀ t, q = .typeFactory (some t) → t ∈ r.registry.types) (ha : r.Compiles q a) :
    a.code.made ⊆ r.registry.types := by
  refine (Registry.emits_made r.registry).of_compiles (fun t code ht hcode => ?_) ha
  rw [Registry.made_defaultFactory hcode]
  exact fun u hu => List.mem_singleton.1 hu ▸ hq t ht

end MemberAccess
