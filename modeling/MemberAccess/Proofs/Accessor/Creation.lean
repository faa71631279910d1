import MemberAccess.Proofs.Heap.Instances
import MemberAccess.Proofs.Ownership.Calls
/-!
# Accessor — factories create

A factory looks at its arguments first, and the first one that is missing or
does not fit is its fault (`Heap.argumentsFault?`); then nothing has happened
but copies. If all of them fit there is one new instance, and the constructor's
body runs on it once (`Code.runConstructor`). Default factories exist exactly
for the types that can have a default instance. `Reflector.factories_create`
says so of every type of a built registry.
-/

namespace MemberAccess

/-! ## Arguments -/

namespace Heap

variable {h h₁ h₂ h' : Heap} {v v' w : Value} {t : TypeDef} {ts : List TypeDef} {i : Nat}
  {arguments : Option (List Value)}

/-- **What is wrong with an argument for its parameter**, if anything: it cannot
be fetched, or may not be stored. -/
def argumentFault? (h : Heap) (arguments : Option (List Value)) (i : Nat) (t : TypeDef) :
    Option RuntimeFault :=
  match fetchArgument arguments i with
  | .error fault => some fault
  | .ok v => if h.isAdmissible v t then none else some (.invalidCast (h.typeName v) t.name)

/-- **What is wrong with the arguments** from a position on: the fault of the
first that has one. -/
def argumentsFault? (h : Heap) (arguments : Option (List Value)) (i : Nat) (ts : List TypeDef) :
    Option RuntimeFault :=
  (ts.zipIdx i).findSome? fun p => h.argumentFault? arguments p.2 p.1

/-- **What a value has become on its way into a type**: a clone where that is
a value type, else the value itself. -/
structure Entered (h h' : Heap) (t : TypeDef) (v v' : Value) : Prop where
  cloned : t.isValueType = true → h.Cloned h' v v'
  shared : t.isValueType = false → v' = v

/-- **What the arguments have become**, from a position on. -/
def EnteredAll (h h' : Heap) (arguments : Option (List Value)) (i : Nat) (ts : List TypeDef)
    (args : List Value) : Prop :=
  List.Forall₂ (fun p w => ∃ v, fetchArgument arguments p.2 = .ok v ∧ h.Entered h' p.1 v w)
    (ts.zipIdx i) args

/-- **Arguments for parameters**, from a position on: no reference dangles, and
what is copied into a value type has contents. -/
structure Offers (h : Heap) (arguments : Option (List Value)) (i : Nat) (ts : List TypeDef) :
    Prop where
  reaches : ∀ vs, arguments = some vs → ∀ v ∈ vs, h.Reaches v
  contents : ∀ p ∈ ts.zipIdx i, p.1.isValueType = true → ∀ v,
    fetchArgument arguments p.2 = .ok v → h.HasContents v

namespace Offers

/-- What is fetched does not dangle. -/
theorem reaches_of_fetch (ho : h.Offers arguments i ts) {j : Nat}
    (hv : fetchArgument arguments j = .ok v) : h.Reaches v := by
  obtain ⟨vs, hvs, hmem⟩ := Exec.mem_of_fetchArgument hv
  exact ho.reaches vs hvs v hmem

/-- The arguments after the first, when there is nothing new but copies. -/
theorem tail (ho : h.Offers arguments i (t :: ts)) (hk : h.Copies h₁) (hc : h.Closed) :
    h₁.Offers arguments (i + 1) ts where
  reaches vs hvs v hv := hk.keeps.reaches (ho.reaches vs hvs v hv)
  contents p hp ht v hv := by
    have hmem : p ∈ (t :: ts).zipIdx i := by
      rw [List.zipIdx_cons]
      exact List.mem_cons_of_mem _ hp
    exact (ho.contents p hmem ht v hv).grows hk.toGrows hc (ho.reaches_of_fetch hv)

end Offers

/-- What is wrong with an argument is a matter of its type, which no object
changes. -/
theorem Keeps.argumentFault?_eq (hk : h.Keeps h₁)
    (hargs : ∀ vs, arguments = some vs → ∀ v ∈ vs, h.Reaches v) :
    h₁.argumentFault? arguments i t = h.argumentFault? arguments i t := by
  unfold argumentFault?
  cases hfetch : fetchArgument arguments i with
  | error fault => rfl
  | ok v =>
    obtain ⟨vs, hvs, hmem⟩ := Exec.mem_of_fetchArgument hfetch
    have hreach := hargs vs hvs v hmem
    have hadmissible : h₁.isAdmissible v t = h.isAdmissible v t := by
      rw [isAdmissible, isAdmissible, hk.isInstance_eq hreach]
    simp only [hadmissible, hk.typeName_eq hreach]

theorem Keeps.argumentsFault?_eq (hk : h.Keeps h₁)
    (hargs : ∀ vs, arguments = some vs → ∀ v ∈ vs, h.Reaches v) :
    h₁.argumentsFault? arguments i ts = h.argumentsFault? arguments i ts := by
  unfold argumentsFault?
  exact congrArg (List.findSome? · _) (funext fun p => hk.argumentFault?_eq hargs)

theorem Coerced.entered (hcoerced : h.Coerced h' t v v') : h.Entered h' t v v' where
  cloned ht := by
    obtain ⟨c, hplaced, hread⟩ := hcoerced.value ht
    exact hplaced.cloned hread
  shared := hcoerced.shared

theorem Entered.grows (he : h.Entered h₁ t v v') (hg : h₁.Grows h₂) (hc : h₁.Closed) :
    h.Entered h₂ t v v' :=
  ⟨fun ht => (he.cloned ht).grows hg hc, he.shared⟩

theorem EnteredAll.of_grows {args : List Value} (he : h₁.EnteredAll h₂ arguments i ts args)
    (hg : h.Grows h₁) (hc : h.Closed)
    (hargs : ∀ vs, arguments = some vs → ∀ v ∈ vs, h.Reaches v) :
    h.EnteredAll h₂ arguments i ts args := by
  refine List.Forall₂.imp ?_ he
  rintro p w ⟨v, hfetch, hentered⟩
  obtain ⟨vs, hvs, hmem⟩ := Exec.mem_of_fetchArgument hfetch
  have hreach := hargs vs hvs v hmem
  exact ⟨v, hfetch, fun ht => (hentered.cloned ht).of_grows hg hc hreach, hentered.shared⟩

end Heap

namespace Exec

variable {h : Heap} {ts : List TypeDef} {i : Nat} {arguments : Option (List Value)}

open Heap in
/-- **Arguments are looked at in order**: the first fault is the outcome, and
else they are all coerced. Either way there is nothing new but copies. -/
theorem run_coerceArguments (hc : h.Closed) (ho : h.Offers arguments i ts) :
    (∀ fault, h.argumentsFault? arguments i ts = some fault → ∃ h',
      (coerceArguments arguments i ts).run h = some (.error fault, h') ∧ h.Copies h') ∧
    (h.argumentsFault? arguments i ts = none → ∃ args h',
      (coerceArguments arguments i ts).run h = some (.ok args, h') ∧ h.Copies h' ∧
        h.EnteredAll h' arguments i ts args) := by
  induction ts generalizing i h with
  | nil =>
    refine ⟨fun fault hfault => ?_, fun _ => ⟨[], h, rfl, .refl h, .nil⟩⟩
    cases hfault
  | cons t ts ih =>
    unfold coerceArguments argumentsFault?
    rw [List.zipIdx_cons, List.findSome?_cons]
    simp only [run_bind, run_ofExcept, argumentFault?]
    cases hfetch : fetchArgument arguments i with
    | error fault =>
      refine ⟨fun fault' hfault => ?_, fun hnone => ?_⟩
      · cases hfault
        exact ⟨h, rfl, .refl h⟩
      · cases hnone
    | ok v =>
      have hreach := ho.reaches_of_fetch hfetch
      cases hv : h.isAdmissible v t with
      | false =>
        simp only [hv, run_castValue_of_not hv]
        refine ⟨fun fault' hfault => ?_, fun hnone => ?_⟩
        · cases hfault
          exact ⟨h, rfl, .refl h⟩
        · cases hnone
      | true =>
        have hread : t.isValueType = true → h.HasContents v :=
          fun ht => ho.contents (t, i) List.mem_cons_self ht v hfetch
        obtain ⟨w, h₁, hcast, hcoerced⟩ := run_castValue hc hread hreach hv
        have hk := hcoerced.copies
        obtain ⟨hfails, hpasses⟩ := ih (hk.closed hc) (ho.tail hk hc)
        rw [hk.keeps.argumentsFault?_eq ho.reaches] at hfails hpasses
        simp only [hv, hcast, if_true, run_pure]
        refine ⟨fun fault hfault => ?_, fun hnone => ?_⟩
        · obtain ⟨h₂, hrun, hk'⟩ := hfails fault hfault
          exact ⟨h₂, by rw [hrun], hk.trans hk'⟩
        · obtain ⟨args, h₂, hrun, hk', hentered⟩ := hpasses hnone
          refine ⟨w :: args, h₂, by rw [hrun], hk.trans hk', .cons ?_ ?_⟩
          · exact ⟨v, hfetch, hcoerced.entered.grows hk'.toGrows (hk.closed hc)⟩
          · exact hentered.of_grows hk.toGrows hc ho.reaches

end Exec

/-! ## Instances from arguments -/

namespace Code

variable {natives : Natives} {body : Option NativeId} {t : TypeDef} {args : List Value}
  {h h' : Heap} {o : ObjectRef}

/-- **A constructor's body, run once on an instance**, which is the result
unless the body faults. -/
def runConstructor (natives : Natives) (body : Option NativeId) (o : ObjectRef)
    (args : List Value) : Exec RuntimeFault Value :=
  match body with
  | some token => natives token ⟨some o, args⟩ >>= fun _ => pure (.object o)
  | none => pure (.object o)

/-- An instance is zeroed, and then the body runs on it. -/
theorem run_construct (hz : h.zeroed? t = some (o, h')) :
    (construct natives t body args >>= fun o => pure (.object o)).run h =
      (runConstructor natives body o args).run h' := by
  have hzeroed : (Exec.zeroed t : Exec RuntimeFault ObjectRef).run h = some (.ok o, h') := by
    simp only [Exec.zeroed, Exec.run_alloc?, hz, Option.map_some]
  unfold construct runConstructor
  rw [bind_assoc, Exec.run_bind, hzeroed]
  cases body with
  | none => rfl
  | some token => simp only [bind_assoc, pure_bind]

end Code

namespace Heap

variable {h h' : Heap} {t : TypeDef} {o : ObjectRef}

/-- **A heap to create instances of a type on**: nothing dangles, and the
defaults of the type have contents. -/
structure Ready (h : Heap) (t : TypeDef) : Prop where
  closed : h.Closed
  defaults : ∀ v ∈ t.defaults, h.Reaches v
  contents : ∀ v ∈ t.defaults, h.HasContents v

namespace Ready

/-- Copies change nothing about that. -/
theorem copies (hr : h.Ready t) (hk : h.Copies h') : h'.Ready t where
  closed := hk.closed hr.closed
  defaults v hv := hk.keeps.reaches (hr.defaults v hv)
  contents v hv := (hr.contents v hv).grows hk.toGrows hr.closed (hr.defaults v hv)

/-- **An instance can be created.** -/
theorem exists_creates (hr : h.Ready t) :
    ∃ o h', h.zeroed? t = some (o, h') ∧ h.Creates h' t o ∧ h'.Closed := by
  obtain ⟨o, h', hz⟩ := exists_zeroed? hr.closed hr.defaults hr.contents
  exact ⟨o, h', hz, creates_of_zeroed? hr.closed hr.defaults hz,
    closed_of_zeroed? hr.closed hr.defaults hz⟩

end Ready

end Heap

/-- **What it means to create an instance from arguments** on a heap: the first
fault among the arguments is the outcome, and there is nothing new but copies;
else there is one new instance, and the constructor's body runs on it. -/
structure Constructor.Creation (natives : Natives) (k : Constructor) (t : TypeDef)
    (ts : List TypeDef) (arguments : Option (List Value)) (x : Exec AccessorError Value)
    (h : Heap) : Prop where
  refused : ∀ fault, h.argumentsFault? arguments 0 ts = some fault →
    ∃ h', x.run h = some (.error (.runtime fault), h') ∧ h.Copies h'
  created : h.argumentsFault? arguments 0 ts = none → ∃ args h₁ o h₂,
    args.length = k.parameters.length ∧ h.Copies h₁ ∧ h.EnteredAll h₁ arguments 0 ts args ∧
      h₁.Creates h₂ t o ∧
      x.run h = (Exec.mapFault .runtime (Code.runConstructor natives k.body o args)).run h₂

namespace Constructor

variable {natives : Natives} {k : Constructor} {t : TypeDef} {ts : List TypeDef}
  {arguments : Option (List Value)} {h : Heap}

/-- **A new instance is created from its arguments.** -/
theorem creation_newInstance (hlen : ts.length = k.parameters.length) (hr : h.Ready t)
    (ho : h.Offers arguments 0 ts) :
    k.Creation natives t ts arguments
      (Exec.mapFault .runtime (k.newInstance natives t ts arguments)) h := by
  obtain ⟨hfails, hpasses⟩ := Exec.run_coerceArguments hr.closed ho
  refine ⟨fun fault hfault => ?_, fun hnone => ?_⟩
  · obtain ⟨h', hrun, hk⟩ := hfails fault hfault
    refine ⟨h', Exec.run_mapFault_eq_error.2 ⟨fault, ?_, rfl⟩, hk⟩
    exact Exec.run_bind_eq_error.2 (.inl hrun)
  · obtain ⟨args, h₁, hrun, hk, hentered⟩ := hpasses hnone
    obtain ⟨o, h₂, hz, hcreates, -⟩ := (hr.copies hk).exists_creates
    refine ⟨args, h₁, o, h₂, (Exec.length_of_coerceArguments hrun).trans hlen, hk, hentered,
      hcreates, ?_⟩
    rw [newInstance, Exec.run_mapFault, Exec.run_mapFault, Exec.run_bind, hrun]
    simp only [Code.run_construct hz]

end Constructor

/-! ## Default instances -/

/-- **What it means to create a default instance** on a heap: the zero of a
primitive, a new struct, or a new class instance on which the body of the
first public constructor without parameters runs. -/
structure TypeDef.DefaultCreation (natives : Natives) (t : TypeDef) (x : Exec AccessorError Value)
    (h : Heap) : Prop where
  primitive : ∀ p, t.kind = .primitive p → x.run h = some (.ok p.zero, h)
  struct : t.kind = .structType → ∃ o h', x.run h = some (.ok (.object o), h') ∧ h.Creates h' t o
  classType : t.kind = .classType → ∃ k o h', t.defaultConstructor? = some k ∧ h.Creates h' t o ∧
    x.run h = (Exec.mapFault .runtime (Code.runConstructor natives k.body o [])).run h'

namespace TypeDef

variable {natives : Natives} {t : TypeDef} {h : Heap}

/-- **A type has a default instance** when it is neither abstract nor an
interface, and is a value type or has a public constructor without
parameters. -/
theorem defaultFlaw?_eq_none : t.defaultFlaw? = none ↔
    t.declaredAbstract = false ∧ t.isInterface = false ∧ (t.isValueType = true ∨
      ∃ k ∈ t.constructors, k.parameters = [] ∧ k.visibility.isPublic = true) := by
  have hdefault : t.defaultConstructor?.isNone = false ↔
      ∃ k ∈ t.constructors, k.parameters = [] ∧ k.visibility.isPublic = true := by
    simp [defaultConstructor?]
  rw [← hdefault]
  unfold defaultFlaw? isAbstract
  cases t.isInterface <;> cases t.declaredAbstract <;> cases t.isValueType <;>
    cases t.defaultConstructor?.isNone <;> simp

/-- **A default instance is created.** -/
theorem defaultCreation_newDefault (hflaw : t.defaultFlaw? = none) (hr : h.Ready t) :
    t.DefaultCreation natives (Exec.mapFault .runtime (t.newDefault natives)) h := by
  refine ⟨fun p hkind => ?_, fun hkind => ?_, fun hkind => ?_⟩
  · have hvalue : t.isValueType = true := by rw [isValueType, hkind]; rfl
    have hzero := Heap.zeroOf?_of_primitive (h := h) hkind
    have hcopy := Heap.detach?_of_box?_eq_none (h.box?_zero p)
    rw [Exec.run_mapFault_eq_ok, newDefault, if_pos hvalue]
    refine Exec.run_bind_eq_ok.2 ⟨p.zero, h, ?_, ?_⟩
    · simp only [Exec.zeroOf, Exec.run_alloc?, hzero, Option.map_some]
    · simp only [Exec.handOut, hvalue, if_true, Exec.detach, Exec.run_alloc?, hcopy,
        Option.map_some]
  · have hvalue : t.isValueType = true := by rw [isValueType, hkind]; rfl
    obtain ⟨o, h₁, hz, hcreates, hclosed⟩ := hr.exists_creates
    have hzero := Heap.zeroOf?_of_struct hkind hz
    have hreach : h₁.Reaches (.object o) := by
      rintro p ⟨⟩
      exact hcreates.has
    -- what is handed out is a copy of the new struct
    obtain ⟨c, v, h₂, hread, hcopy, hplaced⟩ := hcreates.hasContents.detached hclosed hreach
    obtain ⟨p, rfl, hcreates'⟩ := hcreates.copied hvalue hclosed hread hplaced
    refine ⟨p, h₂, ?_, hcreates'⟩
    rw [Exec.run_mapFault_eq_ok, newDefault, if_pos hvalue]
    refine Exec.run_bind_eq_ok.2 ⟨.object o, h₁, ?_, ?_⟩
    · simp only [Exec.zeroOf, Exec.run_alloc?, hzero, Option.map_some]
    · simp only [Exec.handOut, hvalue, if_true, Exec.detach, Exec.run_alloc?, hcopy,
        Option.map_some]
  · have hvalue : t.isValueType = false := by rw [isValueType, hkind]; rfl
    obtain ⟨k, hk⟩ : ∃ k, t.defaultConstructor? = some k := by
      obtain ⟨-, -, hvalue' | ⟨k, hmem, hnone, hpublic⟩⟩ := defaultFlaw?_eq_none.1 hflaw
      · rw [hvalue] at hvalue'
        cases hvalue'
      · refine Option.isSome_iff_exists.1 (List.find?_isSome.2 ⟨k, hmem, ?_⟩)
        simp [hnone, hpublic]
    obtain ⟨o, h₁, hz, hcreates, -⟩ := hr.exists_creates
    refine ⟨k, o, h₁, hk, hcreates, ?_⟩
    rw [newDefault, hvalue, if_neg Bool.false_ne_true, hk, Exec.run_mapFault, Exec.run_mapFault,
      Option.bind_some, Code.run_construct hz]

end TypeDef

/-! ## Factories -/

namespace Reflector

variable {r : Reflector} {k : Constructor} {t : TypeDef} {ts : List TypeDef} {a : Accessor}

/-- **A default factory is compiled** for a type that has a default instance. -/
theorem exists_typeFactory_iff :
    (∃ a, r.Compiles (.typeFactory (some t)) a) ↔ t.defaultFlaw? = none := by
  constructor
  · rintro ⟨a, ha⟩
    obtain ⟨p, hp, -⟩ := compiles_iff.1 ha
    obtain ⟨t', ht, hp⟩ := bind_eq_ok.1 hp
    cases ht
    cases hflaw : t.defaultFlaw? with
    | none => rfl
    | some flaw =>
      rw [hflaw] at hp
      cases hp
  · intro hflaw
    let p : Plan := {
      key := CacheKey.forType r.registry.id t.handle .defaultFactory
      shape := .defaultFactory
      code := r.registry.defaultFactory t }
    have hp : r.plan (.typeFactory (some t)) = .ok p := by
      show r.planTypeFactory (some t) = _
      refine bind_eq_ok.2 ⟨t, rfl, ?_⟩
      rw [hflaw]
      rfl
    obtain ⟨code, hcode, -⟩ := Listing.assemble_straight t.balanced_defaultOps 0
      (r.registry.bodyName t.handle ".ctor" "default")
    obtain ⟨a, ha, -⟩ := exists_compiles hp (compileListing_eq_ok hcode)
    exact ⟨a, ha⟩

/-- **A constructor of a type of a built registry** is declared by it. -/
theorem find?_declaringType (hr : r.registry.Built) (ht : t ∈ r.registry.types)
    (hk : k ∈ t.constructors) : r.registry.find? k.declaringType = some t := by
  obtain ⟨ids, hbuilt⟩ := hr
  rw [hbuilt.declaringType_eq ht hk]
  exact hbuilt.wellFormed.find?_eq ht

/-- **The factory of a constructor is compiled** once the types of its
parameters are found. -/
theorem exists_constructorFactory (hr : r.registry.Built) (ht : t ∈ r.registry.types)
    (habstract : t.isAbstract = false) (hk : k ∈ t.constructors)
    (hts : k.parameterTypes.mapM r.registry.find? = some ts) :
    ∃ a, r.Compiles (.constructorFactory (some k) (some false)) a := by
  obtain ⟨code, hcode, -⟩ := Registry.constructorFactory_of_types hts false
  exact ⟨⟨.factory, none, code, ⟨0⟩⟩, compiles_constructorFactory.2
    ⟨t, find?_declaringType hr ht hk, habstract, hcode, rfl, rfl⟩⟩

/-- **Without guards a factory creates an instance of the declaring type.** -/
theorem create_eq_newInstance (hr : r.registry.Built) (ht : t ∈ r.registry.types)
    (hk : k ∈ t.constructors) (hts : k.parameterTypes.mapM r.registry.find? = some ts)
    (ha : r.Compiles (.constructorFactory (some k) (some false)) a) (natives : Natives)
    (arguments : Option (List Value)) :
    a.create natives arguments =
      Exec.mapFault .runtime (k.newInstance natives t ts arguments) := by
  obtain ⟨declaring, ts', hdeclaring, hts', hcreate⟩ := create_eq_refuse ha
  obtain rfl : t = declaring :=
    Option.some.inj ((find?_declaringType hr ht hk).symm.trans hdeclaring)
  obtain rfl : ts = ts' := Option.some.inj (hts.symm.trans hts')
  rw [hcreate, Guard.verdict?_of_zero rfl]
  rfl

/-- **Factories create.** The factory of each constructor of a class or struct
that is not abstract is compiled once the types of its parameters are
registered. It ends in the fault of the first argument that is missing or does
not fit, with nothing changed; else it creates one new instance, runs the
constructor's body on it, once and with the declared arguments, and hands the
instance out unless the body faults. A default factory is compiled exactly for
the types that can have a default instance, and creates a new one on every
call. -/
theorem factories_create (hr : r.registry.Built) (ht : t ∈ r.registry.types) :
    ((t.kind = .classType ∨ t.kind = .structType) → t.isAbstract = false →
      ∀ k ∈ t.constructors, ∀ ts, k.parameterTypes.mapM r.registry.find? = some ts →
        (∃ a, r.Compiles (.constructorFactory (some k) (some false)) a) ∧
        ∀ a, r.Compiles (.constructorFactory (some k) (some false)) a →
          ∀ (natives : Natives) (arguments : Option (List Value)) (h : Heap), h.Ready t →
            h.Offers arguments 0 ts →
            k.Creation natives t ts arguments (a.create natives arguments) h) ∧
    ((∃ a, r.Compiles (.typeFactory (some t)) a) ↔
      t.declaredAbstract = false ∧ t.isInterface = false ∧ (t.isValueType = true ∨
        ∃ k ∈ t.constructors, k.parameters = [] ∧ k.visibility.isPublic = true)) ∧
    ∀ a, r.Compiles (.typeFactory (some t)) a → ∀ (natives : Natives) (h : Heap), h.Ready t →
      t.DefaultCreation natives (a.createDefault natives) h := by
  refine ⟨fun _ habstract k hk ts hts => ⟨?_, ?_⟩, ?_, ?_⟩
  · exact exists_constructorFactory hr ht habstract hk hts
  · intro a ha natives arguments h hready hoffers
    have hlen : ts.length = k.parameters.length := by
      rw [length_of_mapM hts, Constructor.parameterTypes, List.length_map]
    rw [create_eq_newInstance hr ht hk hts ha]
    exact Constructor.creation_newInstance hlen hready hoffers
  · rw [exists_typeFactory_iff, TypeDef.defaultFlaw?_eq_none]
  · intro a ha natives h hready
    rw [createDefault_eq ha]
    exact TypeDef.defaultCreation_newDefault (exists_typeFactory_iff.1 ⟨a, ha⟩) hready

end Reflector

namespace Sample

/-! ## A class with two constructors -/

/-- A lamp lights a spot; it is put somewhere, or left where it is. -/
def lampDefinition : TypeDefinition where
  name := "Lamp"
  kind := .classType
  fields := [{ name := "spot", type := ⟨65⟩ }]
  constructors := [{ parameters := [⟨"spot", ⟨65⟩⟩], body := some ⟨0⟩ }, { body := some ⟨1⟩ }]

/-- The constructor that puts a lamp somewhere. -/
def placed : Constructor := ⟨⟨73⟩, ⟨71⟩, [⟨"spot", ⟨65⟩, 0⟩], .anyone, some ⟨0⟩⟩

def lamp : TypeDef :=
  { TypeDef.blank ⟨71⟩ "Lamp" .classType with
    base := some .object
    fields := [⟨⟨72⟩, "spot", ⟨71⟩, ⟨65⟩, .anyone, .slot 0⟩]
    layout := [⟨⟨72⟩, "spot", ⟨71⟩, ⟨65⟩, .anyone, .slot 0⟩]
    defaults := [.object ⟨1⟩]
    constructors := [placed, ⟨⟨74⟩, ⟨71⟩, [], .anyone, some ⟨1⟩⟩] }

/-- The defaults of pens and lamps, and a point. -/
def workbench : Heap where
  objects := #[⟨point, [.int32 0]⟩, ⟨point, [.int32 0]⟩, ⟨point, [.int32 7]⟩]

def lampCatalog : Catalog := ⟨catalog.types ++ [lamp]⟩

theorem define_lamp :
    (catalog.define lampDefinition ⟨71⟩).run { objects := #[⟨point, [.int32 0]⟩] } =
      some (.ok ⟨⟨71⟩, lampCatalog, ⟨75⟩⟩,
        { objects := #[⟨point, [.int32 0]⟩, ⟨point, [.int32 0]⟩] }) := by rfl

def lampRegistry : Registry := (lampCatalog.freeze ⟨75⟩).1

theorem lampRegistry_built : lampRegistry.Built :=
  ⟨⟨75⟩, .define built (Nat.le_refl _) define_lamp⟩

theorem workbench_ready : workbench.Ready lamp := by
  have hslots : ∀ o, ∀ v ∈ workbench.slotsAt o, v.toObject? = none := by
    intro o v hv
    have hlt : o.index < 3 := Heap.has_of_mem_slotsAt hv
    have hall : ∀ i < 3, ∀ v ∈ workbench.slotsAt ⟨i⟩, v.toObject? = none := by decide
    exact hall o.index hlt v hv
  refine ⟨⟨fun o v hv p hp => ?_, fun k => ?_⟩, ?_, ?_⟩
  · have hnone := hslots o v hv
    rw [hp] at hnone
    cases hnone
  · simp [workbench, Heap.readCell, Heap.Reaches]
  · rintro v hv p rfl
    obtain rfl : p = ⟨1⟩ := by simpa [lamp] using hv
    exact Nat.lt_add_one_of_lt (Nat.lt_succ_self 1)
  · intro v hv
    obtain rfl : v = .object ⟨1⟩ := by simpa [lamp] using hv
    exact ⟨2, _, rfl⟩

/-- The point is there to be put somewhere. -/
theorem workbench_offers : workbench.Offers (some [.object ⟨2⟩]) 0 [point] where
  reaches := by
    rintro vs ⟨⟩ v hv p rfl
    obtain rfl : p = ⟨2⟩ := by simpa using hv
    exact Nat.lt_succ_self 2
  contents := by
    intro p hp _ v hv
    obtain rfl : p = (point, 0) := by simpa using hp
    obtain rfl : v = .object ⟨2⟩ := (Except.ok.inj hv).symm
    exact ⟨2, _, rfl⟩

/-- Nothing is no trouble, either. -/
theorem workbench_offers_none : workbench.Offers none 0 [point] where
  reaches := nofun
  contents := by
    intro p _ _ v hv
    cases hv

/-- A lamp is created from a point, or from nothing. -/
theorem create_lamp : ∃ a b,
    Reflector.Compiles ⟨lampRegistry, {}⟩ (.constructorFactory (some placed) (some false)) a ∧
    Reflector.Compiles ⟨lampRegistry, {}⟩ (.typeFactory (some lamp)) b ∧ ∀ natives,
      (∃ h, (a.create natives none).run workbench = some (.error (.runtime .nullReference), h) ∧
        workbench.Copies h) ∧
      (∃ args h₁ o h₂, args.length = 1 ∧ workbench.Copies h₁ ∧ h₁.Creates h₂ lamp o ∧
        (a.create natives (some [.object ⟨2⟩])).run workbench =
          (Exec.mapFault .runtime (Code.runConstructor natives (some ⟨0⟩) o args)).run h₂) ∧
      ∃ o h', workbench.Creates h' lamp o ∧ (b.createDefault natives).run workbench =
        (Exec.mapFault .runtime (Code.runConstructor natives (some ⟨1⟩) o [])).run h' := by
  have ht : lamp ∈ lampRegistry.types := by decide
  obtain ⟨hfactories, hdefault, hcreates⟩ :=
    Reflector.factories_create (r := ⟨lampRegistry, {}⟩) lampRegistry_built ht
  obtain ⟨⟨a, ha⟩, hcreate⟩ := hfactories (.inl rfl) rfl placed (by decide) [point] rfl
  obtain ⟨b, hb⟩ := hdefault.2 ⟨rfl, rfl, .inr ⟨_, List.mem_cons_of_mem _ (.head _), rfl, rfl⟩⟩
  refine ⟨a, b, ha, hb, fun natives => ⟨?_, ?_, ?_⟩⟩
  · exact (hcreate a ha natives none workbench workbench_ready workbench_offers_none).refused _ rfl
  · obtain ⟨args, h₁, o, h₂, hlen, hk, -, hnew, hrun⟩ :=
      (hcreate a ha natives _ workbench workbench_ready workbench_offers).created (by decide)
    exact ⟨args, h₁, o, h₂, hlen, hk, hnew, hrun⟩
  · obtain ⟨k, o, h', hk, hnew, hrun⟩ :=
      (hcreates b hb natives workbench workbench_ready).classType rfl
    obtain rfl := Option.some.inj hk
    exact ⟨o, h', hnew, hrun⟩

end Sample

end MemberAccess
