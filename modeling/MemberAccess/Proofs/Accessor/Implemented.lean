import MemberAccess.Proofs.Accessor.Invoke
import MemberAccess.Proofs.Accessor.Keys
import MemberAccess.Proofs.Accessor.Location
import MemberAccess.Proofs.Accessor.PropertyAccess
/-!
# Accessor — contracts are implemented

A call ends at a method without a body, or at a native body that says so
itself; nothing else raises that fault. What an interface requires resolves to
a method with a body on every type that is neither an interface nor abstract,
so a call through the interface only misses an implementation when the body it
has run says so (`Reflector.implemented`).
-/

namespace MemberAccess

/-- **Whether a fault says that an implementation is missing.** -/
def RuntimeFault.IsMissing : RuntimeFault → Prop
  | .missingImplementation _ _ => True
  | _ => False

namespace Exec

variable {ε α β : Type} {P : ε → Prop}

/-- **No run of a computation ends in a fault of a kind.** -/
def Avoids (P : ε → Prop) (x : Exec ε α) : Prop :=
  ∀ h e h', x.run h = some (.error e, h') → ¬ P e

theorem Avoids.pure (a : α) : Avoids P (Pure.pure a : Exec ε α) := by
  intro h e h' hrun
  cases hrun

theorem Avoids.read {f : Heap → Except ε α} (hf : ∀ h e, f h = .error e → ¬ P e) :
    Avoids P (Exec.read f) := by
  intro h e h' hrun
  rw [run_read] at hrun
  exact hf h e (Prod.mk.inj (Option.some.inj hrun)).1

theorem Avoids.ask (f : Heap → α) : Avoids P (Exec.ask f : Exec ε α) := by
  intro h e h' hrun
  cases hrun

theorem Avoids.ofExcept {x : Except ε α} (hx : ∀ e, x = .error e → ¬ P e) :
    Avoids P (Exec.ofExcept x) := by
  intro h e h' hrun
  rw [run_ofExcept] at hrun
  exact hx e (Prod.mk.inj (Option.some.inj hrun)).1

theorem Avoids.alloc? (f : Heap → Option (α × Heap)) : Avoids P (Exec.alloc? f : Exec ε α) := by
  intro h e h' hrun
  rw [run_alloc?] at hrun
  obtain ⟨p, -, hp⟩ := Option.map_eq_some_iff.1 hrun
  cases hp

theorem Avoids.alloc (f : Heap → α × Heap) : Avoids P (Exec.alloc f : Exec ε α) := by
  intro h e h' hrun
  cases hrun

theorem Avoids.change {f : Heap → Except ε Heap} (hf : ∀ h e, f h = .error e → ¬ P e) :
    Avoids P (Exec.change f) := by
  intro h e h' hrun
  rw [run_change] at hrun
  cases hfh : f h with
  | ok h₁ =>
    rw [hfh] at hrun
    cases hrun
  | error e₁ =>
    rw [hfh] at hrun
    cases hrun
    exact hf h e hfh

theorem Avoids.bind {x : Exec ε α} {f : α → Exec ε β} (hx : Avoids P x)
    (hf : ∀ a, Avoids P (f a)) : Avoids P (x >>= f) := by
  intro h e h' hrun
  rcases run_bind_eq_error.1 hrun with hrun | ⟨a, h₁, -, hrun⟩
  · exact hx h e h' hrun
  · exact hf a h₁ e h' hrun

/-! ## Only calls miss an implementation -/

theorem avoids_castValue (v : Value) (t : TypeDef) :
    Avoids RuntimeFault.IsMissing (castValue v t) := by
  refine (Avoids.ask _).bind fun ok => ?_
  cases ok with
  | false =>
    refine .read fun h e he => ?_
    cases he
    exact id
  | true =>
    cases t.isValueType with
    | false => exact .pure v
    | true => exact .alloc? _

theorem avoids_castValues (ts : List TypeDef) (v : Value) :
    Avoids RuntimeFault.IsMissing (castValues ts v) := by
  induction ts generalizing v with
  | nil => exact .pure v
  | cons t ts ih => exact (avoids_castValue v t).bind ih

theorem avoids_coerceArguments (arguments : Option (List Value)) (ts : List TypeDef) (i : Nat) :
    Avoids RuntimeFault.IsMissing (coerceArguments arguments i ts) := by
  induction ts generalizing i with
  | nil => exact .pure []
  | cons t ts ih =>
    have hfetch : ∀ e, fetchArgument arguments i = .error e → ¬ e.IsMissing := by
      intro e he
      unfold fetchArgument at he
      split at he
      · cases he
        exact id
      · split at he <;> cases he
        exact id
    exact (Avoids.ofExcept hfetch).bind fun v => (avoids_castValue v t).bind fun w =>
      (ih (i + 1)).bind fun vs => .pure _

theorem avoids_handOut (t : TypeDef) (v : Value) :
    Avoids RuntimeFault.IsMissing (handOut t v) := by
  unfold handOut
  split
  · exact .alloc? _
  · exact .pure v

/-- Casting a receiver refuses it or lets it pass. -/
theorem avoids_castReceiver (ts : List TypeDef) (v : Value) :
    Avoids RuntimeFault.IsMissing (Exec.read (·.castReceiver ts v)) := by
  refine .read fun h e he => ?_
  induction ts generalizing v with
  | nil => cases he
  | cons t ts ih =>
    simp only [Heap.castReceiver] at he
    split at he
    · exact ih v he
    · cases hcast : h.castReference v t with
      | ok w =>
        rw [hcast] at he
        exact ih w he
      | error e' =>
        rw [hcast] at he
        cases he
        unfold Heap.castReference at hcast
        repeat' split at hcast
        all_goals cases hcast
        all_goals exact id

theorem avoids_expectObject (v : Value) :
    Avoids RuntimeFault.IsMissing (Exec.read (·.expectObject v)) := by
  refine .read fun h e he => ?_
  cases v <;> cases he <;> exact id

theorem avoids_convert (c : Conversion) (v : Value) :
    Avoids RuntimeFault.IsMissing (Exec.read (·.convert c v)) := by
  refine .read fun h e he => ?_
  have haccept : ∀ {ok : Bool} {target : String},
      h.accept v ok target = .error e → ¬ e.IsMissing := by
    intro ok target he
    unfold Heap.accept at he
    split at he <;> cases he
    exact id
  induction c with
  | value => cases he
  | object =>
    cases v with
    | null =>
      cases he
      exact id
    | _ => exact haccept he
  | optional inner ih =>
    cases v with
    | null => cases he
    | _ => exact ih he
  | _ => exact haccept he

theorem avoids_check (v : Value) (t : TypeDef) :
    Avoids RuntimeFault.IsMissing (check (·.receiverFault? v t)) := by
  refine .read fun h e he => ?_
  cases hfault : h.receiverFault? v t with
  | none =>
    simp only [hfault] at he
    cases he
  | some fault =>
    simp only [hfault] at he
    cases he
    unfold Heap.receiverFault? at hfault
    repeat' split at hfault
    all_goals cases hfault
    all_goals exact id

end Exec

/-- A call that is not prepared misses nothing. -/
theorem CallTypes.avoids_prepare (s : CallTypes) (receiver : Value)
    (arguments : Option (List Value)) :
    Exec.Avoids RuntimeFault.IsMissing (s.prepare receiver arguments) := by
  have hargs := Exec.avoids_coerceArguments arguments s.parameters 0
  unfold prepare
  cases s.receiver with
  | none => exact hargs.bind fun _ => .pure _
  | some t =>
    refine (Exec.avoids_check receiver t).bind fun _ => hargs.bind fun args => ?_
    refine .ofExcept fun e he => ?_
    unfold Invocation.on at he
    split at he <;> cases he
    exact id

theorem CallTypes.avoids_handOut (s : CallTypes) (v : Value) :
    Exec.Avoids RuntimeFault.IsMissing (s.handOut v) := by
  unfold handOut
  split
  · exact .pure _
  · exact Exec.avoids_handOut _ v

theorem Method.avoids_invocation (m : Method) (ts : List TypeDef) (receiver : Value)
    (arguments : List Value) :
    Exec.Avoids RuntimeFault.IsMissing (m.invocation ts receiver arguments) := by
  unfold invocation
  split
  · exact .pure _
  · exact (Exec.avoids_castReceiver ts receiver).bind fun v =>
      (Exec.avoids_expectObject v).bind fun _ => .pure _

/-- A guard refuses a call itself; it raises no fault. -/
theorem Guard.verdict?_ne_runtime (g : Guard) (frame : Frame) (fault : RuntimeFault) :
    g.verdict? frame ≠ some (.runtime fault) := by
  unfold verdict?
  split
  · simp
  · split
    · simp
    · split
      · simp
      · split <;> simp

namespace Exec

variable {α : Type} {x : Exec RuntimeFault α} {h h' : Heap} {fault : RuntimeFault}

/-- A fault is renamed to itself. -/
theorem run_of_mapFault
    (hrun : (mapFault AccessorError.runtime x).run h = some (.error (.runtime fault), h')) :
    x.run h = some (.error fault, h') := by
  obtain ⟨fault', hrun, heq⟩ := run_mapFault_eq_error.1 hrun
  cases heq
  exact hrun

/-- A fault behind a guard is a fault without it. -/
theorem run_of_refuse {refusal : Option AccessorError}
    (hrefusal : refusal ≠ some (.runtime fault))
    (hrun : (refuse refusal (mapFault .runtime x)).run h = some (.error (.runtime fault), h')) :
    x.run h = some (.error fault, h') := by
  cases refusal with
  | some e =>
    cases hrun
    exact absurd rfl hrefusal
  | none => exact run_of_mapFault hrun

end Exec

/-- A conversion misses nothing: reading through one misses what reading
does. -/
theorem Accessor.get_of_getAs_missing {natives : Natives} {a : Accessor} {k : Conversion}
    {receiver : Value} {h h' : Heap} {fault : RuntimeFault}
    (hrun : (a.getAs natives k receiver).run h = some (.error (.runtime fault), h'))
    (hfault : fault.IsMissing) :
    (a.get natives receiver).run h = some (.error (.runtime fault), h') := by
  rcases Exec.run_bind_eq_error.1 hrun with hget | ⟨v, h₁, -, hconvert⟩
  · exact hget
  · have hmissed := Exec.avoids_convert k v h₁ fault h' (Exec.run_of_mapFault hconvert)
    exact absurd hfault hmissed

/-! ## Bodies that say so -/

/-- A generated body misses nothing. -/
theorem MemberBody.avoids_run (natives : Natives) {body : MemberBody}
    (hbody : ∀ token, body ≠ .native token) (inv : Invocation) :
    Exec.Avoids RuntimeFault.IsMissing (body.run natives inv) := by
  have hreceiver : ∀ e, inv.receiver = .error e → ¬ e.IsMissing := by
    intro e he
    unfold Invocation.receiver at he
    split at he <;> cases he
    exact id
  have hargument : ∀ e, inv.argument 0 = .error e → ¬ e.IsMissing := by
    intro e he
    unfold Invocation.argument at he
    split at he <;> cases he
    exact id
  cases body with
  | native token => exact absurd rfl (hbody token)
  | readSlot i =>
    refine (Exec.Avoids.ofExcept hreceiver).bind fun o => .read fun h e he => ?_
    unfold Heap.load at he
    split at he <;> cases he
    exact id
  | writeSlot i =>
    refine (Exec.Avoids.ofExcept hargument).bind fun v =>
      (Exec.Avoids.ofExcept hreceiver).bind fun o => Exec.Avoids.bind (.change fun h e he => ?_)
        fun _ => .pure _
    unfold Heap.store at he
    split at he <;> cases he
    exact id
  | readCell c => exact .ask _
  | writeCell c =>
    exact (Exec.Avoids.ofExcept hargument).bind fun v => (Exec.Avoids.alloc _).bind fun _ => .pure _

/-- **A type implements a method**: an instance method in a slot, which
resolves to a method with a body. -/
structure TypeDef.Implements (t : TypeDef) (m : Method) : Prop where
  slot : m.slot.isSome = true
  instance_ : m.isStatic = false
  resolved : ∃ n, t.resolve? m = some n ∧ n.body.isSome = true

namespace TypeDef

variable (t : TypeDef) (natives : Natives) (r : Registry) (o : ObjectRef) (h : Heap)
  (fault : RuntimeFault) (h' : Heap)

/-- **A type answers for a fault** of a method: the native body that the method
resolves to raises it, on this invocation and this heap. -/
def Answers (m : Method) (inv : Invocation) : Prop :=
  ∃ n token, t.resolve? m = some n ∧ n.body = some (.native token) ∧
    (natives token inv).run h = some (.error fault, h')

/-- **A type answers for a fault of a call** on an object: its body raises the
fault on the very object and on what has become of the arguments, each coerced
to the type of its parameter. -/
def AnswersCall (m : Method) (arguments : Option (List Value)) : Prop :=
  ∃ ts values h₁, m.parameterTypes.mapM r.find? = some ts ∧
    (Exec.coerceArguments arguments 0 ts).run h = some (.ok values, h₁) ∧
    t.Answers natives h₁ fault h' m ⟨some o, values⟩

/-- **A type answers for a fault of a read** of a property of an object. -/
def AnswersGet (p : Property) : Prop :=
  ∃ m, p.getter = some m ∧ t.Answers natives h fault h' m ⟨some o, []⟩

/-- **A type answers for a fault of a write** to a property of an object, as
what it is seen as: its body raises the fault on what has become of the
input. -/
def AnswersSet (p : Property) (value : Option TypeHandle) (input : Value) : Prop :=
  ∃ m type ts w h₁, p.setter = some m ∧ r.find? p.type = some type ∧
    r.inputTypes type value = some ts ∧ (Exec.castValues ts input).run h = some (.ok w, h₁) ∧
    t.Answers natives h₁ fault h' m ⟨some o, [w]⟩

end TypeDef

namespace Method

variable {natives : Natives} {m : Method} {o : ObjectRef} {h h' : Heap} {fault : RuntimeFault}

/-- The method that runs on an object is the one that its type resolves to. -/
theorem implementation?_object : h.implementation? m (some o) = (h.typeAt o).resolve? m := by
  unfold Heap.implementation? TypeDef.resolve?
  cases m.slot <;> rfl

/-- **A call on an object whose type has a body for the method** misses an
implementation only where the body says so. -/
theorem answers_of_runBody {args : List Value}
    (hm : ∃ n, (h.typeAt o).resolve? m = some n ∧ n.body.isSome = true)
    (hrun : (m.runBody natives ⟨some o, args⟩).run h = some (.error fault, h'))
    (hfault : fault.IsMissing) : (h.typeAt o).Answers natives h fault h' m ⟨some o, args⟩ := by
  obtain ⟨n, hn, hbody⟩ := hm
  obtain ⟨body, hb⟩ := Option.isSome_iff_exists.1 hbody
  have himplementation : (h.implementation? m (some o)).bind (·.body) = some body := by
    rw [implementation?_object, hn, Option.bind_some, hb]
  have hrun : (body.run natives ⟨some o, args⟩).run h = some (.error fault, h') := by
    rw [runBody, Exec.run_bind, Exec.run_ask] at hrun
    simpa only [himplementation] using hrun
  by_cases hnative : ∃ token, body = .native token
  · obtain ⟨token, rfl⟩ := hnative
    exact ⟨n, token, hn, hb, hrun⟩
  · exact absurd hfault (MemberBody.avoids_run natives (not_exists.1 hnative) _ h fault h' hrun)

/-- The same between a preparation and what becomes of the result, neither of
which misses anything. The body says so on the invocation that was prepared. -/
theorem answers_of_call {α : Type} {x : Exec RuntimeFault Invocation}
    {f : Value → Exec RuntimeFault α} (hx : Exec.Avoids RuntimeFault.IsMissing x)
    (hgrows : Exec.Within Heap.Grows x)
    (hthis : ∀ h inv h', x.run h = some (.ok inv, h') → inv.this = some o)
    (hf : ∀ v, Exec.Avoids RuntimeFault.IsMissing (f v)) (ho : h.Has o)
    (hm : ∃ n, (h.typeAt o).resolve? m = some n ∧ n.body.isSome = true)
    (hrun : (x >>= fun inv => m.runBody natives inv >>= f).run h = some (.error fault, h'))
    (hfault : fault.IsMissing) :
    ∃ args h₁, x.run h = some (.ok ⟨some o, args⟩, h₁) ∧
      (h.typeAt o).Answers natives h₁ fault h' m ⟨some o, args⟩ := by
  rcases Exec.run_bind_eq_error.1 hrun with hrun | ⟨inv, h₁, hprepared, hrun⟩
  · exact absurd hfault (hx h fault h' hrun)
  · rcases Exec.run_bind_eq_error.1 hrun with hrun | ⟨v, h₂, -, hrun⟩
    · obtain ⟨this, args⟩ := inv
      obtain rfl : this = some o := hthis h _ h₁ hprepared
      -- the receiver still has its type when the body starts
      rw [← (hgrows h _ h₁ hprepared).typeAt_eq ho] at hm ⊢
      exact ⟨args, h₁, hprepared, answers_of_runBody hm hrun hfault⟩
    · exact absurd hfault (hf v h₂ fault h' hrun)

theorem within_invocation (ts : List TypeDef) (receiver : Value) (arguments : List Value) :
    Exec.Within Heap.Grows (m.invocation ts receiver arguments) := by
  unfold invocation
  split
  · exact .pure Heap.Grows.refl _
  · exact Exec.grows_bind (.read Heap.Grows.refl _) fun _ =>
      Exec.grows_bind (.read Heap.Grows.refl _) fun _ => .pure Heap.Grows.refl _

/-- An instance method is called on the very receiver and the very arguments,
and checking the receiver only reads. -/
theorem eq_of_invocation (hs : m.isStatic = false) {ts : List TypeDef} {arguments : List Value}
    {inv : Invocation}
    (hrun : (m.invocation ts (.object o) arguments).run h = some (.ok inv, h')) :
    inv = ⟨some o, arguments⟩ ∧ h' = h := by
  rw [invocation, if_neg (by simp [hs])] at hrun
  obtain ⟨v, h₁, hcast, hrun⟩ := Exec.run_bind_eq_ok.1 hrun
  obtain ⟨hpasses, rfl⟩ := Prod.mk.inj (Option.some.inj hcast)
  obtain ⟨rfl, -⟩ := Heap.castReceiver_eq_ok hpasses
  obtain ⟨w, h₂, hobject, hrun⟩ := Exec.run_bind_eq_ok.1 hrun
  cases hobject
  cases hrun
  exact ⟨rfl, rfl⟩

/-- **A call of an accessor method** on an object misses an implementation only
where the body says so, on the very object and the very arguments. -/
theorem answers_of_invocation {α : Type} {ts : List TypeDef} {arguments : List Value}
    {f : Value → Exec RuntimeFault α} (hf : ∀ v, Exec.Avoids RuntimeFault.IsMissing (f v))
    (ho : h.Has o) (hm : (h.typeAt o).Implements m)
    (hrun : (m.invocation ts (.object o) arguments >>= fun inv =>
      m.runBody natives inv >>= f).run h = some (.error fault, h'))
    (hfault : fault.IsMissing) :
    (h.typeAt o).Answers natives h fault h' m ⟨some o, arguments⟩ := by
  have hthis : ∀ h inv h', (m.invocation ts (.object o) arguments).run h = some (.ok inv, h') →
      inv.this = some o := by
    intro h inv h' hinvocation
    rw [(eq_of_invocation hm.instance_ hinvocation).1]
  obtain ⟨args, h₁, hinvocation, hanswers⟩ :=
    answers_of_call (m.avoids_invocation ts _ _) (within_invocation ts _ _) hthis hf ho
      hm.resolved hrun hfault
  obtain ⟨heq, rfl⟩ := eq_of_invocation hm.instance_ hinvocation
  cases heq
  exact hanswers

end Method

namespace Property

variable {natives : Natives} {m : Method} {s : FieldTypes} {o : ObjectRef} {h h' : Heap}
  {fault : RuntimeFault}

/-- A read is answered for. -/
theorem answers_of_read (ho : h.Has o) (hm : (h.typeAt o).Implements m)
    (hrun : (Property.read natives m s (.object o)).run h = some (.error fault, h'))
    (hfault : fault.IsMissing) : (h.typeAt o).Answers natives h fault h' m ⟨some o, []⟩ :=
  Method.answers_of_invocation (Exec.avoids_handOut s.type) ho hm hrun hfault

/-- So is a write, with what has become of the input. -/
theorem answers_of_write {input : Value} (ho : h.Has o) (hm : (h.typeAt o).Implements m)
    (hrun : (Property.write natives m s (.object o) input).run h = some (.error fault, h'))
    (hfault : fault.IsMissing) :
    ∃ w h₁, (Exec.castValues s.input input).run h = some (.ok w, h₁) ∧
      (h.typeAt o).Answers natives h₁ fault h' m ⟨some o, [w]⟩ := by
  rcases Exec.run_bind_eq_error.1 hrun with hrun | ⟨w, h₁, hcast, hrun⟩
  · exact absurd hfault (Exec.avoids_castValues s.input input h fault h' hrun)
  · have hgrows := Exec.within_castValues s.input input h _ h₁ hcast
    rw [← hgrows.typeAt_eq ho] at hm ⊢
    exact ⟨w, h₁, hcast,
      Method.answers_of_invocation (fun _ => .pure _) (hgrows.has ho) hm hrun hfault⟩

end Property

/-! ## Requests about a member -/

namespace Reflector

variable {r : Reflector} {q : Request} {a : Accessor}

/-- **Whatever is compiled for a method is its invoker.** -/
theorem invoker_of_compiles {m : Method} (hq : q.subject? = some (.member (.method m)))
    (ha : r.Compiles q a) : ∃ validate, r.Compiles (.methodInvoker (some m) (some validate)) a := by
  cases q with
  | methodInvoker m' choice =>
    obtain ⟨m', rfl, heq⟩ := Option.map_eq_some_iff.1 hq
    cases heq
    exact ⟨r.validate choice, ha⟩
  | memberAccessor m' =>
    obtain ⟨m', rfl, heq⟩ := Option.map_eq_some_iff.1 hq
    cases heq
    exact ⟨r.validate none, ha⟩
  | memberGetter m' =>
    obtain ⟨m', rfl, heq⟩ := Option.map_eq_some_iff.1 hq
    cases heq
    obtain ⟨p, hp, -⟩ := compiles_iff.1 ha
    cases hp
  | memberSetter m' =>
    obtain ⟨m', rfl, heq⟩ := Option.map_eq_some_iff.1 hq
    cases heq
    obtain ⟨p, hp, -⟩ := compiles_iff.1 ha
    cases hp
  | _ =>
    obtain ⟨x, rfl, heq⟩ := Option.map_eq_some_iff.1 hq
    cases heq

/-- A getter has the form of one. -/
theorem shape_of_propertyGetter {p : Option Property} {choice : Option Bool} {view : Option View}
    (ha : r.Compiles (.propertyGetter p choice view) a) :
    a.shape = if view.isSome then .typedGetter else .getter := by
  obtain ⟨plan, hplan, -, hshape, -⟩ := compiles_iff.1 ha
  obtain ⟨_, -, hplan⟩ := bind_eq_ok.1 hplan
  obtain ⟨m, -, hplan⟩ := bind_eq_ok.1 hplan
  cases hplan
  exact hshape

/-- A setter has the form of one, and the view that it is asked for. -/
theorem form_of_propertySetter {p : Option Property} {choice : Option Bool} {view : Option View}
    (ha : r.Compiles (.propertySetter p choice view) a) :
    a.shape = (if view.isSome then .typedSetter else .setter) ∧ a.view = view := by
  obtain ⟨plan, hplan, -, hshape, hview⟩ := compiles_iff.1 ha
  obtain ⟨_, -, hplan⟩ := bind_eq_ok.1 hplan
  obtain ⟨m, -, hplan⟩ := bind_eq_ok.1 hplan
  cases hplan
  exact ⟨hshape, hview⟩

/-- **Whatever is compiled for a property** is its getter or its setter. -/
theorem getter_or_setter_of_compiles {p : Property}
    (hq : q.subject? = some (.member (.property p))) (ha : r.Compiles q a) :
    ∃ choice view, r.Compiles (.propertyGetter (some p) choice view) a ∨
      r.Compiles (.propertySetter (some p) choice view) a := by
  cases q with
  | propertyGetter p' choice view =>
    obtain ⟨p', rfl, heq⟩ := Option.map_eq_some_iff.1 hq
    cases heq
    exact ⟨choice, view, .inl ha⟩
  | propertySetter p' choice view =>
    obtain ⟨p', rfl, heq⟩ := Option.map_eq_some_iff.1 hq
    cases heq
    exact ⟨choice, view, .inr ha⟩
  | memberGetter m =>
    obtain ⟨m, rfl, heq⟩ := Option.map_eq_some_iff.1 hq
    cases heq
    exact ⟨none, none, .inl ha⟩
  | memberAccessor m =>
    obtain ⟨m, rfl, heq⟩ := Option.map_eq_some_iff.1 hq
    cases heq
    exact ⟨none, none, .inl ha⟩
  | memberSetter m =>
    obtain ⟨m, rfl, heq⟩ := Option.map_eq_some_iff.1 hq
    cases heq
    exact ⟨none, none, .inr ha⟩
  | _ =>
    obtain ⟨x, rfl, heq⟩ := Option.map_eq_some_iff.1 hq
    cases heq

variable {t i : TypeDef} {natives : Natives} {h h' : Heap} {o : ObjectRef} {fault : RuntimeFault}

/-- A call that is prepared is a call on the very object. -/
theorem this_of_prepare {m : Method} {s : CallTypes} (hfit : s.Fit m) (hstatic : m.isStatic = false)
    {args : Option (List Value)} {inv : Invocation}
    (hprepare : (s.prepare (.object o) args).run h = some (.ok inv, h')) : inv.this = some o := by
  have hthis := (CallTypes.prepare_eq_ok hprepare).1
  -- an instance method has a receiver to check
  have hreceiver : s.receiver ≠ none := by
    intro hnone
    have hnot := hfit.receiver
    rw [hnone, hstatic] at hnot
    cases hnot
  obtain ⟨u, hu⟩ := Option.ne_none_iff_exists'.1 hreceiver
  rw [hu, Option.map_some, Option.map_eq_some_iff] at hthis
  obtain ⟨o', ho', heq⟩ := hthis
  rw [ho', Value.object.inj heq]

/-- **A fault of an invoker's call is answered for**, with the arguments that
were prepared. -/
theorem answersCall_of_resolve? (hr : r.registry.Built) (hi : i ∈ r.registry.types) {m : Method}
    (hm : m ∈ i.allMethods) {validate : Bool}
    (ha : r.Compiles (.methodInvoker (some m) (some validate)) a) (ho : h.Has o)
    (hstatic : m.isStatic = false)
    (hmt : ∃ n, (h.typeAt o).resolve? m = some n ∧ n.body.isSome = true)
    {args : Option (List Value)}
    (hrun : (a.invoke natives (.object o) args).run h = some (.error (.runtime fault), h'))
    (hfault : fault.IsMissing) :
    (h.typeAt o).AnswersCall natives r.registry o h fault h' m args := by
  obtain ⟨s, hs, hcall⟩ := invoke_eq_refuse hr hi hm ha
  rw [hcall] at hrun
  have hrun := Exec.run_of_refuse (Guard.verdict?_ne_runtime _ _ _) hrun
  obtain ⟨values, h₁, hprepare, hanswers⟩ :=
    Method.answers_of_call (s.avoids_prepare _ args) (s.within_prepare _ args)
      (fun _ _ _ => this_of_prepare (Registry.fit_of_callTypes? hs) hstatic) s.avoids_handOut ho
      hmt hrun hfault
  have hcoerced := (CallTypes.prepare_eq_ok hprepare).2
  exact ⟨s.parameters, values, h₁, (Registry.callTypes?_eq_some.1 hs).2.1, hcoerced, hanswers⟩

end Reflector

/-- **What an interface requires is implemented** by every type that is neither
an interface nor abstract, its properties' accessors included. -/
theorem Catalog.Contracts.implements {c : Catalog} {t i : TypeDef} {m : Method}
    (hk : c.Contracts) (ht : t ∈ c.types) (habstract : t.isAbstract = false) (hi : i ∈ c.types)
    (hii : i.isInterface = true) (ha : i.handle ∈ t.ancestors)
    (hm : m ∈ i.allMethods ∨ ∃ p ∈ i.allProperties, p.getter = some m ∨ p.setter = some m) :
    t.Implements m := by
  have hmethod : ∀ j ∈ c.types, j.isInterface = true → j.handle ∈ t.ancestors →
      m ∈ j.allMethods → t.Implements m := by
    intro j hj hji hja hm
    have hcontract := hk.isContract hj hji hm
    exact ⟨hcontract.slot, hcontract.instance_, hk.resolve?_required ht habstract hj hji hja hm⟩
  rcases hm with hm | ⟨p, hp, hm⟩
  · exact hmethod i hi hii ha hm
  · obtain ⟨j, hj, hji, hja, haccessors⟩ := hk.accessors hi hii hp
    refine hmethod j hj hji (hk.closed t ht i hi ha hja) (List.mem_append_left _ ?_)
    rcases hm with hm | hm
    · exact (haccessors.getter m hm).1
    · exact (haccessors.setter m hm).1

namespace Reflector

variable {r : Reflector} {t i : TypeDef}

/-- **Interfaces are implemented.** In a built registry, whatever an interface
requires resolves to a method with a body on every type that is neither an
interface nor abstract and has the interface among its ancestors. So an
accessor that is compiled for a member of the interface, however it is
requested, comes to a missing implementation on an instance of the type only
where the body that is there says so, called on that very instance with the
coerced arguments or input. -/
theorem implemented (hr : r.registry.Built) (ht : t ∈ r.registry.types)
    (habstract : t.isAbstract = false) (hi : i ∈ r.registry.types) (hii : i.isInterface = true)
    (ha : i.handle ∈ t.ancestors) :
    (∀ m, (m ∈ i.allMethods ∨ ∃ p ∈ i.allProperties, p.getter = some m ∨ p.setter = some m) →
      ∃ n, t.resolve? m = some n ∧ n.body.isSome = true) ∧
    ∀ (natives : Natives) (h h' : Heap) (o : ObjectRef) (fault : RuntimeFault),
      h.Has o → h.typeAt o = t → fault.IsMissing →
      (∀ m ∈ i.allMethods, ∀ q a, q.subject? = some (.member (.method m)) → r.Compiles q a →
        ∀ args, (a.invoke natives (.object o) args).run h = some (.error (.runtime fault), h') →
          t.AnswersCall natives r.registry o h fault h' m args) ∧
      ∀ p ∈ i.allProperties, ∀ q a, q.subject? = some (.member (.property p)) → r.Compiles q a →
        (a.shape = .getter ∨ a.shape = .typedGetter →
          ((a.get natives (.object o)).run h = some (.error (.runtime fault), h') ∨
            ∃ k, (a.getAs natives k (.object o)).run h = some (.error (.runtime fault), h')) →
          t.AnswersGet natives o h fault h' p) ∧
        (a.shape = .setter ∨ a.shape = .typedSetter →
          ∀ v, (a.set natives (.object o) v).run h = some (.error (.runtime fault), h') →
          t.AnswersSet natives r.registry o h fault h' p (a.view.map (·.value)) v) := by
  obtain ⟨ids, hbuilt⟩ := hr
  have hk := hbuilt.contracts
  have himplements : ∀ m,
      (m ∈ i.allMethods ∨ ∃ p ∈ i.allProperties, p.getter = some m ∨ p.setter = some m) →
      t.Implements m := fun m hm => hk.implements ht habstract hi hii ha hm
  refine ⟨fun m hm => (himplements m hm).resolved, fun natives h h' o fault ho htype hfault => ?_⟩
  subst htype
  refine ⟨fun m hm q a hq hc args hrun => ?_, fun p hp q a hq hc => ?_⟩
  · obtain ⟨validate, hc⟩ := invoker_of_compiles hq hc
    have hm' := himplements m (.inl hm)
    exact answersCall_of_resolve? ⟨ids, hbuilt⟩ hi hm hc ho hm'.instance_ hm'.resolved hrun hfault
  · obtain ⟨j, hj, hji, -, haccessors⟩ := hk.accessors hi hii hp
    have hstatic : ∀ m ∈ j.methods, m.isStatic = true → m.slot = none := by
      intro m hm hs
      rw [((hk.regular j hj).contracts hji m hm).instance_] at hs
      cases hs
    have hmember : ∀ m, p.getter = some m ∨ p.setter = some m → (h.typeAt o).Implements m :=
      fun m hm => himplements m (.inr ⟨p, hp, hm⟩)
    obtain ⟨choice, view, hc | hc⟩ := getter_or_setter_of_compiles hq hc
    · refine ⟨fun _ hrun => ?_, fun hshape => ?_⟩
      · have hrun : (a.get natives (.object o)).run h = some (.error (.runtime fault), h') :=
          hrun.elim id fun ⟨k, hrun⟩ => Accessor.get_of_getAs_missing hrun hfault
        obtain ⟨m, s, hm, -, hread⟩ := get_eq_read_property haccessors hstatic hc
        rw [hread] at hrun
        exact ⟨m, hm, Property.answers_of_read ho (hmember m (.inl hm)) (Exec.run_of_mapFault hrun)
          hfault⟩
      · rw [shape_of_propertyGetter hc] at hshape
        split at hshape <;> simp at hshape
    · refine ⟨fun hshape => ?_, fun _ v hrun => ?_⟩
      · rw [(form_of_propertySetter hc).1] at hshape
        split at hshape <;> simp at hshape
      · obtain ⟨m, s, hm, hs, hwrite⟩ := set_eq_write_property haccessors hstatic hc
        rw [hwrite] at hrun
        obtain ⟨w, h₁, hcast, hanswers⟩ :=
          Property.answers_of_write ho (hmember m (.inr hm)) (Exec.run_of_mapFault hrun) hfault
        rw [(form_of_propertySetter hc).2]
        exact ⟨m, s.type, s.input, w, h₁, hm, hs.type, hs.input, hcast, hanswers⟩

end Reflector

namespace Sample

/-! ## A contract that an abstract class postpones -/

/-- A size that can be read. -/
def sizeDefinition : PropertyDefinition where
  name := "size"
  type := .int32
  backing := .auto
  getter := some { body := .generated }

def sizedDefinition : TypeDefinition where
  name := "Sized"
  kind := .interfaceType
  properties := [sizeDefinition]

/-- An abstract class that leaves the size to others. -/
def figureDefinition : TypeDefinition where
  name := "Figure"
  kind := .classType
  isAbstract := true
  interfaces := [⟨65⟩]

def circleDefinition : TypeDefinition where
  name := "Circle"
  kind := .classType
  base := some ⟨69⟩
  properties := [sizeDefinition]

/-- What is required. -/
def getSize : Method where
  id := ⟨67⟩
  name := "get_size"
  declaringType := ⟨65⟩
  parameters := []
  returnType := .int32
  visibility := .anyone
  isStatic := false
  slot := some ⟨66⟩
  body := none

def size : Property := ⟨⟨68⟩, "size", ⟨65⟩, .int32, some getSize, none, []⟩

/-- What a circle has for it. -/
def circleGetSize : Method :=
  { getSize with
    id := ⟨73⟩
    declaringType := ⟨71⟩
    slot := none
    body := some (.readSlot 0) }

def circleSize : Property := ⟨⟨74⟩, "size", ⟨71⟩, .int32, some circleGetSize, none, []⟩

def sized : TypeDef :=
  { TypeDef.blank ⟨65⟩ "Sized" .interfaceType with
    properties := [size]
    methods := [getSize] }

def figure : TypeDef :=
  { TypeDef.blank ⟨69⟩ "Figure" .classType with
    declaredAbstract := true
    base := some .object
    interfaces := [⟨65⟩]
    ancestors := [.object, ⟨69⟩, ⟨65⟩]
    constructors := [⟨⟨70⟩, ⟨69⟩, [], .family, none⟩] }

def circleBacking : Field where
  id := ⟨72⟩
  name := "<size>backing"
  declaringType := ⟨71⟩
  type := .int32
  visibility := .owner
  storage := .slot 0

def circle : TypeDef :=
  { TypeDef.blank ⟨71⟩ "Circle" .classType with
    base := some ⟨69⟩
    ancestors := [.object, ⟨71⟩, ⟨69⟩, ⟨65⟩]
    fields := [circleBacking]
    layout := [circleBacking]
    defaults := [.int32 0]
    properties := [circleSize]
    methods := [circleGetSize]
    constructors := [⟨⟨75⟩, ⟨71⟩, [], .anyone, none⟩]
    dispatch := ⟨[(⟨66⟩, circleGetSize)]⟩ }

def gallery : Catalog := ⟨(Catalog.standard {}).1.types ++ [sized] ++ [figure] ++ [circle]⟩

theorem define_sized :
    ((Catalog.standard {}).1.define sizedDefinition (Catalog.standard {}).2).run {} =
      some (.ok ⟨⟨65⟩, ⟨(Catalog.standard {}).1.types ++ [sized]⟩, ⟨69⟩⟩, {}) := by rfl

theorem define_figure :
    (Catalog.define ⟨(Catalog.standard {}).1.types ++ [sized]⟩ figureDefinition ⟨69⟩).run {} =
      some (.ok ⟨⟨69⟩, ⟨(Catalog.standard {}).1.types ++ [sized] ++ [figure]⟩, ⟨71⟩⟩, {}) := by rfl

theorem define_circle :
    (Catalog.define ⟨(Catalog.standard {}).1.types ++ [sized] ++ [figure]⟩ circleDefinition
        ⟨71⟩).run {} = some (.ok ⟨⟨71⟩, gallery, ⟨76⟩⟩, {}) := by rfl

theorem gallery_built : gallery.Built ⟨76⟩ :=
  .define (.define (.define (.standard {} (by decide)) (Nat.le_refl _) define_sized)
    (Nat.le_refl _) define_figure) (Nat.le_refl _) define_circle

def galleryRegistry : Registry := (gallery.freeze ⟨76⟩).1

/-- A circle, read through the interface, is there for the asking. -/
theorem implemented_size :
    ∃ a, Reflector.Compiles ⟨galleryRegistry, {}⟩ (.propertyGetter (some size) none none) a ∧
      ∀ natives h h' o fault, h.Has o → h.typeAt o = circle →
        (a.get natives (.object o)).run h = some (.error (.runtime fault), h') →
        ¬ fault.IsMissing := by
  have ht : circle ∈ galleryRegistry.types := by decide
  have hi : sized ∈ galleryRegistry.types := by decide
  have hp : size ∈ sized.allProperties := by decide
  have ha : Reflector.Compiles ⟨galleryRegistry, {}⟩ (.propertyGetter (some size) none none) _ :=
    ⟨{}, rfl⟩
  have himplemented := Reflector.implemented (r := ⟨galleryRegistry, {}⟩) ⟨⟨76⟩, gallery_built⟩ ht
    (by decide) hi (by decide) (by decide)
  refine ⟨_, ha, fun natives h h' o fault ho htype hrun hfault => ?_⟩
  have hproperties := (himplemented.2 natives h h' o fault ho htype hfault).2
  obtain ⟨m, hm, n, token, hn, hbody, -⟩ :=
    (hproperties size hp _ _ rfl ha).1 (.inl rfl) (.inl hrun)
  -- the size is read by a generated body
  cases hm
  cases hn
  cases hbody

end Sample

end MemberAccess
