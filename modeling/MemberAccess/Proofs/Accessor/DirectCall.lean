import MemberAccess.Proofs.Accessor.Compiled
import MemberAccess.Proofs.Accessor.Refusal
import MemberAccess.Proofs.Catalog.Built
import MemberAccess.Proofs.Coercion
/-!
# Accessor — an invoker is a direct call

What it means to call a method, without a stack or a compiler: the receiver is
checked, the declared arguments are fetched and coerced in order, an absent
receiver is a fault, one body runs, and its result is handed out
(`Method.directCall`). The invoker of every method of a built registry is that
call with its faults renamed (`Code.walk_call`), behind the guard if there is
one.
-/

namespace MemberAccess

/-! ## Direct calls -/

/-- **Why a receiver is refused**, if it is: it is of another type, or absent
where the declaring type is a value type. -/
def Heap.receiverFault? (h : Heap) (receiver : Value) (declaring : TypeDef) : Option RuntimeFault :=
  if receiver.isNull then
    if declaring.isValueType then some .nullReference else none
  else if h.isInstance receiver declaring.handle then none
  else some (.invalidCast (h.typeName receiver) declaring.name)

/-- Ends in a fault that is read off the heap, if there is one. -/
def Exec.check {ε : Type} (fault? : Heap → Option ε) : Exec ε Unit :=
  read fun h => match fault? h with
    | some fault => .error fault
    | none => .ok ()

/-- The invocation on a receiver, which has to be an object. -/
def Invocation.on (receiver : Value) (arguments : List Value) : Except RuntimeFault Invocation :=
  match receiver with
  | .object r => .ok ⟨some r, arguments⟩
  | _ => .error .nullReference

/-- **The method that a call of `m` runs**: `m` itself outside any slot, else
what the receiver's own type has in the slot. -/
def Heap.implementation? (h : Heap) (m : Method) (this : Option ObjectRef) : Option Method :=
  match m.slot, this with
  | some _, some r => (h.typeAt r).resolve? m
  | _, _ => some m

namespace CallTypes

open Exec

variable (s : CallTypes)

/-- **What a body is called with**: the receiver is checked first, then the
arguments are fetched and coerced in order, then the receiver has to be
there. -/
def prepare (receiver : Value) (arguments : Option (List Value)) : Exec RuntimeFault Invocation :=
  match s.receiver with
  | none => do
    let args ← coerceArguments arguments 0 s.parameters
    return ⟨none, args⟩
  | some t => do
    check (·.receiverFault? receiver t)
    let args ← coerceArguments arguments 0 s.parameters
    ofExcept (Invocation.on receiver args)

/-- **What becomes of the value that a body returns**: nothing is null, a
value type is copied. -/
def handOut (v : Value) : Exec RuntimeFault Value :=
  match s.result with
  | none => return .null
  | some t => Exec.handOut t v

end CallTypes

namespace Method

open Exec

variable (natives : Natives) (m : Method)

/-- **Runs the one body** that a call of a method ends at, on the receiver and
arguments that it is given. -/
def runBody (inv : Invocation) : Exec RuntimeFault Value := do
  let body ← ask fun h => (h.implementation? m inv.this).bind (·.body)
  match body with
  | some body => body.run natives inv
  | none =>
    read fun h => .error (.missingImplementation m.name
      (match inv.this with
        | some r => (h.typeAt r).name
        | none => "<static>"))

/-- **A direct call.** -/
def directCall (s : CallTypes) (receiver : Value) (arguments : Option (List Value)) :
    Exec RuntimeFault Value := do
  let inv ← s.prepare receiver arguments
  let v ← m.runBody natives inv
  s.handOut v

end Method

/-! ## What a call is prepared with -/

namespace CallTypes

variable {s : CallTypes} {receiver : Value} {arguments : Option (List Value)} {h h' : Heap}

/-- **A call that is not prepared leaves everything as it was**, and so does
one that is. -/
theorem within_prepare (s : CallTypes) (receiver : Value) (arguments : Option (List Value)) :
    Exec.Within Heap.Grows (s.prepare receiver arguments) := by
  have hargs := Exec.within_coerceArguments arguments s.parameters 0
  unfold prepare
  cases s.receiver with
  | none => exact Exec.grows_bind hargs fun _ => .pure Heap.Grows.refl _
  | some t =>
    refine Exec.grows_bind (.read Heap.Grows.refl _) fun _ => Exec.grows_bind hargs fun _ => ?_
    exact .ofExcept Heap.Grows.refl _

/-- **A body gets the very receiver and the declared arguments**, coerced. -/
theorem prepare_eq_ok {inv : Invocation}
    (hrun : (s.prepare receiver arguments).run h = some (.ok inv, h')) :
    inv.this.map .object = s.receiver.map (fun _ => receiver) ∧
      (Exec.coerceArguments arguments 0 s.parameters).run h = some (.ok inv.arguments, h') := by
  unfold prepare at hrun
  cases hr : s.receiver with
  | none =>
    rw [hr] at hrun
    obtain ⟨args, h₁, hargs, hrun⟩ := Exec.run_bind_eq_ok.1 hrun
    cases hrun
    exact ⟨rfl, hargs⟩
  | some t =>
    rw [hr] at hrun
    obtain ⟨u, h₁, hcheck, hrun⟩ := Exec.run_bind_eq_ok.1 hrun
    -- a check only reads
    obtain ⟨-, rfl⟩ := Prod.mk.inj (Option.some.inj hcheck)
    obtain ⟨args, h₁, hargs, hrun⟩ := Exec.run_bind_eq_ok.1 hrun
    cases receiver with
    | object r =>
      cases hrun
      exact ⟨rfl, hargs⟩
    | _ => cases hrun

end CallTypes

/-! ## Walking through a call -/

namespace Heap

variable {h : Heap} {v : Value} {t : TypeDef}

/-- **Casting a receiver** is refusing it or letting it pass as it is. -/
theorem read_castReceiver (ht : t.handle ≠ .object) (v : Value) :
    Exec.read (·.castReceiver [t] v) =
      Exec.check (·.receiverFault? v t) >>= fun _ => pure v := by
  refine Exec.ext_run fun h => ?_
  simp only [Exec.run_bind, Exec.check, Exec.run_read, castReceiver, ht, if_false, castReference,
    receiverFault?, castFault]
  cases v.isNull <;> cases t.isValueType <;> cases h.isInstance v t.handle <;> rfl

/-- **A receiver that is not refused** by a defined type is null or an
object. -/
theorem null_or_object_of_check (ht : t.handle.isBuiltin = false) {h₁ : Heap} {u : Unit}
    (hrun : (Exec.check (·.receiverFault? v t)).run h = some (.ok u, h₁)) :
    v.isNull = true ∨ v.toObject?.isSome = true := by
  cases hnull : v.isNull with
  | true => exact .inl rfl
  | false =>
    simp only [Exec.check, receiverFault?, Exec.run_read, hnull, Bool.false_eq_true,
      if_false] at hrun
    cases hinstance : h.isInstance v t.handle with
    | false => simp [hinstance] at hrun
    | true =>
      obtain ⟨o, rfl, -⟩ := exists_object_of_isInstance ht hinstance
      exact .inr rfl

end Heap

namespace Code

variable {natives : Natives} {frame : Frame} {m : Method} {s : CallTypes}

/-- The method called is the implementation of `m`. -/
theorem callMethod_eq (hstatic : m.isStatic = true → m.slot = none) (this : Option ObjectRef)
    (args : List Value) :
    callMethod natives (m.isVirtual && !m.isStatic) m this args =
      m.runBody natives ⟨this, args⟩ := by
  have hcallee : ∀ h, callee? h (m.isVirtual && !m.isStatic) m this = h.implementation? m this := by
    intro h
    cases hs : m.isStatic with
    | true => simp [callee?, Heap.implementation?, hstatic hs]
    | false =>
      cases hslot : m.slot with
      | none => simp [callee?, Heap.implementation?, Method.isVirtual, hslot]
      | some slot => cases this <;> simp [callee?, Heap.implementation?, Method.isVirtual, hslot]
  unfold callMethod Method.runBody
  refine congrArg₂ bind ?_ (funext fun body => ?_)
  · simp only [hcallee]
  · cases body with
    | some body => rfl
    | none => cases this <;> rfl

/-- The instruction that calls a method dispatches when the method is
virtual. -/
theorem step_callOf (m : Method) (c : Config) :
    step natives default frame c (Op.callOf m) =
      call natives (m.isVirtual && !m.isStatic) m c := by
  unfold Op.callOf
  cases m.isVirtual && !m.isStatic <;> rfl

/-- **A static call** pops the arguments and pushes what the body returns. -/
theorem step_callOf_static (hs : m.isStatic = true) (hslot : m.slot = none) {args : List Value}
    (hargs : args.length = m.parameters.length) (c : Config) :
    step natives default frame (c.pushAll args) (Op.callOf m) =
      Exec.mapFault .runtime (m.runBody natives ⟨none, args⟩) >>= fun v =>
        pure (.next (if m.returnsVoid then c else c.push v)) := by
  simp only [step_callOf, call, callMethod_eq fun _ => hslot]
  rw [← hargs, popN_pushAll, if_pos hs]
  rfl

/-- **An instance call** pops the receiver too. -/
theorem step_callOf_instance (hs : m.isStatic = false) {args : List Value}
    (hargs : args.length = m.parameters.length) (r : ObjectRef) (c : Config) :
    step natives default frame ((c.push (.object r)).pushAll args) (Op.callOf m) =
      Exec.mapFault .runtime (m.runBody natives ⟨some r, args⟩) >>= fun v =>
        pure (.next (if m.returnsVoid then c else c.push v)) := by
  have hslot : m.isStatic = true → m.slot = none := by simp [hs]
  simp only [step_callOf, call, callMethod_eq hslot]
  rw [← hargs, popN_pushAll, hs]
  rfl

/-- Nothing can be called on null. -/
theorem step_callOf_null (hs : m.isStatic = false) {args : List Value}
    (hargs : args.length = m.parameters.length) (c : Config) :
    step natives default frame ((c.push .null).pushAll args) (Op.callOf m) =
      Exec.throw (.runtime .nullReference) := by
  simp only [step_callOf, call]
  rw [← hargs, popN_pushAll, hs]
  rfl

/-- **What a body returns is handed out**: behind the call, null is pushed in
place of nothing, and a value type is copied. -/
theorem walk_handOut (hv : s.result.isNone = m.returnsVoid) (v : Value) (body : String) :
    walk natives frame (s.resultOps ++ [.ret]) (if m.returnsVoid then {} else Config.push {} v) >>=
      Progress.answer body = Exec.mapFault .runtime (s.handOut v) := by
  unfold CallTypes.handOut CallTypes.resultOps
  cases hr : s.result with
  | none =>
    have hvoid : m.returnsVoid = true := by simpa [hr] using hv.symm
    rw [hvoid]
    rfl
  | some t =>
    have hvoid : m.returnsVoid = false := by simpa [hr] using hv.symm
    rw [hvoid, if_neg Bool.false_ne_true]
    exact walk_boxIfNeeded t v body

/-- Behind a receiver that may be called on come the arguments, the call and
what it returns. -/
theorem walk_behindReceiver (hfit : s.Fit m) (hs : m.isStatic = false) (v : Value)
    (hv : v.isNull = true ∨ v.toObject?.isSome = true) (body : String) :
    walk natives frame
        (Op.argumentCasts 0 s.parameters ++ (Op.callOf m :: (s.resultOps ++ [.ret])))
        (Config.push {} v) >>= Progress.answer body =
      Exec.mapFault .runtime (do
        let args ← Exec.coerceArguments frame.arguments 0 s.parameters
        let inv ← Exec.ofExcept (Invocation.on v args)
        let v ← m.runBody natives inv
        s.handOut v) := by
  rw [walk_append, walk_argumentCasts, Exec.mapFault_bind]
  simp only [bind_assoc, pure_bind, Progress.andThen_next]
  refine Exec.bind_congr_ok fun h args h₁ hargs => ?_
  rw [Exec.run_mapFault_eq_ok] at hargs
  have hlen := (Exec.length_of_coerceArguments hargs).trans hfit.parameters
  rw [walk_cons]
  -- only now is a receiver that is null noticed
  cases v with
  | null =>
    rw [step_callOf_null hs hlen]
    rfl
  | object r =>
    rw [step_callOf_instance hs hlen]
    simp only [bind_assoc, pure_bind, Progress.andThen_next, walk_handOut hfit.result,
      Exec.mapFault_bind]
    rfl
  | _ => simp [Value.isNull, Value.toObject?] at hv

/-- **The body of an invoker is a direct call** with its faults renamed. -/
theorem walk_call (hfit : s.Fit m) (hslot : m.isStatic = true → m.slot = none)
    (hdeclaring : ∀ t, s.receiver = some t → t.handle.isBuiltin = false) (body : String) :
    walk natives frame (s.ops m) {} >>= Progress.answer body =
      Exec.mapFault .runtime (m.directCall natives s frame.receiver frame.arguments) := by
  have hreceiver := hfit.receiver
  unfold Method.directCall CallTypes.prepare CallTypes.ops CallTypes.receiverOps
  cases hr : s.receiver with
  | none =>
    have hs : m.isStatic = true := by simpa [hr] using hreceiver.symm
    simp only [Option.elim_none, List.nil_append, walk_append, walk_argumentCasts,
      Exec.mapFault_bind, bind_assoc, pure_bind, Progress.andThen_next]
    refine Exec.bind_congr_ok fun h args h₁ hargs => ?_
    rw [Exec.run_mapFault_eq_ok] at hargs
    have hlen := (Exec.length_of_coerceArguments hargs).trans hfit.parameters
    rw [walk_cons, step_callOf_static hs (hslot hs) hlen]
    simp only [bind_assoc, pure_bind, Progress.andThen_next, walk_handOut hfit.result]
  | some t =>
    have hs : m.isStatic = false := by simpa [hr] using hreceiver.symm
    have ht := hdeclaring t hr
    -- everything passes for `Object`, which declares nothing
    have hobject := TypeHandle.ne_object ht
    rw [Option.elim_some, walk_append, walk_receiverCasts, Heap.read_castReceiver hobject]
    simp only [Exec.mapFault_bind, Exec.mapFault_pure, bind_assoc, pure_bind,
      Progress.andThen_next]
    refine Exec.bind_congr_ok fun h u h₁ hcheck => ?_
    rw [Exec.run_mapFault_eq_ok] at hcheck
    rw [walk_behindReceiver hfit hs _ (Heap.null_or_object_of_check ht hcheck)]
    simp only [Exec.mapFault_bind]

end Code

end MemberAccess
