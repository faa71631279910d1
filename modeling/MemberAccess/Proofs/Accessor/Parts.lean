import MemberAccess.Accessor.Plan
import MemberAccess.Proofs.Code.Assembly
import MemberAccess.Proofs.Heap.Grows
/-!
# Accessor — the parts of bodies, and what walking through them does

The bodies of accessors share three parts: the receiver cast to the types it
is seen as, the input coerced and put aside, the arguments coerced in order.
Each part has a reading that knows nothing of stacks and positions —
`Heap.castReceiver`, `Exec.castValues`, `Exec.coerceArguments` — and a lemma
saying that walking through the part is that reading followed by one change of
the stack or of the locals.
-/

namespace MemberAccess

/-! ## Readings -/

/-- **A receiver seen as each of the types in turn.** Everything is an
`Object`, so that type is not asked for. -/
def Heap.castReceiver (h : Heap) : List TypeDef → Value → Except RuntimeFault Value
  | [], v => .ok v
  | t :: ts, v =>
    if t.handle = .object then h.castReceiver ts v
    else h.castReference v t >>= h.castReceiver ts

/-- **An argument of a call**: the array may be absent, and it may be short. -/
def fetchArgument (arguments : Option (List Value)) (i : Nat) : Except RuntimeFault Value :=
  match arguments with
  | none => .error .nullReference
  | some args =>
    match args[i]? with
    | some v => .ok v
    | none => .error (.indexOutOfRange i args.length)

namespace Invocation

variable {inv : Invocation} {o : ObjectRef} {v : Value}

theorem receiver_eq_ok : inv.receiver = .ok o ↔ inv.this = some o := by
  unfold receiver
  cases inv.this <;> simp

theorem argument_eq_ok {i : Nat} : inv.argument i = .ok v ↔ inv.arguments[i]? = some v := by
  unfold argument
  cases inv.arguments[i]? <;> simp

end Invocation

namespace Exec

/-- A value coerced to each of the types in turn. -/
def castValues : List TypeDef → Value → Exec RuntimeFault Value
  | [], v => pure v
  | t :: ts, v => castValue v t >>= castValues ts

theorem castValues_singleton (t : TypeDef) (v : Value) : castValues [t] v = castValue v t :=
  bind_pure _

theorem within_castValues (ts : List TypeDef) (v : Value) :
    Within Heap.Grows (castValues ts v) := by
  induction ts generalizing v with
  | nil => exact .pure Heap.Grows.refl v
  | cons t ts ih => exact grows_bind (within_castValue v t) ih

/-- **A value of a type, handed out**: a copy of it where the type is a value
type. -/
def handOut (t : TypeDef) (v : Value) : Exec RuntimeFault Value :=
  if t.isValueType then detach v else pure v

/-- **The arguments from the `i`-th on**, fetched and coerced one after the
other. -/
def coerceArguments (arguments : Option (List Value)) :
    (i : Nat) → List TypeDef → Exec RuntimeFault (List Value)
  | _, [] => pure []
  | i, t :: ts => do
    let v ← ofExcept (fetchArgument arguments i)
    let v ← castValue v t
    let vs ← coerceArguments arguments (i + 1) ts
    return v :: vs

/-- **Arguments that do not fit leave everything as it was.** -/
theorem within_coerceArguments (arguments : Option (List Value)) (ts : List TypeDef) (i : Nat) :
    Within Heap.Grows (coerceArguments arguments i ts) := by
  induction ts generalizing i with
  | nil => exact .pure Heap.Grows.refl []
  | cons t ts ih =>
    refine grows_bind (.ofExcept Heap.Grows.refl _) fun v => ?_
    refine grows_bind (within_castValue v t) fun w => ?_
    exact grows_bind (ih (i + 1)) fun vs => .pure Heap.Grows.refl _

/-- As many arguments come out as there are types. -/
theorem length_of_coerceArguments {arguments : Option (List Value)} {ts : List TypeDef} {i : Nat}
    {h h' : Heap} {vs : List Value}
    (hrun : (coerceArguments arguments i ts).run h = some (.ok vs, h')) :
    vs.length = ts.length := by
  induction ts generalizing i h vs with
  | nil =>
    cases hrun
    rfl
  | cons t ts ih =>
    obtain ⟨v, h₁, -, hrun⟩ := run_bind_eq_ok.1 hrun
    obtain ⟨w, h₂, -, hrun⟩ := run_bind_eq_ok.1 hrun
    obtain ⟨ws, h₃, hrest, hrun⟩ := run_bind_eq_ok.1 hrun
    cases hrun
    simp [ih hrest]

end Exec

/-! ## Instructions -/

namespace Op

/-- The receiver on the stack, cast to each of the types. -/
def receiverCasts (ts : List TypeDef) : List Op := .loadReceiver :: ts.flatMap receiverCheck

/-- The input in the first local, coerced to each of the types. -/
def inputCasts (ts : List TypeDef) : List Op :=
  .loadInput :: ts.map .castValue ++ [.storeLocal 0]

/-- The arguments from the `i`-th on, on the stack in order. -/
def argumentCasts : (i : Nat) → List TypeDef → List Op
  | _, [] => []
  | i, t :: ts => .loadArgument i :: .castValue t :: argumentCasts (i + 1) ts

theorem straight_receiverCheck (t : TypeDef) : ∀ op ∈ receiverCheck t, op.IsStraight := by
  unfold receiverCheck
  split <;> simp [IsStraight, target?]

theorem straight_boxIfNeeded (t : TypeDef) : ∀ op ∈ boxIfNeeded t, op.IsStraight := by
  unfold boxIfNeeded
  split <;> simp [IsStraight, target?]

theorem straight_callOf (m : Method) : (callOf m).IsStraight := by
  unfold callOf
  split <;> rfl

/-- However a method is called, it takes and leaves the same. -/
theorem effect_callOf (m : Method) : (callOf m).effect = (callPops m, callPushes m) := by
  unfold callOf
  split <;> rfl

theorem straight_receiverCasts (ts : List TypeDef) : ∀ op ∈ receiverCasts ts, op.IsStraight := by
  intro op hop
  rcases List.mem_cons.1 hop with rfl | hop
  · rfl
  · obtain ⟨t, -, ht⟩ := List.mem_flatMap.1 hop
    exact straight_receiverCheck t op ht

theorem straight_inputCasts (ts : List TypeDef) : ∀ op ∈ inputCasts ts, op.IsStraight := by
  intro op hop
  simp only [inputCasts, List.cons_append, List.mem_cons, List.mem_append, List.mem_map,
    List.not_mem_nil, or_false] at hop
  rcases hop with rfl | ⟨t, -, rfl⟩ | rfl <;> rfl

theorem straight_argumentCasts (ts : List TypeDef) (i : Nat) :
    ∀ op ∈ argumentCasts i ts, op.IsStraight := by
  induction ts generalizing i with
  | nil => simp [argumentCasts]
  | cons t ts ih =>
    intro op hop
    simp only [argumentCasts, List.mem_cons] at hop
    rcases hop with rfl | rfl | hop
    · rfl
    · rfl
    · exact ih (i + 1) op hop

/-! The height of the stack behind each part. -/

theorem heightAfter_receiverChecks (ts : List TypeDef) (d : Nat) :
    heightAfter (ts.flatMap receiverCheck) (d + 1) = some (d + 1) := by
  induction ts with
  | nil => rfl
  | cons t ts ih =>
    rw [List.flatMap_cons, heightAfter_append, receiverCheck]
    split
    · exact ih
    · exact ih

theorem heightAfter_receiverCasts (ts : List TypeDef) (d : Nat) :
    heightAfter (receiverCasts ts) d = some (d + 1) :=
  heightAfter_receiverChecks ts d

theorem heightAfter_castValues (ts : List TypeDef) (d : Nat) :
    heightAfter (ts.map .castValue) (d + 1) = some (d + 1) := by
  induction ts with
  | nil => rfl
  | cons t ts ih => exact ih

theorem heightAfter_inputCasts (ts : List TypeDef) (d : Nat) :
    heightAfter (inputCasts ts) d = some d := by
  have hcasts := heightAfter_castValues ts d
  show heightAfter (ts.map .castValue ++ [.storeLocal 0]) (d + 1) = some d
  rw [heightAfter_append, hcasts]
  rfl

theorem heightAfter_argumentCasts (ts : List TypeDef) (i d : Nat) :
    heightAfter (argumentCasts i ts) d = some (d + ts.length) := by
  induction ts generalizing i d with
  | nil => rfl
  | cons t ts ih =>
    show heightAfter (argumentCasts (i + 1) ts) (d + 1) = _
    rw [ih, List.length_cons]
    congr 1
    omega

theorem heightAfter_boxIfNeeded (t : TypeDef) (d : Nat) :
    heightAfter (boxIfNeeded t) (d + 1) = some (d + 1) := by
  unfold boxIfNeeded
  split <;> rfl

end Op

/-! ## What the parts are compiled to -/

namespace Registry

variable {r : Registry} {param : String} {ops : List Op}

theorem require_eq_ok {h : TypeHandle} {t : TypeDef} :
    r.require h param = .ok t ↔ r.find? h = some t := by
  unfold require
  cases r.find? h <;> simp

/-- **The types a receiver is seen as**: the owner of a view, unless it is the
declaring type itself, and then the declaring type. -/
def receiverTypes (r : Registry) (declaring : TypeHandle) (owner : Option TypeHandle) :
    Option (List TypeDef) :=
  ((owner.filter (· != declaring)).toList ++ [declaring]).mapM r.find?

/-- **The types an input is seen as**: the value type of a view, unless it is
the member's own type, and then the member's type. -/
def inputTypes (r : Registry) (member : TypeDef) (value : Option TypeHandle) :
    Option (List TypeDef) :=
  ((value.filter (· != member.handle)).toList.mapM r.find?).map (· ++ [member])

theorem receiverOps_eq_ok {declaring : TypeHandle} {owner : Option TypeHandle} :
    r.receiverOps declaring owner param = .ok ops ↔
      ∃ ts, r.receiverTypes declaring owner = some ts ∧ ops = Op.receiverCasts ts := by
  unfold receiverOps receiverTypes
  cases owner.filter (· != declaring) with
  | none =>
    simp only [receiverCheck, require, Option.toList_none, List.nil_append]
    cases hd : r.find? declaring <;>
      simp [hd, Op.receiverCasts, bind, Except.bind, pure, Except.pure, eq_comm]
  | some o =>
    simp only [receiverCheck, require, Option.toList_some, List.cons_append, List.nil_append]
    cases ho : r.find? o <;> cases hd : r.find? declaring <;>
      simp [ho, hd, Op.receiverCasts, bind, Except.bind, pure, Except.pure, eq_comm]

theorem inputOps_eq_ok {member : TypeDef} {value : Option TypeHandle} :
    r.inputOps member value param = .ok ops ↔
      ∃ ts, r.inputTypes member value = some ts ∧ ops = Op.inputCasts ts := by
  unfold inputOps inputTypes
  cases value.filter (· != member.handle) with
  | none =>
    simp [Op.inputCasts, bind, Except.bind, pure, Except.pure, eq_comm]
  | some v =>
    simp only [require, Option.toList_some]
    cases hv : r.find? v <;>
      simp [hv, Op.inputCasts, bind, Except.bind, pure, Except.pure, eq_comm]

theorem argumentsFrom_eq_ok {i : Nat} {hs : List TypeHandle} :
    r.argumentsFrom param i hs = .ok ops ↔
      ∃ ts, hs.mapM r.find? = some ts ∧ ops = Op.argumentCasts i ts := by
  induction hs generalizing i ops with
  | nil => simp [argumentsFrom, Op.argumentCasts, eq_comm]
  | cons h hs ih =>
    simp only [argumentsFrom, argumentOps, require, List.mapM_cons]
    cases hh : r.find? h with
    | none => simp [bind, Except.bind]
    | some t =>
      cases hrest : r.argumentsFrom param (i + 1) hs with
      | error e =>
        have hnone : ¬ ∃ ts, hs.mapM r.find? = some ts := by
          rintro ⟨ts, hts⟩
          have hfound := (ih (i := i + 1)).2 ⟨ts, hts, rfl⟩
          rw [hrest] at hfound
          cases hfound
        simp only [bind, Except.bind, pure, Except.pure]
        cases hts : hs.mapM r.find? with
        | none => simp
        | some ts => exact absurd ⟨ts, hts⟩ hnone
      | ok rest =>
        obtain ⟨ts, hts, rfl⟩ := ih.1 hrest
        simp [hts, Op.argumentCasts, bind, Except.bind, pure, Except.pure, eq_comm]

end Registry

/-! ## Walking through the parts -/

/-- Pushes values in order. -/
def Config.pushAll (c : Config) (vs : List Value) : Config :=
  { c with stack := vs.reverse ++ c.stack }

namespace Code

variable {natives : Natives} {frame : Frame}

/-- Casts of the receiver on top of the stack. -/
theorem walk_receiverChecks (ts : List TypeDef) (v : Value) (c : Config) :
    walk natives frame (ts.flatMap Op.receiverCheck) (c.push v) =
      Exec.mapFault .runtime (Exec.read (·.castReceiver ts v)) >>= fun v =>
        pure (.next (c.push v)) := by
  induction ts generalizing v with
  | nil => rfl
  | cons t ts ih =>
    rw [List.flatMap_cons, walk_append, Op.receiverCheck]
    -- everything passes for `Object`, so no instruction checks for it
    by_cases ht : t.handle = .object
    · simp only [ht, if_true, walk_nil, pure_bind, Progress.andThen_next, ih, Heap.castReceiver]
    · simp only [ht, if_false, walk_cons, step, Config.push, Config.pop, Heap.castReceiver]
      refine Exec.ext_run fun h => ?_
      simp only [Exec.run_bind, Exec.run_mapFault, Exec.run_read]
      cases h.castReference v t with
      | error e => rfl
      | ok w =>
        have hrun := congrArg (Exec.run · h) (ih w)
        simp only [Config.push, Exec.run_bind, Exec.run_mapFault, Exec.run_read] at hrun
        exact hrun

/-- **The receiver, loaded and cast**, is pushed. -/
theorem walk_receiverCasts (ts : List TypeDef) (c : Config) :
    walk natives frame (Op.receiverCasts ts) c =
      Exec.mapFault .runtime (Exec.read (·.castReceiver ts frame.receiver)) >>= fun v =>
        pure (.next (c.push v)) :=
  walk_receiverChecks ts frame.receiver c

/-- Coercions of the value on top of the stack. -/
theorem walk_castValues (ts : List TypeDef) (v : Value) (c : Config) :
    walk natives frame (ts.map .castValue) (c.push v) =
      Exec.mapFault .runtime (Exec.castValues ts v) >>= fun v => pure (.next (c.push v)) := by
  induction ts generalizing v with
  | nil => rfl
  | cons t ts ih =>
    rw [List.map_cons, walk_cons, Exec.castValues, Exec.mapFault_bind, bind_assoc]
    simp only [step, Config.push, Config.pop, continueWith, bind_assoc, pure_bind,
      Progress.andThen_next]
    exact bind_congr fun w => ih w

/-- **The input, loaded and coerced**, is put into the first local. -/
theorem walk_inputCasts (ts : List TypeDef) {c : Config} (hc : 0 < c.locals.length) :
    walk natives frame (Op.inputCasts ts) c =
      Exec.mapFault .runtime (Exec.castValues ts frame.input) >>= fun v =>
        pure (.next { c with locals := c.locals.set 0 v }) := by
  show walk natives frame (ts.map .castValue ++ [.storeLocal 0]) (c.push frame.input) = _
  rw [walk_append, walk_castValues, bind_assoc]
  refine bind_congr fun v => ?_
  simp [walk_cons, step, Config.push, Config.pop, hc, continueWith]

/-- Arguments come off the stack in the order in which they were pushed. -/
theorem popN_pushAll (args : List Value) (c : Config)
    (k : List Value → Config → Exec AccessorError Progress) :
    (c.pushAll args).popN args.length k = k args c := by
  -- the stack has its top in front, so the last argument comes first
  have hlen : args.length ≤ (args.reverse ++ c.stack).length := by simp
  have htake : (args.reverse ++ c.stack).take args.length = args.reverse := by
    rw [← List.length_reverse, List.take_left]
  have hdrop : (args.reverse ++ c.stack).drop args.length = c.stack := by
    rw [← List.length_reverse, List.drop_left]
  simp only [Config.popN, Config.pushAll, hlen, if_true, htake, hdrop, List.reverse_reverse]

/-- **The arguments, loaded and coerced in order**, are pushed in order. -/
theorem walk_argumentCasts (ts : List TypeDef) (i : Nat) (c : Config) :
    walk natives frame (Op.argumentCasts i ts) c =
      Exec.mapFault .runtime (Exec.coerceArguments frame.arguments i ts) >>= fun vs =>
        pure (.next (c.pushAll vs)) := by
  induction ts generalizing i c with
  | nil => rfl
  | cons t ts ih =>
    have hload : step natives default frame c (.loadArgument i) =
        Exec.mapFault .runtime (Exec.ofExcept (fetchArgument frame.arguments i)) >>= fun v =>
          pure (.next (c.push v)) := by
      simp only [step, argumentsOf, fetchArgument, Invocation.argument]
      cases frame.arguments <;> rfl
    rw [Op.argumentCasts, walk_cons, hload, Exec.coerceArguments]
    simp only [Exec.mapFault_bind, bind_assoc, pure_bind, Progress.andThen_next]
    refine bind_congr fun v => ?_
    simp only [walk_cons, step, Config.push, Config.pop, continueWith, bind_assoc, pure_bind,
      Progress.andThen_next]
    refine bind_congr fun w => ?_
    rw [ih]
    refine bind_congr fun vs => ?_
    simp [Config.pushAll]

/-- **The value on top of the stack is handed out** and returned. -/
theorem walk_boxIfNeeded (t : TypeDef) (v : Value) (body : String) :
    walk natives frame (Op.boxIfNeeded t ++ [.ret]) (Config.push {} v) >>= Progress.answer body =
      Exec.mapFault .runtime (Exec.handOut t v) := by
  unfold Op.boxIfNeeded Exec.handOut
  cases t.isValueType with
  | false => rfl
  | true =>
    simp only [if_true, List.cons_append, List.nil_append, walk_cons, step, Config.push,
      Config.pop, bind_assoc, Exec.boxValue]
    exact (bind_congr fun w => rfl).trans (bind_pure _)

end Code

end MemberAccess
