import MemberAccess.Proofs.Code.Walk
/-!
# Code — all that one instruction can do

`Op.effect` says how many values an instruction takes from the stack and
leaves there. `Code.Yields` says what that amounts to when the machine comes to
the instruction: it goes on with what lay below and as many new values, or ends
the run, or stops with a fault. Faults of the code itself are of three kinds
only, each with its reason. `Code.yields_step` is proved once, by a case for
each instruction; what holds along a whole run is read off it.
-/

namespace MemberAccess

/-- The local that an instruction works on. -/
def Op.local? : Op → Option Nat
  | .storeLocal i | .loadLocal i => some i
  | _ => none

/-! ## Outcomes, whatever the heap -/

namespace Exec

variable {ε ε' α β : Type} {P : Except ε α → Prop}

/-- **All that a computation can end in**, on whatever heap it starts. -/
def Ends (P : Except ε α → Prop) (x : Exec ε α) : Prop :=
  ∀ h out h', x.run h = some (out, h') → P out

namespace Ends

theorem pure {a : α} (ha : P (.ok a)) : Ends P (Pure.pure a : Exec ε α) := by
  intro h out h' hrun
  cases hrun
  exact ha

theorem throw {e : ε} (he : P (.error e)) : Ends P (Exec.throw e) := by
  intro h out h' hrun
  cases hrun
  exact he

/-- A sequence ends where its first part faults, or where its second part
ends. -/
theorem bind {Q : Except ε β → Prop} {x : Exec ε α} {f : α → Exec ε β}
    (hx : x.Ends fun out => ∀ e, out = .error e → Q (.error e)) (hf : ∀ a, (f a).Ends Q) :
    (x >>= f).Ends Q := by
  intro h out h' hrun
  rcases run_bind_cases hrun with ⟨e, hfault, rfl⟩ | ⟨a, h₁, -, hrest⟩
  · exact hx h _ h' hfault e rfl
  · exact hf a h₁ out h' hrest

/-- The same where the faults of the first part are renamed. -/
theorem bind_mapFault {Q : Except ε' β → Prop} {g : ε → ε'} {x : Exec ε α} {f : α → Exec ε' β}
    (hg : ∀ e, Q (.error (g e))) (hf : ∀ a, (f a).Ends Q) : (mapFault g x >>= f).Ends Q := by
  refine Ends.bind (fun h out h' hrun e he => ?_) hf
  subst he
  obtain ⟨e₀, -, rfl⟩ := run_mapFault_eq_error.1 hrun
  exact hg e₀

end Ends

end Exec

namespace Code

/-! ## What an instruction yields -/

/-- **What an instruction can lead to** from a configuration that is already
past it. -/
inductive Yields (code : Code) (c : Config) (op : Op) : Except AccessorError Progress → Prop where
  /-- The next instruction follows: new values lie on what was not taken. -/
  | next (pushed locals : List Value) : op.isTerminator = false →
      op.effect.1 ≤ c.stack.length → pushed.length = op.effect.2 →
      locals.length = c.locals.length →
      Yields code c op (.ok (.next
        { pc := c.pc, stack := pushed ++ c.stack.drop op.effect.1, locals := locals }))
  /-- The jump is taken. -/
  | jump (l : Label) (pc : Nat) : op.target? = some l → code.labels[l.id]? = some pc →
      op.effect.1 ≤ c.stack.length →
      Yields code c op (.ok (.next { c with pc := pc, stack := c.stack.drop op.effect.1 }))
  | done (v : Value) : op.isTerminator = true → op.effect.1 ≤ c.stack.length →
      Yields code c op (.ok (.done v))
  /-- A fault that is not one of the code. -/
  | fault (e : AccessorError) : (∀ f, e ≠ .malformed f) → Yields code c op (.error e)
  | operandMissing : c.stack.length < op.effect.1 →
      Yields code c op (.error (.malformed .operandMissing))
  | unknownLabel (l : Label) : op.target? = some l → code.labels[l.id]? = none →
      Yields code c op (.error (.malformed (.unknownLabel l.id)))
  | unknownLocal (i : Nat) : op.local? = some i → c.locals.length ≤ i →
      Yields code c op (.error (.malformed (.unknownLocal i)))

variable {natives : Natives} {code : Code} {frame : Frame} {c : Config} {op : Op}

theorem Yields.runtime (e : RuntimeFault) : Yields code c op (.error (.runtime e)) :=
  .fault _ (by simp)

/-! ### Values taken from the stack -/

section Taking

variable {P : Except AccessorError Progress → Prop}

theorem ends_pop {k : Value → Config → Exec AccessorError Progress}
    (hempty : c.stack = [] → P (.error (.malformed .operandMissing)))
    (hk : ∀ v stack, c.stack = v :: stack → (k v { c with stack := stack }).Ends P) :
    (c.pop k).Ends P := by
  unfold Config.pop
  split
  · rename_i v stack hstack
    exact hk v stack hstack
  · rename_i hstack
    exact .throw (hempty hstack)

theorem ends_popN {n : Nat} {k : List Value → Config → Exec AccessorError Progress}
    (hfew : c.stack.length < n → P (.error (.malformed .operandMissing)))
    (hk : n ≤ c.stack.length → ∀ args, (k args { c with stack := c.stack.drop n }).Ends P) :
    (c.popN n k).Ends P := by
  unfold Config.popN
  split
  · rename_i hle
    exact hk hle _
  · rename_i hlt
    exact .throw (hfew (Nat.not_le.1 hlt))

theorem ends_popObject {k : ObjectRef → Config → Exec AccessorError Progress}
    (hempty : c.stack = [] → P (.error (.malformed .operandMissing)))
    (hfault : ∀ e, P (.error (.runtime e)))
    (hk : ∀ r v stack, c.stack = v :: stack → (k r { c with stack := stack }).Ends P) :
    (c.popObject k).Ends P :=
  ends_pop hempty fun v stack hstack => .bind_mapFault hfault fun r => hk r v stack hstack

theorem ends_popInt32 {k : Int32 → Config → Exec AccessorError Progress}
    (hempty : c.stack = [] → P (.error (.malformed .operandMissing)))
    (hfault : ∀ e, P (.error (.runtime e)))
    (hk : ∀ i v stack, c.stack = v :: stack → (k i { c with stack := stack }).Ends P) :
    (c.popInt32 k).Ends P :=
  ends_pop hempty fun v stack hstack => .bind_mapFault hfault fun i => hk i v stack hstack

end Taking

/-! ### Going on -/

/-- **Behind an instruction that the next one follows**: what it has taken is
gone, and what it leaves lies on the rest. -/
theorem ends_next (taken pushed : List Value) {stack locals : List Value}
    (hstack : c.stack = taken ++ stack) (ht : op.isTerminator = false)
    (he : op.effect = (taken.length, pushed.length))
    (hlocals : locals.length = c.locals.length) :
    (continueWith { c with stack := pushed ++ stack, locals := locals }).Ends
      (Yields code c op) := by
  have hyields := @Yields.next code c op pushed locals ht (by simp [he, hstack]) (by simp [he])
    hlocals
  rw [he, hstack, List.drop_left] at hyields
  exact .pure hyields

/-- The case of one value more. -/
theorem ends_push (v : Value) (ht : op.isTerminator = false) (he : op.effect = (0, 1)) :
    (continueWith (c.push v)).Ends (Yields code c op) :=
  ends_next [] [v] rfl ht he rfl

/-- A jump that is taken. -/
theorem ends_jump {l : Label} (taken : List Value) {stack : List Value}
    (hstack : c.stack = taken ++ stack) (hl : op.target? = some l)
    (he : op.effect.1 = taken.length) :
    (code.jump l { c with stack := stack }).Ends (Yields code c op) := by
  unfold jump
  split
  · rename_i pc hpc
    have hyields := @Yields.jump code c op l pc hl hpc (by simp [he, hstack])
    rw [he, hstack, List.drop_left] at hyields
    exact .pure hyields
  · rename_i hnone
    exact .throw (.unknownLabel l hl hnone)

/-- **A call takes the arguments and the receiver** and leaves what it
returns. -/
theorem ends_call {dispatches : Bool} {m : Method} (ht : op.isTerminator = false)
    (he : op.effect = (Op.callPops m, Op.callPushes m)) :
    (call natives dispatches m c).Ends (Yields code c op) := by
  have hpops : op.effect.1 = Op.callPops m := congrArg Prod.fst he
  -- what follows once the values are taken
  have hfinish : ∀ (x : Exec RuntimeFault Value) (taken stack : List Value),
      c.stack = taken ++ stack → taken.length = Op.callPops m →
      (do
        let v ← Exec.mapFault AccessorError.runtime x
        continueWith (if m.returnsVoid then { c with stack := stack }
          else { c with stack := stack }.push v)).Ends (Yields code c op) := by
    intro x taken stack hstack htaken
    refine .bind_mapFault Yields.runtime fun v => ?_
    split
    · rename_i hvoid
      exact ends_next taken [] hstack ht (by simp [he, htaken, Op.callPushes, hvoid]) rfl
    · rename_i hvoid
      exact ends_next taken [v] hstack ht (by simp [he, htaken, Op.callPushes, hvoid]) rfl
  have hsplit := (List.take_append_drop m.parameters.length c.stack).symm
  unfold call
  refine ends_popN (fun hfew => .operandMissing ?_) fun hargs args => ?_
  · rw [hpops, Op.callPops]
    omega
  have htake : (c.stack.take m.parameters.length).length = m.parameters.length :=
    List.length_take_of_le hargs
  by_cases hstatic : m.isStatic = true
  · simp only [hstatic, if_true]
    exact hfinish _ _ _ hsplit (by simp [htake, Op.callPops, hstatic])
  · simp only [hstatic]
    refine ends_popObject (fun hempty => .operandMissing ?_) Yields.runtime
      fun r v stack hstack => ?_
    · -- the arguments are there, and the receiver below them is not
      have hrest : c.stack.drop m.parameters.length = [] := hempty
      rw [hpops, hsplit, hrest, List.append_nil, htake]
      simp [Op.callPops, hstatic]
    · have hrest : c.stack.drop m.parameters.length = [v] ++ stack := hstack
      refine hfinish _ (c.stack.take m.parameters.length ++ [v]) stack ?_ ?_
      · rw [List.append_assoc, ← hrest]
        exact hsplit
      · simp [htake, Op.callPops, hstatic]

/-- **All that an instruction can do**: what the machine does with it is what
its effect on the stack says, or a fault with its reason. -/
theorem yields_step : (step natives code frame c op).Ends (Yields code c op) := by
  have hmissing : ∀ {n : Nat}, op.effect.1 = n + 1 → c.stack = [] →
      Yields code c op (.error (.malformed .operandMissing)) := by
    intro n hn hempty
    refine .operandMissing ?_
    rw [hempty, hn]
    exact Nat.succ_pos n
  cases op with
  | loadReceiver | loadInput | loadNull | loadInt32 => exact ends_push _ rfl rfl
  | loadArgument i =>
    simp only [step]
    exact .bind_mapFault Yields.runtime fun args =>
      .bind_mapFault Yields.runtime fun v => ends_push v rfl rfl
  | loadArgumentCount =>
    simp only [step]
    exact .bind_mapFault Yields.runtime fun args => ends_push _ rfl rfl
  | storeLocal i =>
    simp only [step]
    refine ends_pop (hmissing rfl) fun v stack hstack => ?_
    split
    · exact ends_next [v] [] hstack rfl rfl (by simp)
    · rename_i hlocal
      exact .throw (.unknownLocal i rfl (Nat.not_lt.1 hlocal))
  | loadLocal i =>
    simp only [step]
    split
    · exact ends_push _ rfl rfl
    · rename_i hnone
      exact .throw (.unknownLocal i rfl (List.getElem?_eq_none_iff.1 hnone))
  | branch l => exact ends_jump [] rfl rfl rfl
  | branchIfNotNull l =>
    simp only [step]
    refine ends_pop (hmissing rfl) fun v stack hstack => ?_
    split
    · exact ends_next [v] [] hstack rfl rfl rfl
    · exact ends_jump [v] hstack rfl rfl
  | branchIfArgumentsPresent l =>
    simp only [step]
    split
    · exact ends_jump [] rfl rfl rfl
    · exact ends_next [] [] rfl rfl rfl rfl
  | branchIfGreaterOrEqual l =>
    simp only [step]
    refine ends_popInt32 (hmissing rfl) Yields.runtime fun b vb rest hrest =>
      ends_popInt32 (fun hempty => .operandMissing ?_) Yields.runtime fun a va stack hstack => ?_
    · -- there is one value, and the comparison takes two
      have hone : rest = [] := hempty
      rw [hrest, hone]
      exact Nat.lt_succ_self 1
    · have htaken : c.stack = [vb, va] ++ stack := hrest.trans (congrArg (vb :: ·) hstack)
      split
      · exact ends_jump [vb, va] htaken rfl rfl
      · exact ends_next [vb, va] [] htaken rfl rfl rfl
  | throwArgumentNull | throwNotEnoughArguments => exact .throw (.fault _ (by simp))
  | castReference | castValue | box =>
    simp only [step]
    exact ends_pop (hmissing rfl) fun v stack hstack =>
      .bind_mapFault Yields.runtime fun w =>
        ends_next [v] [w] hstack rfl rfl rfl
  | loadField slot =>
    simp only [step]
    exact ends_popObject (hmissing rfl) Yields.runtime fun r v stack hstack =>
      .bind_mapFault Yields.runtime fun w =>
        ends_next [v] [w] hstack rfl rfl rfl
  | storeField slot =>
    simp only [step]
    refine ends_pop (hmissing rfl) fun v rest hrest =>
      ends_popObject (fun hempty => .operandMissing ?_) Yields.runtime fun r vr stack hstack => ?_
    · have hone : rest = [] := hempty
      rw [hrest, hone]
      exact Nat.lt_succ_self 1
    · have htaken : c.stack = [v, vr] ++ stack := hrest.trans (congrArg (v :: ·) hstack)
      exact .bind_mapFault Yields.runtime fun _ =>
        ends_next [v, vr] [] htaken rfl rfl rfl
  | loadStaticField cell =>
    simp only [step]
    refine .bind (fun h out h' hrun e he => ?_) fun v => ends_push v rfl rfl
    subst he
    cases hrun
  | storeStaticField cell =>
    simp only [step]
    refine ends_pop (hmissing rfl) fun v stack hstack => .bind (fun h out h' hrun e he => ?_)
      fun _ => ends_next [v] [] hstack rfl rfl rfl
    subst he
    cases hrun
  | call m => exact ends_call rfl rfl
  | callVirtual m => exact ends_call rfl rfl
  | newObject t arity body =>
    simp only [step]
    refine ends_popN (fun hfew => .operandMissing hfew) fun hargs args => ?_
    refine .bind_mapFault Yields.runtime fun r => ?_
    exact .pure (.next [.object r] c.locals rfl hargs rfl rfl)
  | initObject t =>
    simp only [step]
    refine .bind (fun h out h' hrun e he => ?_) fun v => ends_push v rfl rfl
    subst he
    rw [Exec.zeroOf, Exec.run_alloc?] at hrun
    obtain ⟨p, -, hp⟩ := Option.map_eq_some_iff.1 hrun
    cases hp
  | ret =>
    simp only [step]
    refine ends_pop (hmissing rfl) fun v stack hstack => .pure (.done v rfl ?_)
    rw [hstack]
    exact Nat.succ_le_succ (Nat.zero_le _)
  | retVoid => exact .pure (.done .null rfl (Nat.zero_le _))

end Code

end MemberAccess
