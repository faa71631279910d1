import MemberAccess.Proofs.Accessor.Location
import MemberAccess.Proofs.Accessor.Made
import MemberAccess.Proofs.Ownership.Hidden
/-!
# Ownership — what bodies get at

A body works on what it is given and on what that leads to. Natives that do no
more than that are `Discreet`: they leave alone whatever is hidden from what
they are given. With such natives the same holds of every body that makes instances
of known types only, member bodies (`Discreet.callMethod`) and instructions
(`Discreet.step`) alike, and so of every run (`Discreet.run`).
-/

namespace MemberAccess

namespace Heap

variable {h h₁ : Heap} {P : ObjectRef → Prop}

/-- **A call that is given nothing hidden.** -/
structure FreeInvocation (h : Heap) (P : ObjectRef → Prop) (inv : Invocation) : Prop where
  this : ∀ o, inv.this = some o → h.Free P (.object o)
  arguments : ∀ v ∈ inv.arguments, h.Free P v

/-- **A frame with nothing hidden in it.** -/
structure FreeFrame (h : Heap) (P : ObjectRef → Prop) (frame : Frame) : Prop where
  receiver : h.Free P frame.receiver
  input : h.Free P frame.input
  arguments : ∀ vs, frame.arguments = some vs → ∀ v ∈ vs, h.Free P v

/-- **A machine with nothing hidden in it.** -/
structure FreeConfig (h : Heap) (P : ObjectRef → Prop) (c : Config) : Prop where
  stack : ∀ v ∈ c.stack, h.Free P v
  locals : ∀ v ∈ c.locals, h.Free P v

/-- What a step leads to, with nothing hidden in it. -/
def FreeProgress (h : Heap) (P : ObjectRef → Prop) : Progress → Prop
  | .next c => h.FreeConfig P c
  | .done v => h.Free P v

theorem FreeInvocation.keeps {inv : Invocation} (hi : h.FreeInvocation P inv) (hk : h.Keeps h₁) :
    h₁.FreeInvocation P inv where
  this o ho := (hi.this o ho).keeps hk
  arguments v hv := (hi.arguments v hv).keeps hk

theorem FreeFrame.keeps {frame : Frame} (hf : h.FreeFrame P frame) (hk : h.Keeps h₁) :
    h₁.FreeFrame P frame where
  receiver := hf.receiver.keeps hk
  input := hf.input.keeps hk
  arguments vs hvs v hv := (hf.arguments vs hvs v hv).keeps hk

namespace FreeConfig

variable {c : Config} {v : Value}

theorem keeps (hc : h.FreeConfig P c) (hk : h.Keeps h₁) : h₁.FreeConfig P c where
  stack v hv := (hc.stack v hv).keeps hk
  locals v hv := (hc.locals v hv).keeps hk

theorem push (hc : h.FreeConfig P c) (hv : h.Free P v) : h.FreeConfig P (c.push v) where
  stack w hw := by
    rcases List.mem_cons.1 hw with rfl | hw
    · exact hv
    · exact hc.stack w hw
  locals := hc.locals

theorem pop {stack : List Value} (hc : h.FreeConfig P c) (hstack : c.stack = v :: stack) :
    h.Free P v ∧ h.FreeConfig P { c with stack := stack } :=
  ⟨hc.stack v (hstack ▸ List.mem_cons_self),
    fun w hw => hc.stack w (hstack ▸ List.mem_cons_of_mem v hw), hc.locals⟩

end FreeConfig

end Heap

namespace Exec

variable {ε α : Type}

/-- **The regime of a heap that hides boxes**: none of them changes. -/
def Regime.hiding (ts : List TypeDef) (held : List ObjectRef) (P : ObjectRef → Prop) : Regime where
  holds h := h.Hides ts held P
  leads h h' := h.Spares h' P
  refl h := .refl h P
  trans := .trans

/-- **A computation that leaves hidden boxes alone**, whatever it ends in, and
whose results are as described on the heap that it leaves. -/
abbrev Discreet (ts : List TypeDef) (held : List ObjectRef) (P : ObjectRef → Prop) (h : Heap)
    (x : Exec ε α) (R : Heap → α → Prop) : Prop :=
  Upholds (.hiding ts held P) h x R

end Exec

/-- **Natives that get at nothing but what they are given**, some objects that
are held, and instances of some types that they make. Whatever boxes are hidden
from those, they leave them alone. -/
def Natives.Discreet (natives : Natives) (ts : List TypeDef) (held : List ObjectRef) : Prop :=
  ∀ token inv h P, h.Hides ts held P → h.FreeInvocation P inv →
    Exec.Discreet ts held P h (natives token inv) fun h' v => h'.Free P v

namespace Exec.Discreet

open Heap

variable {ε : Type} {ts : List TypeDef} {held : List ObjectRef} {P : ObjectRef → Prop}
  {h : Heap} {v : Value} {t : TypeDef} {o : ObjectRef} {natives : Natives}

/-! ## Values on their way -/

theorem detach (hh : h.Hides ts held P) (hv : h.Free P v) :
    Discreet ts held P h (Exec.detach v : Exec ε Value) fun h' w => h'.Free P w :=
  .alloc? fun _ _ hd => hh.detach hv hd

theorem castValue (hh : h.Hides ts held P) (hv : h.Free P v) :
    Discreet ts held P h (Exec.castValue v t) fun h' w => h'.Free P w := by
  unfold Exec.castValue
  refine .bind_ask ?_
  split
  · split
    · exact detach hh hv
    · exact .pure hh hv
  · exact .read hh nofun

theorem load {i : Nat} (hh : h.Hides ts held P) (ho : h.Free P (.object o)) :
    Discreet ts held P h (Exec.load o i) fun h' v => h'.Free P v :=
  .read hh fun _ hv => hh.free_slot (ho o rfl).2 (List.mem_of_getElem? (load_eq_ok.1 hv))

theorem store {i : Nat} (hh : h.Hides ts held P) (ho : h.Free P (.object o)) (hv : h.Free P v) :
    Discreet ts held P h (Exec.store o i v) fun _ _ => True :=
  .change hh fun _ hrun => hh.store (ho o rfl).2 hv hrun

theorem readCell (hh : h.Hides ts held P) (k : CellRef) :
    Discreet ts held P h (Exec.readCell k : Exec ε Value) fun h' v => h'.Free P v :=
  .ask hh (hh.free_cell k)

theorem writeCell (hh : h.Hides ts held P) (k : CellRef) (hv : h.Free P v) :
    Discreet ts held P h (Exec.writeCell k v : Exec ε Unit) fun _ _ => True := by
  obtain ⟨hh', hspares⟩ := hh.writeCell k hv
  exact .alloc ⟨hh', hspares, trivial⟩

theorem zeroed (hh : h.Hides ts held P) (ht : t ∈ ts) :
    Discreet ts held P h (Exec.zeroed t : Exec ε ObjectRef)
      fun h' o => h'.Free P (.object o) :=
  .alloc? fun _ _ hz => hh.zeroed ht hz

theorem zeroOf (hh : h.Hides ts held P) (ht : t ∈ ts) :
    Discreet ts held P h (Exec.zeroOf t : Exec ε Value) fun h' v => h'.Free P v :=
  .alloc? fun _ _ hz => hh.zeroOf ht hz

/-! ## Bodies of members -/

/-- **A member body**, native or generated. -/
theorem memberBody {body : MemberBody} {inv : Invocation} (hn : natives.Discreet ts held)
    (hh : h.Hides ts held P) (hinv : h.FreeInvocation P inv) :
    Discreet ts held P h (body.run natives inv) fun h' v => h'.Free P v := by
  have hreceiver : ∀ o, inv.receiver = .ok o → h.Free P (.object o) :=
    fun o ho => hinv.this o (Invocation.receiver_eq_ok.1 ho)
  have hargument : ∀ v, inv.argument 0 = .ok v → h.Free P v :=
    fun v hv => hinv.arguments v (List.mem_of_getElem? (Invocation.argument_eq_ok.1 hv))
  cases body with
  | readSlot i => exact .bind_ofExcept hh fun o ho => load hh (hreceiver o ho)
  | writeSlot i =>
    refine .bind_ofExcept hh fun v hv => .bind_ofExcept hh fun o ho => ?_
    exact (store hh (hreceiver o ho) (hargument v hv)).bind fun h₁ _ hh₁ _ _ =>
      .pure hh₁ (free_null h₁ P)
  | readCell k => exact readCell hh k
  | writeCell k =>
    refine .bind_ofExcept hh fun v hv => ?_
    exact (writeCell hh k (hargument v hv)).bind fun h₁ _ hh₁ _ _ => .pure hh₁ (free_null h₁ P)
  | native token => exact hn token inv h P hh hinv

/-- **A call**, dispatched or not. -/
theorem callMethod {dispatches : Bool} {m : Method} {this : Option ObjectRef} {args : List Value}
    (hn : natives.Discreet ts held) (hh : h.Hides ts held P)
    (hinv : h.FreeInvocation P ⟨this, args⟩) :
    Discreet ts held P h (Code.callMethod natives dispatches m this args)
      fun h' v => h'.Free P v := by
  unfold Code.callMethod
  refine .bind_ask ?_
  split
  · exact memberBody hn hh hinv
  · exact .read hh nofun

/-- **A new instance**, zeroed and then initialized. -/
theorem construct {body : Option NativeId} {args : List Value} (hn : natives.Discreet ts held)
    (hh : h.Hides ts held P) (ht : t ∈ ts) (hargs : ∀ v ∈ args, h.Free P v) :
    Discreet ts held P h (Code.construct natives t body args)
      fun h' o => h'.Free P (.object o) := by
  unfold Code.construct
  refine (zeroed hh ht).bind fun h₁ o hh₁ hs₁ ho => ?_
  cases body with
  | none => exact .pure hh₁ ho
  | some token =>
    have hinv : h₁.FreeInvocation P ⟨some o, args⟩ := by
      refine ⟨fun p hp => ?_, fun v hv => (hargs v hv).keeps hs₁.keeps⟩
      cases hp
      exact ho
    exact (hn token _ h₁ P hh₁ hinv).bind fun h₂ _ hh₂ hs₂ _ => .pure hh₂ (ho.keeps hs₂.keeps)

/-! ## Instructions -/

section Machine

variable {c : Config} {code : Code} {frame : Frame}

/-- A value is popped and worked on. -/
theorem pop {k : Value → Config → Exec AccessorError Progress} (hh : h.Hides ts held P)
    (hc : h.FreeConfig P c)
    (hk : ∀ v c', h.Free P v → h.FreeConfig P c' →
      Discreet ts held P h (k v c') fun h' p => h'.FreeProgress P p) :
    Discreet ts held P h (c.pop k) fun h' p => h'.FreeProgress P p := by
  unfold Config.pop
  split
  · rename_i v stack hstack
    obtain ⟨hv, hc'⟩ := hc.pop hstack
    exact hk v _ hv hc'
  · exact .throw hh

theorem popN {n : Nat} {k : List Value → Config → Exec AccessorError Progress}
    (hh : h.Hides ts held P) (hc : h.FreeConfig P c)
    (hk : ∀ vs c', (∀ v ∈ vs, h.Free P v) → h.FreeConfig P c' →
      Discreet ts held P h (k vs c') fun h' p => h'.FreeProgress P p) :
    Discreet ts held P h (c.popN n k) fun h' p => h'.FreeProgress P p := by
  unfold Config.popN
  split
  · refine hk _ _ (fun v hv => hc.stack v ?_) ⟨fun v hv => hc.stack v ?_, hc.locals⟩
    · exact List.mem_of_mem_take (List.mem_reverse.1 hv)
    · exact List.mem_of_mem_drop hv
  · exact .throw hh

theorem popObject {k : ObjectRef → Config → Exec AccessorError Progress} (hh : h.Hides ts held P)
    (hc : h.FreeConfig P c)
    (hk : ∀ o c', h.Free P (.object o) → h.FreeConfig P c' →
      Discreet ts held P h (k o c') fun h' p => h'.FreeProgress P p) :
    Discreet ts held P h (c.popObject k) fun h' p => h'.FreeProgress P p := by
  refine pop hh hc fun v c' hv hc' => .bind_read hh fun o ho => hk o c' ?_ hc'
  cases v with
  | object p =>
    cases ho
    exact hv
  | _ => cases ho

theorem popInt32 {k : Int32 → Config → Exec AccessorError Progress} (hh : h.Hides ts held P)
    (hc : h.FreeConfig P c)
    (hk : ∀ i c', h.FreeConfig P c' →
      Discreet ts held P h (k i c') fun h' p => h'.FreeProgress P p) :
    Discreet ts held P h (c.popInt32 k) fun h' p => h'.FreeProgress P p :=
  pop hh hc fun _ c' _ hc' => .bind_read hh fun i _ => hk i c' hc'

/-- The machine goes on. -/
theorem next (hh : h.Hides ts held P) (hc : h.FreeConfig P c) :
    Discreet ts held P h (Code.continueWith c) fun h' p => h'.FreeProgress P p :=
  .pure hh hc

/-- It goes on with one more value. -/
theorem nextPush (hh : h.Hides ts held P) (hc : h.FreeConfig P c) (hv : h.Free P v) :
    Discreet ts held P h (Code.continueWith (c.push v))
      fun h' p => h'.FreeProgress P p :=
  next hh (hc.push hv)

theorem jump {l : Label} (hh : h.Hides ts held P) (hc : h.FreeConfig P c) :
    Discreet ts held P h (code.jump l c) fun h' p => h'.FreeProgress P p := by
  unfold Code.jump
  split
  · exact next hh ⟨hc.stack, hc.locals⟩
  · exact .throw hh

/-- What follows on a value that has been made. -/
theorem pushResult {g : ε → AccessorError} {x : Exec ε Value} (hc : h.FreeConfig P c)
    (hx : Discreet ts held P h x fun h' v => h'.Free P v) :
    Discreet ts held P h (Exec.mapFault g x >>= fun v => Code.continueWith (c.push v))
      fun h' p => h'.FreeProgress P p :=
  hx.mapFault.bind fun _ _ hh₁ hs hv => nextPush hh₁ (hc.keeps hs.keeps) hv

/-- **The call of a method.** -/
theorem call {dispatches : Bool} {m : Method} (hn : natives.Discreet ts held)
    (hh : h.Hides ts held P) (hc : h.FreeConfig P c) :
    Discreet ts held P h (Code.call natives dispatches m c)
      fun h' p => h'.FreeProgress P p := by
  have hfinish : ∀ this args c', h.FreeInvocation P ⟨this, args⟩ → h.FreeConfig P c' →
      Discreet ts held P h
        (Exec.mapFault AccessorError.runtime (Code.callMethod natives dispatches m this args) >>=
          fun v => Code.continueWith (if m.returnsVoid then c' else c'.push v))
        fun h' p => h'.FreeProgress P p := by
    intro this args c' hinv hc'
    refine (callMethod hn hh hinv).mapFault.bind fun h₁ v hh₁ hs hv => ?_
    split
    · exact next hh₁ (hc'.keeps hs.keeps)
    · exact nextPush hh₁ (hc'.keeps hs.keeps) hv
  unfold Code.call
  refine popN hh hc fun args c' hargs hc' => ?_
  split
  · exact hfinish none args c' ⟨nofun, hargs⟩ hc'
  · refine popObject hh hc' fun o c'' ho hc'' => hfinish (some o) args c'' ⟨?_, hargs⟩ hc''
    rintro p ⟨⟩
    exact ho

/-- **One instruction** gets at nothing hidden. -/
theorem step {op : Op} (hn : natives.Discreet ts held) (hh : h.Hides ts held P)
    (hframe : h.FreeFrame P frame) (hc : h.FreeConfig P c)
    (hmade : ∀ t, op.made? = some t → t ∈ ts) :
    Discreet ts held P h (code.step natives frame c op)
      fun h' p => h'.FreeProgress P p := by
  have harguments : ∀ vs, Code.argumentsOf frame = .ok vs → ∀ v ∈ vs, h.Free P v := by
    intro vs hvs
    unfold Code.argumentsOf at hvs
    split at hvs
    · rename_i args hargs
      cases hvs
      exact hframe.arguments _ hargs
    · cases hvs
  cases op with
  | loadReceiver => exact nextPush hh hc hframe.receiver
  | loadInput => exact nextPush hh hc hframe.input
  | loadArgument i =>
    simp only [Code.step]
    exact .bind_read hh fun args hargs => .bind_read hh fun v hv =>
      have hmem := List.mem_of_getElem? (Invocation.argument_eq_ok.1 hv)
      nextPush hh hc (harguments args hargs v hmem)
  | loadArgumentCount =>
    simp only [Code.step]
    exact .bind_read hh fun args _ => nextPush hh hc (free_int32 h P _)
  | loadNull => exact nextPush hh hc (free_null h P)
  | loadInt32 i => exact nextPush hh hc (free_int32 h P _)
  | storeLocal i =>
    simp only [Code.step]
    refine pop hh hc fun v c' hv hc' => ?_
    split
    · refine next hh ⟨hc'.stack, fun w hw => ?_⟩
      rcases List.mem_or_eq_of_mem_set hw with hw | rfl
      · exact hc'.locals w hw
      · exact hv
    · exact .throw hh
  | loadLocal i =>
    simp only [Code.step]
    split
    · rename_i v hv
      exact nextPush hh hc (hc.locals v (List.mem_of_getElem? hv))
    · exact .throw hh
  | branch l => exact jump hh hc
  | branchIfNotNull l =>
    simp only [Code.step]
    refine pop hh hc fun v c' _ hc' => ?_
    split
    · exact next hh hc'
    · exact jump hh hc'
  | branchIfArgumentsPresent l =>
    simp only [Code.step]
    split
    · exact jump hh hc
    · exact next hh hc
  | branchIfGreaterOrEqual l =>
    simp only [Code.step]
    refine popInt32 hh hc fun b c' hc' => popInt32 hh hc' fun a c'' hc'' => ?_
    split
    · exact jump hh hc''
    · exact next hh hc''
  | throwArgumentNull | throwNotEnoughArguments => exact .throw hh
  | castReference t =>
    simp only [Code.step]
    refine pop hh hc fun v c' hv hc' => .bind_read hh fun w hw => nextPush hh hc' ?_
    obtain ⟨rfl, -⟩ := castReference_eq_ok hw
    exact hv
  | castValue t =>
    simp only [Code.step]
    exact pop hh hc fun v c' hv hc' => pushResult hc' (castValue hh hv)
  | box t =>
    simp only [Code.step]
    exact pop hh hc fun v c' hv hc' => pushResult hc' (detach hh hv)
  | loadField i =>
    simp only [Code.step]
    exact popObject hh hc fun o c' ho hc' => pushResult hc' (load hh ho)
  | storeField i =>
    simp only [Code.step]
    refine pop hh hc fun v c' hv hc' => popObject hh hc' fun o c'' ho hc'' => ?_
    exact (store hh ho hv).mapFault.bind fun h₁ _ hh₁ hs _ => next hh₁ (hc''.keeps hs.keeps)
  | loadStaticField k =>
    simp only [Code.step]
    exact (readCell hh k).bind fun h₁ v hh₁ hs hv => nextPush hh₁ (hc.keeps hs.keeps) hv
  | storeStaticField k =>
    simp only [Code.step]
    exact pop hh hc fun v c' hv hc' =>
      (writeCell hh k hv).bind fun h₁ _ hh₁ hs _ => next hh₁ (hc'.keeps hs.keeps)
  | call m => exact call hn hh hc
  | callVirtual m => exact call hn hh hc
  | newObject t arity body =>
    simp only [Code.step]
    refine popN hh hc fun args c' hargs hc' => ?_
    exact (construct hn hh (hmade t rfl) hargs).mapFault.bind fun h₁ o hh₁ hs ho =>
      nextPush hh₁ (hc'.keeps hs.keeps) ho
  | initObject t =>
    simp only [Code.step]
    exact (zeroOf hh (hmade t rfl)).bind fun h₁ v hh₁ hs hv =>
      nextPush hh₁ (hc.keeps hs.keeps) hv
  | ret =>
    simp only [Code.step]
    exact pop hh hc fun v c' hv _ => .pure hh hv
  | retVoid => exact .pure hh (free_null h P)

/-- **No run gets at what is hidden.** -/
theorem runFrom {bound : Nat} (hn : natives.Discreet ts held) (hmade : code.made ⊆ ts)
    (hh : h.Hides ts held P) (hframe : h.FreeFrame P frame) (hc : h.FreeConfig P c) :
    Discreet ts held P h (code.runFrom natives frame bound c)
      fun h' v => h'.Free P v := by
  induction bound generalizing h c with
  | zero =>
    unfold Code.runFrom
    split
    · exact .throw hh
    · intro out h' hrun
      cases hrun
  | succ bound ih =>
    unfold Code.runFrom
    split
    · exact .throw hh
    · rename_i op hop
      have hc₀ : h.FreeConfig P { c with pc := c.pc + 1 } := ⟨hc.stack, hc.locals⟩
      have hts : ∀ t, op.made? = some t → t ∈ ts :=
        fun t ht => hmade (List.mem_filterMap.2 ⟨op, List.mem_of_getElem? hop, ht⟩)
      refine (step hn hh hframe hc₀ hts).bind fun h₁ p hh₁ hs hp => ?_
      cases p with
      | next c' => exact ih hh₁ (hframe.keeps hs.keeps) hp
      | done v => exact .pure hh₁ hp

theorem run {bound : Nat} (hn : natives.Discreet ts held) (hmade : code.made ⊆ ts)
    (hh : h.Hides ts held P) (hframe : h.FreeFrame P frame) :
    Discreet ts held P h (code.run natives bound frame) fun h' v => h'.Free P v := by
  refine runFrom hn hmade hh hframe ⟨nofun, fun v hv => ?_⟩
  rw [(List.mem_replicate.1 hv).2]
  exact free_null h P

end Machine

end Exec.Discreet

end MemberAccess
