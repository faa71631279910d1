import MemberAccess.Proofs.Ownership.Bodies
import MemberAccess.Script
/-!
# Ownership — what scripts get at

A script gets at the receiver and the arguments of its call, at the constants
that it is written with, and at what those lead to. So natives that are
scripts are discreet as long as somebody holds their constants
(`Script.discreet_natives`).
-/

namespace MemberAccess

namespace Script

mutual

/-- The constants of a script. -/
def constants : Script → List Value
  | constant v => [v]
  | receiver | argument _ | argumentAs _ _ | argumentCount | fault _ => []
  | get e _ | load e _ | detach e | typeName e => e.constants
  | set a _ b | store a _ b | add a b | mul a b | concat a b | equal a b =>
    a.constants ++ b.constants
  | choose c yes no => c.constants ++ yes.constants ++ no.constants
  | sequence parts => constantsAll parts

/-- The constants of a list of scripts. -/
def constantsAll : List Script → List Value
  | [] => []
  | e :: es => e.constants ++ constantsAll es

end

variable {ts : List TypeDef} {held : List ObjectRef} {P : ObjectRef → Prop} {h : Heap}
  {inv : Invocation} {x : Exec RuntimeFault Value}

/-- Whether the objects among some values are held. -/
def AllHeld (held : List ObjectRef) (vs : List Value) : Prop :=
  ∀ v ∈ vs, ∀ o, v = .object o → o ∈ held

theorem allHeld_append {vs ws : List Value} :
    AllHeld held (vs ++ ws) ↔ AllHeld held vs ∧ AllHeld held ws :=
  List.forall_mem_append

/-! ## Values of one kind -/

theorem discreet_object (hx : Exec.Discreet ts held P h x fun h' v => h'.Free P v) :
    Exec.Discreet ts held P h (object x) fun h' o => h'.Free P (.object o) := by
  refine hx.bind fun h₁ v hh₁ _ hv => .read hh₁ fun o ho => ?_
  cases v with
  | object p =>
    cases ho
    exact hv
  | _ => cases ho

theorem discreet_int32 (hx : Exec.Discreet ts held P h x fun h' v => h'.Free P v) :
    Exec.Discreet ts held P h (int32 x) fun _ _ => True :=
  hx.bind fun _ _ hh₁ _ _ => .read hh₁ fun _ _ => trivial

theorem discreet_bool (hx : Exec.Discreet ts held P h x fun h' v => h'.Free P v) :
    Exec.Discreet ts held P h (bool x) fun _ _ => True :=
  hx.bind fun _ _ hh₁ _ _ => .read hh₁ fun _ _ => trivial

theorem discreet_string (hx : Exec.Discreet ts held P h x fun h' v => h'.Free P v) :
    Exec.Discreet ts held P h (string x) fun _ _ => True :=
  hx.bind fun _ _ hh₁ _ _ => .read hh₁ fun _ _ => trivial

/-! ## Fields by name -/

theorem free_of_get? {o : ObjectRef} {name : String} {v : Value} (hh : h.Hides ts held P)
    (ho : h.Free P (.object o)) (hget : h.get? o name = some v) : h.Free P v := by
  obtain ⟨i, -, hv⟩ := Option.bind_eq_some_iff.1 hget
  exact hh.free_slot (ho o rfl).2 (List.mem_of_getElem? hv)

theorem store_of_set? {o : ObjectRef} {name : String} {v : Value} {h' : Heap}
    (hset : h.set? o name v = some h') : ∃ i, h.store o i v = .ok h' := by
  obtain ⟨i, -, hstore⟩ := Option.bind_eq_some_iff.1 hset
  refine ⟨i, ?_⟩
  cases hs : h.store o i v with
  | error e => simp [hs, Except.toOption] at hstore
  | ok h₁ => simpa [hs, Except.toOption] using hstore

/-! ## Scripts -/

mutual

/-- **A script gets at nothing hidden**, by its parts. -/
theorem discreet_eval (s : Script) {h : Heap} (hh : h.Hides ts held P)
    (hinv : h.FreeInvocation P inv) (hs : AllHeld held s.constants) :
    Exec.Discreet ts held P h (s.eval inv) fun h' v => h'.Free P v := by
  cases s with
  | constant v =>
    simp only [eval]
    refine .pure hh fun o ho => ?_
    exact hh.held o (hs v (by simp [constants]) o ho) o rfl
  | receiver =>
    simp only [eval]
    refine .bind_ofExcept hh fun o ho => .pure hh ?_
    exact hinv.this o (Invocation.receiver_eq_ok.1 ho)
  | argument i =>
    simp only [eval]
    refine .ofExcept hh fun v hv => hinv.arguments v ?_
    exact List.mem_of_getElem? (Invocation.argument_eq_ok.1 hv)
  | argumentAs c i =>
    simp only [eval]
    refine .bind_ofExcept hh fun v hv => .read hh fun w hw => ?_
    rw [Heap.convert_eq_ok hw]
    exact hinv.arguments v (List.mem_of_getElem? (Invocation.argument_eq_ok.1 hv))
  | argumentCount =>
    simp only [eval]
    exact .pure hh (Heap.free_int32 _ P _)
  | get e name =>
    simp only [eval]
    refine (discreet_object (discreet_eval e hh hinv hs)).bind fun h₁ o hh₁ _ ho => .bind_ask ?_
    split
    · rename_i v hv
      exact .pure hh₁ (free_of_get? hh₁ ho hv)
    · exact .throw hh₁
  | set e name e' =>
    obtain ⟨hs, hs'⟩ := allHeld_append.1 hs
    simp only [eval]
    refine (discreet_object (discreet_eval e hh hinv hs)).bind fun h₁ o hh₁ hk₁ ho => ?_
    refine (discreet_eval e' hh₁ (hinv.keeps hk₁.keeps) hs').bind fun h₂ v hh₂ hk₂ hv => ?_
    refine .alloc ?_
    cases hset : h₂.set? o name v with
    | none => exact ⟨hh₂, .refl h₂ P, Heap.free_of_not_object nofun⟩
    | some h' =>
      obtain ⟨i, hstore⟩ := store_of_set? hset
      obtain ⟨hh', hk'⟩ := hh₂.store ((ho.keeps hk₂.keeps) o rfl).2 hv hstore
      exact ⟨hh', hk', Heap.free_of_not_object nofun⟩
  | load e i =>
    simp only [eval]
    exact (discreet_object (discreet_eval e hh hinv hs)).bind fun h₁ o hh₁ _ ho =>
      Exec.Discreet.load hh₁ ho
  | store e i e' =>
    obtain ⟨hs, hs'⟩ := allHeld_append.1 hs
    simp only [eval]
    refine (discreet_object (discreet_eval e hh hinv hs)).bind fun h₁ o hh₁ hk₁ ho => ?_
    refine (discreet_eval e' hh₁ (hinv.keeps hk₁.keeps) hs').bind fun h₂ v hh₂ hk₂ hv => ?_
    exact (Exec.Discreet.store hh₂ (ho.keeps hk₂.keeps) hv).bind fun h₃ _ hh₃ _ _ =>
      .pure hh₃ (Heap.free_null h₃ P)
  | add a b =>
    obtain ⟨hs, hs'⟩ := allHeld_append.1 hs
    simp only [eval]
    refine (discreet_int32 (discreet_eval a hh hinv hs)).bind fun h₁ _ hh₁ hk₁ _ => ?_
    refine (discreet_int32 (discreet_eval b hh₁ (hinv.keeps hk₁.keeps) hs')).bind ?_
    exact fun _ _ hh₂ _ _ => .pure hh₂ (Heap.free_int32 _ P _)
  | mul a b =>
    obtain ⟨hs, hs'⟩ := allHeld_append.1 hs
    simp only [eval]
    refine (discreet_int32 (discreet_eval a hh hinv hs)).bind fun h₁ _ hh₁ hk₁ _ => ?_
    refine (discreet_int32 (discreet_eval b hh₁ (hinv.keeps hk₁.keeps) hs')).bind ?_
    exact fun _ _ hh₂ _ _ => .pure hh₂ (Heap.free_int32 _ P _)
  | concat a b =>
    obtain ⟨hs, hs'⟩ := allHeld_append.1 hs
    simp only [eval]
    refine (discreet_string (discreet_eval a hh hinv hs)).bind fun h₁ _ hh₁ hk₁ _ => ?_
    refine (discreet_string (discreet_eval b hh₁ (hinv.keeps hk₁.keeps) hs')).bind ?_
    exact fun _ _ hh₂ _ _ => .pure hh₂ (Heap.free_of_not_object nofun)
  | equal a b =>
    obtain ⟨hs, hs'⟩ := allHeld_append.1 hs
    simp only [eval]
    refine (discreet_eval a hh hinv hs).bind fun h₁ v hh₁ hk₁ _ => ?_
    refine (discreet_eval b hh₁ (hinv.keeps hk₁.keeps) hs').bind fun h₂ w hh₂ _ _ => ?_
    exact (Exec.Upholds.ask? (P := fun _ _ => True) hh₂ fun _ _ => trivial).bind
      fun _ _ hh₃ _ _ => .pure hh₃ (Heap.free_of_not_object nofun)
  | choose c yes no =>
    obtain ⟨hs, hno⟩ := allHeld_append.1 hs
    obtain ⟨hc, hyes⟩ := allHeld_append.1 hs
    simp only [eval]
    refine (discreet_bool (discreet_eval c hh hinv hc)).bind fun h₁ b hh₁ hk₁ _ => ?_
    have hinv₁ := hinv.keeps hk₁.keeps
    split
    · exact discreet_eval yes hh₁ hinv₁ hyes
    · exact discreet_eval no hh₁ hinv₁ hno
  | sequence parts =>
    simp only [eval]
    exact discreet_evalSequence parts hh hinv (Heap.free_null h P) hs
  | detach e =>
    simp only [eval]
    exact (discreet_eval e hh hinv hs).bind fun _ _ hh₁ _ hv => Exec.Discreet.detach hh₁ hv
  | typeName e =>
    simp only [eval]
    refine (discreet_eval e hh hinv hs).bind fun _ _ hh₁ _ _ => .bind_ask ?_
    exact .pure hh₁ (Heap.free_of_not_object nofun)
  | fault f =>
    simp only [eval]
    exact .throw hh

/-- The same for a sequence. -/
theorem discreet_evalSequence (es : List Script) {h : Heap} {last : Value}
    (hh : h.Hides ts held P) (hinv : h.FreeInvocation P inv) (hlast : h.Free P last)
    (hs : AllHeld held (constantsAll es)) :
    Exec.Discreet ts held P h (evalSequence es last inv) fun h' v => h'.Free P v := by
  cases es with
  | nil =>
    simp only [evalSequence]
    exact .pure hh hlast
  | cons e es =>
    obtain ⟨hs, hs'⟩ := allHeld_append.1 hs
    simp only [evalSequence]
    exact (discreet_eval e hh hinv hs).bind fun _ _ hh₁ hk₁ hv =>
      discreet_evalSequence es hh₁ (hinv.keeps hk₁.keeps) hv hs'

end

/-- **Scripts are discreet** where the objects among their constants are
held. -/
theorem discreet_natives {table : Array Script}
    (htable : ∀ s ∈ table, AllHeld held s.constants) : (natives table).Discreet ts held := by
  intro token inv h P hh hinv
  refine discreet_eval _ hh hinv ?_
  rw [Array.getD_eq_getD_getElem?]
  cases hs : table[token.index]? with
  | none => simp [AllHeld, constants]
  | some s => exact htable s (Array.mem_of_getElem? hs)

end Script

end MemberAccess
