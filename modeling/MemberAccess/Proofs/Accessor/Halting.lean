import MemberAccess.Proofs.Accessor.Invoke
import MemberAccess.Proofs.Accessor.Made
import MemberAccess.Proofs.Code.Calls
import MemberAccess.Proofs.Code.Forward
/-!
# Accessor — the bodies of accessors halt

Of the bodies that are compiled only those behind a guard jump, and the labels
of every guard stand behind the jumps to them (`Guard.jumpsForward`). A listing
is assembled by the calls of a builder (`Listing.exists_calls`), so compiled
bodies are among those of which `Reflector.bodies_halt` says that a run executes
each instruction at most once and stops within the length of the body.
-/

namespace MemberAccess

/-! ## Listings as calls of a builder -/

/-- The call that adds a line. -/
def Line.call : Line → BuilderCall
  | .op o => .emit o
  | .mark l => .mark l

namespace Listing

variable {b b' : CodeBuilder} {l : Listing} {name : String} {code : Code}

/-- A line that is added is a call that is made. -/
theorem perform_of_addLine {line : Line} (h : addLine b line = .ok b') :
    b.perform line.call = b' := by
  cases line with
  | op op =>
    have hemit : b.emit op = .ok b' := h
    simp only [Line.call, CodeBuilder.perform, hemit]
  | mark l =>
    simp only [addLine] at h
    simp only [Line.call, CodeBuilder.perform]
    split at h
    · rename_i hmark
      rw [hmark]
      exact Except.ok.inj h
    · cases h

theorem performAll_of_addLines {lines : List Line} (h : lines.foldlM addLine b = .ok b') :
    b.performAll (lines.map Line.call) = b' := by
  induction lines generalizing b with
  | nil => exact Except.ok.inj h
  | cons line lines ih =>
    rw [List.foldlM_cons] at h
    obtain ⟨b₁, hline, hlines⟩ := bind_eq_ok.1 h
    rw [List.map_cons, CodeBuilder.performAll_cons, perform_of_addLine hline]
    exact ih hlines

theorem performAll_defineLabel (n : Nat) (b : CodeBuilder) :
    b.performAll (List.replicate n .defineLabel) =
      { b with labelCount := b.labelCount + n } := by
  induction n generalizing b with
  | zero => rfl
  | succ n ih =>
    rw [List.replicate_succ, CodeBuilder.performAll_cons, ih]
    simp only [CodeBuilder.perform, CodeBuilder.defineLabel, Nat.add_assoc, Nat.add_comm 1 n]

theorem performAll_declareLocal (n : Nat) (b : CodeBuilder) :
    b.performAll (List.replicate n .declareLocal) =
      { b with localCount := b.localCount + n } := by
  induction n generalizing b with
  | zero => rfl
  | succ n ih =>
    rw [List.replicate_succ, CodeBuilder.performAll_cons, ih]
    simp only [CodeBuilder.perform, CodeBuilder.declareLocal, Nat.add_assoc, Nat.add_comm 1 n]

/-- **What a listing is assembled to, a builder finishes** after as many calls:
for the labels, for the locals and for the lines. -/
theorem exists_calls (h : l.assemble name = .ok code) :
    ∃ calls, (CodeBuilder.after name calls).finish = .ok code := by
  obtain ⟨b, hlines, hfinish⟩ := bind_eq_ok.1 h
  refine ⟨List.replicate l.labelCount .defineLabel ++ List.replicate l.localCount .declareLocal ++
    l.lines.map Line.call, ?_⟩
  have hcalls : CodeBuilder.after name (List.replicate l.labelCount .defineLabel ++
      List.replicate l.localCount .declareLocal ++ l.lines.map Line.call) = b := by
    rw [CodeBuilder.after_append, CodeBuilder.after_append]
    have hcounted : (CodeBuilder.after name (List.replicate l.labelCount .defineLabel)).performAll
        (List.replicate l.localCount .declareLocal) =
          { name := name, labelCount := l.labelCount, localCount := l.localCount } := by
      rw [show CodeBuilder.after name (List.replicate l.labelCount .defineLabel) =
        { name := name, labelCount := 0 + l.labelCount } from performAll_defineLabel ..,
        performAll_declareLocal, Nat.zero_add, Nat.zero_add]
    rw [hcounted]
    exact performAll_of_addLines hlines
  rw [hcalls]
  exact hfinish

end Listing

/-! ## Guards jump ahead -/

/-- Whether every jump leads ahead, from one instruction to the next. -/
def Op.leadAhead (labels : List Nat) : Nat → List Op → Bool
  | _, [] => true
  | i, op :: ops =>
    (op.target?.all fun l => (labels[l.id]?).any (i < ·)) && leadAhead labels (i + 1) ops

theorem Op.exists_of_leadAhead {labels : List Nat} {i : Nat} {ops : List Op}
    (h : leadAhead labels i ops = true) {j : Nat} {op : Op} {l : Label} (hop : ops[j]? = some op)
    (hl : op.target? = some l) : ∃ pc, labels[l.id]? = some pc ∧ i + j < pc := by
  induction ops generalizing i j with
  | nil => cases hop
  | cons first ops ih =>
    rw [leadAhead, Bool.and_eq_true] at h
    cases j with
    | zero =>
      obtain rfl : first = op := by simpa using hop
      have hhere := h.1
      rw [hl, Option.all_some] at hhere
      obtain ⟨pc, hpc, hlt⟩ := (Option.any_eq_true _ _).1 hhere
      exact ⟨pc, hpc, of_decide_eq_true hlt⟩
    | succ j =>
      obtain ⟨pc, hpc, hlt⟩ := ih h.2 (by simpa using hop)
      exact ⟨pc, hpc, by omega⟩

/-- **The labels of a guard stand behind the jumps to them**, whatever it
checks. -/
theorem Guard.leadAhead_ops (g : Guard) : Op.leadAhead g.labels 0 g.ops = true := by
  obtain ⟨receiver, n⟩ := g
  cases receiver <;> cases n <;> rfl

/-- **A body behind a guard jumps forward**: past the guard nothing jumps. -/
theorem Code.Guarded.jumpsForward {code : Code} {name : String} {g : Guard} {ops : List Op}
    (h : code.Guarded name g ops) (hs : ∀ op ∈ ops, op.IsStraight) : code.JumpsForward := by
  intro i op l hop hl
  rw [h.ops_eq] at hop
  by_cases hi : i < g.ops.length
  · rw [List.getElem?_append_left hi] at hop
    obtain ⟨pc, hpc, hlt⟩ := Op.exists_of_leadAhead g.leadAhead_ops hop hl
    exact ⟨pc, h.labels_eq ▸ hpc, by omega⟩
  · rw [List.getElem?_append_right (Nat.not_lt.1 hi)] at hop
    have hnone : op.target? = none := hs op (List.mem_of_getElem? hop)
    rw [hnone] at hl
    cases hl

theorem Code.Unguarded.jumpsForward {code : Code} {name : String} {ops : List Op} {locals : Nat}
    (h : code.Unguarded name ops locals) (hs : ∀ op ∈ ops, op.IsStraight) : code.JumpsForward :=
  Code.jumpsForward_of_straight (h.ops_eq ▸ hs)

/-! ## Compiled bodies -/

/-- **A body that a builder has finished.** -/
def Code.IsBuilt (code : Code) : Prop :=
  ∃ name calls, (CodeBuilder.after name calls).finish = .ok code

/-- **What is compiled, if anything, was built.** -/
def Builds (x : Except AccessorError Code) : Prop := ∀ code, x = .ok code → code.IsBuilt

namespace Builds

theorem bind {α : Type} {x : Except AccessorError α} {f : α → Except AccessorError Code}
    (hf : ∀ a, Builds (f a)) : Builds (x >>= f) := by
  intro code h
  obtain ⟨a, -, h⟩ := bind_eq_ok.1 h
  exact hf a code h

theorem compileListing {l : Listing} {name : String} : Builds (compileListing l name) := by
  intro code h
  unfold MemberAccess.compileListing at h
  cases hl : l.assemble name with
  | error e =>
    rw [hl] at h
    cases h
  | ok code' =>
    rw [hl] at h
    cases h
    exact ⟨name, Listing.exists_calls hl⟩

end Builds

namespace Registry

variable {r : Registry} {code : Code} {f : Field} {p : Property} {m : Method} {k : Constructor}
  {t : TypeDef} {owner value : Option TypeHandle} {validate : Bool}

theorem builds_fieldGetter : Builds (r.fieldGetter f owner) := by
  refine .bind fun type => ?_
  cases f.storage with
  | cell c => exact .bind fun _ => .compileListing
  | slot i => exact .bind fun _ => .bind fun _ => .compileListing

theorem builds_fieldSetter : Builds (r.fieldSetter f owner value) := by
  refine .bind fun type => .bind fun input => ?_
  cases f.storage with
  | cell c => exact .bind fun _ => .compileListing
  | slot i => exact .bind fun _ => .bind fun _ => .compileListing

theorem builds_methodInvoker : Builds (r.methodInvoker m validate) := by
  rw [methodInvoker_eq]
  exact .bind fun _ => .bind fun _ => .bind fun _ => .compileListing

theorem jumpsForward_fieldGetter (h : r.fieldGetter f owner = .ok code) : code.JumpsForward := by
  obtain ⟨s, hs⟩ := types_of_fieldGetter h
  obtain ⟨code', hcode, hbody⟩ := fieldGetter_of_types hs
  obtain rfl : code = code' := Except.ok.inj (h.symm.trans hcode)
  exact hbody.jumpsForward Field.balanced_getterOps.straight

theorem jumpsForward_fieldSetter (h : r.fieldSetter f owner value = .ok code) :
    code.JumpsForward := by
  obtain ⟨s, hs⟩ := types_of_fieldSetter h
  obtain ⟨code', hcode, hbody⟩ := fieldSetter_of_types hs
  obtain rfl : code = code' := Except.ok.inj (h.symm.trans hcode)
  exact hbody.jumpsForward Field.balanced_setterOps.straight

theorem jumpsForward_methodInvoker (h : r.methodInvoker m validate = .ok code) :
    code.JumpsForward := by
  obtain ⟨s, hs⟩ := callTypes?_of_methodInvoker h
  obtain ⟨code', hcode, hbody⟩ := methodInvoker_of_callTypes? hs validate
  obtain rfl : code = code' := Except.ok.inj (h.symm.trans hcode)
  exact hbody.jumpsForward CallTypes.straight_ops

theorem jumpsForward_constructorFactory (h : r.constructorFactory k t validate = .ok code) :
    code.JumpsForward := by
  obtain ⟨ts, hts⟩ := types_of_constructorFactory h
  obtain ⟨code', hcode, hbody⟩ := constructorFactory_of_types hts validate
  obtain rfl : code = code' := Except.ok.inj (h.symm.trans hcode)
  exact hbody.jumpsForward Constructor.straight_ops

theorem jumpsForward_defaultFactory (h : r.defaultFactory t = .ok code) : code.JumpsForward := by
  obtain ⟨code', hcode, hbody⟩ := Listing.assemble_straight t.balanced_defaultOps 0
    (r.bodyName t.handle ".ctor" "default")
  obtain rfl : code = code' := Except.ok.inj (h.symm.trans (compileListing_eq_ok hcode))
  exact hbody.jumpsForward t.balanced_defaultOps.straight

/-- **Every compiler builds bodies whose jumps lead ahead.** -/
theorem emits_jumpsForward (r : Registry) :
    r.Emits fun code => code.IsBuilt ∧ code.JumpsForward where
  fieldGetter h := ⟨builds_fieldGetter _ h, jumpsForward_fieldGetter h⟩
  fieldSetter h := ⟨builds_fieldSetter _ h, jumpsForward_fieldSetter h⟩
  propertyGetter h := by
    have hbuilt : Code.IsBuilt _ := Builds.bind (fun _ => .bind fun _ => .compileListing) _ h
    obtain ⟨s, -, hbalanced, hbody⟩ := propertyGetter_eq_ok h
    exact ⟨hbuilt, hbody.jumpsForward hbalanced.straight⟩
  propertySetter h := by
    have hbuilt : Code.IsBuilt _ :=
      Builds.bind (fun _ => .bind fun _ => .bind fun _ => .compileListing) _ h
    obtain ⟨s, -, hbalanced, hbody⟩ := propertySetter_eq_ok h
    exact ⟨hbuilt, hbody.jumpsForward hbalanced.straight⟩
  methodInvoker h := ⟨builds_methodInvoker _ h, jumpsForward_methodInvoker h⟩
  constructorFactory _ h :=
    ⟨Builds.bind (fun _ => .compileListing) _ h, jumpsForward_constructorFactory h⟩

end Registry

/-- **Bodies whose jumps lead ahead halt.** Whatever members' bodies do, a run
comes through ascending positions, so it executes no instruction twice and fewer
than there are before the last one. It stops, and a bound of the number of
instructions is as good as any greater one. If members' bodies have answers, the
run has one, unless it has stopped at a copy that never ends. Whatever is asked of
a reflector, the body that comes of it was built and is such a body. -/
theorem Reflector.bodies_halt :
    (∀ (natives : Natives) (code : Code) (frame : Frame) (h : Heap), code.JumpsForward →
      (∀ ps c h', Code.Trace natives code frame code.start h ps c h' →
        (ps ++ [c.pc]).Pairwise (· < ·) ∧ ps.length ≤ code.ops.length ∧
          (c.pc < code.ops.length → ps.length < code.ops.length)) ∧
      ∃ ps c h', Code.Trace natives code frame code.start h ps c h' ∧
        Code.Stops natives code frame c h' ∧
        (∀ bound, code.ops.length ≤ bound →
          (code.run natives bound frame).run h = (code.runFrom natives frame 1 c).run h') ∧
        (natives.Return → (code.run natives code.ops.length frame).run h ≠ none ∨
          ∃ op, code.ops[c.pc]? = some op ∧ op.CopiesForever h' c)) ∧
    ∀ (r : Reflector) (q : Request) (a : Accessor), r.Compiles q a →
      a.code.IsBuilt ∧ a.code.JumpsForward := by
  refine ⟨fun natives code frame h hf => ⟨fun ps c h' ht => ?_, ?_⟩, fun r q a ha => ?_⟩
  · exact ⟨(hf.ascending ht).1, hf.length_le ht⟩
  · obtain ⟨ps, c, h', ht, hstops, hbound⟩ := hf.exists_stop natives frame code.start h
    refine ⟨ps, c, h', ht, hstops, hbound, fun hn => ?_⟩
    have hanswers := hstops.answers hn
    rwa [Exec.Answers, ← hbound code.ops.length (Nat.le_refl _)] at hanswers
  · refine r.registry.emits_jumpsForward.of_compiles (fun t code _ hcode => ?_) ha
    exact ⟨Builds.compileListing _ hcode, Registry.jumpsForward_defaultFactory hcode⟩

namespace Sample

/-- The invoker of a method with one parameter, behind all checks. -/
def guardedMoveTo : Code where
  name := "Pen.moveTo:invoke"
  ops := [.loadReceiver, .branchIfNotNull ⟨1⟩, .throwArgumentNull "receiver",
    .branchIfArgumentsPresent ⟨2⟩, .throwArgumentNull "arguments", .loadArgumentCount,
    .loadInt32 1, .branchIfGreaterOrEqual ⟨0⟩, .throwNotEnoughArguments "arguments" 1,
    .loadReceiver, .castReference pen, .loadArgument 0, .castValue point, .call moveTo, .loadNull,
    .ret]
  labels := [9, 3, 5]
  localCount := 0
  maxStack := 2

/-- A call without arguments comes past the check of the receiver and stops at
the next one. -/
theorem guardedMoveTo_halts :
    let natives : Natives := fun _ _ => pure .null
    let frame := Frame.invoker (.object ⟨1⟩) none
    let refused : Config := { pc := 4 }
    Reflector.Compiles ⟨registry, {}⟩ (.methodInvoker (some moveTo) (some true))
        ⟨.invoker, none, guardedMoveTo, ⟨0⟩⟩ ∧
      guardedMoveTo.IsBuilt ∧ guardedMoveTo.JumpsForward ∧
      Code.Trace natives guardedMoveTo frame guardedMoveTo.start desk [0, 1, 3] refused desk ∧
      [0, 1, 3, 4].Pairwise (· < ·) ∧ natives.Return ∧
      ∃ ps c h', Code.Trace natives guardedMoveTo frame guardedMoveTo.start desk ps c h' ∧
        Code.Stops natives guardedMoveTo frame c h' ∧
        ((guardedMoveTo.run natives 16 frame).run desk ≠ none ∨
          ∃ op, guardedMoveTo.ops[c.pc]? = some op ∧ op.CopiesForever h' c) := by
  intro natives frame refused
  have ha : Reflector.Compiles ⟨registry, {}⟩ (.methodInvoker (some moveTo) (some true))
      ⟨.invoker, none, guardedMoveTo, ⟨0⟩⟩ := Reflector.compiles_iff.2 ⟨_, rfl, rfl, rfl, rfl⟩
  have hrefused : Code.Trace natives guardedMoveTo frame guardedMoveTo.start desk [0, 1, 3] refused
      desk := .cons rfl rfl (.cons rfl rfl (.cons rfl rfl (.nil ..)))
  have hn : natives.Return := fun _ _ _ => nofun
  obtain ⟨hhalts, hcompiled⟩ := Reflector.bodies_halt
  obtain ⟨hbuilt, hforward⟩ := hcompiled _ _ _ ha
  obtain ⟨htrace, ps, c, h', ht, hstops, -, hanswers⟩ :=
    hhalts natives guardedMoveTo frame desk hforward
  exact ⟨ha, hbuilt, hforward, hrefused, (htrace _ _ _ hrefused).1, hn, ps, c, h', ht, hstops,
    hanswers hn⟩

end Sample

end MemberAccess
