import MemberAccess.Proofs.Ownership.Bodies
import MemberAccess.Proofs.Ownership.Reserved
import MemberAccess.Proofs.Ownership.Runs
import MemberAccess.Proofs.Ownership.Scripts
/-!
# Ownership — the defaults of a type last

What an instance starts with is fixed when its type is defined. Whoever has
objects of the catalog may do with them as it likes: make more, copy them, read
and write any slot of theirs, raw or by compiled accessors and bodies written by
hand, read and write static cells, and define further types with them as
initial values (`World.Act`). None of this leads to the defaults themselves
(`Reserves.act`). So an instance that is zeroed after any number of such acts
holds clones of the defaults as they were when its type was there first
(`World.zeroed_of_acts`).

The only way to the defaults is to ask a type for them, which no act does.
-/

namespace MemberAccess

namespace World

/-! ## Acts -/

/-- Whether a caller has everything that a frame passes. -/
structure HoldsFrame (w : World) (frame : Frame) : Prop where
  receiver : w.Holds frame.receiver
  input : w.Holds frame.input
  arguments : ∀ vs, frame.arguments = some vs → ∀ v ∈ vs, w.Holds v

/-- **Whether objects may be held afterwards**: they were held before, or are
the answer, or new. -/
def Gets (w : World) (h : Heap) (answer : Option Value) (held : List ObjectRef) : Prop :=
  ∀ o ∈ held, o ∈ w.held ∨ answer = some (.object o) ∨ ¬ w.heap.Has o ∧ h.Has o

/-- The answer joins what is held. -/
theorem gets_cons {o : ObjectRef} (w : World) (h : Heap) :
    w.Gets h (some (.object o)) (o :: w.held) := by
  intro p hp
  rcases List.mem_cons.1 hp with rfl | hp
  · exact .inr (.inl rfl)
  · exact .inl hp

/-- **One act of those who hold objects.** Natives may keep what they get at. -/
inductive Act : World → World → Prop
  | define {w : World} {d : TypeDefinition} {ids : Supply} {o : Defined} {h : Heap}
      (hids : w.supply.next ≤ ids.next)
      (hinitial : ∀ f ∈ d.storedFields, ∀ v, f.initial = some v → w.Holds v)
      (hrun : (w.catalog.define d ids).run w.heap = some (.ok o, h)) :
      Act w { w with catalog := o.catalog, supply := o.supply, heap := h }
  | reject {w : World} {d : TypeDefinition} {ids : Supply} {e : DefinitionError} {h : Heap}
      (hinitial : ∀ f ∈ d.storedFields, ∀ v, f.initial = some v → w.Holds v)
      (hrun : (w.catalog.define d ids).run w.heap = some (.error e, h)) :
      Act w { w with heap := h }
  /-- A zeroed instance, made by hand. -/
  | make {w : World} {t : TypeDef} {o : ObjectRef} {h : Heap} {held : List ObjectRef}
      (ht : t ∈ w.catalog.types) (hrun : w.heap.zeroed? t = some (o, h))
      (hgets : w.Gets h (some (.object o)) held) : Act w { w with heap := h, held := held }
  /-- A detached copy of a value. -/
  | copy {w : World} {v v' : Value} {h : Heap} {held : List ObjectRef} (hv : w.Holds v)
      (hrun : w.heap.detach? v = some (v', h)) (hgets : w.Gets h (some v') held) :
      Act w { w with heap := h, held := held }
  /-- A call of an accessor of any shape, compiled over the types so far. -/
  | call {w : World} {r : Reflector} {q : Request} {a : Accessor} {natives : Natives}
      {frame : Frame} {out : Except AccessorError Value} {h : Heap} {held : List ObjectRef}
      (hr : r.registry.types ⊆ w.catalog.types)
      (hq : ∀ t, q = .typeFactory (some t) → t ∈ r.registry.types) (ha : r.Compiles q a)
      (hnatives : natives.Discreet w.catalog.types w.held) (hframe : w.HoldsFrame frame)
      (hrun : (a.call natives frame).run w.heap = some (out, h))
      (hgets : w.Gets h out.toOption held) : Act w { w with heap := h, held := held }
  /-- A run of a body that somebody has written, over the types so far. -/
  | run {w : World} {code : Code} {natives : Natives} {bound : Nat} {frame : Frame}
      {out : Except AccessorError Value} {h : Heap} {held : List ObjectRef}
      (hmade : code.made ⊆ w.catalog.types)
      (hnatives : natives.Discreet w.catalog.types w.held) (hframe : w.HoldsFrame frame)
      (hrun : (code.run natives bound frame).run w.heap = some (out, h))
      (hgets : w.Gets h out.toOption held) : Act w { w with heap := h, held := held }
  /-- A raw write, to a box or a class instance. -/
  | store {w : World} {o : ObjectRef} {i : Nat} {v : Value} {h : Heap} (ho : o ∈ w.held)
      (hv : w.Holds v) (hrun : w.heap.store o i v = .ok h) : Act w { w with heap := h }
  /-- A raw read. -/
  | load {w : World} {o : ObjectRef} {i : Nat} {v : Value} {held : List ObjectRef} (ho : o ∈ w.held)
      (hrun : w.heap.load o i = .ok v) (hgets : w.Gets w.heap (some v) held) :
      Act w { w with held := held }
  /-- A write to the cell of a static field. -/
  | writeCell {w : World} {v : Value} (k : CellRef) (hv : w.Holds v) :
      Act w { w with heap := w.heap.writeCell k v }
  /-- A read of such a cell. -/
  | readCell {w : World} {held : List ObjectRef} (k : CellRef)
      (hgets : w.Gets w.heap (some (w.heap.readCell k)) held) : Act w { w with held := held }

/-- Any number of acts. -/
abbrev Acts : World → World → Prop := Relation.ReflTransGen Act

variable {w w' : World} {P P' : ObjectRef → Prop} {h : Heap} {v : Value} {held : List ObjectRef}
  {answer : Option Value} {t : TypeDef}

/-- An act only adds to the catalog. -/
theorem Act.extends (ha : Act w w') : w.catalog.types <+: w'.catalog.types := by
  cases ha with
  | define hids hinitial hrun => exact Catalog.extends_of_define hrun
  | _ => exact List.prefix_refl _

theorem Acts.extends (hrun : Acts w w') : w.catalog.types <+: w'.catalog.types := by
  induction hrun with
  | refl => exact List.prefix_refl _
  | tail _ hact ih => exact ih.trans hact.extends

/-! ## What no act breaks -/

/-- **The defaults of the catalog are hidden from those who hold objects.** -/
def Reserves (w : World) (P : ObjectRef → Prop) : Prop :=
  w.heap.Reserves w.catalog.types w.held P

namespace Reserves

/-- What is held is free. -/
theorem free (hr : w.Reserves P) (hv : w.Holds v) : w.heap.Free P v := by
  rintro o rfl
  exact hr.held o (hv o rfl) o rfl

/-- Initial values that are held do not dangle. -/
theorem reaches {d : TypeDefinition} (hr : w.Reserves P)
    (hinitial : ∀ f ∈ d.storedFields, ∀ v, f.initial = some v → w.Holds v) :
    ∀ f ∈ d.storedFields, ∀ v, f.initial = some v → w.heap.Reaches v :=
  fun f hf v hv => (hr.free (hinitial f hf v hv)).reaches

theorem freeFrame {frame : Frame} (hr : w.Reserves P) (hf : w.HoldsFrame frame) :
    w.heap.FreeFrame P frame where
  receiver := hr.free hf.receiver
  input := hr.free hf.input
  arguments vs hvs v hv := hr.free (hf.arguments vs hvs v hv)

/-- **The heap moves on, and somebody gets an answer**: nothing hidden is
given away where the answer is free. -/
theorem gets (hr : w.Reserves P) (hh : h.Hides w.catalog.types w.held P)
    (hs : w.heap.Spares h P) (hanswer : ∀ v, answer = some v → h.Free P v)
    (hgets : w.Gets h answer held) :
    ∃ P', w.heap.Passes h P P' ∧ Reserves { w with heap := h, held := held } P' := by
  have hpasses := Heap.Passes.of_spares hs
  refine ⟨P, hpasses, hr.passes { hh with held := fun o ho => ?_ } hpasses⟩
  rcases hgets o ho with hold | hans | ⟨hnot, hhas⟩
  · exact hh.held o hold
  · exact hanswer _ hans
  · rintro p ⟨⟩
    exact ⟨hhas, fun hP => hnot (hr.hidden.has hP)⟩

/-- The heap moves on, and nobody gets anything. -/
theorem moves (hr : w.Reserves P) (hh : h.Hides w.catalog.types w.held P)
    (hs : w.heap.Spares h P) :
    ∃ P', w.heap.Passes h P P' ∧ Reserves { w with heap := h } P' := by
  have hnone : ∀ v, none = some v → h.Free P v := nofun
  exact hr.gets hh hs hnone fun _ ho => .inl ho

/-- What bodies answer. -/
theorem answered {x : Exec AccessorError Value} {out : Except AccessorError Value}
    (hr : w.Reserves P)
    (hx : Exec.Discreet w.catalog.types w.held P w.heap x fun h' v => h'.Free P v)
    (hrun : x.run w.heap = some (out, h)) (hgets : w.Gets h out.toOption held) :
    ∃ P', w.heap.Passes h P P' ∧ Reserves { w with heap := h, held := held } P' := by
  obtain ⟨hh, hs, hfree⟩ := hx out h hrun
  refine hr.gets hh hs (fun v hv => hfree v ?_) hgets
  cases out with
  | error e => cases hv
  | ok a => exact congrArg Except.ok (Option.some.inj hv)

/-- **No act gets at the defaults**, or changes them. -/
theorem act (hr : w.Reserves P) (ha : Act w w') :
    ∃ P', w.heap.Passes w'.heap P P' ∧ w'.Reserves P' := by
  cases ha with
  | @define d ids o h hids hinitial hrun =>
    obtain ⟨-, hok⟩ := Heap.Reserves.define hr (hr.reaches hinitial) hrun
    exact hok o rfl
  | reject hinitial hrun => exact (Heap.Reserves.define hr (hr.reaches hinitial) hrun).1
  | make ht hrun hgets =>
    obtain ⟨hh, hs, hfree⟩ := hr.zeroed ht hrun
    refine hr.gets hh hs (fun v hv => ?_) hgets
    cases hv
    exact hfree
  | copy hv hrun hgets =>
    obtain ⟨hh, hs, hfree⟩ := hr.detach (hr.free hv) hrun
    refine hr.gets hh hs (fun v hv => ?_) hgets
    cases hv
    exact hfree
  | @call r q a natives frame out h held hregistry hq hcompiles hnatives hframe hrun hgets =>
    have hmade := List.Subset.trans (Reflector.made_subset hq hcompiles) hregistry
    exact hr.answered (.run hnatives hmade hr.toHides (hr.freeFrame hframe)) hrun hgets
  | run hmade hnatives hframe hrun hgets =>
    exact hr.answered (.run hnatives hmade hr.toHides (hr.freeFrame hframe)) hrun hgets
  | store ho hv hrun =>
    obtain ⟨hh, hs⟩ := hr.toHides.store (hr.held _ ho _ rfl).2 (hr.free hv) hrun
    exact hr.moves hh hs
  | @load o i v held ho hrun hgets =>
    refine hr.gets hr.toHides (.refl _ P) (fun u hu => ?_) hgets
    cases hu
    exact hr.free_slot (hr.held o ho o rfl).2 (List.mem_of_getElem? (Heap.load_eq_ok.1 hrun))
  | writeCell k hv =>
    obtain ⟨hh, hs⟩ := hr.toHides.writeCell k (hr.free hv)
    exact hr.moves hh hs
  | readCell k hgets =>
    refine hr.gets hr.toHides (.refl _ P) (fun u hu => ?_) hgets
    cases hu
    exact hr.free_cell k

/-- **Nor does any number of acts.** -/
theorem acts (hr : w.Reserves P) (hrun : Acts w w') :
    ∃ P', w.heap.Passes w'.heap P P' ∧ w'.Reserves P' := by
  induction hrun with
  | refl => exact ⟨P, .refl _ P, hr⟩
  | tail _ hact ih =>
    obtain ⟨P₁, hpasses₁, hr₁⟩ := ih
    obtain ⟨P', hpasses, hr'⟩ := hr₁.act hact
    exact ⟨P', hpasses₁.trans hpasses hr.hidden, hr'⟩

/-- At the start there are no defaults. -/
theorem start (ids : Supply) : (World.start ids).Reserves fun _ => False := by
  have htyped := Heap.Typed.standard ids
  refine ⟨⟨htyped.closed, .empty ⟨[]⟩, htyped.defaults, nofun⟩, fun t ht v hv o ho => ?_⟩
  exact absurd (htyped.defaults t ht v hv o ho) (Nat.not_lt_zero _)

end Reserves

/-- **The defaults of a type last.** Whatever has been done since a type was
there, it is still there, and a zeroed instance of it holds in each slot a
clone of the default as it was then: the same primitive, string or class
reference, or a new box with the same contents. -/
theorem zeroed_of_acts {ids : Supply} (hstart : Acts (start ids) w) (ht : t ∈ w.catalog.types)
    (hrun : Acts w w') :
    t ∈ w'.catalog.types ∧ ∃ o h', w'.heap.zeroed? t = some (o, h') ∧ w'.heap.Creates h' t o ∧
      List.Forall₂ (w.heap.Cloned h') t.defaults (h'.slotsAt o) := by
  obtain ⟨P, -, hr⟩ := (Reserves.start ids).acts hstart
  obtain ⟨P', hpasses, hr'⟩ := hr.acts hrun
  have ht' := hrun.extends.subset ht
  obtain ⟨o, h', hz, hcreates⟩ := hr'.exists_zeroed? ht'
  exact ⟨ht', o, h', hz, hcreates, hr.cloned ht hpasses.spares hcreates.slots⟩

end World

namespace Sample

/-- Points and pens are defined, and nothing else has been done. -/
def outset : World where
  catalog := catalog
  supply := ⟨71⟩
  heap := { objects := #[⟨point, [.int32 0]⟩] }
  held := []

/-- A pen has been made, its own point has been read raw and written to, and
read once more by a compiled getter. -/
def scribbled : World where
  catalog := catalog
  supply := ⟨71⟩
  heap :=
    { objects := #[⟨point, [.int32 0]⟩, ⟨point, [.int32 9]⟩, ⟨pen, [.object ⟨1⟩]⟩,
        ⟨point, [.int32 9]⟩] }
  held := [⟨3⟩, ⟨1⟩, ⟨2⟩]

theorem acts_outset : World.Acts (.start {}) outset := by
  have hpoint := holds_initial (d := pointDefinition) (by simp)
  have hpen := holds_initial (d := penDefinition) (by simp)
  refine .head (.define (Nat.le_refl _) (hpoint _) define_point) ?_
  refine .head (.define (Nat.le_refl _) (hpen _) define_pen) ?_
  exact .refl

theorem acts_scribbled : World.Acts outset scribbled := by
  have hget : Reflector.Compiles ⟨registry, {}⟩ (.fieldGetter (some tip) none) _ := ⟨{}, rfl⟩
  have hframe : ∀ w : World, ⟨2⟩ ∈ w.held → w.HoldsFrame (.getter (.object ⟨2⟩)) := by
    refine fun w hw => ⟨fun o ho => ?_, nofun, nofun⟩
    cases ho
    exact hw
  have hnatives : ∀ held, (Script.natives #[]).Discreet catalog.types held :=
    fun held => Script.discreet_natives (by simp)
  have hpen : pen ∈ outset.catalog.types := by decide
  refine .head (b := made) (.make hpen rfl (World.gets_cons _ _)) ?_
  refine .head (.load (o := ⟨2⟩) (i := 0) (by decide) rfl (World.gets_cons _ _)) ?_
  refine .head (.store (o := ⟨1⟩) (i := 0) (v := .int32 9) (by decide) nofun rfl) ?_
  refine .single (.call (List.Subset.refl _) (fun _ ht => ?_) hget
    (hnatives _) (hframe _ (by decide)) rfl (World.gets_cons _ _))
  cases ht

/-- A pen that is made afterwards has a point like those that were made
before. -/
theorem zeroed_scribbled : World.Acts (.start {}) outset ∧ pen ∈ outset.catalog.types ∧
    World.Acts outset scribbled ∧ pen ∈ scribbled.catalog.types ∧
    ∃ o h', scribbled.heap.zeroed? pen = some (o, h') ∧ scribbled.heap.Creates h' pen o ∧
      List.Forall₂ (outset.heap.Cloned h') pen.defaults (h'.slotsAt o) := by
  have hpen : pen ∈ outset.catalog.types := by decide
  exact ⟨acts_outset, hpen, acts_scribbled, World.zeroed_of_acts acts_outset hpen acts_scribbled⟩

end Sample

end MemberAccess
