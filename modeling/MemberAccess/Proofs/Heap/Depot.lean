import MemberAccess.Proofs.Heap.Furnished
/-!
# Heap — which heaps raw access leads to

A `Depot` is a catalog on its way, with the objects that have been made. Types
are defined, instances are zeroed, values are copied and slots are written, all
by hand; what is given or written has to be something that its place may hold
(`Depot.Step`). Whatever is done, the heap stays fitted (`Depot.Reached.fitted`).

With a judgement that admits anything this says that the layouts of types and
the slots of objects go together: a field that some type declares is found in
its slot in every object of every subtype (`Registry.Built.substitutable`).
-/

namespace MemberAccess

/-- **Types, and the objects made of them.** -/
structure Depot where
  catalog : Catalog
  supply : Supply
  heap : Heap

namespace Depot

/-- The built-in types, and no object. -/
def start (ids : Supply) : Depot where
  catalog := (Catalog.standard ids).1
  supply := (Catalog.standard ids).2
  heap := {}

/-- **One thing done by hand.** Initial values of fields, and what is written to
a slot, may be held there. -/
inductive Step (Q : Judgement) : Depot → Depot → Prop
  | define {s : Depot} {d : TypeDefinition} {ids : Supply} {o : Defined} {h : Heap}
      (hids : s.supply.next ≤ ids.next)
      (hinitial : ∀ f ∈ d.storedFields, ∀ v, f.initial = some v →
        s.heap.Reaches v ∧ Q s.heap f.type v)
      (hrun : (s.catalog.define d ids).run s.heap = some (.ok o, h)) :
      Step Q s { catalog := o.catalog, supply := o.supply, heap := h }
  | reject {s : Depot} {d : TypeDefinition} {ids : Supply} {e : DefinitionError} {h : Heap}
      (hinitial : ∀ f ∈ d.storedFields, ∀ v, f.initial = some v →
        s.heap.Reaches v ∧ Q s.heap f.type v)
      (hrun : (s.catalog.define d ids).run s.heap = some (.error e, h)) :
      Step Q s { s with heap := h }
  /-- A zeroed instance. -/
  | make {s : Depot} {t : TypeDef} {o : ObjectRef} {h : Heap} (ht : t ∈ s.catalog.types)
      (hrun : s.heap.zeroed? t = some (o, h)) : Step Q s { s with heap := h }
  | copy {s : Depot} {v w : Value} {h : Heap} (hv : s.heap.Reaches v)
      (hrun : s.heap.detach? v = some (w, h)) : Step Q s { s with heap := h }
  | store {s : Depot} {o : ObjectRef} {i : Nat} {v : Value} {h : Heap} (hv : s.heap.Reaches v)
      (hheld : ∀ f, (s.heap.typeAt o).layout[i]? = some f → Q s.heap f.type v)
      (hrun : s.heap.store o i v = .ok h) : Step Q s { s with heap := h }

/-- **What can be come to** from the built-in types. -/
def Reached (Q : Judgement) (s : Depot) : Prop :=
  ∃ ids : Supply, TypeHandle.firstUser ≤ ids.next ∧ Relation.ReflTransGen (Step Q) (start ids) s

variable {Q : Judgement} {c : Catalog} {s s' : Depot}

/-- A definition without initial values can always be given. -/
theorem Step.define_zero {d : TypeDefinition} {o : Defined} {h : Heap}
    (hzero : ∀ f ∈ d.storedFields, f.initial = none)
    (hrun : (s.catalog.define d s.supply).run s.heap = some (.ok o, h)) :
    Step Q s { catalog := o.catalog, supply := o.supply, heap := h } := by
  refine .define (Nat.le_refl _) (fun f hf v hv => ?_) hrun
  rw [hzero f hf] at hv
  cases hv

/-! ## The invariant -/

/-- Types are only added. -/
theorem Step.extends (hs : Step Q s s') : s.catalog.types <+: s'.catalog.types := by
  cases hs with
  | define hids hinitial hrun => exact Catalog.extends_of_define hrun
  | _ => exact List.prefix_refl _

/-- And only by definitions. -/
theorem Step.built (hs : Step Q s s') (hb : s.catalog.Built s.supply) :
    s'.catalog.Built s'.supply := by
  cases hs with
  | define hids hinitial hrun => exact .define hb hids hrun
  | _ => exact hb

/-- **What nothing done by hand breaks.** -/
structure Kept (Q : Judgement) (s : Depot) : Prop where
  built : s.catalog.Built s.supply
  fitted : s.heap.Fitted Q s.catalog s.catalog

/-- **One step** keeps what holds. -/
theorem Kept.step (hk : Kept Q s) (hQ : Q.Lasting c) (hs : Step Q s s')
    (hin : s'.catalog.types <+: c.types) : Kept Q s' := by
  have hc := hk.built.wellFormed
  have hin₀ := hs.extends.trans hin
  cases hs with
  | define hids hinitial hrun =>
    obtain ⟨-, -, hok⟩ := hk.fitted.define hc hQ hin₀ hinitial hrun
    exact ⟨.define hk.built hids hrun, hok _ rfl⟩
  | reject hinitial hrun =>
    obtain ⟨-, hfitted, -⟩ := hk.fitted.define hc hQ hin₀ hinitial hrun
    exact ⟨hk.built, hfitted⟩
  | make ht hrun =>
    obtain ⟨hfitted, -⟩ := hk.fitted.zeroed hQ ht ht (hc.defaults _ ht) hrun
    exact ⟨hk.built, hfitted⟩
  | copy hv hrun =>
    obtain ⟨hfitted, -⟩ := hk.fitted.detach hQ hv hrun
    exact ⟨hk.built, hfitted⟩
  | store hv hheld hrun =>
    obtain ⟨hlt, rfl⟩ := Heap.store_eq_ok.1 hrun
    refine ⟨hk.built, hk.fitted.writes hQ (Heap.overwrites_setSlots hlt _) hv ?_⟩
    rintro a ⟨f, hfi, rfl⟩
    exact hheld f hfi

namespace Reached

/-- **Whatever is reached** keeps what holds. -/
theorem kept (hs : Reached Q s) (hQ : Q.Lasting c) (hin : s.catalog.types <+: c.types) :
    Kept Q s := by
  obtain ⟨ids, hids, hrun⟩ := hs
  induction hrun with
  | refl => exact ⟨.standard ids hids, .standard ids⟩
  | tail _ hstep ih => exact (ih (hstep.extends.trans hin)).step hQ hstep hin

theorem built (hs : Reached Q s) : s.catalog.Built s.supply := by
  obtain ⟨ids, hids, hrun⟩ := hs
  induction hrun with
  | refl => exact .standard ids hids
  | tail _ hstep ih => exact hstep.built ih

theorem fitted (hs : Reached Q s) (hQ : Q.Lasting s.catalog) :
    s.heap.Fitted Q s.catalog s.catalog :=
  (hs.kept hQ (List.prefix_refl _)).fitted

end Reached

end Depot

/-! ## Layouts and slots -/

/-- **Every place may hold anything.** -/
def Judgement.anything : Judgement := fun _ _ _ => True

theorem Judgement.lasting_anything (c : Catalog) : Judgement.anything.Lasting c :=
  ⟨fun _ _ _ _ => trivial, fun _ _ => trivial⟩

namespace Registry

variable {r : Registry}

/-- **Subtypes are laid out so that they can stand in for their bases.** In
every type of a built registry a slot holds the field that names it, there is a
default for each slot, the layout of the base comes first, and every instance
field, declared or inherited, has its own slot. And so, whatever instances have
been made or copied by hand and whatever has been stored in them, an object has
every field of every type that it is a kind of in that field's slot, and in
that slot no other field, to load and to store. -/
theorem Built.substitutable (hr : r.Built) :
    (∀ t ∈ r.types,
      (∀ (i : Nat) (f : Field), t.layout[i]? = some f → f.storage = .slot i) ∧
      t.defaults.length = t.layout.length ∧
      (∀ a, t.base = some a → ∃ b, r.find? a = some b ∧ b.layout <+: t.layout) ∧
      ∀ f ∈ t.allFields, ∀ i, f.storage = .slot i → t.layout[i]? = some f) ∧
    ∀ s, Depot.Reached .anything s → s.catalog = r.toCatalog → ∀ o, s.heap.Has o →
      ∀ u ∈ r.types, u.handle ∈ (s.heap.typeAt o).ancestors → ∀ f ∈ u.fields, ∀ i,
        f.storage = .slot i →
        i < (s.heap.slotsAt o).length ∧ (s.heap.typeAt o).layout[i]? = some f ∧
        (∀ g ∈ (s.heap.typeAt o).allFields, g.storage = .slot i → g = f) ∧
        (∃ v, s.heap.load o i = .ok v) ∧ ∀ v, ∃ h, s.heap.store o i v = .ok h := by
  obtain ⟨ids, hb⟩ := hr
  have hc := hb.wellFormed
  have hl := hb.layouts
  constructor
  · intro t ht
    refine ⟨hl.numbered t ht, hc.defaults t ht, fun a ha => ?_, fun f hf i hi => ?_⟩
    · obtain ⟨b, hbase, rfl⟩ := hb.exists_base ht ha
      exact ⟨b, hc.find?_eq hbase, hl.base_prefix t ht b hbase ha⟩
    · exact hl.getElem?_of_slot hc ht hf hi
  · intro s hs hcatalog o ho u hu hancestor f hf i hi
    have hfitted := hs.fitted (Judgement.lasting_anything _)
    have hsound := hfitted.typed.sound
    have htype := hfitted.types o ho
    rw [hcatalog] at hsound htype
    have hdeclaring := (hc.declares u hu f hf).1
    obtain ⟨hlayout, hlt⟩ := hc.slot_lt hsound hu hf hi (hdeclaring ▸ hancestor)
    refine ⟨hlt, hlayout, fun g hg hgi => hl.eq_of_slot hc htype hlayout hg hgi, ?_, fun v => ?_⟩
    · exact ⟨_, Heap.load_eq_ok.2 (List.getElem?_eq_getElem hlt)⟩
    · exact ⟨_, Heap.store_eq_ok.2 ⟨hlt, rfl⟩⟩

end Registry

namespace Sample

/-- A pen has been made, its point has been copied, and the copy has been put
in the place of the point. -/
def mended : Depot where
  catalog := catalog
  supply := ⟨71⟩
  heap :=
    { objects := #[⟨point, [.int32 0]⟩, ⟨point, [.int32 0]⟩, ⟨pen, [.object ⟨3⟩]⟩,
        ⟨point, [.int32 0]⟩] }

theorem reached_mended : Depot.Reached .anything mended := by
  have hpen : pen ∈ catalog.types := by decide
  refine ⟨{}, by decide, ?_⟩
  refine .head (.define_zero (by decide) define_point) ?_
  refine .head (.define_zero (by decide) define_pen) ?_
  refine .head (.make hpen rfl) (.head (.copy (v := .object ⟨1⟩) ?_ rfl) (.single ?_))
  · rintro o ⟨⟩
    exact (by decide : 1 < 3)
  · refine .store (o := ⟨2⟩) (i := 0) (v := .object ⟨3⟩) ?_ (fun _ _ => trivial) rfl
    rintro o ⟨⟩
    exact (by decide : 3 < 4)

/-- Whatever a pen has gone through, it has a place for its point. -/
theorem tip_of_mended : Depot.Reached .anything mended ∧
    (∃ v, mended.heap.load ⟨2⟩ 0 = .ok v) ∧ ∀ v, ∃ h, mended.heap.store ⟨2⟩ 0 v = .ok h := by
  have hhas : mended.heap.Has ⟨2⟩ := (by decide : 2 < 4)
  obtain ⟨-, -, -, hload, hstore⟩ := (Registry.Built.substitutable registry_built).2 mended
    reached_mended rfl ⟨2⟩ hhas pen (by decide) (by decide) tip (by decide) 0 rfl
  exact ⟨reached_mended, hload, hstore⟩

end Sample

end MemberAccess
