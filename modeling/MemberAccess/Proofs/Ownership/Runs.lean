import MemberAccess.Proofs.Ownership.Calls
import MemberAccess.Proofs.Ownership.Defining
/-!
# Ownership — what a caller can do to a struct field

A `World` is a catalog, a heap and the objects that a caller holds. The caller
defines types, creates instances, calls field accessors, typed or not, and
reads and writes the slots of boxes that it holds as it likes. It gets at no
class instance but through accessors. Whatever it does, the struct that a
class instance holds in a struct-typed field stays as it is until a setter of
that field succeeds on that instance (`World.structAt?_eq_of_run`).

A catalog may grow while it is used: a run that first defines and then defines
no more is a run on a registry from its fresh state.
-/

namespace MemberAccess

/-- **What a caller works on**, and the objects that it holds. -/
structure World where
  catalog : Catalog
  supply : Supply
  heap : Heap
  held : List ObjectRef

/-- What a caller can do, as far as fields can tell. -/
inductive Move where
  | define
  | make
  | create
  | get
  /-- A setter has succeeded on a receiver. -/
  | set (f : Field) (receiver : Value)
  /-- A setter has failed. -/
  | refuse
  | store
  | load

namespace World

/-- The built-in types, and nothing else. -/
def start (ids : Supply) : World where
  catalog := (Catalog.standard ids).1
  supply := (Catalog.standard ids).2
  heap := {}
  held := []

/-- Whether a caller has a value to pass: any primitive, and the objects it
holds. -/
def Holds (w : World) (v : Value) : Prop := ∀ o, v = .object o → o ∈ w.held

/-- What an answer leaves: a caller holds the object that it gets. -/
def receive {ε : Type} (w : World) (out : Except ε Value) (h : Heap) : World :=
  { w with
    heap := h
    held := (out.toOption.bind (·.toObject?)).toList ++ w.held }

/-- **One move of a caller.** Accessors are compiled by any reflector over the
types so far; raw access is to the slots of boxes only. -/
inductive Step (natives : Natives) : World → Move → World → Prop
  | define {w : World} {d : TypeDefinition} {ids : Supply} {o : Defined} {h : Heap}
      (hids : w.supply.next ≤ ids.next)
      (hinitial : ∀ f ∈ d.storedFields, ∀ v, f.initial = some v → w.Holds v)
      (hrun : (w.catalog.define d ids).run w.heap = some (.ok o, h)) :
      Step natives w .define { w with catalog := o.catalog, supply := o.supply, heap := h }
  | reject {w : World} {d : TypeDefinition} {ids : Supply} {e : DefinitionError} {h : Heap}
      (hinitial : ∀ f ∈ d.storedFields, ∀ v, f.initial = some v → w.Holds v)
      (hrun : (w.catalog.define d ids).run w.heap = some (.error e, h)) :
      Step natives w .define { w with heap := h }
  /-- A zeroed instance, made by hand. -/
  | make {w : World} {t : TypeDef} {o : ObjectRef} {h : Heap} (ht : t ∈ w.catalog.types)
      (hrun : w.heap.zeroed? t = some (o, h)) :
      Step natives w .make (w.receive (ε := Unit) (.ok (.object o)) h)
  /-- A factory of a constructor without a body, validated or not. -/
  | create {w : World} {r : Reflector} {k : Constructor} {validate : Bool} {a : Accessor}
      {arguments : Option (List Value)} {out : Except AccessorError Value} {h : Heap}
      (hr : r.registry.toCatalog = w.catalog) (hbody : k.body = none)
      (ha : r.Compiles (.constructorFactory (some k) (some validate)) a)
      (harguments : ∀ vs, arguments = some vs → ∀ v ∈ vs, w.Holds v)
      (hrun : (a.create natives arguments).run w.heap = some (out, h)) :
      Step natives w .create (w.receive out h)
  /-- A default factory, where the default constructor has no body. -/
  | createDefault {w : World} {r : Reflector} {t : TypeDef} {a : Accessor}
      {out : Except AccessorError Value} {h : Heap} (hr : r.registry.toCatalog = w.catalog)
      (ht : t ∈ w.catalog.types) (hbody : t.defaultConstructor?.bind (·.body) = none)
      (ha : r.Compiles (.typeFactory (some t)) a)
      (hrun : (a.createDefault natives).run w.heap = some (out, h)) :
      Step natives w .create (w.receive out h)
  /-- A getter, through a view or without one, whose answer may be converted. -/
  | get {w : World} {r : Reflector} {t : TypeDef} {f : Field} {view : Option View} {a : Accessor}
      {receiver : Value} {c : Conversion} {out : Except AccessorError Value} {h : Heap}
      (hr : r.registry.toCatalog = w.catalog) (ht : t ∈ w.catalog.types) (hf : f ∈ t.allFields)
      (ha : r.Compiles (.fieldGetter (some f) view) a) (hreceiver : w.Holds receiver)
      (hrun : (a.getAs natives c receiver).run w.heap = some (out, h)) :
      Step natives w .get (w.receive out h)
  | set {w : World} {r : Reflector} {t : TypeDef} {f : Field} {view : Option View} {a : Accessor}
      {receiver v : Value} {h : Heap} (hr : r.registry.toCatalog = w.catalog)
      (ht : t ∈ w.catalog.types) (hf : f ∈ t.allFields)
      (ha : r.Compiles (.fieldSetter (some f) view) a) (hreceiver : w.Holds receiver)
      (hv : w.Holds v) (hrun : (a.set natives receiver v).run w.heap = some (.ok (), h)) :
      Step natives w (.set f receiver) { w with heap := h }
  | refuse {w : World} {r : Reflector} {t : TypeDef} {f : Field} {view : Option View} {a : Accessor}
      {receiver v : Value} {e : AccessorError} {h : Heap} (hr : r.registry.toCatalog = w.catalog)
      (ht : t ∈ w.catalog.types) (hf : f ∈ t.allFields)
      (ha : r.Compiles (.fieldSetter (some f) view) a) (hreceiver : w.Holds receiver)
      (hv : w.Holds v) (hrun : (a.set natives receiver v).run w.heap = some (.error e, h)) :
      Step natives w .refuse { w with heap := h }
  | store {w : World} {o : ObjectRef} {i : Nat} {v : Value} {h : Heap} (ho : o ∈ w.held)
      (hbox : w.heap.IsBoxAt o) (hv : w.Holds v) (hrun : w.heap.store o i v = .ok h) :
      Step natives w .store { w with heap := h }
  | load {w : World} {o : ObjectRef} {i : Nat} {out : Except RuntimeFault Value} (ho : o ∈ w.held)
      (hbox : w.heap.IsBoxAt o) (hrun : w.heap.load o i = out) :
      Step natives w .load (w.receive out w.heap)

/-- **A run**: moves one after the other. -/
inductive Run (natives : Natives) : World → List Move → World → Prop
  | nil (w : World) : Run natives w [] w
  | cons {w₁ w₂ w₃ : World} {m : Move} {ms : List Move} (hstep : Step natives w₁ m w₂)
      (hrun : Run natives w₂ ms w₃) : Run natives w₁ (m :: ms) w₃

/-! ## The invariant -/

/-- **What no move breaks**: the heap is orderly, and the caller holds nothing
private. The catalog is on its way to the one that private boxes are told
by. -/
structure Apart (c : Catalog) (w : World) (P : ObjectRef → Prop) : Prop where
  built : w.catalog.Built w.supply
  within : w.catalog.types <+: c.types
  orderly : w.heap.Orderly w.catalog c P
  held : ∀ o ∈ w.held, w.heap.Free P (.object o)

/-- **What a move changes**: nothing private, and of class instances only the
field that a setter has succeeded on. -/
def Touches (w : World) (m : Move) (w' : World) (P : ObjectRef → Prop) : Prop :=
  ∃ L : Location → Prop, w.heap.ChangesOnly w'.heap L ∧
    ∀ o i, L (.slot o i) → ¬ P o ∧ (w.heap.IsBoxAt o ∨
      ∃ f, (w.heap.typeAt o).layout[i]? = some f ∧ m = .set f (.object o))

variable {natives : Natives} {c : Catalog} {w w' : World} {m : Move} {ms : List Move}
  {P P' : ObjectRef → Prop} {h : Heap} {v : Value}

theorem touches_of_none (hc : w.heap.ChangesOnly w'.heap fun _ => False) :
    w.Touches m w' P :=
  ⟨fun _ => False, hc, fun _ _ hnot => hnot.elim⟩

/-- A box owns nothing. -/
theorem not_owns {o : ObjectRef} {i : Nat} (hbox : h.IsBoxAt o) : ¬ (h.typeAt o).OwnsAt c i := by
  rintro ⟨hvalue, -⟩
  rw [Heap.IsBoxAt, hvalue] at hbox
  cases hbox

/-- A converted answer is the answer itself, or none. -/
theorem get_of_getAs {a : Accessor} {k : Conversion} {receiver : Value} {h' : Heap}
    {out : Except AccessorError Value}
    (hrun : (a.getAs natives k receiver).run h = some (out, h')) :
    ∃ out₀, (a.get natives receiver).run h = some (out₀, h') ∧ ∀ v, out = .ok v → out₀ = .ok v := by
  rcases Exec.run_bind_cases hrun with ⟨e, hget, rfl⟩ | ⟨v, h₁, hget, hconvert⟩
  · exact ⟨_, hget, nofun⟩
  · obtain ⟨out₀, hread, hout⟩ := Exec.run_mapFault_cases hconvert
    simp only [Exec.run_read, Option.some.injEq, Prod.mk.injEq] at hread
    obtain ⟨hread, rfl⟩ := hread
    refine ⟨_, hget, fun w hw => ?_⟩
    rw [(hout w).1 hw] at hread
    rw [Heap.convert_eq_ok hread]

namespace Apart

theorem free (ha : w.Apart c P) (hv : w.Holds v) : w.heap.Free P v := by
  rintro o rfl
  exact ha.held o (hv o rfl) o rfl

/-- The heap moves on, and the caller gets an answer. -/
theorem receive {ε : Type} {out : Except ε Value} (ha : w.Apart c P)
    (ho : h.Orderly w.catalog c P') (hw : w.heap.Widens P P') (hk : w.heap.Keeps h)
    (hfree : ∀ v, out = .ok v → h.Free P' v) : (w.receive out h).Apart c P' where
  built := ha.built
  within := ha.within
  orderly := ho
  held o hmem := by
    rcases List.mem_append.1 hmem with hmem | hmem
    · cases out with
      | error e => simp [Except.toOption] at hmem
      | ok v =>
        cases v with
        | object p =>
          obtain rfl : o = p := by simpa [Except.toOption, Value.toObject?] using hmem
          exact hfree _ rfl
        | _ => simp [Except.toOption, Value.toObject?] at hmem
    · exact (ha.held o hmem).widen hk hw

/-- The heap moves on. -/
theorem move (ha : w.Apart c P) (ho : h.Orderly w.catalog c P') (hw : w.heap.Widens P P')
    (hk : w.heap.Keeps h) : World.Apart c { w with heap := h } P' where
  built := ha.built
  within := ha.within
  orderly := ho
  held o hmem := (ha.held o hmem).widen hk hw

/-- **An answer** that comes of nothing but new objects. -/
theorem answered {ε : Type} {out : Except ε Value} (ha : w.Apart c P)
    (ho : ∃ P', h.Orderly w.catalog c P' ∧ w.heap.Widens P P' ∧ w.heap.Grows h ∧
      ∀ v, out = .ok v → h.Free P' v) (m : Move) :
    ∃ P', (w.receive out h).Apart c P' ∧ w.heap.Widens P P' ∧ w.Touches m (w.receive out h) P := by
  obtain ⟨P', ho', hwidens, hgrows, hfree⟩ := ho
  exact ⟨P', ha.receive ho' hwidens hgrows.keeps hfree, hwidens,
    touches_of_none (hgrows.changesOnly _)⟩

/-- **A setter**, whether it succeeds or fails. -/
theorem set {r : Reflector} {t : TypeDef} {f : Field} {view : Option View} {a : Accessor}
    {receiver : Value} {out : Except AccessorError Unit} (ha : w.Apart c P)
    (hr : r.registry.toCatalog = w.catalog) (ht : t ∈ w.catalog.types) (hf : f ∈ t.allFields)
    (hcompiles : r.Compiles (.fieldSetter (some f) view) a) (hreceiver : w.Holds receiver)
    (hv : w.Holds v) (hrun : (a.set natives receiver v).run w.heap = some (out, h))
    (hm : out = .ok () → m = .set f receiver) :
    ∃ P', World.Apart c { w with heap := h } P' ∧ w.heap.Widens P P' ∧
      w.Touches m { w with heap := h } P := by
  have hbuilt : r.registry.Built := ⟨w.supply, hr ▸ ha.built⟩
  obtain ⟨s, hs, hset⟩ := Reflector.set_eq_write hcompiles
  have hof := hbuilt.fieldTypes_of (hr ▸ ht) hf hs
  rw [hr] at hof
  rw [hset] at hrun
  obtain ⟨out₀, hwrite, hout⟩ := Exec.run_mapFault_cases hrun
  obtain ⟨P', ho', hwidens, hcases⟩ := ha.orderly.write ha.built.wellFormed ha.within hof
    (ha.free hreceiver) (ha.free hv) hwrite
  rcases hcases with ⟨-, hgrows⟩ | ⟨rfl, l, hl, hchanges, hlayout⟩
  · exact ⟨P', ha.move ho' hwidens hgrows.keeps, hwidens,
      touches_of_none (hgrows.changesOnly _)⟩
  · refine ⟨P', ha.move ho' hwidens hchanges.keeps, hwidens, (· = l), hchanges, ?_⟩
    rintro o i rfl
    obtain ⟨-, rfl⟩ := Field.location?_eq_slot hl
    exact ⟨(ha.free hreceiver o rfl).2, .inr ⟨f, hlayout o i rfl, hm ((hout ()).2 rfl)⟩⟩

/-- **A getter.** -/
theorem get {r : Reflector} {t : TypeDef} {f : Field} {view : Option View} {a : Accessor}
    {receiver : Value} {out : Except AccessorError Value} (ha : w.Apart c P)
    (hr : r.registry.toCatalog = w.catalog) (ht : t ∈ w.catalog.types) (hf : f ∈ t.allFields)
    (hcompiles : r.Compiles (.fieldGetter (some f) view) a) (hreceiver : w.Holds receiver)
    (hrun : (a.get natives receiver).run w.heap = some (out, h)) :
    h.Orderly w.catalog c P ∧ w.heap.Grows h ∧ ∀ v, out = .ok v → h.Free P v := by
  have hbuilt : r.registry.Built := ⟨w.supply, hr ▸ ha.built⟩
  obtain ⟨s, hs, hget⟩ := Reflector.get_eq_read hcompiles
  have hof := hbuilt.fieldTypes_of (hr ▸ ht) hf hs
  rw [hr] at hof
  rw [hget] at hrun
  obtain ⟨out₀, hread, hout⟩ := Exec.run_mapFault_cases hrun
  obtain ⟨ho', hgrows, hfree⟩ := ha.orderly.read ha.built.wellFormed ha.within hof
    (ha.free hreceiver) hread
  exact ⟨ho', hgrows, fun v hv => hfree v ((hout v).1 hv)⟩

/-- **A factory**, whether it creates an instance or not. -/
theorem create {r : Reflector} {k : Constructor} {validate : Bool} {a : Accessor}
    {arguments : Option (List Value)} {out : Except AccessorError Value} (ha : w.Apart c P)
    (hr : r.registry.toCatalog = w.catalog) (hbody : k.body = none)
    (hcompiles : r.Compiles (.constructorFactory (some k) (some validate)) a)
    (harguments : ∀ vs, arguments = some vs → ∀ v ∈ vs, w.Holds v)
    (hrun : (a.create natives arguments).run w.heap = some (out, h)) :
    ∃ P', h.Orderly w.catalog c P' ∧ w.heap.Widens P P' ∧ w.heap.Grows h ∧
      ∀ v, out = .ok v → h.Free P' v := by
  obtain ⟨declaring, ts, hdeclaring, -, hcreate⟩ := Reflector.create_eq_refuse hcompiles
  have hmem : declaring ∈ w.catalog.types := hr ▸ List.mem_of_find?_eq_some hdeclaring
  rw [hcreate] at hrun
  -- a call that the guard refuses does nothing
  cases hverdict : (Registry.factoryGuard k validate).verdict? (.factory arguments) with
  | some e =>
    rw [hverdict] at hrun
    cases hrun
    exact ⟨P, ha.orderly, .refl _ P, .refl _, nofun⟩
  | none =>
    rw [hverdict] at hrun
    obtain ⟨out₀, hnew, hout⟩ := Exec.run_mapFault_cases hrun
    obtain ⟨P', ho', hwidens, hgrows, hfree⟩ := ha.orderly.newInstance ha.built.wellFormed hmem
      hbody (fun vs hvs v hv => ha.free (harguments vs hvs v hv)) hnew
    exact ⟨P', ho', hwidens, hgrows, fun v hv => hfree v ((hout v).1 hv)⟩

/-- **A raw write**: a box that the caller holds is not private. -/
theorem store {o : ObjectRef} {i : Nat} (ha : w.Apart c P) (ho : o ∈ w.held)
    (hbox : w.heap.IsBoxAt o) (hv : w.Holds v) (hrun : w.heap.store o i v = .ok h) :
    World.Apart c { w with heap := h } P ∧ w.heap.Widens P P ∧
      w.Touches m { w with heap := h } P := by
  obtain ⟨hlt, rfl⟩ := Heap.store_eq_ok.1 hrun
  have hw := Heap.overwrites_setSlots hlt v
  have hfree := ha.free hv
  have hnot := (ha.held o ho o rfl).2
  have hsuits : w.heap.Suits P ((w.heap.typeAt o).OwnsAt c i) v :=
    fun p hp => ⟨fun hP => absurd hP (hfree p hp).2, fun howns => absurd howns (not_owns hbox)⟩
  have ho' := ha.orderly.writes hw hfree.reaches ⟨hnot, hsuits⟩
  refine ⟨ha.move ho' (.refl _ P) hw.keeps, .refl _ P, (· = .slot o i), hw.toChangesOnly, ?_⟩
  intro p j hp
  cases hp
  exact ⟨hnot, .inl hbox⟩

/-- **A raw read**: a box owns nothing, so what it holds is free. -/
theorem load {o : ObjectRef} {i : Nat} (ha : w.Apart c P) (ho : o ∈ w.held)
    (hbox : w.heap.IsBoxAt o) (hrun : w.heap.load o i = .ok v) : w.heap.Free P v := by
  have hslot := Heap.load_eq_ok.1 hrun
  have hsuits := ha.orderly.owned.slots o i v (ha.held o ho o rfl).2 hslot
  have hreach := ha.orderly.closed.slots o v (List.mem_of_getElem? hslot)
  exact fun p hp => ⟨hreach p hp, fun hP => not_owns hbox ((hsuits p hp).1 hP)⟩

/-- **Every move keeps private boxes apart**, and touches what it may. -/
theorem step (ha : w.Apart c P) (hs : Step natives w m w')
    (hin : w'.catalog.types <+: c.types) :
    ∃ P', w'.Apart c P' ∧ w.heap.Widens P P' ∧ w.Touches m w' P := by
  have hc := ha.built.wellFormed
  cases hs with
  | @define d ids o h hids hinitial hrun =>
    obtain ⟨P', ho', hwidens, hchanges, hok⟩ := ha.orderly.define hc
      (fun f hf v hv => ha.free (hinitial f hf v hv)) hrun
    obtain ⟨-, ho''⟩ := hok o rfl
    refine ⟨P', ⟨.define ha.built hids hrun, hin, ho'', fun p hp => ?_⟩, hwidens,
      touches_of_none hchanges⟩
    exact (ha.held p hp).widen hchanges.keeps hwidens
  | @reject d ids e h hinitial hrun =>
    obtain ⟨P', ho', hwidens, hchanges, -⟩ := ha.orderly.define hc
      (fun f hf v hv => ha.free (hinitial f hf v hv)) hrun
    exact ⟨P', ha.move ho' hwidens hchanges.keeps, hwidens, touches_of_none hchanges⟩
  | @make t o h ht hrun =>
    obtain ⟨P', ho', hwidens, hgrows, -, hfree⟩ := ha.orderly.zeroed ht (hc.defaults t ht) hrun
    refine ha.answered ⟨P', ho', hwidens, hgrows, fun v hv => ?_⟩ _
    cases hv
    exact hfree
  | create hr hbody hcompiles harguments hrun =>
    exact ha.answered (ha.create hr hbody hcompiles harguments hrun) _
  | @createDefault r t a out h hr ht hbody hcompiles hrun =>
    rw [Reflector.createDefault_eq hcompiles] at hrun
    obtain ⟨out₀, hnew, hout⟩ := Exec.run_mapFault_cases hrun
    obtain ⟨P', ho', hwidens, hgrows, hfree⟩ := ha.orderly.newDefault hc ht hbody hnew
    exact ha.answered ⟨P', ho', hwidens, hgrows, fun v hv => hfree v ((hout v).1 hv)⟩ _
  | @get r t f view a receiver conv out h hr ht hf hcompiles hreceiver hrun =>
    obtain ⟨out₀, hget, hout⟩ := get_of_getAs hrun
    obtain ⟨ho', hgrows, hfree⟩ := ha.get hr ht hf hcompiles hreceiver hget
    exact ha.answered ⟨P, ho', .refl _ P, hgrows, fun v hv => hfree v (hout v hv)⟩ _
  | @set r t f view a receiver v h hr ht hf hcompiles hreceiver hv hrun =>
    exact ha.set hr ht hf hcompiles hreceiver hv hrun fun _ => rfl
  | @refuse r t f view a receiver v e h hr ht hf hcompiles hreceiver hv hrun =>
    exact ha.set hr ht hf hcompiles hreceiver hv hrun nofun
  | store ho hbox hv hrun => exact ⟨P, ha.store ho hbox hv hrun⟩
  | @load o i out ho hbox hrun =>
    refine ha.answered ⟨P, ha.orderly, .refl _ P, .refl _, fun v hv => ?_⟩ _
    exact ha.load ho hbox (hrun.trans hv)

/-- At the start nothing is private, for there is nothing. -/
theorem start {ids : Supply} (hids : TypeHandle.firstUser ≤ ids.next)
    (hin : (World.start ids).catalog.types <+: c.types) :
    (World.start ids).Apart c fun _ => False where
  built := .standard ids hids
  within := hin
  orderly := ⟨.standard ids, .empty c⟩
  held o hmem := by cases hmem

end Apart

/-! ## Runs -/

/-- A move only adds to the catalog. -/
theorem Step.extends (hs : Step natives w m w') : w.catalog.types <+: w'.catalog.types := by
  cases hs with
  | define hids hinitial hrun => exact Catalog.extends_of_define hrun
  | _ => exact List.prefix_refl _

theorem Run.extends (hrun : Run natives w ms w') : w.catalog.types <+: w'.catalog.types := by
  induction hrun with
  | nil => exact List.prefix_refl _
  | cons hstep _ ih => exact hstep.extends.trans ih

namespace Apart

/-- **No run breaks the invariant.** -/
theorem run (ha : w.Apart c P) (hrun : Run natives w ms w') (hin : w'.catalog.types <+: c.types) :
    ∃ P', w'.Apart c P' := by
  induction hrun generalizing P with
  | nil => exact ⟨P, ha⟩
  | cons hstep hrest ih =>
    obtain ⟨P₁, ha₁, -⟩ := ha.step hstep (hrest.extends.trans hin)
    exact ih ha₁ hin

/-- **One move leaves an owned struct as it is**, unless it is a setter of
its field on its instance. -/
theorem structAt?_of_step {o : ObjectRef} {i : Nat} {f : Field} (ha : w.Apart c P)
    (htouches : w.Touches m w' P) (ho : w.heap.Has o) (howns : (w.heap.typeAt o).OwnsAt c i)
    (hf : (w.heap.typeAt o).layout[i]? = some f) (hquiet : m ≠ .set f (.object o)) :
    ∃ cs, w.heap.structAt? o i = some cs ∧ w'.heap.structAt? o i = some cs := by
  obtain ⟨L, hchanges, hL⟩ := htouches
  have hthere : (w.heap.at? (.slot o i)).isSome = true := by
    obtain ⟨hlt, -⟩ := List.getElem?_eq_some_iff.1 hf
    rw [← ha.orderly.typed.slots o ho] at hlt
    simpa [Heap.at?] using hlt
  refine ha.orderly.owned.structAt?_eq ha.orderly.closed hchanges (fun p j hp => (hL p j hp).1)
    howns hthere fun hlo => ?_
  rcases (hL o i hlo).2 with hbox | ⟨g, hg, hm⟩
  · exact not_owns hbox howns
  · obtain rfl : f = g := Option.some.inj (hf.symm.trans hg)
    exact hquiet hm

/-- The same for a whole run. -/
theorem structAt?_of_run {o : ObjectRef} {i : Nat} {f : Field} (ha : w.Apart c P)
    (hrun : Run natives w ms w') (hin : w'.catalog.types <+: c.types) (ho : w.heap.Has o)
    (howns : (w.heap.typeAt o).OwnsAt c i) (hf : (w.heap.typeAt o).layout[i]? = some f)
    (hquiet : Move.set f (.object o) ∉ ms) :
    ∃ cs, w.heap.structAt? o i = some cs ∧ w'.heap.structAt? o i = some cs := by
  induction hrun generalizing P with
  | nil w =>
    -- a run without moves changes as little as a move that changes nothing
    have htouches : w.Touches .load w P :=
      touches_of_none ((Heap.Grows.refl _).changesOnly _)
    exact ha.structAt?_of_step htouches ho howns hf nofun
  | cons hstep hrest ih =>
    obtain ⟨P₁, ha₁, -, htouches⟩ := ha.step hstep (hrest.extends.trans hin)
    -- the struct stays as it is through the first move, and then through the others
    obtain ⟨cs, hcs, hcs₁⟩ := ha.structAt?_of_step htouches ho howns hf
      fun heq => hquiet (heq ▸ List.mem_cons_self)
    obtain ⟨L, hchanges, -⟩ := htouches
    have htype := hchanges.keeps.typeAt_eq o ho
    obtain ⟨cs', hcs₁', hcs'⟩ := ih ha₁ hin (hchanges.keeps.has ho) (htype ▸ howns) (htype ▸ hf)
      fun hmem => hquiet (List.mem_cons_of_mem _ hmem)
    obtain rfl : cs = cs' := Option.some.inj (hcs₁.symm.trans hcs₁')
    exact ⟨cs, hcs, hcs'⟩

end Apart

/-- **The struct in a struct-typed field of a class instance is the
instance's own.** From wherever a run has come to, the contents of the struct
stay the same over any further moves, unless one of them is a successful
setter of that field on that instance. -/
theorem structAt?_eq_of_run {ids : Supply} {ms₀ : List Move} {o : ObjectRef} {i : Nat} {f : Field}
    {s : TypeDef} (hids : TypeHandle.firstUser ≤ ids.next)
    (hstart : Run natives (start ids) ms₀ w) (hrun : Run natives w ms w') (ho : w.heap.Has o)
    (hclass : (w.heap.typeAt o).kind = .classType)
    (hf : (w.heap.typeAt o).layout[i]? = some f) (hs : w.catalog.find? f.type = some s)
    (hstruct : s.kind = .structType) (hquiet : Move.set f (.object o) ∉ ms) :
    ∃ cs, w.heap.structAt? o i = some cs ∧ w'.heap.structAt? o i = some cs := by
  -- what is private is told by the catalog that the run ends with
  have hin := hrun.extends
  obtain ⟨P, ha⟩ := (Apart.start hids (hstart.extends.trans hin)).run hstart hin
  have hvalue : (w.heap.typeAt o).isValueType = false := by
    rw [TypeDef.isValueType, hclass]
    rfl
  exact ha.structAt?_of_run hrun (List.prefix_refl _) ho
    ⟨hvalue, f, s, hf, Catalog.find?_of_prefix hin hs, hstruct⟩ hf hquiet

end World

namespace Sample

/-- A pen that has been made, with a point of its own. -/
def made : World where
  catalog := catalog
  supply := ⟨71⟩
  heap := { objects := #[⟨point, [.int32 0]⟩, ⟨point, [.int32 0]⟩, ⟨pen, [.object ⟨1⟩]⟩] }
  held := [⟨2⟩]

/-- Its point has been read, and what was read has been written to. -/
def marked : World where
  catalog := catalog
  supply := ⟨71⟩
  heap :=
    { objects := #[⟨point, [.int32 0]⟩, ⟨point, [.int32 0]⟩, ⟨pen, [.object ⟨1⟩]⟩,
        ⟨point, [.int32 9]⟩] }
  held := [⟨3⟩, ⟨2⟩]

variable (natives : Natives)

/-- Points and pens are defined without initial values. -/
theorem holds_initial {d : TypeDefinition} (hd : d ∈ [pointDefinition, penDefinition]) (w : World) :
    ∀ f ∈ d.storedFields, ∀ v, f.initial = some v → w.Holds v := by
  have hnone : ∀ d ∈ [pointDefinition, penDefinition], ∀ f ∈ d.storedFields, f.initial = none := by
    decide
  intro f hf v hv
  rw [hnone d hd f hf] at hv
  cases hv

theorem run_made : World.Run natives (.start {}) [.define, .define, .make] made := by
  refine .cons (.define (Nat.le_refl _) (holds_initial (by simp) _) define_point) ?_
  refine .cons (.define (Nat.le_refl _) (holds_initial (by simp) _) define_pen) ?_
  have hpen : pen ∈ catalog.types := by decide
  exact .cons (.make hpen rfl) (.nil _)

theorem run_marked : World.Run natives made [.get, .store] marked := by
  have hpen : pen ∈ catalog.types := by decide
  have htip : tip ∈ pen.allFields := by decide
  have hget : Reflector.Compiles ⟨registry, {}⟩ (.fieldGetter (some tip) none) _ := ⟨{}, rfl⟩
  have hholds : made.Holds (.object ⟨2⟩) := by
    rintro o ⟨⟩
    decide
  refine .cons (.get rfl hpen htip hget hholds (c := .value) rfl) ?_
  exact .cons (.store (o := ⟨3⟩) (i := 0) (v := .int32 9) (by decide) rfl nofun rfl) (.nil _)

/-- What happens to the point that was read does not happen to the pen's. -/
theorem tip_of_marked : ∃ natives, World.Run natives (.start {}) [.define, .define, .make] made ∧
    World.Run natives made [.get, .store] marked ∧
    ∃ cs, made.heap.structAt? ⟨2⟩ 0 = some cs ∧ marked.heap.structAt? ⟨2⟩ 0 = some cs := by
  have hstart := run_made fun _ _ => return .null
  have hrun := run_marked fun _ _ => return .null
  have hthere : made.heap.Has ⟨2⟩ := Nat.lt_succ_self 2
  exact ⟨_, hstart, hrun, World.structAt?_eq_of_run (f := tip) (s := point) (by decide) hstart hrun
    hthere rfl rfl rfl rfl (by simp)⟩

end Sample

end MemberAccess
