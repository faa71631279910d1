import MemberAccess.Proofs.Accessor.Generated
import MemberAccess.Proofs.Nesting.Untangled
import MemberAccess.Proofs.Ownership.Runs
/-!
# Nesting — which runs make a box nest itself

A setter stores a value as itself where the field is of a reference type, and
a box is changed in place. So a setter may store a box in itself, or in a box
that it nests (`World.TiesKnot`), and then there is no end to copying it. That
is the only way: no other access makes a box nest itself, whatever factories,
getters and setters are called, so that as long as no setter ties a knot every
value can be copied (`World.acyclic_of_untied`).

Raw writes to slots are left out here. The bodies of constructors, which could
do anything, are taken to make no box nest itself when they are run on a new
instance (`Natives.Tame`). A body that keeps its argument in the instance makes
none, whatever the argument is (`Sample.keeping_tame`).
-/

namespace MemberAccess

namespace World

variable {natives : Natives}

/-- **One access of a caller**: a move other than a raw write, or a factory
whatever body its constructor has. -/
inductive Access (natives : Natives) : World → Move → World → Prop
  | move {w w' : World} {m : Move} (hm : m ≠ .store) (hs : Step natives w m w') :
      Access natives w m w'
  /-- A factory, validated or not. -/
  | create {w : World} {r : Reflector} {k : Constructor} {validate : Bool} {a : Accessor}
      {arguments : Option (List Value)} {out : Except AccessorError Value} {h : Heap}
      (hr : r.registry.toCatalog = w.catalog)
      (ha : r.Compiles (.constructorFactory (some k) (some validate)) a)
      (harguments : ∀ vs, arguments = some vs → ∀ v ∈ vs, w.Holds v)
      (hrun : (a.create natives arguments).run w.heap = some (out, h)) :
      Access natives w .create (w.receive out h)
  /-- A default factory. -/
  | createDefault {w : World} {r : Reflector} {t : TypeDef} {a : Accessor}
      {out : Except AccessorError Value} {h : Heap} (hr : r.registry.toCatalog = w.catalog)
      (ht : t ∈ w.catalog.types) (ha : r.Compiles (.typeFactory (some t)) a)
      (hrun : (a.createDefault natives).run w.heap = some (out, h)) :
      Access natives w .create (w.receive out h)

/-- **A setter ties a knot**: in the slot that it has written there is a box
that is, or nests, the object that the slot belongs to. -/
def TiesKnot (w : World) (m : Move) (w' : World) : Prop :=
  ∃ f o i v, m = .set f (.object o) ∧ f.storage = .slot i ∧
    w'.heap.at? (.slot o i) = some v ∧ w.heap.Ties v o

/-- **A run of accesses that tie no knot.** -/
inductive Untied (natives : Natives) : World → List Move → World → Prop
  | nil (w : World) : Untied natives w [] w
  | cons {w₁ w₂ w₃ : World} {m : Move} {ms : List Move} (hs : Access natives w₁ m w₂)
      (hm : ¬ w₁.TiesKnot m w₂) (hrun : Untied natives w₂ ms w₃) :
      Untied natives w₁ (m :: ms) w₃

/-! ## The invariant -/

/-- **What no access breaks but one that ties a knot.** -/
structure Untangled (w : World) : Prop where
  built : w.catalog.Built w.supply
  heap : w.heap.Untangled w.catalog
  held : ∀ o ∈ w.held, w.heap.Has o

/-- **Only a knot tangles**: a move leaves a world untangled unless it ties a
knot, for which it takes a setter of a field of a reference type on a box. -/
structure OnlyKnots (w : World) (m : Move) (w' : World) : Prop where
  untangled : w'.heap.Acyclic → w'.Untangled
  acyclic_iff : w'.heap.Acyclic ↔ ¬ w.TiesKnot m w'
  setter : w.TiesKnot m w' → ∃ f o s, m = .set f (.object o) ∧ w.heap.IsBoxAt o ∧
    w.catalog.find? f.type = some s ∧ s.isValueType = false

variable {w w' : World} {m : Move} {ms : List Move} {h : Heap} {v receiver : Value} {r : Reflector}
  {t : TypeDef} {a : Accessor}

/-- So it is of a move that ties none. -/
theorem OnlyKnots.of_not (hm : ¬ w.TiesKnot m w') (hw' : w'.Untangled) : w.OnlyKnots m w' where
  untangled _ := hw'
  acyclic_iff := iff_of_true hw'.heap.acyclic hm
  setter hknot := absurd hknot hm

/-- What is no successful setter ties no knot. -/
theorem not_tiesKnot (hm : ∀ f o, m ≠ .set f (.object o)) : ¬ w.TiesKnot m w' :=
  fun ⟨f, o, _, _, heq, _⟩ => hm f o heq

namespace Untangled

theorem reaches (hu : w.Untangled) (hv : w.Holds v) : w.heap.Reaches v :=
  fun o ho => hu.held o (hv o ho)

/-- The heap moves on. -/
theorem move (hu : w.Untangled) (hh : h.Untangled w.catalog) (hk : w.heap.Keeps h) :
    World.Untangled { w with heap := h } where
  built := hu.built
  heap := hh
  held o ho := hk.has (hu.held o ho)

/-- The heap moves on, and the caller gets an answer. -/
theorem receive {ε : Type} {out : Except ε Value} (hu : w.Untangled)
    (hh : h.Untangled w.catalog ∧ w.heap.Keeps h ∧ ∀ v, out = .ok v → h.Reaches v) :
    (w.receive out h).Untangled where
  built := hu.built
  heap := hh.1
  held o ho := by
    obtain ⟨-, hk, hout⟩ := hh
    rcases List.mem_append.1 ho with ho | ho
    · cases out with
      | error e => simp [Except.toOption] at ho
      | ok v =>
        cases v with
        | object p =>
          obtain rfl : o = p := by simpa [Except.toOption, Value.toObject?] using ho
          exact hout _ rfl o rfl
        | _ => simp [Except.toOption, Value.toObject?] at ho
    · exact hk.has (hu.held o ho)

/-- **A factory.** -/
theorem create {k : Constructor} {validate : Bool} {arguments : Option (List Value)}
    {out : Except AccessorError Value} (hu : w.Untangled) (hn : natives.Tame)
    (hr : r.registry.toCatalog = w.catalog)
    (ha : r.Compiles (.constructorFactory (some k) (some validate)) a)
    (harguments : ∀ vs, arguments = some vs → ∀ v ∈ vs, w.Holds v)
    (hrun : (a.create natives arguments).run w.heap = some (out, h)) :
    (w.receive out h).Untangled := by
  obtain ⟨declaring, ts, hdeclaring, -, hcreate⟩ := Reflector.create_eq_refuse ha
  have hmem : declaring ∈ w.catalog.types := hr ▸ List.mem_of_find?_eq_some hdeclaring
  rw [hcreate] at hrun
  cases hverdict : (Registry.factoryGuard k validate).verdict? (.factory arguments) with
  | some e =>
    -- a call that the guard refuses does nothing
    rw [hverdict] at hrun
    cases hrun
    exact hu.receive ⟨hu.heap, .refl _, nofun⟩
  | none =>
    rw [hverdict] at hrun
    obtain ⟨out₀, hnew, hout⟩ := Exec.run_mapFault_cases hrun
    obtain ⟨hh, hkeeps, hreach⟩ := hu.heap.newInstance hn hmem
      (fun vs hvs v hv => hu.reaches (harguments vs hvs v hv)) hnew
    exact hu.receive ⟨hh, hkeeps, fun v hv => hreach v ((hout v).1 hv)⟩

/-- **A default factory.** -/
theorem createDefault {out : Except AccessorError Value} (hu : w.Untangled) (hn : natives.Tame)
    (ht : t ∈ w.catalog.types) (ha : r.Compiles (.typeFactory (some t)) a)
    (hrun : (a.createDefault natives).run w.heap = some (out, h)) :
    (w.receive out h).Untangled := by
  rw [Reflector.createDefault_eq ha] at hrun
  obtain ⟨out₀, hnew, hout⟩ := Exec.run_mapFault_cases hrun
  obtain ⟨hh, hkeeps, hreach⟩ := hu.heap.newDefault hn ht hnew
  exact hu.receive ⟨hh, hkeeps, fun v hv => hreach v ((hout v).1 hv)⟩

variable {f : Field} {view : Option View}

/-- **A getter.** -/
theorem get {k : Conversion} {out : Except AccessorError Value} (hu : w.Untangled)
    (ha : r.Compiles (.fieldGetter (some f) view) a)
    (hrun : (a.getAs natives k receiver).run w.heap = some (out, h)) :
    (w.receive out h).Untangled := by
  obtain ⟨out₁, hget, hconvert⟩ := get_of_getAs hrun
  obtain ⟨s, -, hread⟩ := Reflector.get_eq_read ha
  rw [hread] at hget
  obtain ⟨out₀, hrun, hout⟩ := Exec.run_mapFault_cases hget
  obtain ⟨hh, hgrows, hreach⟩ := hu.heap.read hrun
  exact hu.receive ⟨hh, hgrows.keeps, fun v hv => hreach v ((hout v).1 (hconvert v hv))⟩

/-- **What a setter comes to**, whether it succeeds or fails. -/
theorem set_cases {out : Except AccessorError Unit} (hu : w.Untangled)
    (hr : r.registry.toCatalog = w.catalog) (ht : t ∈ w.catalog.types) (hf : f ∈ t.allFields)
    (ha : r.Compiles (.fieldSetter (some f) view) a) (hreceiver : w.Holds receiver)
    (hv : w.Holds v) (hrun : (a.set natives receiver v).run w.heap = some (out, h)) :
    (h.Acyclic → World.Untangled { w with heap := h }) ∧
      (((∃ e, out = .error e) ∨ ∃ k, f.storage = .cell k) ∧ h.Acyclic ∨
        out = .ok () ∧ ∃ o i u s, receiver = .object o ∧ f.storage = .slot i ∧
          h.at? (.slot o i) = some u ∧ (h.Acyclic ↔ ¬ w.heap.Ties u o) ∧
          w.catalog.find? f.type = some s ∧ (w.heap.Ties u o → s.isValueType = false)) := by
  have hbuilt : r.registry.Built := ⟨w.supply, hr ▸ hu.built⟩
  obtain ⟨s, hs, hset⟩ := Reflector.set_eq_write ha
  have hof := hbuilt.fieldTypes_of (hr ▸ ht) hf hs
  rw [hr] at hof
  rw [hset] at hrun
  obtain ⟨out₀, hwrite, hout⟩ := Exec.run_mapFault_cases hrun
  obtain ⟨hkeeps, hh, hcases⟩ :=
    hu.heap.write hof (hu.reaches hreceiver) (hu.reaches hv) hwrite
  refine ⟨fun hacyclic => hu.move (hh hacyclic) hkeeps, ?_⟩
  rcases hcases with ⟨hend, hacyclic⟩ | ⟨hok, o, i, u, ho, hi, hat, hiff, hvalue⟩
  · refine .inl ⟨hend.imp_left fun ⟨e, he⟩ => ?_, hacyclic⟩
    cases out with
    | error e' => exact ⟨e', rfl⟩
    | ok u =>
      rw [(hout u).1 rfl] at he
      cases he
  · exact .inr ⟨(hout ()).2 hok, o, i, u, s.type, ho, hi, hat, hiff, hof.type, hvalue⟩

/-- **A setter that has succeeded** leaves the world untangled unless it has
tied a knot. -/
theorem set (hu : w.Untangled) (hr : r.registry.toCatalog = w.catalog) (ht : t ∈ w.catalog.types)
    (hf : f ∈ t.allFields) (ha : r.Compiles (.fieldSetter (some f) view) a)
    (hreceiver : w.Holds receiver) (hv : w.Holds v)
    (hrun : (a.set natives receiver v).run w.heap = some (.ok (), h)) :
    w.OnlyKnots (.set f receiver) { w with heap := h } := by
  obtain ⟨hmove, ⟨hend, hacyclic⟩ | ⟨-, o, i, u, s, rfl, hi, hat, hiff, hs, hvalue⟩⟩ :=
    hu.set_cases hr ht hf ha hreceiver hv hrun
  · refine .of_not ?_ (hmove hacyclic)
    -- a static field is in no slot
    rintro ⟨g, o, i, u, heq, hi, -⟩
    cases heq
    rcases hend with ⟨e, he⟩ | ⟨k, hk⟩
    · cases he
    · rw [hk] at hi
      cases hi
  · have hknot : w.TiesKnot (.set f (.object o)) { w with heap := h } ↔ w.heap.Ties u o := by
      constructor
      · rintro ⟨g, p, j, u', heq, hj, hat', hties⟩
        cases heq
        obtain rfl : i = j := Storage.slot.inj (hi.symm.trans hj)
        obtain rfl : u = u' := Option.some.inj (hat.symm.trans hat')
        exact hties
      · exact fun hties => ⟨f, o, i, u, rfl, hi, hat, hties⟩
    refine ⟨hmove, by rw [hknot]; exact hiff, fun h => ?_⟩
    have hties := hknot.1 h
    exact ⟨f, o, s, rfl, hties.isBoxAt, hs, hvalue hties⟩

/-- **One access** keeps the invariant unless it ties a knot. -/
theorem step (hu : w.Untangled) (hn : natives.Tame) (hs : Access natives w m w') :
    w.OnlyKnots m w' := by
  cases hs with
  | create hr ha harguments hrun =>
    exact .of_not (not_tiesKnot nofun) (hu.create hn hr ha harguments hrun)
  | createDefault hr ht ha hrun =>
    exact .of_not (not_tiesKnot nofun) (hu.createDefault hn ht ha hrun)
  | move hm hs =>
    cases hs with
    | define hids hinitial hrun =>
      obtain ⟨hkeeps, -, hh⟩ :=
        hu.heap.define (fun f hf v hv => hu.reaches (hinitial f hf v hv)) hrun
      exact .of_not (not_tiesKnot nofun)
        ⟨.define hu.built hids hrun, hh _ rfl, fun o ho => hkeeps.has (hu.held o ho)⟩
    | reject hinitial hrun =>
      obtain ⟨hkeeps, hh, -⟩ :=
        hu.heap.define (fun f hf v hv => hu.reaches (hinitial f hf v hv)) hrun
      exact .of_not (not_tiesKnot nofun) (hu.move hh hkeeps)
    | make ht hrun =>
      obtain ⟨hh, hgrows, ho⟩ := hu.heap.zeroed ht hrun
      refine .of_not (not_tiesKnot nofun) (hu.receive ⟨hh, hgrows.keeps, fun v hv p hp => ?_⟩)
      cases hv
      cases hp
      exact ho
    | create hr _ ha harguments hrun =>
      exact .of_not (not_tiesKnot nofun) (hu.create hn hr ha harguments hrun)
    | createDefault hr ht _ ha hrun =>
      exact .of_not (not_tiesKnot nofun) (hu.createDefault hn ht ha hrun)
    | get _ _ _ ha _ hrun => exact .of_not (not_tiesKnot nofun) (hu.get ha hrun)
    | refuse hr ht hf ha hreceiver hv hrun =>
      obtain ⟨hmove, ⟨-, hacyclic⟩ | ⟨hok, -⟩⟩ := hu.set_cases hr ht hf ha hreceiver hv hrun
      · exact .of_not (not_tiesKnot nofun) (hmove hacyclic)
      · cases hok
    | set hr ht hf ha hreceiver hv hrun => exact hu.set hr ht hf ha hreceiver hv hrun
    | store => exact absurd rfl hm
    | @load o i out ho hbox hrun =>
      refine .of_not (not_tiesKnot nofun) (hu.receive ⟨hu.heap, .refl _, fun v hv => ?_⟩)
      rw [hv] at hrun
      exact hu.heap.closed.slots o v (List.mem_of_getElem? (Heap.load_eq_ok.1 hrun))

/-- At the start there is nothing that could nest itself. -/
theorem start {ids : Supply} (hids : TypeHandle.firstUser ≤ ids.next) :
    (World.start ids).Untangled where
  built := .standard ids hids
  heap := .standard ids
  held o ho := by cases ho

/-- **No run breaks the invariant** as long as it ties no knot. -/
theorem run (hu : w.Untangled) (hn : natives.Tame) (hrun : Untied natives w ms w') :
    w'.Untangled := by
  induction hrun with
  | nil => exact hu
  | cons hs hm _ ih =>
    have hknots := hu.step hn hs
    exact ih (hknots.untangled (hknots.acyclic_iff.2 hm))

end Untangled

/-! ## Runs -/

/-- **Only knots make a box nest itself.** Wherever a run comes to that ties
none, no box is reachable from itself through boxes, so that every value can be
copied; and of the accesses that may follow just those make a box nest itself
that tie a knot, for which it takes a setter of a field of a reference type on
a box. -/
theorem acyclic_of_untied {ids : Supply} (hids : TypeHandle.firstUser ≤ ids.next)
    (hn : natives.Tame) (hrun : Untied natives (start ids) ms w) :
    w.heap.Acyclic ∧ (∀ v, ∃ v' h', w.heap.detach? v = some (v', h')) ∧
      ∀ m w', Access natives w m w' → (w'.heap.Acyclic ↔ ¬ w.TiesKnot m w') ∧
        (w.TiesKnot m w' → ∃ f o s, m = .set f (.object o) ∧ w.heap.IsBoxAt o ∧
          w.catalog.find? f.type = some s ∧ s.isValueType = false) := by
  have hu := (Untangled.start hids).run hn hrun
  refine ⟨hu.heap.acyclic, fun v => ?_, fun m w' hs =>
    ⟨(hu.step hn hs).acyclic_iff, (hu.step hn hs).setter⟩⟩
  obtain ⟨c, hc⟩ := (hu.heap.acyclic.hasContents v).exists_contents
  exact ⟨(c.place w.heap).1, (c.place w.heap).2, by rw [Heap.detach?, hc]; rfl⟩

end World

namespace Sample

/-! ## A struct with room for anything -/

def linkDefinition : TypeDefinition where
  name := "Link"
  kind := .structType
  fields := [{ name := "next", type := .object }]

/-- What comes next, of whatever type. -/
def next : Field where
  id := ⟨66⟩
  name := "next"
  declaringType := ⟨65⟩
  type := .object
  visibility := .anyone
  storage := .slot 0

def link : TypeDef :=
  { TypeDef.blank ⟨65⟩ "Link" .structType with
    fields := [next]
    layout := [next]
    defaults := [.null] }

/-- A world of links, given what each holds. -/
def links (slots : List Value) (held : List ObjectRef) : World where
  catalog := ⟨(Catalog.standard {}).1.types ++ [link]⟩
  supply := ⟨67⟩
  heap := { objects := (slots.map fun v => ⟨link, [v]⟩).toArray }
  held := held

def linkReflector : Reflector := ⟨((links [] []).catalog.freeze ⟨67⟩).1, {}⟩

theorem define_link :
    ((Catalog.standard {}).1.define linkDefinition (Catalog.standard {}).2).run {} =
      some (.ok ⟨⟨65⟩, (links [] []).catalog, ⟨67⟩⟩, {}) := by rfl

variable (natives : Natives)

theorem step_define : World.Step natives (.start {}) .define (links [] []) := by
  have hnone : ∀ f ∈ linkDefinition.storedFields, f.initial = none := by decide
  refine World.Step.define (w := .start {}) (Nat.le_refl _) (fun f hf v hv => ?_) define_link
  rw [hnone f hf] at hv
  cases hv

/-- A default factory hands out a copy of a new link. -/
theorem step_first : World.Step natives (links [] []) .create (links [.null, .null] [⟨1⟩]) := by
  have ht : link ∈ (links [] []).catalog.types := by decide
  have ha : linkReflector.Compiles (.typeFactory (some link)) _ := ⟨{}, rfl⟩
  exact @World.Step.createDefault natives _ _ _ _ (.ok (.object ⟨1⟩)) _ rfl ht rfl ha rfl

/-- A link that holds itself. -/
def knotted : World := links [.null, .object ⟨1⟩] [⟨1⟩]

/-- **A setter can store a struct in itself**, and then there is no end to
copying it. -/
theorem knotted_of_set : ∃ natives,
    World.Run natives (.start {}) [.define, .create, .set next (.object ⟨1⟩)] knotted ∧
      ¬ knotted.heap.Acyclic ∧ knotted.heap.detach? (.object ⟨1⟩) = none := by
  have ht : link ∈ (links [] []).catalog.types := by decide
  have hf : next ∈ link.allFields := by decide
  have ha : linkReflector.Compiles (.fieldSetter (some next) none) _ := ⟨{}, rfl⟩
  have hholds : (links [.null, .null] [⟨1⟩]).Holds (.object ⟨1⟩) := by
    rintro o ⟨⟩
    exact List.mem_singleton.2 rfl
  refine ⟨fun _ _ => return .null,
    .cons (step_define _) (.cons (step_first _) (.cons ?_ (.nil _))), ?_, rfl⟩
  · exact .set (v := .object ⟨1⟩) rfl ht hf ha hholds hholds rfl
  · exact fun hacyclic => hacyclic ⟨1⟩ (.single ⟨List.mem_singleton.2 rfl, rfl⟩)

theorem step_second : World.Step natives (links [.null, .null] [⟨1⟩]) .create
    (links [.null, .null, .null, .null] [⟨3⟩, ⟨1⟩]) := by
  have ht : link ∈ (links [] []).catalog.types := by decide
  have ha : linkReflector.Compiles (.typeFactory (some link)) _ := ⟨{}, rfl⟩
  exact @World.Step.createDefault natives _ _ _ _ (.ok (.object ⟨3⟩)) _ rfl ht rfl ha rfl

/-- Two links, one of which holds the other. -/
def chained : World := links [.null, .object ⟨3⟩, .null, .null] [⟨3⟩, ⟨1⟩]

theorem step_chained : World.Step natives (links [.null, .null, .null, .null] [⟨3⟩, ⟨1⟩])
    (.set next (.object ⟨1⟩)) chained := by
  have ht : link ∈ (links [] []).catalog.types := by decide
  have hf : next ∈ link.allFields := by decide
  have ha : linkReflector.Compiles (.fieldSetter (some next) none) _ := ⟨{}, rfl⟩
  have hholds : ∀ o : ObjectRef, o ∈ [⟨3⟩, ⟨1⟩] →
      (links [.null, .null, .null, .null] [⟨3⟩, ⟨1⟩]).Holds (.object o) := by
    rintro o ho _ ⟨⟩
    exact ho
  exact .set (v := .object ⟨3⟩) rfl ht hf ha (hholds _ (by decide)) (hholds _ (by decide)) rfl

/-- Links without a next one nest nothing. -/
theorem chained_not_knot : ¬ (links [.null, .null, .null, .null] [⟨3⟩, ⟨1⟩]).TiesKnot
    (.set next (.object ⟨1⟩)) chained := by
  rintro ⟨f, o, i, v, heq, hi, hat, hties⟩
  cases heq
  cases hi
  cases hat
  obtain ⟨p, hp, -, hpath⟩ := hties
  cases hp
  rcases hpath.cases_head with heq | ⟨q, ⟨hmem, -⟩, -⟩
  · cases heq
  · cases List.mem_singleton.1 hmem

theorem untied_chained : World.Untied natives (.start {})
    [.define, .create, .create, .set next (.object ⟨1⟩)] chained :=
  .cons (.move nofun (step_define natives)) (World.not_tiesKnot nofun) <|
    .cons (.move nofun (step_first natives)) (World.not_tiesKnot nofun) <|
    .cons (.move nofun (step_second natives)) (World.not_tiesKnot nofun) <|
    .cons (.move nofun (step_chained natives)) chained_not_knot (.nil _)

/-- Its end holding its start. -/
def closed : World := links [.null, .object ⟨3⟩, .null, .object ⟨1⟩] [⟨3⟩, ⟨1⟩]

theorem step_closed : World.Step natives chained (.set next (.object ⟨3⟩)) closed := by
  have ht : link ∈ (links [] []).catalog.types := by decide
  have hf : next ∈ link.allFields := by decide
  have ha : linkReflector.Compiles (.fieldSetter (some next) none) _ := ⟨{}, rfl⟩
  have hholds : ∀ o : ObjectRef, o ∈ [⟨3⟩, ⟨1⟩] → chained.Holds (.object o) := by
    rintro o ho _ ⟨⟩
    exact ho
  exact .set (v := .object ⟨1⟩) rfl ht hf ha (hholds _ (by decide)) (hholds _ (by decide)) rfl

/-- Every body keeps its first argument in the first slot of its receiver. -/
def keeping : Natives := fun _ => (Storage.slot 0).writer.run fun _ _ => pure .null

/-- A new instance is nested by nothing, so it may keep whatever was there before
it. -/
theorem keeping_tame : keeping.Tame := by
  intro token h₀ h t o args hc ha hd hargs hz out h' hrun
  have hcreates := Heap.creates_of_zeroed? hc hd hz
  have hclosed := Heap.closed_of_zeroed? hc hd hz
  have hacyclic := Heap.acyclic_of_zeroed? hc ha hd hz
  have hcell : ∀ k, Storage.slot 0 = .cell k → k.index < h.cells.size := nofun
  rcases Storage.writer_cases hcell hrun with ⟨-, rfl⟩ | ⟨l, v, hl, hv, hw⟩
  · exact ⟨.refl _, hclosed, hacyclic⟩
  · cases hl
    have hold := hargs v (List.mem_of_getElem? hv)
    refine ⟨hw.keeps, hw.closed hclosed (hcreates.grows.keeps.reaches hold), ?_⟩
    exact (hw.acyclic_iff hacyclic).2 fun hties =>
      hcreates.fresh (hcreates.grows.has_of_ties hc hold hties)

/-- A chain can be copied, until its end comes to hold its start. -/
theorem acyclic_chained : ∃ natives : Natives, natives.Tame ∧
    World.Untied natives (.start {}) [.define, .create, .create, .set next (.object ⟨1⟩)] chained ∧
    (∀ v, ∃ v' h', chained.heap.detach? v = some (v', h')) ∧
    World.Access natives chained (.set next (.object ⟨3⟩)) closed ∧ ¬ closed.heap.Acyclic := by
  have hrun := untied_chained keeping
  have hclosed : World.Access keeping chained (.set next (.object ⟨3⟩)) closed :=
    .move nofun (step_closed keeping)
  obtain ⟨-, hdetach, hnext⟩ := World.acyclic_of_untied (by decide) keeping_tame hrun
  refine ⟨keeping, keeping_tame, hrun, hdetach, hclosed, fun hacyclic => ?_⟩
  have hpath : Relation.ReflTransGen chained.heap.Nests ⟨1⟩ ⟨3⟩ :=
    .single ⟨List.mem_singleton.2 rfl, rfl⟩
  exact (hnext _ _ hclosed).1.1 hacyclic ⟨next, ⟨3⟩, 0, _, rfl, rfl, rfl, ⟨1⟩, rfl, rfl, hpath⟩

end Sample

end MemberAccess
