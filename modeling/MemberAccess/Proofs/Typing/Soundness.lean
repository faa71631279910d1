import MemberAccess.Proofs.Accessor.PropertyRoundTrip
import MemberAccess.Proofs.Ownership.Runs
import MemberAccess.Proofs.Typing.Accesses
/-!
# Typing — getters answer with what their members may hold

A registry is used by its accessors: getters and setters of fields and
properties, typed views included, and factories without a body
(`Registry.Use`). Where all accessor methods are generated and types agree, no
use puts a value where it is not admissible, so whatever a getter answers with
is admissible for the type of its member (`Registry.admissible_of_get`).

Agreement is not something that a definition asks for. Without it a property
can be set to a number that a field of text shows (`Sample.note_not_typed`), and
an override can answer with text, or with null, for a number
(`Sample.tag_not_typed`).
-/

namespace MemberAccess

namespace Registry

/-- **A getter of a member**, a field or a property, with the type of the
member. -/
inductive Reads (r : Registry) : Accessor → TypeHandle → Prop
  | field {q : Reflector} {t : TypeDef} {f : Field} {view : Option View} {a : Accessor}
      (hq : q.registry = r) (ht : t ∈ r.types) (hf : f ∈ t.allFields)
      (ha : q.Compiles (.fieldGetter (some f) view) a) : Reads r a f.type
  | property {q : Reflector} {t : TypeDef} {p : Property} {choice : Option Bool}
      {view : Option View} {a : Accessor} (hq : q.registry = r) (ht : t ∈ r.types)
      (hp : p ∈ t.properties) (ha : q.Compiles (.propertyGetter (some p) choice view) a) :
      Reads r a p.type

/-- **A setter of a member.** -/
inductive Writes (r : Registry) : Accessor → Prop
  | field {q : Reflector} {t : TypeDef} {f : Field} {view : Option View} {a : Accessor}
      (hq : q.registry = r) (ht : t ∈ r.types) (hf : f ∈ t.allFields)
      (ha : q.Compiles (.fieldSetter (some f) view) a) : Writes r a
  | property {q : Reflector} {t : TypeDef} {p : Property} {choice : Option Bool}
      {view : Option View} {a : Accessor} (hq : q.registry = r) (ht : t ∈ r.types)
      (hp : p ∈ t.properties) (ha : q.Compiles (.propertySetter (some p) choice view) a) :
      Writes r a

/-- **One use of a registry**, whatever comes of it. Receivers, inputs and
arguments are any values that do not dangle. -/
inductive Use (r : Registry) (natives : Natives) : Heap → Heap → Prop
  | get {h h' : Heap} {a : Accessor} {type : TypeHandle} {k : Conversion} {receiver : Value}
      {out : Except AccessorError Value} (ha : r.Reads a type) (hreceiver : h.Reaches receiver)
      (hrun : (a.getAs natives k receiver).run h = some (out, h')) : Use r natives h h'
  | set {h h' : Heap} {a : Accessor} {receiver v : Value} {out : Except AccessorError Unit}
      (ha : r.Writes a) (hreceiver : h.Reaches receiver) (hv : h.Reaches v)
      (hrun : (a.set natives receiver v).run h = some (out, h')) : Use r natives h h'
  /-- A factory of a constructor without a body. -/
  | create {h h' : Heap} {q : Reflector} {k : Constructor} {choice : Option Bool} {a : Accessor}
      {arguments : Option (List Value)} {out : Except AccessorError Value} (hq : q.registry = r)
      (hbody : k.body = none) (ha : q.Compiles (.constructorFactory (some k) choice) a)
      (harguments : ∀ vs, arguments = some vs → ∀ v ∈ vs, h.Reaches v)
      (hrun : (a.create natives arguments).run h = some (out, h')) : Use r natives h h'
  /-- A default factory where the default constructor has no body. -/
  | createDefault {h h' : Heap} {q : Reflector} {t : TypeDef} {a : Accessor}
      {out : Except AccessorError Value} (hq : q.registry = r) (ht : t ∈ r.types)
      (hbody : t.defaultConstructor?.bind (·.body) = none)
      (ha : q.Compiles (.typeFactory (some t)) a)
      (hrun : (a.createDefault natives).run h = some (out, h')) : Use r natives h h'

variable {r : Registry} {ids : Supply} {natives : Natives} {h h' : Heap} {a : Accessor}
  {type : TypeHandle} {receiver v : Value}

/-! ## One use -/

/-- A getter knows the type of its member. -/
theorem Reads.exists_type (hb : r.toCatalog.Built ids) (ha : r.Reads a type) :
    ∃ t, r.find? type = some t := by
  cases ha with
  | field hq ht hf hcompiles =>
    subst hq
    obtain ⟨s, hs, -⟩ := Reflector.get_eq_read hcompiles
    exact ⟨_, (Built.fieldTypes_of ⟨ids, hb⟩ ht hf hs).type⟩
  | @property q t p choice view a hq ht hp hcompiles =>
    subst hq
    have haccessors := (hb.contracts.regular t ht).properties p hp
    have hslot := fun m hm => hb.wellFormed.slot_eq_none ht (m := m) hm
    obtain ⟨m, s, -, hs, -⟩ := Reflector.get_eq_read_property haccessors hslot hcompiles
    exact ⟨_, hs.type⟩

/-- **A getter answers with what its member may hold.** -/
theorem Reads.maintains (ha : r.Reads a type) (hb : r.toCatalog.Built ids)
    (hgenerated : r.Generated) (hagree : r.Agrees)
    (hf : h.Fitted (.admissible r.toCatalog) r.toCatalog r.toCatalog)
    (hreceiver : h.Reaches receiver) :
    Exec.Maintains (.admissible r.toCatalog) r.toCatalog h (a.get natives receiver)
      fun h' w => h'.Reaches w ∧ Judgement.admissible r.toCatalog h' type w := by
  cases ha with
  | field hq ht hmem hcompiles =>
    subst hq
    obtain ⟨s, hs, hget⟩ := Reflector.get_eq_read hcompiles
    have hof := Built.fieldTypes_of ⟨ids, hb⟩ ht hmem hs
    rw [hget]
    exact (Exec.Maintains.readField hf hb.lasting hb hof hreceiver).mapFault
  | @property q t p choice view a hq ht hp hcompiles =>
    subst hq
    have haccessors := (hb.contracts.regular t ht).properties p hp
    have hslot := fun m hm => hb.wellFormed.slot_eq_none ht (m := m) hm
    obtain ⟨m, s, hm, hs, hget⟩ := Reflector.get_eq_read_property haccessors hslot hcompiles
    have hthrough := Built.through ⟨ids, hb⟩ ht (haccessors.getter m hm).1 hs
    have hindex := Reflector.indexParameters_of_get hcompiles
    rw [hget]
    exact (Exec.Maintains.readProperty hb hgenerated hagree ht hp hindex hf hm hthrough
      hreceiver).mapFault

/-- **A setter** leaves everything admissible where it is. -/
theorem Writes.maintains (ha : r.Writes a) (hb : r.toCatalog.Built ids)
    (hgenerated : r.Generated) (hagree : r.Agrees)
    (hf : h.Fitted (.admissible r.toCatalog) r.toCatalog r.toCatalog)
    (hreceiver : h.Reaches receiver) (hv : h.Reaches v) :
    Exec.Maintains (.admissible r.toCatalog) r.toCatalog h (a.set natives receiver v)
      fun _ _ => True := by
  cases ha with
  | field hq ht hmem hcompiles =>
    subst hq
    obtain ⟨s, hs, hset⟩ := Reflector.set_eq_write hcompiles
    have hof := Built.fieldTypes_of ⟨ids, hb⟩ ht hmem hs
    rw [hset]
    exact (Exec.Maintains.writeField hf hb hof hreceiver hv).mapFault
  | @property q t p choice view a hq ht hp hcompiles =>
    subst hq
    have haccessors := (hb.contracts.regular t ht).properties p hp
    have hslot := fun m hm => hb.wellFormed.slot_eq_none ht (m := m) hm
    obtain ⟨m, s, hm, hs, hset⟩ := Reflector.set_eq_write_property haccessors hslot hcompiles
    have hthrough := Built.through ⟨ids, hb⟩ ht (haccessors.setter m hm).1 hs
    have hindex := Reflector.indexParameters_of_set hcompiles
    rw [hset]
    exact (Exec.Maintains.writeProperty hb hgenerated hagree ht hp hindex hf hm hthrough hreceiver
      hv).mapFault

/-- **A factory** of a constructor without a body does, too. -/
theorem maintains_create {q : Reflector} {k : Constructor} {choice : Option Bool}
    {arguments : Option (List Value)} {Q : Judgement} {cf : Catalog}
    (hb : q.registry.toCatalog.Built ids) (hQ : Q.Lasting cf) (hbody : k.body = none)
    (ha : q.Compiles (.constructorFactory (some k) choice) a)
    (hf : h.Fitted Q q.registry.toCatalog q.registry.toCatalog)
    (harguments : ∀ vs, arguments = some vs → ∀ v ∈ vs, h.Reaches v) :
    Exec.Maintains Q q.registry.toCatalog h (a.create natives arguments)
      fun h' w => h'.Reaches w := by
  have ha : q.Compiles (.constructorFactory (some k) (some (q.validate choice))) a := ha
  obtain ⟨t, ts, hfind, -, hcreate⟩ := Reflector.create_eq_refuse ha
  have ht : t ∈ q.registry.types := List.mem_of_find?_eq_some hfind
  rw [hcreate]
  -- a call that the guard refuses does nothing
  cases (factoryGuard k (q.validate choice)).verdict? (.factory arguments) with
  | some e => exact .ofExcept hf nofun
  | none =>
    exact (Exec.Maintains.newInstance hf hQ ht (hb.wellFormed.defaults t ht) hbody
      harguments).mapFault

/-- **One use keeps everything admissible where it is.** -/
theorem Use.fitted (hu : r.Use natives h h') (hb : r.toCatalog.Built ids)
    (hgenerated : r.Generated) (hagree : r.Agrees)
    (hf : h.Fitted (.admissible r.toCatalog) r.toCatalog r.toCatalog) :
    h'.Fitted (.admissible r.toCatalog) r.toCatalog r.toCatalog := by
  cases hu with
  | get ha hreceiver hrun =>
    obtain ⟨out₀, hget, -⟩ := World.get_of_getAs hrun
    exact (ha.maintains hb hgenerated hagree hf hreceiver _ _ hget).1
  | set ha hreceiver hv hrun =>
    exact (ha.maintains hb hgenerated hagree hf hreceiver hv _ _ hrun).1
  | create hq hbody ha harguments hrun =>
    subst hq
    exact (maintains_create hb hb.lasting hbody ha hf harguments _ _ hrun).1
  | @createDefault q t a out hq ht hbody ha hrun =>
    subst hq
    rw [Reflector.createDefault_eq ha] at hrun
    have hlen := hb.wellFormed.defaults t ht
    exact ((Exec.Maintains.newDefault hf hb.lasting ht hlen hbody).mapFault _ _ hrun).1

/-- **And so does any number of uses.** -/
theorem fitted_of_uses (hrun : Relation.ReflTransGen (r.Use natives) h h')
    (hb : r.toCatalog.Built ids) (hgenerated : r.Generated) (hagree : r.Agrees)
    (hf : h.Fitted (.admissible r.toCatalog) r.toCatalog r.toCatalog) :
    h'.Fitted (.admissible r.toCatalog) r.toCatalog r.toCatalog := by
  induction hrun with
  | refl => exact hf
  | tail _ huse ih => exact huse.fitted hb hgenerated hagree ih

/-- **Getters answer with what is admissible.** Types are defined and objects
are made by hand, with nothing but admissible values in them; then a registry of
these types is used. If all its accessor methods are generated and types agree,
then whatever any getter answers with after any number of uses is admissible for
the type of its member: null only if that type accepts null, and an instance of
it otherwise. -/
theorem admissible_of_get {s : Depot} {k : Conversion}
    (hs : Depot.Reached (.admissible r.toCatalog) s) (hcatalog : s.catalog = r.toCatalog)
    (hgenerated : r.Generated) (hagree : r.Agrees)
    (hrun : Relation.ReflTransGen (r.Use natives) s.heap h) (ha : r.Reads a type)
    (hreceiver : h.Reaches receiver)
    (hget : (a.getAs natives k receiver).run h = some (.ok v, h')) :
    ∃ t, r.find? type = some t ∧ (v = .null → t.acceptsNull = true) ∧
      (v ≠ .null → h'.isInstance v type = true) := by
  have hb : r.toCatalog.Built s.supply := hcatalog ▸ hs.built
  have hstart : s.heap.Fitted (.admissible r.toCatalog) r.toCatalog r.toCatalog := by
    have hfitted := hs.fitted (hcatalog ▸ hb.lasting)
    rwa [hcatalog] at hfitted
  have hf := fitted_of_uses hrun hb hgenerated hagree hstart
  obtain ⟨t, ht⟩ := ha.exists_type hb
  obtain ⟨out, hget, hout⟩ := World.get_of_getAs hget
  obtain ⟨-, -, hanswer⟩ := ha.maintains hb hgenerated hagree hf hreceiver _ _ hget
  have hadmissible := (hanswer v (hout v rfl)).2 t ht
  refine ⟨t, ht, ?_, fun hv => ?_⟩
  · rintro rfl
    exact hadmissible
  · have hnull : v.isNull = false := by
      cases v with
      | null => exact absurd rfl hv
      | _ => rfl
    rw [Heap.isAdmissible, hnull, if_neg Bool.false_ne_true, Catalog.handle_of_find? ht]
      at hadmissible
    exact hadmissible

end Registry

namespace Sample

/-- No body but generated ones. -/
def natives : Natives := fun _ _ => pure .null

/-! ## A dial whose level is set and shown -/

/-- The types of a meter and a dial, and no object. -/
def gauges : Depot := ⟨dashboard, ⟨78⟩, {}⟩

theorem reached_gauges {Q : Judgement} : Depot.Reached Q gauges :=
  ⟨{}, by decide, .head (.define_zero (d := meterDefinition) (by decide) define_meter)
    (.head (.define_zero (d := dialDefinition) (by decide) define_dial) .refl)⟩

theorem dashboardRegistry_generated : dashboardRegistry.Generated where
  getters := by decide
  setters := by decide
  accessors := by decide

theorem dashboardRegistry_agrees : dashboardRegistry.Agrees where
  getters := by decide
  setters := by decide
  dispatched := by decide

/-- A new dial, set as a meter is. -/
def setDial : Heap where
  objects := #[⟨dial, [.int32 5, .int32 0]⟩]

/-- What a dial shows after it has been set is a level. -/
theorem level_of_dial : ∃ getter,
    dashboardRegistry.Reads getter .int32 ∧
    Relation.ReflTransGen (dashboardRegistry.Use natives) {} setDial ∧
    (getter.getAs natives .value (.object ⟨0⟩)).run setDial =
      some (.ok (.int32 0), setDial) ∧
    setDial.isInstance (.int32 0) .int32 = true := by
  have hnew : Reflector.Compiles ⟨dashboardRegistry, {}⟩ (.typeFactory (some dial)) _ := ⟨{}, rfl⟩
  have hset : Reflector.Compiles ⟨dashboardRegistry, {}⟩
    (.propertySetter (some level) (some true) none) _ := ⟨{}, rfl⟩
  have hget : Reflector.Compiles ⟨dashboardRegistry, {}⟩
    (.propertyGetter (some level) (some true) none) _ := ⟨{}, rfl⟩
  have hmeter : meter ∈ dashboardRegistry.types := by decide
  have hreads := Registry.Reads.property rfl hmeter (by decide) hget
  have hwrites := Registry.Writes.property rfl hmeter (by decide) hset
  have hreceiver (v : Value) (w : Value) :
      Heap.Reaches { objects := #[⟨dial, [v, w]⟩] } (.object ⟨0⟩) := by
    rintro o ⟨⟩
    exact (by decide : 0 < 1)
  have hrun : Relation.ReflTransGen (dashboardRegistry.Use natives) {} setDial :=
    .head (.createDefault rfl (by decide) rfl hnew rfl)
      (.single (.set (v := .int32 5) hwrites (hreceiver _ _) nofun rfl))
  obtain ⟨t, -, -, hinstance⟩ := Registry.admissible_of_get reached_gauges rfl
    dashboardRegistry_generated dashboardRegistry_agrees hrun hreads (hreceiver _ _) (k := .value)
    (v := .int32 0) rfl
  exact ⟨_, hreads, hrun, rfl, hinstance nofun⟩

/-! ## Where types do not agree -/

/-- A number is kept in a field of text. -/
def noteDefinition : TypeDefinition where
  name := "Note"
  kind := .classType
  fields := [{ name := "text", type := .string }]
  properties := [.backedBy "number" .int32 "text"]

def text : Field where
  id := ⟨66⟩
  name := "text"
  declaringType := ⟨65⟩
  type := .string
  visibility := .anyone
  storage := .slot 0

def getNumber : Method where
  id := ⟨67⟩
  name := "get_number"
  declaringType := ⟨65⟩
  parameters := []
  returnType := .int32
  visibility := .anyone
  isStatic := false
  slot := none
  body := some (.readSlot 0)

def setNumber : Method where
  id := ⟨68⟩
  name := "set_number"
  declaringType := ⟨65⟩
  parameters := [⟨"value", .int32, 0⟩]
  returnType := .void
  visibility := .anyone
  isStatic := false
  slot := none
  body := some (.writeSlot 0)

def number : Property := ⟨⟨69⟩, "number", ⟨65⟩, .int32, some getNumber, some setNumber, []⟩

def note : TypeDef :=
  { TypeDef.blank ⟨65⟩ "Note" .classType with
    base := some .object
    fields := [text]
    layout := [text]
    defaults := [.null]
    properties := [number]
    methods := [getNumber, setNumber]
    constructors := [⟨⟨70⟩, ⟨65⟩, [], .anyone, none⟩] }

/-- The types of a note, and no object. -/
def notes : Depot := ⟨⟨(Catalog.standard {}).1.types ++ [note]⟩, ⟨71⟩, {}⟩

theorem define_note :
    ((Catalog.standard {}).1.define noteDefinition (Catalog.standard {}).2).run {} =
      some (.ok ⟨⟨65⟩, notes.catalog, notes.supply⟩, {}) := by rfl

theorem reached_notes {Q : Judgement} : Depot.Reached Q notes :=
  ⟨{}, by decide, .head (.define_zero (d := noteDefinition) (by decide) define_note) .refl⟩

def noteRegistry : Registry := (notes.catalog.freeze notes.supply).1

theorem noteRegistry_generated : noteRegistry.Generated where
  getters := by decide
  setters := by decide
  accessors := by decide

/-- A new note, of which the number is set. -/
def numbered : Heap where
  objects := #[⟨note, [.int32 5]⟩]

/-- **A field of text shows a number**, which it got as the property that it
backs. -/
theorem note_not_typed : ¬ ∀ (r : Registry) (s : Depot) (natives : Natives) (h h' : Heap)
    (a : Accessor) (type : TypeHandle) (receiver v : Value),
    Depot.Reached (.admissible r.toCatalog) s → s.catalog = r.toCatalog → s.heap = {} →
    r.Generated → Relation.ReflTransGen (r.Use natives) {} h → r.Reads a type →
    h.Reaches receiver → (a.getAs natives .value receiver).run h = some (.ok v, h') →
    ∃ t, r.find? type = some t ∧ (v = .null → t.acceptsNull = true) ∧
      (v ≠ .null → h'.isInstance v type = true) := by
  intro hall
  have hnew : Reflector.Compiles ⟨noteRegistry, {}⟩ (.typeFactory (some note)) _ := ⟨{}, rfl⟩
  have hset : Reflector.Compiles ⟨noteRegistry, {}⟩
    (.propertySetter (some number) (some true) none) _ := ⟨{}, rfl⟩
  have hget : Reflector.Compiles ⟨noteRegistry, {}⟩ (.fieldGetter (some text) none) _ := ⟨{}, rfl⟩
  have hnote : note ∈ noteRegistry.types := by decide
  have hreads := Registry.Reads.field rfl hnote (by decide) hget
  have hwrites := Registry.Writes.property rfl hnote (by decide) hset
  have hreceiver (v : Value) : Heap.Reaches { objects := #[⟨note, [v]⟩] } (.object ⟨0⟩) := by
    rintro o ⟨⟩
    exact (by decide : 0 < 1)
  have hrun : Relation.ReflTransGen (noteRegistry.Use natives) {} numbered :=
    .head (.createDefault rfl hnote rfl hnew rfl)
      (.single (.set (v := .int32 5) hwrites (hreceiver _) nofun rfl))
  obtain ⟨t, -, -, hinstance⟩ := hall noteRegistry notes natives numbered _ _ _ _ (.int32 5)
    reached_notes rfl rfl noteRegistry_generated hrun hreads (hreceiver _) rfl
  exact absurd (hinstance nofun) (by decide)

/-- A tag answers with text where a meter does with a number. -/
def tagDefinition : TypeDefinition :=
  { dialDefinition with
    name := "Tag"
    properties := [{ levelDefinition with
      type := .string
      dispatch := .override
      setter := none }] }

def tagLevel : Field := { dialLevel with type := .string }

def tagGetLevel : Method := { dialGetLevel with returnType := .string }

def tag : TypeDef :=
  { dial with
    name := "Tag"
    fields := [tagLevel]
    layout := [meterLevel, tagLevel]
    defaults := [.int32 0, .null]
    properties := [⟨⟨76⟩, "level", ⟨73⟩, .string, some tagGetLevel, none, []⟩]
    methods := [tagGetLevel]
    dispatch := ⟨[(⟨67⟩, tagGetLevel), (⟨69⟩, setLevel)]⟩ }

/-- The types of a meter and a tag, and no object. -/
def tags : Depot := ⟨⟨(Catalog.standard {}).1.types ++ [meter] ++ [tag]⟩, ⟨78⟩, {}⟩

theorem define_tag :
    (Catalog.define ⟨(Catalog.standard {}).1.types ++ [meter]⟩ tagDefinition ⟨73⟩).run {} =
      some (.ok ⟨⟨73⟩, tags.catalog, tags.supply⟩, {}) := by rfl

theorem reached_tags {Q : Judgement} : Depot.Reached Q tags :=
  ⟨{}, by decide, .head (.define_zero (d := meterDefinition) (by decide) define_meter)
    (.head (.define_zero (d := tagDefinition) (by decide) define_tag) .refl)⟩

def tagRegistry : Registry := (tags.catalog.freeze tags.supply).1

/-- A new tag, without text. -/
def newTag : Heap where
  objects := #[⟨tag, [.int32 0, .null]⟩]

/-- **The level of a meter is null on a new tag**, although all properties are
of the types of the fields that back them. -/
theorem tag_not_typed : Depot.Reached (.admissible tagRegistry.toCatalog) tags ∧
    tags.catalog = tagRegistry.toCatalog ∧ tagRegistry.Generated ∧
    (∀ t ∈ tagRegistry.types, ∀ p ∈ t.properties, ∀ f ∈ t.allFields,
      (∀ m ∈ p.getter, m.body = some f.storage.reader → f.type = p.type) ∧
        ∀ m ∈ p.setter, m.body = some f.storage.writer → f.type = p.type) ∧
    ∃ getter, tagRegistry.Reads getter .int32 ∧
      Relation.ReflTransGen (tagRegistry.Use natives) {} newTag ∧
      (getter.getAs natives .value (.object ⟨0⟩)).run newTag = some (.ok .null, newTag) ∧
      ∀ t, tagRegistry.find? .int32 = some t → t.acceptsNull = false := by
  have hnew : Reflector.Compiles ⟨tagRegistry, {}⟩ (.typeFactory (some tag)) _ := ⟨{}, rfl⟩
  have hget : Reflector.Compiles ⟨tagRegistry, {}⟩
    (.propertyGetter (some level) (some true) none) _ := ⟨{}, rfl⟩
  have hreads := Registry.Reads.property rfl (by decide : meter ∈ tagRegistry.types) (by decide)
    hget
  refine ⟨reached_tags, rfl, ⟨by decide, by decide, by decide⟩, by decide, _, hreads,
    .single (.createDefault rfl (by decide) rfl hnew rfl), rfl, ?_⟩
  rintro t ⟨⟩
  rfl

end Sample

end MemberAccess
