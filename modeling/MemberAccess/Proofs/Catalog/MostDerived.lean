import MemberAccess.Proofs.Catalog.Dispatching
/-!
# Catalog — dispatch finds the most derived method

`Catalog.Dispatches` is the invariant of building behind dispatch: the table of
every type settles the lineage of the type, no two methods of a type clash, and
what interfaces require is in slots that no class carries. A definition keeps
it because a draft in order becomes a type in order (`Dispatches.add`).
-/

namespace MemberAccess

namespace Catalog

/-- **What dispatch comes to in a catalog.** -/
structure Dispatches (c : Catalog) (ids : Supply) : Prop where
  slotted : Slotted c.declared ids
  listed : ∀ t ∈ c.types, t.allMethods ⊆ c.declared
  fromLineage : ∀ t ∈ c.types, t.isInterface = false →
    t.allMethods.Sublist (c.lineageMethods t.handle)
  /-- A method that a type has is the most derived in its slot. -/
  latest : ∀ t ∈ c.types, t.isInterface = false → ∀ m ∈ t.allMethods, ∀ s, m.slot = some s →
    (c.lineageMethods t.handle).find? (·.slot == some s) = some m
  apart : ∀ t ∈ c.types, t.allMethods.Pairwise Method.Apart
  bodied : ∀ t ∈ c.types, t.isInterface = false →
    ∀ m ∈ c.lineageMethods t.handle, m.slot = none → m.body.isSome = true
  /-- No class takes part in a contract by its slot. -/
  required : ∀ t ∈ c.types, t.isInterface = false → ∀ m ∈ c.lineageMethods t.handle,
    ∀ q ∈ c.required, m.slot.isSome = true → q.slot ≠ m.slot
  contractsApart : c.ContractsApart
  table : ∀ t ∈ c.types, t.dispatch.Settles (c.lineageMethods t.handle) (c.contracts t)

variable {c : Catalog} {ids : Supply} {t u : TypeDef} {d : TypeDefinition} {h : TypeHandle}
  {base : Option TypeDef} {is : List TypeDef} {supply : Supply} {dr : Draft}

/-! ## What is inherited -/

/-- The methods that a base and its own bases declare. -/
def baseMethods (c : Catalog) (base : Option TypeDef) : List Method :=
  base.elim [] fun b => c.lineageMethods b.handle

/-- The contracts that a base is under. -/
def baseContracts (c : Catalog) (base : Option TypeDef) : List Method := base.elim [] c.contracts

/-- **A class inherits methods from its base alone**, in their order. -/
theorem Inherits.inheritedMethods_sublist (hin : c.Inherits d h base is t)
    (hi : t.isInterface = false) : t.inheritedMethods.Sublist (base.elim [] (·.allMethods)) := by
  have hkind : d.kind ≠ .interfaceType := by
    rw [TypeDef.isInterface, hin.head.2.2.1] at hi
    simpa using hi
  -- interfaces bring no methods to a class
  have hnone : ∀ (is : List TypeDef) (s : TypeDef), s.isInterface = false →
      (s.implementAll is).inheritedMethods = s.inheritedMethods := by
    intro is
    induction is with
    | nil => exact fun s _ => rfl
    | cons i is ih =>
      intro s hs
      have hstep : (s.implement i).isInterface = false := by
        rw [TypeDef.implement_eq]
        exact hs
      refine (ih (s.implement i) hstep).trans ?_
      simp [TypeDef.implement_eq, hs]
  rw [hin.type_eq]
  cases base with
  | none =>
    have hstart : (d.start h).isInterface = false := by
      simpa [TypeDef.isInterface, TypeDefinition.start, TypeDef.blank] using hkind
    have hmethods : ((d.start h).implementAll is).inheritedMethods = [] := hnone is _ hstart
    simp [TypeDef.withoutClashes, hmethods, keepFirst]
  | some b => exact keepFirst_sublist _ _

/-- No two methods that are inherited clash. -/
theorem Inherits.pairwise_apart (hin : c.Inherits d h base is t) :
    t.allMethods.Pairwise Method.Apart := by
  have hall : t.allMethods = t.inheritedMethods := by
    rw [TypeDef.allMethods, hin.head.2.2.2.2.2.1, List.nil_append]
  rw [hall, hin.type_eq]
  exact (pairwise_keepFirst _ _).imp TypeDef.apart_of_methodsClash

/-- **What a definition starts from is in order.** -/
theorem Dispatches.inherits (hd : c.Dispatches ids) (hin : c.Inherits d h base is t)
    (hle : ids.next ≤ supply.next) :
    Draft.Dispatches c (c.baseMethods base) (c.baseContracts base) ⟨t, supply⟩ := by
  obtain ⟨-, -, -, -, -, hmethods, -, -⟩ := hin.head
  have hclass : ∀ b, base = some b → b ∈ c.types ∧ b.isInterface = false := by
    intro b hb
    obtain ⟨-, hmem, hkind⟩ := hin.mem_base hb
    exact ⟨hmem, by rw [TypeDef.isInterface, hkind]; rfl⟩
  have hnil : ∀ m, m ∉ t.methods := by simp [hmethods]
  refine
    { slotted := by simpa [hmethods] using hd.slotted.mono hle
      known := ?known, required := ?required, basesApart := ?basesApart
      inherited := fun m hm => ?inherited, fromBases := fun hi => ?fromBases
      latest := fun hi m hm => ?latest, apart := hin.pairwise_apart
      bodied := fun _ m hm => ?bodied, taken := fun m hm => absurd hm (hnil m), table := ?table }
  -- without a base there is nothing to speak of, with one it is that of the base
  case known =>
    cases base with
    | none => exact List.nil_subset _
    | some b => exact lineageMethods_subset_declared
  case required =>
    cases base with
    | none => exact List.nil_subset _
    | some b => exact contracts_subset_required
  case basesApart =>
    cases base with
    | none => exact fun m hm => absurd hm List.not_mem_nil
    | some b => exact hd.required b (hclass b rfl).1 (hclass b rfl).2
  case inherited =>
    rcases hin.mem_inheritedMethods hm with ⟨i, hi, hm⟩ | ⟨b, hb, hm⟩
    · exact hd.listed i (hin.mem_interfaces hi).1 hm
    · exact hd.listed b (hclass b hb).1 hm
  case fromBases =>
    have hsub := hin.inheritedMethods_sublist hi
    cases base with
    | none => exact hsub
    | some b => exact hsub.trans (hd.fromLineage b (hclass b rfl).1 (hclass b rfl).2)
  case latest =>
    have hmem := (hin.inheritedMethods_sublist hi).subset hm
    cases base with
    | none => cases hmem
    | some b => exact hd.latest b (hclass b rfl).1 (hclass b rfl).2 m hmem
  case bodied =>
    have hmem : m ∈ c.baseMethods base := (List.mem_append.1 hm).resolve_left (hnil m)
    cases base with
    | none => cases hmem
    | some b => exact hd.bodied b (hclass b rfl).1 (hclass b rfl).2 m hmem
  case table =>
    rw [hmethods, List.nil_append, hin.dispatch_eq]
    cases base with
    | none => exact .empty []
    | some b => exact hd.table b (hclass b rfl).1

/-! ## A type is added -/

theorem lineageMethods_add_self (hbase : t.base = base.map (·.handle)) :
    lineageMethods ⟨c.types ++ [t]⟩ t.handle = t.methods ++ c.baseMethods base := by
  rw [lineageMethods, lineage_add_self, hbase]
  cases base <;> rfl

/-- **A draft in order becomes a type in order.** -/
theorem Dispatches.add (hd : c.Dispatches ids)
    (hdr : dr.Dispatches c (c.baseMethods base) (c.contracts dr.type))
    (hbase : dr.type.base = base.map (·.handle))
    (hfresh : ∀ u ∈ c.types, u.handle ≠ dr.type.handle) :
    Dispatches ⟨c.types ++ [dr.type]⟩ dr.supply := by
  have hself := lineageMethods_add_self (c := c) hbase
  have hother : ∀ u ∈ c.types,
      lineageMethods ⟨c.types ++ [dr.type]⟩ u.handle = c.lineageMethods u.handle := by
    intro u hu
    rw [lineageMethods, lineage_add_of_ne (hfresh u hu).symm]
    rfl
  -- an interface opens slots that nothing else is in
  have hnew : ∀ q ∈ dr.type.methods, dr.type.isInterface = true → ∀ k ∈ c.declared,
      q.slot.isSome = true → q.slot ≠ k.slot := by
    intro q hq hi k hk hs heq
    rw [(hdr.taken q hq hs k hk heq.symm).1] at hi
    cases hi
  refine
    { slotted := declared_add ▸ hdr.slotted
      listed := ?listed
      fromLineage := forall_mem_concat (fun u hu hi => ?oldLineage) fun hi => ?newLineage
      latest := forall_mem_concat (fun u hu hi => ?oldLatest) fun hi m hm s hs => ?newLatest
      apart := forall_mem_concat hd.apart hdr.apart
      bodied := forall_mem_concat (fun u hu hi => ?oldBodied) fun hi => ?newBodied
      required := forall_mem_concat (fun u hu hi m hm q hq hs => ?oldRequired)
        fun hi m hm q hq hs => ?newRequired
      contractsApart := ?contractsApart
      table := forall_mem_concat (fun u hu => ?oldTable) ?newTable }
  case listed =>
    rw [declared_add]
    refine forall_mem_concat
      (fun u hu => List.subset_append_of_subset_left _ (hd.listed u hu)) fun m hm => ?_
    rcases List.mem_append.1 hm with hm | hm
    · exact List.mem_append_right _ hm
    · exact List.mem_append_left _ (hdr.inherited hm)
  case oldLineage =>
    rw [hother u hu]
    exact hd.fromLineage u hu hi
  case newLineage =>
    rw [hself]
    exact hdr.allMethods_sublist hi
  case oldLatest =>
    rw [hother u hu]
    exact hd.latest u hu hi
  case newLatest =>
    rw [hself]
    exact hdr.find?_slot hi hm hs
  case oldBodied =>
    rw [hother u hu]
    exact hd.bodied u hu hi
  case newBodied =>
    rw [hself]
    exact hdr.bodied hi
  case oldRequired =>
    rw [hother u hu] at hm
    rcases mem_required_add.1 hq with hq | ⟨hqi, hq⟩
    · exact hd.required u hu hi m hm q hq hs
    · intro heq
      exact hnew q hq hqi m (lineageMethods_subset_declared hm) (heq ▸ hs) heq
  case newRequired =>
    rw [hself] at hm
    rcases mem_required_add.1 hq with hq | ⟨hqi, -⟩
    · exact hdr.slot_ne_required hm hq hs
    · rw [hi] at hqi
      cases hqi
  case contractsApart =>
    intro q hq q' hq' hs heq
    rcases mem_required_add.1 hq with hq | ⟨hqi, hq⟩
    · rcases mem_required_add.1 hq' with hq' | ⟨hqi', hq'⟩
      · exact hd.contractsApart q hq q' hq' hs heq
      · exact absurd heq.symm (hnew q' hq' hqi' q (required_subset_declared hq) (heq ▸ hs))
    · rcases mem_required_add.1 hq' with hq' | ⟨-, hq'⟩
      · exact absurd heq (hnew q hq hqi q' (required_subset_declared hq') hs)
      · obtain ⟨s, hqs⟩ := Option.isSome_iff_exists.1 hs
        exact eq_of_slot (List.pairwise_append.1 hdr.apart).1 hq hq' hqs (heq ▸ hqs)
  case oldTable =>
    rw [hother u hu]
    exact (hd.table u hu).mono contracts_add
  case newTable =>
    rw [hself]
    exact hdr.table.mono contracts_add

/-- Built-in types declare no methods. -/
theorem Dispatches.standard (ids : Supply) :
    (Catalog.standard ids).1.Dispatches (Catalog.standard ids).2 := by
  have hframe : ∀ t ∈ (Catalog.standard ids).1.types, t.allMethods = [] ∧ t.methods = [] ∧
      t.dispatch = {} := forall_mem_standard fun _ _ _ _ _ => ⟨rfl, rfl, rfl⟩
  have hdeclared : (Catalog.standard ids).1.declared = [] :=
    List.flatMap_eq_nil_iff.2 fun t ht => (hframe t ht).2.1
  have hlineage : ∀ h, (Catalog.standard ids).1.lineageMethods h = [] := by
    intro h
    exact List.subset_nil.1 (hdeclared ▸ lineageMethods_subset_declared)
  have hrequired : ∀ q, q ∉ (Catalog.standard ids).1.required := by
    intro q hq
    have hq := required_subset_declared hq
    rw [hdeclared] at hq
    cases hq
  have hnone : ∀ t ∈ (Catalog.standard ids).1.types, ∀ m, m ∉ t.allMethods := fun t ht m hm => by
    rw [(hframe t ht).1] at hm
    cases hm
  have hlineageless : ∀ h m, m ∉ (Catalog.standard ids).1.lineageMethods h := fun h m hm => by
    rw [hlineage] at hm
    cases hm
  exact
    { slotted := hdeclared ▸ .nil _
      listed := fun t ht m hm => absurd hm (hnone t ht m)
      fromLineage := fun t ht _ => (hframe t ht).1 ▸ List.nil_sublist _
      latest := fun t ht _ m hm => absurd hm (hnone t ht m)
      apart := fun t ht => (hframe t ht).1 ▸ .nil
      bodied := fun _ _ _ m hm => absurd hm (hlineageless _ m)
      required := fun _ _ _ _ _ q hq => absurd hq (hrequired q)
      contractsApart := fun q hq => absurd hq (hrequired q)
      table := fun t ht => by
        rw [(hframe t ht).2.2, hlineage]
        exact .empty _ }

/-- **A type that methods have been added to** is in order, under all of its
contracts, before any is bound. -/
theorem Dispatches.drafted (hd : c.Dispatches ids) (hin : c.Inherits d h base is t)
    (hle : ids.next ≤ supply.next) (hs : Draft.MethodSteps ⟨t, supply⟩ dr) :
    dr.Dispatches c (c.baseMethods base) (c.contracts dr.type) := by
  refine ((hd.inherits hin hle).steps hs).mono ?_ contracts_subset_required
  cases base with
  | none => exact List.nil_subset _
  | some b =>
    refine contracts_mono fun a ha => ?_
    rw [hs.ancestors_eq]
    exact hin.mem_ancestors.2 (.inr (.inr ⟨b, rfl, ha⟩))

namespace Phases

variable {n : Nat} {t' : TypeDef} {dr' : Draft}

/-- **Additions keep dispatch in order.** -/
theorem added (hp : c.Phases d n base is t dr t' dr') (hd : c.Dispatches ids)
    (hle : ids.next ≤ n) : dr.Dispatches c (c.baseMethods base) (c.baseContracts base) :=
  (hd.inherits hp.inherits (Nat.le_succ_of_le hle)).steps hp.adds

/-- The type is under all its contracts before they are bound. -/
theorem contracted (hp : c.Phases d n base is t dr t' dr') (hd : c.Dispatches ids)
    (hle : ids.next ≤ n) : dr.Dispatches c (c.baseMethods base) (c.contracts dr.type) :=
  hd.drafted hp.inherits (Nat.le_succ_of_le hle) hp.adds

/-- **Binding keeps dispatch in order.** -/
theorem finished (hp : c.Phases d n base is t dr t' dr') (hd : c.Dispatches ids)
    (hle : ids.next ≤ n) : dr'.Dispatches c (c.baseMethods base) (c.contracts dr'.type) := by
  have hcontracts : c.contracts dr'.type = c.contracts dr.type := by
    rw [contracts, contracts, hp.ancestors_eq.1, hp.ancestors_eq.2]
  rw [hcontracts]
  exact ((hp.contracted hd hle).bindAll
    (fun i hi q hq => mem_contracts_of_mem_interfacesOf hi hq) hp.binds).keeps hp.keeps

end Phases

/-- **A definition keeps dispatch in order**, phase by phase. -/
theorem Dispatches.define {ids' : Supply} {h h' : Heap} {o : Defined} (hd : c.Dispatches ids)
    (hc : c.WellFormed ids) (hids : ids.next ≤ ids'.next)
    (hrun : (c.define d ids').run h = some (.ok o, h')) : o.catalog.Dispatches o.supply := by
  obtain ⟨base, is, t, dr, t', dr', hp, hcatalog, hsupply⟩ := phases_of_define hrun
  rw [hcatalog, hsupply]
  exact hd.add (hp.finished hd hids) hp.base_eq (fits_of_define hc hids hp.inherits hp.steps).fresh

/-- **Every built catalog dispatches.** -/
theorem Built.dispatches (hb : c.Built ids) : c.Dispatches ids := by
  induction hb with
  | standard ids _ => exact .standard ids
  | define hc hids hrun ih => exact ih.define hc.wellFormed hids hrun

/-- **A method of the lineage resolves** to the first that fills its slot. -/
theorem Dispatches.resolve?_eq (hd : c.Dispatches ids) (ht : t ∈ c.types) {m : Method}
    {s : VirtualSlot} (hm : m ∈ c.lineageMethods t.handle) (hs : m.slot = some s) :
    t.resolve? m = (c.lineageMethods t.handle).find? (·.fills s) := by
  have hcarried := (hd.table t ht).carried m hm s hs
  simp only [TypeDef.resolve?, hs, hcarried]
  cases hfind : (c.lineageMethods t.handle).find? (·.fills s) with
  | some n => rfl
  | none =>
    -- a method with a body would fill the slot itself
    have hbody : m.body.isSome = false := by
      have hnot := List.find?_eq_none.1 hfind m hm
      simpa [Method.fills, hs] using hnot
    simp [hbody]

end Catalog

/-- **Dispatch finds the most derived method.** In a built registry the lineage
of a type is the type followed by the lineage of its base, each type of it
declares at most one method in a slot, and every method of it in a slot
resolves to the method with a body that the first type to declare one in the
slot declares, or to nothing where no type does. -/
theorem Registry.Built.resolve?_eq_findSome? {r : Registry} (hr : r.Built) {t : TypeDef}
    (ht : t ∈ r.types) :
    r.lineage t.handle = t :: t.base.elim [] r.lineage ∧
      ∀ s, (∀ u ∈ r.lineage t.handle, (u.methods.filter (·.slot == some s)).length ≤ 1) ∧
        ∀ u ∈ r.lineage t.handle, ∀ m ∈ u.methods, m.slot = some s →
          t.resolve? m =
            (r.lineage t.handle).findSome? fun v => v.methods.find? (·.fills s) := by
  obtain ⟨ids, hb⟩ := hr
  have hd := hb.dispatches
  refine ⟨hb.lineage_eq ht, fun s => ⟨fun u hu => ?_, fun u hu m hm hs => ?_⟩⟩
  · have hapart := hd.apart u (Catalog.mem_types_of_mem_lineage hu)
    exact length_filter_slot_le (List.pairwise_append.1 hapart).1
  · rw [← List.find?_flatMap]
    exact hd.resolve?_eq ht (Catalog.mem_lineageMethods.2 ⟨u, hu, hm⟩) hs

namespace Sample

/-! ## Methods that are hidden, overridden and left open -/

def readDefinition : MethodDefinition where
  name := "read"

def readerDefinition : TypeDefinition where
  name := "Reader"
  kind := .interfaceType
  methods := [readDefinition]

/-- Another interface that requires the same. -/
def sourceDefinition : TypeDefinition := { readerDefinition with name := "Source" }

/-- A class with a method out of dispatch. -/
def streamDefinition : TypeDefinition where
  name := "Stream"
  kind := .classType
  methods := [{ readDefinition with body := some (.native ⟨1⟩) }]

/-- A class that hides it behind a virtual one. -/
def fileDefinition : TypeDefinition where
  name := "File"
  kind := .classType
  base := some ⟨71⟩
  interfaces := [⟨65⟩]
  methods := [{ readDefinition with dispatch := .virtual, body := some (.native ⟨2⟩) }]

/-- An abstract class that overrides it without a body, and opens a slot. -/
def filterDefinition : TypeDefinition where
  name := "Filter"
  kind := .classType
  isAbstract := true
  base := some ⟨74⟩
  methods := [
    { readDefinition with dispatch := .override },
    { name := "flush", dispatch := .virtual }]

/-- A class that leaves everything to its bases. -/
def archiveDefinition : TypeDefinition where
  name := "Archive"
  kind := .classType
  base := some ⟨78⟩
  interfaces := [⟨68⟩]

/-- The same without the abstract class in between. -/
def tapeDefinition : TypeDefinition :=
  { archiveDefinition with name := "Tape", base := some ⟨74⟩ }

/-- What readers require. -/
def readerRead : Method where
  id := ⟨67⟩
  name := "read"
  declaringType := ⟨65⟩
  parameters := []
  returnType := .void
  visibility := .anyone
  isStatic := false
  slot := some ⟨66⟩
  body := none

/-- What sources require. -/
def sourceRead : Method :=
  { readerRead with id := ⟨70⟩, declaringType := ⟨68⟩, slot := some ⟨69⟩ }

def streamRead : Method :=
  { readerRead with
    id := ⟨72⟩
    declaringType := ⟨71⟩
    slot := none
    body := some (.native ⟨1⟩) }

def fileRead : Method :=
  { readerRead with
    id := ⟨76⟩
    declaringType := ⟨74⟩
    slot := some ⟨75⟩
    body := some (.native ⟨2⟩) }

def filterRead : Method :=
  { fileRead with id := ⟨79⟩, declaringType := ⟨78⟩, body := none }

def flush : Method :=
  { filterRead with id := ⟨81⟩, name := "flush", slot := some ⟨80⟩ }

def reader : TypeDef :=
  { TypeDef.blank ⟨65⟩ "Reader" .interfaceType with methods := [readerRead] }

def source : TypeDef :=
  { TypeDef.blank ⟨68⟩ "Source" .interfaceType with methods := [sourceRead] }

def stream : TypeDef :=
  { TypeDef.blank ⟨71⟩ "Stream" .classType with
    base := some .object
    methods := [streamRead]
    constructors := [⟨⟨73⟩, ⟨71⟩, [], .anyone, none⟩] }

def file : TypeDef :=
  { TypeDef.blank ⟨74⟩ "File" .classType with
    base := some ⟨71⟩
    interfaces := [⟨65⟩]
    ancestors := [.object, ⟨74⟩, ⟨65⟩, ⟨71⟩]
    methods := [fileRead]
    inheritedMethods := [streamRead]
    constructors := [⟨⟨77⟩, ⟨74⟩, [], .anyone, none⟩]
    dispatch := ⟨[(⟨66⟩, fileRead), (⟨75⟩, fileRead)]⟩ }

def filter : TypeDef :=
  { TypeDef.blank ⟨78⟩ "Filter" .classType with
    declaredAbstract := true
    base := some ⟨74⟩
    ancestors := [.object, ⟨78⟩, ⟨74⟩, ⟨65⟩, ⟨71⟩]
    methods := [filterRead, flush]
    inheritedMethods := [streamRead]
    constructors := [⟨⟨82⟩, ⟨78⟩, [], .family, none⟩]
    dispatch := file.dispatch }

def archive : TypeDef :=
  { TypeDef.blank ⟨83⟩ "Archive" .classType with
    base := some ⟨78⟩
    interfaces := [⟨68⟩]
    ancestors := [.object, ⟨83⟩, ⟨68⟩, ⟨78⟩, ⟨74⟩, ⟨65⟩, ⟨71⟩]
    inheritedMethods := [filterRead, flush, streamRead]
    constructors := [⟨⟨84⟩, ⟨83⟩, [], .anyone, none⟩]
    dispatch := ⟨[(⟨69⟩, streamRead), (⟨66⟩, fileRead), (⟨75⟩, fileRead)]⟩ }

def tape : TypeDef :=
  { TypeDef.blank ⟨85⟩ "Tape" .classType with
    base := some ⟨74⟩
    interfaces := [⟨68⟩]
    ancestors := [.object, ⟨85⟩, ⟨68⟩, ⟨74⟩, ⟨65⟩, ⟨71⟩]
    inheritedMethods := [fileRead, streamRead]
    constructors := [⟨⟨86⟩, ⟨85⟩, [], .anyone, none⟩]
    dispatch := ⟨[(⟨69⟩, fileRead), (⟨66⟩, fileRead), (⟨75⟩, fileRead)]⟩ }

/-- The built-in types and some of those above, in the order of definition. -/
def library (ts : List TypeDef) : Catalog := ⟨(Catalog.standard {}).1.types ++ ts⟩

theorem define_reader : ((library []).define readerDefinition ⟨65⟩).run {} =
    some (.ok ⟨⟨65⟩, library [reader], ⟨68⟩⟩, {}) := by rfl

theorem define_source : ((library [reader]).define sourceDefinition ⟨68⟩).run {} =
    some (.ok ⟨⟨68⟩, library [reader, source], ⟨71⟩⟩, {}) := by rfl

theorem define_stream : ((library [reader, source]).define streamDefinition ⟨71⟩).run {} =
    some (.ok ⟨⟨71⟩, library [reader, source, stream], ⟨74⟩⟩, {}) := by rfl

theorem define_file : ((library [reader, source, stream]).define fileDefinition ⟨74⟩).run {} =
    some (.ok ⟨⟨74⟩, library [reader, source, stream, file], ⟨78⟩⟩, {}) := by rfl

theorem define_filter :
    ((library [reader, source, stream, file]).define filterDefinition ⟨78⟩).run {} =
      some (.ok ⟨⟨78⟩, library [reader, source, stream, file, filter], ⟨83⟩⟩, {}) := by rfl

theorem define_archive :
    ((library [reader, source, stream, file, filter]).define archiveDefinition ⟨83⟩).run {} =
      some (.ok ⟨⟨83⟩, library [reader, source, stream, file, filter, archive], ⟨85⟩⟩, {}) := by
  rfl

/-- All of them. -/
def shelf : Catalog := library [reader, source, stream, file, filter, archive, tape]

theorem define_tape :
    ((library [reader, source, stream, file, filter, archive]).define tapeDefinition ⟨85⟩).run {} =
      some (.ok ⟨⟨85⟩, shelf, ⟨87⟩⟩, {}) := by rfl

theorem shelf_built : shelf.Built ⟨87⟩ := by
  have hreader := Catalog.Built.define (.standard {} (by decide)) (Nat.le_refl _) define_reader
  have hsource := hreader.define (Nat.le_refl _) define_source
  have hstream := hsource.define (Nat.le_refl _) define_stream
  have hfile := hstream.define (Nat.le_refl _) define_file
  have hfilter := hfile.define (Nat.le_refl _) define_filter
  exact (hfilter.define (Nat.le_refl _) define_archive).define (Nat.le_refl _) define_tape

def shelfRegistry : Registry := (shelf.freeze ⟨87⟩).1

theorem shelfRegistry_built : shelfRegistry.Built := ⟨⟨87⟩, shelf_built⟩

/-- An archive reads like a file, though its abstract base declares that it
reads otherwise, and there is no way to flush it. -/
theorem resolve?_archive :
    archive ∈ shelfRegistry.types ∧
      shelfRegistry.lineage ⟨83⟩ = archive :: archive.base.elim [] shelfRegistry.lineage ∧
      archive.resolve? filterRead = some fileRead ∧ archive.resolve? flush = none := by
  have ht : archive ∈ shelfRegistry.types := by decide
  obtain ⟨hlineage, hslot⟩ := Registry.Built.resolve?_eq_findSome? shelfRegistry_built ht
  have hfilter : filter ∈ shelfRegistry.lineage archive.handle := by decide
  refine ⟨ht, hlineage, ?_, ?_⟩
  · rw [(hslot ⟨75⟩).2 filter hfilter filterRead (by decide) rfl]
    decide
  · rw [(hslot ⟨80⟩).2 filter hfilter flush (by decide) rfl]
    decide

end Sample

end MemberAccess
