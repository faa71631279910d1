import MemberAccess.Proofs.Catalog.Storage
/-!
# Catalog — which field types are known

A definition looks the type of a field up to make its zero, so that a field
without an initial value is of a type that was defined before. The hidden field
of a property never has one (`TypeDefinition.initial_of_hidden`). Where there is
an initial value nobody asks for the type.

`Catalog.BuiltFrom` is `Catalog.Built` with the definitions that have led to
the catalog, and `Catalog.DefinesAt` leads from a field back to the place in a
definition that it comes from.
-/

namespace MemberAccess

/-- **A hidden field**, which comes behind the declared ones, never has an
initial value. -/
theorem TypeDefinition.initial_of_hidden {d : TypeDefinition} {i : Nat} {a : FieldDefinition}
    (ha : d.storedFields[i]? = some a) (hi : d.fields.length ≤ i) : a.initial = none := by
  rw [storedFields, List.getElem?_append_right hi] at ha
  split at ha
  · cases ha
  · obtain ⟨p, -, rfl⟩ := List.mem_map.1 (List.mem_of_getElem? ha)
    rfl

namespace Catalog

variable {c : Catalog} {d : TypeDefinition} {ds : List TypeDefinition} {ids : Supply}
  {h h' : Heap} {o : Defined} {dr dr' : Draft} {t u : TypeDef} {f : Field} {a : TypeHandle}

theorem contains_iff : c.contains a = true ↔ ∃ t, c.find? a = some t := Option.isSome_iff_exists

/-- What is known stays known. -/
theorem contains_add (ha : c.contains a = true) : contains ⟨c.types ++ [t]⟩ a = true := by
  obtain ⟨u, hu⟩ := contains_iff.1 ha
  exact contains_iff.2 ⟨u, by rw [find?, List.find?_append, ← find?, hu, Option.some_or]⟩

/-- A name is given once. -/
theorem byName?_of_checkHead (hd : c.checkHead d = .ok ()) : c.byName? d.name = none := by
  unfold checkHead at hd
  split at hd
  · cases hd
  · rename_i hnone
    simpa using hnone

/-! ## Fields as they were defined -/

/-- **A field goes back to a definition** and, unless that has an initial
value, is of a type of the catalog. -/
structure ComesFrom (c : Catalog) (a : FieldDefinition) (f : Field) : Prop where
  defined : f.DefinedBy a
  known : a.initial = none → c.contains f.type = true

theorem ComesFrom.add {a : FieldDefinition} (hf : c.ComesFrom a f) :
    ComesFrom ⟨c.types ++ [t]⟩ a f where
  defined := hf.defined
  known ha := contains_add (hf.known ha)

/-- **Without an initial value a field is added** only if its type is found. -/
theorem comesFrom_of_addField {a : FieldDefinition}
    (hrun : (c.addField d dr a).run h = some (.ok dr', h')) :
    ∃ f, dr'.type.fields = dr.type.fields ++ [f] ∧ c.ComesFrom a f := by
  obtain ⟨-, v, h₁, hv, hrest⟩ := addField_eq_ok hrun
  have hknown : a.initial = none → c.contains a.type = true := by
    intro hnone
    rcases initialValue_cases hv with ⟨_, _, hsome, -⟩ | ⟨⟨e, herror⟩, -⟩ | ⟨t, _, ht, -⟩
    · rw [hnone] at hsome
      cases hsome
    · cases herror
    · exact contains_iff.2 ⟨t, ht⟩
  cases hs : a.isStatic with
  | true =>
    rw [hs, if_pos rfl] at hrest
    obtain ⟨rfl, -⟩ := hrest
    exact ⟨dr.newField a (.cell (h₁.allocCell v).1), rfl, ⟨rfl, rfl, rfl, hs.symm⟩, hknown⟩
  | false =>
    rw [hs, if_neg Bool.false_ne_true] at hrest
    obtain ⟨rfl, -⟩ := hrest
    exact ⟨dr.newField a (.slot dr.type.layout.length), rfl, ⟨rfl, rfl, rfl, hs.symm⟩, hknown⟩

/-- **A type is what a definition has made**: it goes by the name of the
definition, and its fields come from the fields of the definition in order. -/
structure Makes (c : Catalog) (d : TypeDefinition) (t : TypeDef) : Prop where
  named : c.byName? d.name = some t
  fields : List.Forall₂ c.ComesFrom d.storedFields t.fields

theorem Makes.add (hd : c.Makes d t) : Makes ⟨c.types ++ [u]⟩ d t where
  named := by rw [byName?, List.find?_append, ← byName?, hd.named, Option.some_or]
  fields := hd.fields.imp fun _ _ hf => hf.add

/-- **A definition makes the type that it adds.** -/
theorem makes_of_define {ids' : Supply} (hc : c.WellFormed ids)
    (hrun : (c.define d ids').run h = some (.ok o, h')) :
    ∃ t, o.catalog = ⟨c.types ++ [t]⟩ ∧ o.catalog.Makes d t := by
  obtain ⟨t, dr, dr', hhead, hinherit, hfields, hmembers, rfl⟩ := define_eq_ok hrun
  obtain ⟨base, is, hin⟩ := inherits_of_inherit hinherit
  obtain ⟨-, hname, -, -, hnone, -⟩ := hin.head
  have hmember := Draft.steps_of_addMembers hmembers
  have hsteps := (steps_of_addFields hfields).trans hmember.steps
  obtain ⟨-, fs, hfs, hcome⟩ := Exec.forall₂_of_foldlM (I := fun _ _ => True)
    (fun x : Draft => x.type.fields)
    (fun _ _ _ _ _ _ hf => ⟨trivial, comesFrom_of_addField hf⟩) trivial hfields
  have hown : dr'.type.fields = fs := by
    rw [hmember.storage_eq.1, hfs]
    exact congrArg (· ++ fs) hnone
  have hnamed : dr'.type.name = d.name := (hin.extends hc hsteps).name.trans hname
  refine ⟨dr'.type, rfl, ?_, hown ▸ hcome.imp fun _ _ hf => hf.add⟩
  rw [byName?, List.find?_append, ← byName?, byName?_of_checkHead hhead, Option.none_or]
  simp [hnamed]

/-! ## Catalogs and the definitions they come from -/

/-- **A catalog that a list of definitions has led to**: all that were
accepted, in order. -/
inductive BuiltFrom : Catalog → List TypeDefinition → Supply → Prop
  | standard (ids : Supply) (hids : TypeHandle.firstUser ≤ ids.next) :
      BuiltFrom (standard ids).1 [] (standard ids).2
  | define {c : Catalog} {ds : List TypeDefinition} {ids ids' : Supply} {d : TypeDefinition}
      {h h' : Heap} {o : Defined} (hc : BuiltFrom c ds ids) (hids : ids.next ≤ ids'.next)
      (hrun : (c.define d ids').run h = some (.ok o, h')) :
      BuiltFrom o.catalog (ds ++ [d]) o.supply

theorem BuiltFrom.built (hb : c.BuiltFrom ds ids) : c.Built ids := by
  induction hb with
  | standard ids hids => exact .standard ids hids
  | define _ hids hrun ih => exact .define ih hids hrun

/-- Every built catalog comes from some definitions. -/
theorem Built.exists_definitions (hb : c.Built ids) : ∃ ds, c.BuiltFrom ds ids := by
  induction hb with
  | standard ids hids => exact ⟨[], .standard ids hids⟩
  | define _ hids hrun ih =>
    obtain ⟨ds, hds⟩ := ih
    exact ⟨_, .define hds hids hrun⟩

/-- **Whatever declares fields has been made** by one of the definitions. -/
theorem BuiltFrom.exists_makes (hb : c.BuiltFrom ds ids) :
    ∀ t ∈ c.types, t.fields = [] ∨ ∃ d ∈ ds, c.Makes d t := by
  induction hb with
  | standard ids hids => exact forall_mem_standard fun _ _ _ _ _ => .inl rfl
  | @define c ds _ _ d _ _ _ hc _ hrun ih =>
    obtain ⟨t, hcatalog, hmakes⟩ := makes_of_define hc.built.wellFormed hrun
    rw [hcatalog] at hmakes ⊢
    refine forall_mem_concat (fun u hu => (ih u hu).imp_right ?_) ?_
    · rintro ⟨e, he, hmade⟩
      exact ⟨e, List.mem_append_left _ he, hmade.add⟩
    · exact .inr ⟨d, List.mem_append_right _ (List.mem_singleton.2 rfl), hmakes⟩

/-- **The place that a field comes from**: the same in the definition as among
the fields of the type that was made of it. -/
structure DefinesAt (c : Catalog) (d : TypeDefinition) (i : Nat) (a : FieldDefinition)
    (f : Field) : Prop where
  definition : d.storedFields[i]? = some a
  type : ∃ t, c.byName? d.name = some t ∧ t.fields[i]? = some f
  defined : f.DefinedBy a

/-- **Every field comes from a definition**, and if it is hidden or has no
initial value its type is known. -/
theorem BuiltFrom.exists_definesAt (hb : c.BuiltFrom ds ids) (ht : t ∈ c.types)
    (hf : f ∈ t.allFields) :
    ∃ d ∈ ds, ∃ i a, c.DefinesAt d i a f ∧
      (d.fields.length ≤ i ∨ a.initial = none → c.contains f.type = true) := by
  obtain ⟨u, hu, hfu⟩ := hb.built.wellFormed.fields t ht f hf
  rcases hb.exists_makes u hu with hnone | ⟨d, hd, hmakes⟩
  · simp [hnone] at hfu
  · obtain ⟨i, hat⟩ := List.mem_iff_getElem?.1 hfu
    obtain ⟨a, ha, hcome⟩ := exists_getElem?_of_forall₂ hmakes.fields hat
    refine ⟨d, hd, i, a, ⟨ha, ⟨u, hmakes.named, hat⟩, hcome.defined⟩, fun hinitial => ?_⟩
    exact hcome.known (hinitial.elim (TypeDefinition.initial_of_hidden ha) id)

end Catalog

/-- **A registry that a list of definitions has led to.** -/
def Registry.BuiltFrom (r : Registry) (ds : List TypeDefinition) : Prop :=
  ∃ ids, r.toCatalog.BuiltFrom ds ids

/-- The definitions are all that a built registry comes from. -/
theorem Registry.built_iff {r : Registry} : r.Built ↔ ∃ ds, r.BuiltFrom ds := by
  constructor
  · rintro ⟨ids, hb⟩
    obtain ⟨ds, hds⟩ := hb.exists_definitions
    exact ⟨ds, ids, hds⟩
  · rintro ⟨ds, ids, hds⟩
    exact ⟨ids, hds.built⟩

end MemberAccess
