import MemberAccess.Proofs.Catalog.Built
/-!
# Catalog — a type and its bases

A class derives from a class that was defined before it, so a catalog that is
read from its newest type to its oldest shows each type ahead of its base.
`Catalog.lineage` walks it that way. In a catalog that definitions have led
to, a lineage is the type followed by the lineage of its base
(`Built.lineage_eq`), and a definition leaves every older lineage as it was
(`lineage_add_of_ne`).
-/

namespace MemberAccess

namespace Catalog

/-- The lineage of a handle among types of which the newest comes first. -/
def lineageIn : List TypeDef → TypeHandle → List TypeDef
  | [], _ => []
  | t :: older, h =>
    if t.handle = h then t :: t.base.elim [] (lineageIn older) else lineageIn older h

/-- **A type and its bases**, the most derived first. Each base is looked up
among the types that are older than what derives from it. -/
def lineage (c : Catalog) (h : TypeHandle) : List TypeDef := lineageIn c.types.reverse h

/-- **All methods that a type and its bases declare**, those of the most
derived type first. -/
def lineageMethods (c : Catalog) (h : TypeHandle) : List Method := (c.lineage h).flatMap (·.methods)

/-- **All methods that types declare.** -/
def declared (c : Catalog) : List Method := c.types.flatMap (·.methods)

variable {c : Catalog} {ids : Supply} {t u : TypeDef} {h : TypeHandle}

theorem lineageIn_sublist (ts : List TypeDef) (h : TypeHandle) : (lineageIn ts h).Sublist ts := by
  induction ts generalizing h with
  | nil => exact .slnil
  | cons t older ih =>
    rw [lineageIn]
    split
    · cases t.base with
      | none => exact (List.nil_sublist older).cons_cons t
      | some b => exact (ih b).cons_cons t
    · exact (ih h).cons t

theorem mem_types_of_mem_lineage (hu : u ∈ c.lineage h) : u ∈ c.types :=
  List.mem_reverse.1 ((lineageIn_sublist _ h).subset hu)

theorem mem_lineageMethods {m : Method} :
    m ∈ c.lineageMethods h ↔ ∃ u ∈ c.lineage h, m ∈ u.methods :=
  List.mem_flatMap

theorem mem_declared {m : Method} : m ∈ c.declared ↔ ∃ u ∈ c.types, m ∈ u.methods :=
  List.mem_flatMap

theorem lineageMethods_subset_declared : c.lineageMethods h ⊆ c.declared := by
  intro m hm
  obtain ⟨u, hu, hm⟩ := mem_lineageMethods.1 hm
  exact mem_declared.2 ⟨u, mem_types_of_mem_lineage hu, hm⟩

/-! ## A type is added -/

/-- The new type comes before the lineage that its base had already. -/
theorem lineage_add_self :
    lineage ⟨c.types ++ [t]⟩ t.handle = t :: t.base.elim [] c.lineage := by
  have hreverse : (c.types ++ [t]).reverse = t :: c.types.reverse := by simp
  rw [lineage, hreverse, lineageIn, if_pos rfl]
  rfl

/-- Every other lineage stays. -/
theorem lineage_add_of_ne (hne : t.handle ≠ h) : lineage ⟨c.types ++ [t]⟩ h = c.lineage h := by
  simp [lineage, lineageIn, hne]

/-- So does what comes behind a type whose base is not new. -/
theorem elim_lineage_add {v : TypeDef} (hv : ∀ h, v.base = some h → t.handle ≠ h) :
    v.base.elim [] (lineage ⟨c.types ++ [t]⟩) = v.base.elim [] c.lineage := by
  cases hbase : v.base with
  | none => rfl
  | some h => exact lineage_add_of_ne (hv h hbase)

theorem declared_add : declared ⟨c.types ++ [t]⟩ = c.declared ++ t.methods := by
  simp [declared]

/-- The base of a new type is the one that it inherits from. -/
theorem Inherits.base_handle {d : TypeDefinition} {base : Option TypeDef} {is : List TypeDef}
    (hin : c.Inherits d h base is t) : t.base = base.map (·.handle) := by
  obtain ⟨_, _, _, _, hframe⟩ := TypeDef.implementAll_frame (d.start h) is
  rw [hin.type_eq, hframe]
  cases base <;> rfl

/-- Only `String` has a base among the built-in types. -/
theorem base_builtinType (n : MemberId) (a : TypeHandle) :
    (builtinType n a).base = none ∨ (builtinType n a).base = some .object := by
  unfold builtinType
  dsimp only
  split
  · exact .inl rfl
  · split
    · exact .inr rfl
    · exact .inl rfl

/-- A base is a type of the catalog. -/
theorem Built.exists_base (hb : c.Built ids) (ht : t ∈ c.types) (hbase : t.base = some h) :
    ∃ b ∈ c.types, b.handle = h := by
  induction hb generalizing t h with
  | standard ids hids =>
    obtain ⟨a, -, rfl⟩ := List.mem_map.1 ht
    obtain ⟨b, hb, hobject, -⟩ := (WellFormed.standard hids).object
    rcases base_builtinType ⟨ids.next⟩ a with hnone | hsome
    · rw [hnone] at hbase
      cases hbase
    · exact ⟨b, hb, hobject.trans (Option.some.inj (hsome.symm.trans hbase))⟩
  | define hc hids hrun ih =>
    obtain ⟨base, is, t₀, dr, hin, hsteps, -, hcatalog, -⟩ := exists_of_define hrun
    rw [hcatalog] at ht ⊢
    rcases mem_concat_cases ht with ht | rfl
    · obtain ⟨b, hb, hhandle⟩ := ih ht hbase
      exact ⟨b, List.mem_append_left _ hb, hhandle⟩
    · rw [hsteps.sameHead.base, hin.base_handle, Option.map_eq_some_iff] at hbase
      obtain ⟨b, hb, hhandle⟩ := hbase
      exact ⟨b, List.mem_append_left _ (hin.mem_base hb).2.1, hhandle⟩

/-- **A lineage is a type followed by the lineage of its base.** -/
theorem Built.lineage_eq (hb : c.Built ids) (ht : t ∈ c.types) :
    c.lineage t.handle = t :: t.base.elim [] c.lineage := by
  induction hb generalizing t with
  | standard ids hids =>
    have hall : ∀ a ∈ TypeHandle.builtins,
        (Catalog.standard ids).1.lineage (builtinType ⟨ids.next⟩ a).handle =
          builtinType ⟨ids.next⟩ a ::
            (builtinType ⟨ids.next⟩ a).base.elim [] (Catalog.standard ids).1.lineage := by
      simp only [TypeHandle.builtins, List.forall_mem_cons, List.not_mem_nil, false_imp_iff,
        implies_true, and_true]
      exact ⟨rfl, rfl, rfl, rfl, rfl, rfl, rfl⟩
    obtain ⟨a, ha, rfl⟩ := List.mem_map.1 ht
    exact hall a ha
  | @define c _ _ _ _ _ _ hc hids hrun ih =>
    obtain ⟨base, is, t₀, dr, hin, hsteps, -, hcatalog, -⟩ := exists_of_define hrun
    have hfresh := (fits_of_define hc.wellFormed hids hin hsteps).fresh
    rw [hcatalog] at ht ⊢
    rcases mem_concat_cases ht with ht | rfl
    · rw [lineage_add_of_ne (hfresh t ht).symm, ih ht]
      refine congrArg _ (elim_lineage_add fun h hbase => ?_).symm
      obtain ⟨b, hmem, rfl⟩ := hc.exists_base ht hbase
      exact (hfresh b hmem).symm
    · rw [lineage_add_self]
      refine congrArg _ (elim_lineage_add fun h hbase => ?_).symm
      rw [hsteps.sameHead.base, hin.base_handle, Option.map_eq_some_iff] at hbase
      obtain ⟨b, hmem, rfl⟩ := hbase
      exact (hfresh b (hin.mem_base hmem).2.1).symm

end Catalog

end MemberAccess
