import Mathlib.Order.Defs.Unbundled
import MemberAccess.Proofs.Catalog.Contracts
import MemberAccess.Proofs.Catalog.MostDerived
/-!
# Catalog — subtyping is reachability

A type names its parents: a base, and the interfaces that it implements or
extends. Ancestors are collected once, when a type is defined, out of what its
parents have collected. `Catalog.Hierarchy` is what building keeps of that:
parents are older than what names them, and the ancestors of a type are itself,
`Object` and those of its parents. As numbers only ascend, whatever climbs from
type to parent ends, so the ancestors are the types that parents lead to
(`mem_ancestors_iff`), two types never are kinds of each other
(`raw_lt_of_mem_ancestors`), and a type that may not be a parent is an ancestor
of itself alone (`eq_of_mem_ancestors`).
-/

namespace MemberAccess

/-- **A type names a parent**: its base, or an interface that it implements or
extends. -/
def TypeDef.Names (t : TypeDef) (h : TypeHandle) : Prop := t.base = some h ∨ h ∈ t.interfaces

/-- **A type that others may name**: an interface, or a class that is not
sealed. -/
def TypeDef.IsOpen (t : TypeDef) : Prop :=
  t.isInterface = true ∨ t.kind = .classType ∧ t.isSealed = false

namespace TypeDef

/-- Interfaces are recorded in order. -/
theorem interfaces_implementAll (t : TypeDef) (is : List TypeDef) :
    (t.implementAll is).interfaces = t.interfaces ++ is.map (·.handle) := by
  induction is generalizing t with
  | nil => simp [implementAll]
  | cons i is ih =>
    have htail := ih (t.implement i)
    rw [implement_eq] at htail
    simpa [implementAll, implement_eq] using htail

end TypeDef

namespace Catalog

variable {c : Catalog} {ids : Supply} {t u : TypeDef} {h a b : TypeHandle}

/-! ## What a definition names -/

/-- A base is a class that is not sealed. -/
theorem isOpen_of_resolveBase {d : TypeDefinition} (hb : c.resolveBase d = .ok (some t)) :
    t.IsOpen := by
  have hclass := (resolveBase_eq_some hb).2.2
  unfold resolveBase at hb
  split at hb
  · obtain ⟨b, -, hb⟩ := bind_eq_ok.1 hb
    split at hb
    · cases hb
    · split at hb
      · cases hb
      · rename_i hsealed
        cases hb
        exact .inr ⟨hclass, by simpa using hsealed⟩
  · obtain ⟨b, -, hb⟩ := bind_eq_ok.1 hb
    cases hb
  · cases hb

/-- **The interfaces recorded are those taken over from.** -/
theorem Inherits.interfaces_map {d : TypeDefinition} {base : Option TypeDef} {is : List TypeDef}
    (hin : c.Inherits d h base is t) : t.interfaces = is.map (·.handle) := by
  have hall := TypeDef.interfaces_implementAll (d.start h) is
  rw [hin.type_eq]
  cases base <;> exact hall.trans (List.nil_append _)

/-- What a new type names is what it inherits from. -/
theorem Inherits.names_iff {d : TypeDefinition} {base : Option TypeDef} {is : List TypeDef}
    (hin : c.Inherits d h base is t) :
    t.Names a ↔ (∃ i ∈ is, i.handle = a) ∨ ∃ b, base = some b ∧ b.handle = a := by
  rw [TypeDef.Names, hin.base_handle, hin.interfaces_map, List.mem_map, Option.map_eq_some_iff]
  exact or_comm

/-- Only what can be defined has its head accepted. -/
theorem isDefinable_of_checkHead {d : TypeDefinition} (hd : c.checkHead d = .ok ()) :
    d.kind.isDefinable = true := by
  unfold checkHead at hd
  split at hd
  · cases hd
  · split at hd
    · assumption
    · cases hd

/-- So nothing new is a type of nothing. -/
theorem kind_ne_void_of_checkHead {d : TypeDefinition} (hd : c.checkHead d = .ok ()) :
    d.kind ≠ .void := by
  intro hkind
  have hdefinable := isDefinable_of_checkHead hd
  rw [hkind] at hdefinable
  cases hdefinable

/-- Before it inherits, a new type is a kind of itself and of `Object`. -/
theorem mem_ancestors_start {d : TypeDefinition} (hd : d.kind ≠ .void) :
    a ∈ (d.start h).ancestors ↔ a = h ∨ a = .object := by
  simp only [TypeDefinition.start, TypeDef.blank, if_neg hd, List.mem_insert_iff,
    List.mem_singleton]
  exact or_comm

/-! ## The hierarchy -/

/-- **A type descends from types of a catalog**, its parents, which are older
and may be named. -/
structure Descends (c : Catalog) (t : TypeDef) : Prop where
  parents : ∀ h, t.Names h → ∃ u ∈ c.types, u.handle = h ∧ h.raw < t.handle.raw ∧ u.IsOpen
  /-- It is a kind of itself, of `Object`, and of what its parents are kinds of. -/
  ancestors : ∀ a, a ∈ t.ancestors ↔ a = t.handle ∨ (a = .object ∧ t.handle ≠ .void) ∨
    ∃ u ∈ c.types, t.Names u.handle ∧ a ∈ u.ancestors

/-- **What holds of the hierarchy of every built catalog.** -/
structure Hierarchy (c : Catalog) : Prop where
  builtin : ∃ n, ∀ a ∈ TypeHandle.builtins, builtinType n a ∈ c.types
  descends : ∀ t ∈ c.types, c.Descends t

/-- A type goes on descending when another is added, which it cannot name. -/
theorem Descends.add (hu : c.Descends u) (hfresh : ∀ v ∈ c.types, v.handle ≠ t.handle) :
    Descends ⟨c.types ++ [t]⟩ u where
  parents := by
    intro h hnames
    obtain ⟨v, hv, hrest⟩ := hu.parents h hnames
    exact ⟨v, List.mem_append_left _ hv, hrest⟩
  ancestors := by
    intro a
    have hsame : (∃ v ∈ c.types ++ [t], u.Names v.handle ∧ a ∈ v.ancestors) ↔
        ∃ v ∈ c.types, u.Names v.handle ∧ a ∈ v.ancestors := by
      constructor
      · rintro ⟨v, hv, hnames, ha⟩
        rcases mem_concat_cases hv with hv | rfl
        · exact ⟨v, hv, hnames, ha⟩
        · obtain ⟨w, hw, hhandle, -⟩ := hu.parents _ hnames
          exact absurd hhandle (hfresh w hw)
      · rintro ⟨v, hv, hnames, ha⟩
        exact ⟨v, List.mem_append_left _ hv, hnames, ha⟩
    rw [hsame]
    exact hu.ancestors a

theorem Hierarchy.add (hy : c.Hierarchy) (hfresh : ∀ v ∈ c.types, v.handle ≠ t.handle)
    (ht : c.Descends t) : Hierarchy ⟨c.types ++ [t]⟩ := by
  obtain ⟨n, hbuiltin⟩ := hy.builtin
  refine ⟨⟨n, fun a ha => List.mem_append_left _ (hbuiltin a ha)⟩, ?_⟩
  exact forall_mem_concat (fun u hu => (hy.descends u hu).add hfresh) (ht.add hfresh)

/-- Of the built-in types only `String` names a parent. -/
theorem names_builtinType (n : MemberId) :
    (builtinType n a).Names h ↔ a = .string ∧ h = .object := by
  rw [TypeDef.Names, builtinType]
  by_cases hobject : a = .object
  · subst hobject
    simp [TypeDef.blank, TypeHandle.object, TypeHandle.string]
  · by_cases hstring : a = .string
    · subst hstring
      simp [TypeDef.blank, TypeHandle.object, TypeHandle.string, eq_comm]
    · simp [hobject, hstring, TypeDef.blank]

theorem mem_ancestors_builtinType (n : MemberId) :
    b ∈ (builtinType n a).ancestors ↔ b = a ∨ (b = .object ∧ a ≠ .void) := by
  obtain ⟨_, _, _, hframe⟩ := builtinType_frame n a
  have hvoid : builtinKind a = .void ↔ a = .void := by
    unfold builtinKind
    split_ifs with h <;> simp [h]
  rw [hframe]
  by_cases ha : a = .void
  · subst ha
    simp [TypeDef.blank, hvoid.2 rfl]
  · simp [TypeDef.blank, ha, hvoid, or_comm]

@[simp] theorem handle_builtinType (n : MemberId) : (builtinType n a).handle = a := by
  obtain ⟨_, _, _, hframe⟩ := builtinType_frame n a
  rw [hframe]
  rfl

/-- **The built-in types are a hierarchy.** -/
theorem Hierarchy.standard (ids : Supply) : (standard ids).1.Hierarchy := by
  refine ⟨⟨⟨ids.next⟩, fun a ha => List.mem_map_of_mem ha⟩, fun t ht => ?_⟩
  obtain ⟨a, -, rfl⟩ := List.mem_map.1 ht
  refine ⟨fun h hnames => ?_, fun b => ?_⟩
  · obtain ⟨rfl, rfl⟩ := (names_builtinType _).1 hnames
    refine ⟨builtinType ⟨ids.next⟩ .object, List.mem_map_of_mem (by decide), rfl, ?_,
      .inr ⟨rfl, rfl⟩⟩
    rw [handle_builtinType]
    decide
  · rw [handle_builtinType, mem_ancestors_builtinType]
    refine ⟨fun hb => hb.imp_right .inl, ?_⟩
    rintro (hb | hb | ⟨u, hu, hnames, hb⟩)
    · exact .inl hb
    · exact .inr hb
    · -- `Object` brings `String` nothing but itself
      obtain ⟨o, -, rfl⟩ := List.mem_map.1 hu
      obtain ⟨rfl, hobject⟩ := (names_builtinType _).1 hnames
      obtain rfl : o = .object := (handle_builtinType _).symm.trans hobject
      have hroot : b = .object := by
        rcases (mem_ancestors_builtinType _).1 hb with hb | hb
        · exact hb
        · exact hb.1
      exact .inr ⟨hroot, by decide⟩

/-- **What a definition adds descends from what it inherits from.** -/
theorem descends_of_define {d : TypeDefinition} {base : Option TypeDef} {is : List TypeDef}
    {n : Nat} {supply : Supply} {dr : Draft} (hc : c.WellFormed ids) (hn : ids.next ≤ n)
    (hd : c.checkHead d = .ok ()) (hin : c.Inherits d ⟨n⟩ base is t)
    (hsteps : Draft.Steps d ⟨t, supply⟩ dr) : c.Descends dr.type := by
  have hhandle : dr.type.handle = ⟨n⟩ := hsteps.sameHead.handle.trans hin.head.1
  have hnames : ∀ a, dr.type.Names a ↔
      (∃ i ∈ is, i.handle = a) ∨ ∃ b, base = some b ∧ b.handle = a := by
    intro a
    rw [← hin.names_iff, TypeDef.Names, hsteps.sameHead.base, hsteps.sameHead.interfaces]
    rfl
  have holder : ∀ u ∈ c.types, u.handle.raw < dr.type.handle.raw := by
    intro u hu
    have hused := hc.used u hu
    rw [hhandle]
    dsimp only
    omega
  refine ⟨fun h hh => ?_, fun a => ?_⟩
  · rcases (hnames h).1 hh with ⟨i, hi, rfl⟩ | ⟨b, hbase, rfl⟩
    · obtain ⟨hmem, hinterface⟩ := hin.mem_interfaces hi
      exact ⟨i, hmem, rfl, holder i hmem, .inl hinterface⟩
    · obtain ⟨-, hmem, -⟩ := hin.mem_base hbase
      exact ⟨b, hmem, rfl, holder b hmem, isOpen_of_resolveBase (hbase ▸ hin.base_eq)⟩
  · have hnotVoid : dr.type.handle ≠ .void := by
      intro heq
      have huser := (fits_of_define hc hn hin hsteps).user
      rw [heq] at huser
      cases huser
    -- a parent is known by its handle
    have hparent : (∃ u ∈ c.types, dr.type.Names u.handle ∧ a ∈ u.ancestors) ↔
        (∃ i ∈ is, a ∈ i.ancestors) ∨ ∃ b, base = some b ∧ a ∈ b.ancestors := by
      constructor
      · rintro ⟨u, hu, hname, ha⟩
        rcases (hnames _).1 hname with ⟨i, hi, heq⟩ | ⟨b, hbase, heq⟩
        · obtain rfl := hc.eq_of_handle (hin.mem_interfaces hi).1 hu heq
          exact .inl ⟨i, hi, ha⟩
        · obtain rfl := hc.eq_of_handle (hin.mem_base hbase).2.1 hu heq
          exact .inr ⟨b, hbase, ha⟩
      · rintro (⟨i, hi, ha⟩ | ⟨b, hbase, ha⟩)
        · exact ⟨i, (hin.mem_interfaces hi).1, (hnames _).2 (.inl ⟨i, hi, rfl⟩), ha⟩
        · exact ⟨b, (hin.mem_base hbase).2.1, (hnames _).2 (.inr ⟨b, hbase, rfl⟩), ha⟩
    rw [hparent, (hin.extends hc hsteps).ancestors, hin.mem_ancestors,
      mem_ancestors_start (kind_ne_void_of_checkHead hd), and_iff_left hnotVoid, hhandle, or_assoc]

/-- **Every built catalog is a hierarchy.** -/
theorem Built.hierarchy (hb : c.Built ids) : c.Hierarchy := by
  induction hb with
  | standard ids h => exact .standard ids
  | define hc hids hrun ih =>
    obtain ⟨t, dr₁, dr, hhead, hinherit, hfields, hmembers, rfl⟩ := define_eq_ok hrun
    obtain ⟨base, is, hin⟩ := inherits_of_inherit hinherit
    have hsteps := (steps_of_addFields hfields).trans (Draft.steps_of_addMembers hmembers).steps
    exact ih.add (fits_of_define hc.wellFormed hids hin hsteps).fresh
      (descends_of_define hc.wellFormed hids hhead hin hsteps)

/-! ## What a type is a kind of -/

/-- **A direct edge** from a type to one of its parents. -/
structure DerivesFrom (c : Catalog) (t u : TypeDef) : Prop where
  derived : t ∈ c.types
  parent : u ∈ c.types
  names : t.Names u.handle

namespace Hierarchy

/-- **What holds of a type whenever it holds of its parents** holds of every
type: to climb is to come to smaller numbers. -/
theorem climb (hy : c.Hierarchy) {P : TypeDef → Prop}
    (hstep : ∀ t ∈ c.types, (∀ u, c.DerivesFrom t u → P u) → P t) : ∀ t ∈ c.types, P t := by
  have hall : ∀ n, ∀ t ∈ c.types, t.handle.raw = n → P t := by
    intro n
    induction n using Nat.strongRecOn with
    | ind n ih =>
      intro t ht hn
      refine hstep t ht fun u hu => ?_
      obtain ⟨v, -, hv, hlt, -⟩ := (hy.descends t ht).parents _ hu.names
      exact ih u.handle.raw (hn ▸ hlt) u hu.parent rfl
  exact fun t ht => hall _ t ht rfl

/-- **The ancestors of a type are what it reaches**, and `Object`. -/
theorem mem_ancestors_iff (hy : c.Hierarchy) (hc : c.WellFormed ids) (ht : t ∈ c.types)
    (hu : u ∈ c.types) :
    u.handle ∈ t.ancestors ↔
      Relation.ReflTransGen c.DerivesFrom t u ∨ (u.handle = .object ∧ t.handle ≠ .void) := by
  have hreach : ∀ t ∈ c.types, u.handle ∈ t.ancestors →
      Relation.ReflTransGen c.DerivesFrom t u ∨ (u.handle = .object ∧ t.handle ≠ .void) := by
    refine hy.climb fun t ht ih hmem => ?_
    rcases ((hy.descends t ht).ancestors _).1 hmem with heq | hroot | ⟨v, hv, hnames, hmem⟩
    · exact .inl (hc.eq_of_handle hu ht heq ▸ .refl)
    · exact .inr hroot
    · have hedge : c.DerivesFrom t v := ⟨ht, hv, hnames⟩
      rcases ih v hedge hmem with hreach | ⟨hobject, -⟩
      · exact .inl (.head hedge hreach)
      · -- a type with a parent has a number above some other
        obtain ⟨-, -, -, hlt, -⟩ := (hy.descends t ht).parents _ hnames
        refine .inr ⟨hobject, fun hvoid => ?_⟩
        rw [hvoid] at hlt
        exact Nat.not_lt_zero _ hlt
  refine ⟨hreach t ht, ?_⟩
  rintro (hpath | hroot)
  · induction hpath using Relation.ReflTransGen.head_induction_on with
    | refl => exact hc.self u hu
    | head hedge _ ih =>
      exact ((hy.descends _ hedge.derived).ancestors _).2
        (.inr (.inr ⟨_, hedge.parent, hedge.names, ih hedge.parent⟩))
  · exact ((hy.descends t ht).ancestors _).2 (.inr (.inl hroot))

/-- **Other ancestors are older.** -/
theorem raw_lt_of_mem_ancestors (hy : c.Hierarchy) (ht : t ∈ c.types) (ha : a ∈ t.ancestors)
    (hne : a ≠ t.handle) : a.raw < t.handle.raw := by
  have hall : ∀ t ∈ c.types, a ∈ t.ancestors → a ≠ t.handle → a.raw < t.handle.raw := by
    refine hy.climb fun t ht ih ha hne => ?_
    rcases ((hy.descends t ht).ancestors a).1 ha with heq | ⟨rfl, hvoid⟩ | ⟨u, hu, hnames, ha⟩
    · exact absurd heq hne
    · have hraw : ∀ b : TypeHandle, b ≠ t.handle → b.raw ≠ t.handle.raw :=
        fun b hb heq => hb (congrArg TypeHandle.mk heq)
      have h0 : 0 ≠ t.handle.raw := hraw .void hvoid.symm
      have h1 : 1 ≠ t.handle.raw := hraw .object hne
      have hobject : TypeHandle.object.raw = 1 := rfl
      omega
    · obtain ⟨-, -, -, hlt, -⟩ := (hy.descends t ht).parents _ hnames
      by_cases heq : a = u.handle
      · exact heq ▸ hlt
      · have hlt' := ih u ⟨ht, hu, hnames⟩ ha heq
        omega
  exact hall t ht ha hne

/-- **A type that may not be named** is an ancestor of itself alone. -/
theorem eq_of_mem_ancestors (hy : c.Hierarchy) (hc : c.WellFormed ids) (hu : u ∈ c.types)
    (hclosed : ¬ u.IsOpen) (ht : t ∈ c.types) (hmem : u.handle ∈ t.ancestors) : t = u := by
  have hall : ∀ t ∈ c.types, u.handle ∈ t.ancestors → t = u := by
    refine hy.climb fun t ht ih hmem => ?_
    rcases ((hy.descends t ht).ancestors _).1 hmem with heq | ⟨hobject, -⟩ | ⟨v, hv, hnames, hmem⟩
    · exact hc.eq_of_handle ht hu heq.symm
    · -- the root of everything is open
      obtain ⟨n, hbuiltin⟩ := hy.builtin
      have hroot : builtinType n .object ∈ c.types := hbuiltin .object (by decide)
      obtain rfl := hc.eq_of_handle hu hroot hobject
      exact absurd (.inr ⟨rfl, rfl⟩) hclosed
    · obtain rfl := ih v ⟨ht, hv, hnames⟩ hmem
      obtain ⟨w, hw, heq, -, hopen⟩ := (hy.descends t ht).parents _ hnames
      exact absurd (hc.eq_of_handle hw hv heq ▸ hopen) hclosed
  exact hall t ht hmem

/-- A value type and a sealed class may not be named. -/
theorem not_isOpen (h : t.isValueType = true ∨ (t.kind = .classType ∧ t.isSealed = true)) :
    ¬ t.IsOpen := by
  rintro (hinterface | ⟨hclass, hopen⟩)
  · rw [TypeDef.isInterface, beq_iff_eq] at hinterface
    simp [TypeDef.isValueType, hinterface, TypeKind.isValueType] at h
  · simp [TypeDef.isValueType, hclass, hopen, TypeKind.isValueType] at h

end Hierarchy

/-- **A type is a kind of its bases.** -/
theorem Hierarchy.mem_ancestors_of_mem_lineage (hy : c.Hierarchy) (hb : c.Built ids)
    (ht : t ∈ c.types) (hu : u ∈ c.lineage t.handle) : u.handle ∈ t.ancestors := by
  have hall : ∀ t ∈ c.types, ∀ u ∈ c.lineage t.handle, u.handle ∈ t.ancestors := by
    refine hy.climb fun t ht ih u hu => ?_
    rw [hb.lineage_eq ht] at hu
    rcases List.mem_cons.1 hu with rfl | hu
    · exact hb.wellFormed.self u ht
    · cases hbase : t.base with
      | none => simp [hbase] at hu
      | some h =>
        obtain ⟨b, hmem, rfl⟩ := hb.exists_base ht hbase
        rw [hbase] at hu
        have hedge : c.DerivesFrom t b := ⟨ht, hmem, .inl hbase⟩
        exact ((hy.descends t ht).ancestors _).2
          (.inr (.inr ⟨b, hmem, hedge.names, ih b hedge u hu⟩))
  exact hall t ht u hu

/-! ## What is assignable -/

theorem isAssignable_iff :
    c.isAssignable a b = true ↔ a = b ∨ ∃ t, c.find? b = some t ∧ a ∈ t.ancestors := by
  rw [isAssignable, Bool.or_eq_true, beq_iff_eq]
  cases c.find? b with
  | none => simp
  | some t => simp [TypeDef.isSubtypeOf]

/-- From a type of the catalog a value may go to its ancestors alone. -/
theorem WellFormed.isAssignable_eq (hc : c.WellFormed ids) (ht : t ∈ c.types) (a : TypeHandle) :
    c.isAssignable a t.handle = t.isSubtypeOf a := by
  have hself : t.isSubtypeOf t.handle = true := by
    simpa [TypeDef.isSubtypeOf] using hc.self t ht
  simp only [isAssignable, hc.find?_eq ht]
  by_cases heq : a = t.handle
  · simp [heq, hself]
  · simp [heq]

/-- **Assignability is a partial order**, also among handles of no type. -/
theorem Built.isPartialOrder (hb : c.Built ids) :
    IsPartialOrder TypeHandle fun source target => c.isAssignable target source = true where
  refl := fun a => isAssignable_iff.2 (.inl rfl)
  trans := by
    intro a b d hab hbd
    rcases isAssignable_iff.1 hab with rfl | ⟨t, ht, hb'⟩
    · exact hbd
    rcases isAssignable_iff.1 hbd with rfl | ⟨u, hu, hd⟩
    · exact hab
    · have hmem : t ∈ c.types := List.mem_of_find?_eq_some ht
      have hb'' : u.handle ∈ t.ancestors := handle_of_find? hu ▸ hb'
      have hclosed := hb.contracts.closed t hmem u (List.mem_of_find?_eq_some hu) hb''
      exact isAssignable_iff.2 (.inr ⟨t, ht, hclosed hd⟩)
  antisymm := by
    intro a b hab hba
    by_contra hne
    rcases isAssignable_iff.1 hab with rfl | ⟨t, ht, hbt⟩
    · exact hne rfl
    rcases isAssignable_iff.1 hba with rfl | ⟨u, hu, hau⟩
    · exact hne rfl
    -- each of the two would be older than the other
    have hlt := hb.hierarchy.raw_lt_of_mem_ancestors (List.mem_of_find?_eq_some ht) hbt
      (handle_of_find? ht ▸ Ne.symm hne)
    have hgt := hb.hierarchy.raw_lt_of_mem_ancestors (List.mem_of_find?_eq_some hu) hau
      (handle_of_find? hu ▸ hne)
    rw [handle_of_find? ht] at hlt
    rw [handle_of_find? hu] at hgt
    omega

/-- A value of a built-in type is that and an `Object`. -/
theorem Built.isAssignable_builtin (hb : c.Built ids) (ha : a ∈ TypeHandle.builtins)
    (hvoid : a ≠ .void) (b : TypeHandle) :
    c.isAssignable b a = (b == .object || some a == some b) := by
  obtain ⟨n, hbuiltin⟩ := hb.hierarchy.builtin
  have heq := hb.wellFormed.isAssignable_eq (hbuiltin a ha) b
  rw [handle_builtinType] at heq
  rw [heq, Bool.eq_iff_iff, TypeDef.isSubtypeOf, List.contains_iff_mem, mem_ancestors_builtinType,
    and_iff_left hvoid, Bool.or_eq_true, beq_iff_eq, beq_iff_eq, Option.some.injEq, @eq_comm _ a b]
  exact or_comm

/-- **A value is an instance of what its type may go to**: the check at run
time is the one that is made on types. -/
theorem Built.isInstance_eq (hb : c.Built ids) (h : Heap) {v : Value} (hv : v ≠ .null)
    (hregistered : ∀ o, v = .object o → h.typeAt o ∈ c.types) :
    ∃ a, h.typeOf? v = some a ∧ ∀ b, h.isInstance v b = c.isAssignable b a := by
  have hprimitive : ∀ a ∈ TypeHandle.builtins, a ≠ .void →
      ∀ b, (b == .object || some a == some b) = c.isAssignable b a :=
    fun a ha hvoid b => (hb.isAssignable_builtin ha hvoid b).symm
  cases v with
  | null => exact absurd rfl hv
  | bool x => exact ⟨.bool, rfl, hprimitive .bool (by decide) (by decide)⟩
  | int32 x => exact ⟨.int32, rfl, hprimitive .int32 (by decide) (by decide)⟩
  | int64 x => exact ⟨.int64, rfl, hprimitive .int64 (by decide) (by decide)⟩
  | float64 x => exact ⟨.float64, rfl, hprimitive .float64 (by decide) (by decide)⟩
  | str x => exact ⟨.string, rfl, hprimitive .string (by decide) (by decide)⟩
  | object o =>
    exact ⟨_, rfl, fun b => (hb.wellFormed.isAssignable_eq (hregistered o rfl) b).symm⟩

end Catalog

/-- **Subtyping is reachability.** A registered type is a kind of those types
that direct edges lead to, and of `Object` unless it is the type of nothing.
Assignability is a partial order; only an exact match goes into a value type or
a sealed class; and a value is an instance of the types that its own type is
assignable to. -/
theorem Registry.Built.subtyping {r : Registry} (hr : r.Built) :
    (∀ t ∈ r.types, ∀ u ∈ r.types, t.isSubtypeOf u.handle = true ↔
      Relation.ReflTransGen r.DerivesFrom t u ∨ (u.handle = .object ∧ t.handle ≠ .void)) ∧
    IsPartialOrder TypeHandle (fun source target => r.isAssignable target source = true) ∧
    (∀ u ∈ r.types, u.isValueType = true ∨ (u.kind = .classType ∧ u.isSealed = true) →
      (∀ t ∈ r.types, t.isSubtypeOf u.handle = true → t = u) ∧
      ∀ source, r.isAssignable u.handle source = true → source = u.handle) ∧
    ∀ (h : Heap) (v : Value), v ≠ .null → (∀ o, v = .object o → h.typeAt o ∈ r.types) →
      ∃ own, h.typeOf? v = some own ∧
        ∀ target, h.isInstance v target = r.isAssignable target own := by
  obtain ⟨ids, hb⟩ := hr
  have hwf := hb.wellFormed
  have hy := hb.hierarchy
  have hsubtype : ∀ (t : TypeDef) (a : TypeHandle), t.isSubtypeOf a = true ↔ a ∈ t.ancestors :=
    fun t a => List.contains_iff_mem
  refine ⟨fun t ht u hu => ?_, hb.isPartialOrder, fun u hu hclosed => ⟨fun t ht hmem => ?_, ?_⟩,
    fun h v hv hregistered => hb.isInstance_eq h hv hregistered⟩
  · rw [hsubtype]
    exact hy.mem_ancestors_iff hwf ht hu
  · exact hy.eq_of_mem_ancestors hwf hu (Catalog.Hierarchy.not_isOpen hclosed) ht
      ((hsubtype t _).1 hmem)
  · intro source hsource
    rcases Catalog.isAssignable_iff.1 hsource with heq | ⟨t, ht, hmem⟩
    · exact heq.symm
    · have hleaf := hy.eq_of_mem_ancestors hwf hu (Catalog.Hierarchy.not_isOpen hclosed)
        (List.mem_of_find?_eq_some ht) hmem
      rw [← hleaf, Catalog.handle_of_find? ht]

namespace Sample

/-- An archive is a reader by way of the filter and the file that it derives
from, and no other type is a kind of text. -/
theorem reaches_archive :
    Relation.ReflTransGen shelfRegistry.DerivesFrom archive reader ∧
      ∀ source, shelfRegistry.isAssignable .string source = true → source = .string := by
  obtain ⟨hreach, -, hsealed, -⟩ := Registry.Built.subtyping shelfRegistry_built
  constructor
  · rcases (hreach archive (by decide) reader (by decide)).1 (by decide) with hpath | ⟨hroot, -⟩
    · exact hpath
    · exact absurd hroot (by decide)
  · exact (hsealed (Catalog.builtinType ⟨64⟩ .string) (by decide) (.inr ⟨rfl, rfl⟩)).2

end Sample

end MemberAccess
