import Mathlib.Data.List.Nodup
import MemberAccess.Proofs.Catalog.Defined
/-!
# Catalog — what holds of every catalog that can be built

`Catalog.Built` is what definitions lead to from the built-in types.
`Catalog.WellFormed` is the invariant of building: handles tell types apart,
ancestors are types of the catalog, every field and method is declared by the
type that it names, and an instance field sits in the slot that it names in
every type that is a kind of its declaring type. A definition keeps it because
the type it adds fits the catalog (`Catalog.Fits`), and a catalog starts with
nothing but types without members (`forall_mem_standard`).
-/

namespace MemberAccess

namespace Catalog

/-- **A catalog that definitions have led to**, with the identities not used
yet. Identities may be used up elsewhere between definitions. -/
inductive Built : Catalog → Supply → Prop
  | standard (ids : Supply) (h : TypeHandle.firstUser ≤ ids.next) :
      Built (standard ids).1 (standard ids).2
  | define {c : Catalog} {ids ids' : Supply} {d : TypeDefinition} {h h' : Heap} {o : Defined}
      (hc : Built c ids) (hids : ids.next ≤ ids'.next)
      (hrun : (c.define d ids').run h = some (.ok o, h')) : Built o.catalog o.supply

/-- **What every built catalog satisfies.** -/
structure WellFormed (c : Catalog) (ids : Supply) : Prop where
  user : TypeHandle.firstUser ≤ ids.next
  used : ∀ t ∈ c.types, t.handle.raw < ids.next
  nodup : (c.types.map (·.handle)).Nodup
  object : ∃ t ∈ c.types, t.handle = .object ∧ t.kind = .classType
  /-- Only defined types are structs. -/
  structs : ∀ t ∈ c.types, t.kind = .structType → t.handle.isBuiltin = false
  self : ∀ t ∈ c.types, t.handle ∈ t.ancestors
  ancestors : ∀ t ∈ c.types, ∀ a ∈ t.ancestors, ∃ u ∈ c.types, u.handle = a
  interfaces : ∀ t ∈ c.types, t.isInterface = true → ∀ a ∈ t.ancestors,
    a = .object ∨ ∃ u ∈ c.types, u.handle = a ∧ u.isInterface = true
  /-- No other type is a kind of a value type. -/
  values : ∀ t ∈ c.types, t.isValueType = true → ∀ u ∈ c.types, t.handle ∈ u.ancestors → u = t
  /-- A declared field names its type, which is neither built in nor an
  interface. -/
  declares : ∀ t ∈ c.types, ∀ f ∈ t.fields,
    f.declaringType = t.handle ∧ t.isInterface = false ∧ t.handle.isBuiltin = false
  fields : ∀ t ∈ c.types, ∀ f ∈ t.allFields, ∃ u ∈ c.types, f ∈ u.fields
  methods : ∀ t ∈ c.types, ∀ m ∈ t.allMethods,
    m.declaringType.isBuiltin = false ∧ (m.isStatic = true → m.slot = none)
  slots : ∀ t ∈ c.types, ∀ f ∈ t.fields, ∀ i, f.slot? = some i →
    ∀ u ∈ c.types, f.declaringType ∈ u.ancestors → u.layout[i]? = some f
  laidOut : ∀ t ∈ c.types, ∀ f ∈ t.layout, f ∈ t.allFields
  defaults : ∀ t ∈ c.types, t.defaults.length = t.layout.length

/-- **A new type that fits a catalog**: what it does not declare itself it
has from a base or from interfaces of the catalog. -/
structure Fits (c : Catalog) (t : TypeDef) : Prop where
  user : t.handle.isBuiltin = false
  fresh : ∀ u ∈ c.types, u.handle ≠ t.handle
  self : t.handle ∈ t.ancestors
  ancestors : ∀ a ∈ t.ancestors, a = t.handle ∨ a = .object ∨ ∃ u ∈ c.types, a ∈ u.ancestors ∧
    (u.isInterface = true ∨
      t.isInterface = false ∧ u.kind = .classType ∧ u.layout <+: t.layout)
  fields : ∀ f ∈ t.fields, f.declaringType = t.handle ∧ t.isInterface = false
  slots : ∀ f ∈ t.fields, ∀ i, f.slot? = some i → t.layout[i]? = some f
  inheritedFields : ∀ f ∈ t.inheritedFields, ∃ u ∈ c.types, f ∈ u.allFields
  laidOut : ∀ f ∈ t.layout, f ∈ t.fields ∨
    ∃ u ∈ c.types, f ∈ u.layout ∧ t.inheritedFields = u.allFields
  defaults : t.defaults.length = t.layout.length
  methods : ∀ m ∈ t.methods, m.declaringType = t.handle ∧ (m.isStatic = true → m.slot = none)
  inheritedMethods : ∀ m ∈ t.inheritedMethods, ∃ u ∈ c.types, m ∈ u.allMethods

variable {c : Catalog} {ids ids' : Supply} {t u : TypeDef}

/-! ## The new type fits -/

/-- A type without members is a kind of itself. -/
theorem self_mem_blank (a : TypeHandle) (name : String) (kind : TypeKind) :
    a ∈ (TypeDef.blank a name kind).ancestors := by
  simp only [TypeDef.blank]
  split
  · exact List.mem_singleton.2 rfl
  · exact List.mem_insert_of_mem (List.mem_singleton.2 rfl)

/-- It is a kind of nothing else but `Object`. -/
theorem eq_of_mem_blank {a b : TypeHandle} (name : String) (kind : TypeKind)
    (hb : b ∈ (TypeDef.blank a name kind).ancestors) : b = a ∨ b = .object := by
  simp only [TypeDef.blank] at hb
  split at hb
  · exact .inl (List.mem_singleton.1 hb)
  · exact (List.mem_insert_iff.1 hb).symm.imp_left List.mem_singleton.1

/-- The ancestors of what is being defined: itself, `Object`, and those of its
interfaces and of its base, whose layout goes on. -/
theorem ancestors_of_extends {d : TypeDefinition} {base : Option TypeDef} {is : List TypeDef}
    {h : TypeHandle} {dr : Draft} (hin : c.Inherits d h base is t) (hx : Draft.Extends d t dr)
    {a : TypeHandle} (ha : a ∈ dr.type.ancestors) :
    a = dr.type.handle ∨ a = .object ∨ ∃ u ∈ c.types, a ∈ u.ancestors ∧ (u.isInterface = true ∨
      dr.type.isInterface = false ∧ u.kind = .classType ∧ u.layout <+: dr.type.layout) := by
  obtain ⟨hhandle, -, hkind, -⟩ := hin.head
  obtain ⟨-, hlayout, -⟩ := hin.fields_eq
  rw [hx.ancestors, hin.mem_ancestors] at ha
  rcases ha with ha | ⟨i, hi, ha⟩ | ⟨b, hb, ha⟩
  · rcases eq_of_mem_blank d.name d.kind ha with rfl | rfl
    · exact .inl (hx.handle.trans hhandle).symm
    · exact .inr (.inl rfl)
  · obtain ⟨hmem, hi⟩ := hin.mem_interfaces hi
    exact .inr (.inr ⟨i, hmem, ha, .inl hi⟩)
  · obtain ⟨hclass, hmem, hbase⟩ := hin.mem_base hb
    have hgoesOn : b.layout <+: dr.type.layout := by
      have hx := hx.layout
      rwa [hlayout, hb] at hx
    have hinterface : dr.type.isInterface = false := by
      rw [TypeDef.isInterface, hx.kind, hkind, hclass]
      rfl
    exact .inr (.inr ⟨b, hmem, ha, .inr ⟨hinterface, hbase, hgoesOn⟩⟩)

/-- What is being defined extends what it inherits. -/
theorem Inherits.extends {d : TypeDefinition} {base : Option TypeDef} {is : List TypeDef}
    {h : TypeHandle} {supply : Supply} {dr : Draft} (hin : c.Inherits d h base is t)
    (hc : c.WellFormed ids) (hsteps : Draft.Steps d ⟨t, supply⟩ dr) : Draft.Extends d t dr := by
  obtain ⟨-, -, -, -, hfields, hmethods, -, -⟩ := hin.head
  obtain ⟨-, hlayout, hdefaults⟩ := hin.fields_eq
  have hlengths : t.defaults.length = t.layout.length := by
    rw [hdefaults, hlayout]
    cases hb : base with
    | none => rfl
    | some b => exact hc.defaults b (hin.mem_base hb).2.1
  exact (Draft.Extends.refl (d := d) supply hfields hmethods hlengths).steps hsteps

/-- **What a definition adds fits the catalog it is added to.** -/
theorem fits_of_define {d : TypeDefinition} {base : Option TypeDef} {is : List TypeDef}
    {n : Nat} {supply : Supply} {dr : Draft} (hc : c.WellFormed ids) (hn : ids.next ≤ n)
    (hin : c.Inherits d ⟨n⟩ base is t) (hsteps : Draft.Steps d ⟨t, supply⟩ dr) :
    c.Fits dr.type := by
  obtain ⟨hhandle, -, hkind, -⟩ := hin.head
  obtain ⟨hinherited, hlayout, -⟩ := hin.fields_eq
  have hx := hin.extends hc hsteps
  have hself : dr.type.handle = ⟨n⟩ := hx.handle.trans hhandle
  have hinterface : d.kind ≠ .interfaceType → dr.type.isInterface = false := by
    intro hd
    have hne : dr.type.kind ≠ .interfaceType := by rwa [hx.kind, hkind]
    simpa [TypeDef.isInterface] using hne
  refine
    { user := ?user, fresh := ?fresh, self := ?self
      ancestors := fun a ha => ancestors_of_extends hin hx ha
      fields := ?fields, slots := hx.slots, inheritedFields := ?inheritedFields
      laidOut := ?laidOut, defaults := hx.defaults, methods := ?methods
      inheritedMethods := ?inheritedMethods }
  case user =>
    have huser := hc.user
    rw [hself]
    simp only [TypeHandle.isBuiltin, decide_eq_false_iff_not]
    omega
  case fresh =>
    -- the new handle has not been given out before
    intro u hu heq
    have hused : n < ids.next := by simpa [heq, hself] using hc.used u hu
    omega
  case self =>
    rw [hx.ancestors, hin.mem_ancestors, hself]
    exact .inl (self_mem_blank ⟨n⟩ d.name d.kind)
  case fields =>
    intro f hf
    obtain ⟨hdeclaring, hd⟩ := hx.fields f hf
    exact ⟨hdeclaring.trans hx.handle.symm, hinterface hd⟩
  case inheritedFields =>
    intro f hf
    rw [hx.inheritedFields, hinherited] at hf
    cases hb : base with
    | none => simp [hb] at hf
    | some b => exact ⟨b, (hin.mem_base hb).2.1, by simpa [hb] using hf⟩
  case laidOut =>
    intro f hf
    rcases hx.laidOut f hf with hf | hf
    · rw [hlayout] at hf
      cases hb : base with
      | none => simp [hb] at hf
      | some b =>
        refine .inr ⟨b, (hin.mem_base hb).2.1, by simpa [hb] using hf, ?_⟩
        rw [hx.inheritedFields, hinherited, hb]
        rfl
    · exact .inl hf
  case methods =>
    intro m hm
    obtain ⟨hdeclaring, hstatic⟩ := hx.methods m hm
    exact ⟨hdeclaring.trans hx.handle.symm, hstatic⟩
  case inheritedMethods =>
    intro m hm
    rcases hin.mem_inheritedMethods (hx.inheritedMethods hm) with ⟨i, hi, hm⟩ | ⟨b, hb, hm⟩
    · exact ⟨i, (hin.mem_interfaces hi).1, hm⟩
    · exact ⟨b, (hin.mem_base hb).2.1, hm⟩

/-! ## The catalog stays well-formed -/

/-- No type of the catalog is a kind of a new type. -/
theorem Fits.not_mem_ancestors (ht : c.Fits t) (hc : c.WellFormed ids) (hu : u ∈ c.types) :
    t.handle ∉ u.ancestors := by
  intro hmem
  obtain ⟨v, hv, hhandle⟩ := hc.ancestors u hu _ hmem
  exact ht.fresh v hv hhandle

/-- Handles tell types apart. -/
theorem WellFormed.eq_of_handle (hc : c.WellFormed ids) (ht : t ∈ c.types) (hu : u ∈ c.types)
    (heq : t.handle = u.handle) : t = u :=
  List.inj_on_of_nodup_map hc.nodup ht hu heq

/-- A static method of a type has no slot. -/
theorem WellFormed.slot_eq_none (hc : c.WellFormed ids) (ht : t ∈ c.types) {m : Method}
    (hm : m ∈ t.methods) (hstatic : m.isStatic = true) : m.slot = none :=
  (hc.methods t ht m (List.mem_append_left _ hm)).2 hstatic

/-- **A new type is a kind of interfaces and classes**, which are no value
types. -/
theorem Fits.value_not_mem_ancestors (ht : c.Fits t) (hc : c.WellFormed ids) (hu : u ∈ c.types)
    (hvalue : u.isValueType = true) : u.handle ∉ t.ancestors := by
  intro hmem
  rcases ht.ancestors _ hmem with heq | heq | ⟨v, hv, hmem, hv' | ⟨-, hclass, -⟩⟩
  · exact ht.fresh u hu heq
  · obtain ⟨w, hw, hobject, hclass⟩ := hc.object
    obtain rfl := hc.eq_of_handle hw hu (hobject.trans heq.symm)
    rw [TypeDef.isValueType, hclass] at hvalue
    cases hvalue
  · obtain rfl := hc.values u hu hvalue v hv hmem
    rw [TypeDef.isInterface, beq_iff_eq] at hv'
    rw [TypeDef.isValueType, hv'] at hvalue
    cases hvalue
  · obtain rfl := hc.values u hu hvalue v hv hmem
    rw [TypeDef.isValueType, hclass] at hvalue
    cases hvalue

/-- **A new type has the fields of its ancestors in their slots.** It has them
from its base: an interface has no ancestor that declares a field. -/
theorem Fits.layout_of_ancestor (ht : c.Fits t) (hc : c.WellFormed ids) (hu : u ∈ c.types)
    {f : Field} (hf : f ∈ u.fields) {i : Nat} (hi : f.slot? = some i)
    (hmem : f.declaringType ∈ t.ancestors) : t.layout[i]? = some f := by
  obtain ⟨hdeclaring, hinterface, hbuiltin⟩ := hc.declares u hu f hf
  have hobject : f.declaringType ≠ .object := hdeclaring ▸ TypeHandle.ne_object hbuiltin
  rcases ht.ancestors _ hmem with heq | heq | ⟨v, hv, hmem, hv' | ⟨-, -, hprefix⟩⟩
  · exact absurd (hdeclaring.symm.trans heq) (ht.fresh u hu)
  · exact absurd heq hobject
  · -- an interface has interfaces and `Object` for ancestors
    rcases hc.interfaces v hv hv' _ hmem with heq | ⟨w, hw, heq, hwi⟩
    · exact absurd heq hobject
    · obtain rfl := hc.eq_of_handle hw hu (heq.trans hdeclaring)
      rw [hinterface] at hwi
      cases hwi
  · exact getElem?_of_prefix hprefix (hc.slots u hu f hf i hi v hv hmem)

/-- **A type that fits can be added.** -/
theorem WellFormed.add (hc : c.WellFormed ids) (ht : c.Fits t) (hids : ids.next ≤ ids'.next)
    (hused : t.handle.raw < ids'.next) : WellFormed ⟨c.types ++ [t]⟩ ids' := by
  have hnew : t ∈ c.types ++ [t] := by simp
  refine
    { user := Nat.le_trans hc.user hids
      used := forall_mem_concat (fun u hu => Nat.lt_of_lt_of_le (hc.used u hu) hids) hused
      nodup := ?nodup
      object := exists_mem_concat hc.object
      structs := forall_mem_concat hc.structs fun _ => ht.user
      self := forall_mem_concat hc.self ht.self
      ancestors := forall_mem_concat
        (fun u hu a ha => exists_mem_concat (hc.ancestors u hu a ha)) ?ancestors
      interfaces := forall_mem_concat
        (fun u hu hi a ha => (hc.interfaces u hu hi a ha).imp_right exists_mem_concat) ?interfaces
      values := forall_mem_concat (fun u hu hvalue => ?oldValues) ?newValue
      declares := forall_mem_concat hc.declares fun f hf =>
        ⟨(ht.fields f hf).1, (ht.fields f hf).2, ht.user⟩
      fields := forall_mem_concat (fun u hu f hf => exists_mem_concat (hc.fields u hu f hf)) ?fields
      methods := forall_mem_concat hc.methods ?methods
      slots := forall_mem_concat (fun u hu f hf i hi => ?oldSlots) ?newSlots
      laidOut := forall_mem_concat hc.laidOut ?laidOut
      defaults := forall_mem_concat hc.defaults ht.defaults }
  case nodup =>
    rw [List.map_append, List.nodup_append]
    refine ⟨hc.nodup, by simp, ?_⟩
    rintro a ha b hb rfl
    obtain ⟨u, hu, hhandle⟩ := List.mem_map.1 ha
    obtain rfl : a = t.handle := by simpa using hb
    exact ht.fresh u hu hhandle
  case ancestors =>
    intro a ha
    rcases ht.ancestors a ha with rfl | rfl | ⟨u, hu, ha, -⟩
    · exact ⟨t, hnew, rfl⟩
    · obtain ⟨u, hu, hobject, -⟩ := hc.object
      exact exists_mem_concat ⟨u, hu, hobject⟩
    · exact exists_mem_concat (hc.ancestors u hu a ha)
  case interfaces =>
    intro hi a ha
    rcases ht.ancestors a ha with rfl | rfl | ⟨u, hu, ha, hu' | ⟨hnot, -, -⟩⟩
    · exact .inr ⟨t, hnew, rfl, hi⟩
    · exact .inl rfl
    · exact (hc.interfaces u hu hu' a ha).imp_right exists_mem_concat
    · rw [hi] at hnot
      cases hnot
  case oldValues =>
    -- the new type is a kind of no old value type
    exact forall_mem_concat (hc.values u hu hvalue) fun hmem =>
      absurd hmem (ht.value_not_mem_ancestors hc hu hvalue)
  case newValue =>
    -- and no old type is a kind of the new one
    exact fun _ => forall_mem_concat (fun u hu hmem => absurd hmem (ht.not_mem_ancestors hc hu))
      fun _ => rfl
  case fields =>
    intro f hf
    rcases List.mem_append.1 hf with hf | hf
    · exact ⟨t, hnew, hf⟩
    · obtain ⟨u, hu, hf⟩ := ht.inheritedFields f hf
      exact exists_mem_concat (hc.fields u hu f hf)
  case methods =>
    intro m hm
    rcases List.mem_append.1 hm with hm | hm
    · obtain ⟨hdeclaring, hstatic⟩ := ht.methods m hm
      exact ⟨hdeclaring ▸ ht.user, hstatic⟩
    · obtain ⟨u, hu, hm⟩ := ht.inheritedMethods m hm
      exact hc.methods u hu m hm
  case oldSlots =>
    exact forall_mem_concat (hc.slots u hu f hf i hi) fun hmem =>
      ht.layout_of_ancestor hc hu hf hi hmem
  case newSlots =>
    intro f hf i hi
    rw [(ht.fields f hf).1]
    exact forall_mem_concat (fun u hu hmem => absurd hmem (ht.not_mem_ancestors hc hu))
      fun _ => ht.slots f hf i hi
  case laidOut =>
    intro f hf
    rcases ht.laidOut f hf with hf | ⟨u, hu, hf, hinherited⟩
    · exact List.mem_append_left _ hf
    · exact List.mem_append_right _ (hinherited ▸ hc.laidOut u hu f hf)

/-- A built-in type has no member but a constructor, and no ancestor but
itself and `Object`. -/
theorem builtinType_frame (k : MemberId) (a : TypeHandle) :
    ∃ isSealed base constructors, builtinType k a =
      { TypeDef.blank a a.text (builtinKind a) with
        isSealed := isSealed
        base := base
        constructors := constructors } := by
  unfold builtinType
  dsimp only
  split
  · exact ⟨_, _, _, rfl⟩
  · split <;> exact ⟨_, _, _, rfl⟩

/-- **What holds of a type in such a frame holds of every type that a catalog
starts with.** -/
theorem forall_mem_standard {P : TypeDef → Prop}
    (hP : ∀ a ∈ TypeHandle.builtins, ∀ isSealed base constructors,
      P { TypeDef.blank a a.text (builtinKind a) with
        isSealed := isSealed
        base := base
        constructors := constructors }) :
    ∀ t ∈ (standard ids).1.types, P t := by
  intro t ht
  obtain ⟨a, ha, rfl⟩ := List.mem_map.1 ht
  obtain ⟨isSealed, base, constructors, hframe⟩ := builtinType_frame ⟨ids.next⟩ a
  rw [hframe]
  exact hP a ha isSealed base constructors

/-- A built-in type is a kind of nothing but itself and `Object`. -/
theorem eq_of_mem_ancestors_standard {a : TypeHandle} :
    ∀ t ∈ (standard ids).1.types, a ∈ t.ancestors → a = t.handle ∨ a = .object :=
  forall_mem_standard fun b _ _ _ _ => eq_of_mem_blank b.text (builtinKind b)

/-- Built-in types are no interfaces. -/
theorem isInterface_standard : ∀ t ∈ (standard ids).1.types, t.isInterface = false := by
  have hkind : ∀ a ∈ TypeHandle.builtins, builtinKind a ≠ .interfaceType := by decide
  refine forall_mem_standard fun a ha _ _ _ => ?_
  simpa [TypeDef.isInterface, TypeDef.blank] using hkind a ha

/-- **The built-in types are well-formed.** -/
theorem WellFormed.standard (h : TypeHandle.firstUser ≤ ids.next) :
    (standard ids).1.WellFormed (standard ids).2 := by
  have hhandles : (Catalog.standard ids).1.types.map (·.handle) = TypeHandle.builtins := rfl
  have hnodup : ((Catalog.standard ids).1.types.map (·.handle)).Nodup := by
    rw [hhandles]
    decide
  have hobject : ∃ t ∈ (Catalog.standard ids).1.types, t.handle = .object ∧ t.kind = .classType :=
    ⟨builtinType ⟨ids.next⟩ .object, List.mem_map_of_mem (by decide), rfl, rfl⟩
  refine
    { user := Nat.le_succ_of_le h, used := ?used, nodup := hnodup, object := hobject
      structs := ?structs, self := ?self, ancestors := ?ancestors
      interfaces := fun t ht hi => absurd (hi.symm.trans (isInterface_standard t ht)) (by simp)
      values := ?values
      declares := forall_mem_standard fun _ _ _ _ _ f hf => absurd hf List.not_mem_nil
      fields := forall_mem_standard fun _ _ _ _ _ f hf => absurd hf List.not_mem_nil
      methods := forall_mem_standard fun _ _ _ _ _ m hm => absurd hm List.not_mem_nil
      slots := forall_mem_standard fun _ _ _ _ _ f hf => absurd hf List.not_mem_nil
      laidOut := forall_mem_standard fun _ _ _ _ _ f hf => absurd hf List.not_mem_nil
      defaults := forall_mem_standard fun _ _ _ _ _ => rfl }
  case used =>
    have hsmall : ∀ a ∈ TypeHandle.builtins, a.raw < TypeHandle.firstUser := by decide
    exact forall_mem_standard fun a ha _ _ _ =>
      Nat.lt_succ_of_lt (Nat.lt_of_lt_of_le (hsmall a ha) h)
  case structs =>
    have hnot : ∀ a ∈ TypeHandle.builtins, builtinKind a ≠ .structType := by decide
    exact forall_mem_standard fun a ha _ _ _ hkind => absurd hkind (hnot a ha)
  case self => exact forall_mem_standard fun a _ _ _ _ => self_mem_blank a a.text (builtinKind a)
  case ancestors =>
    intro t ht a ha
    rcases eq_of_mem_ancestors_standard t ht ha with rfl | rfl
    · exact ⟨t, ht, rfl⟩
    · exact hobject.imp fun u hu => hu.imp_right And.left
  case values =>
    intro t ht hvalue u hu hmem
    rcases eq_of_mem_ancestors_standard u hu hmem with heq | heq
    · exact (List.inj_on_of_nodup_map hnodup ht hu heq).symm
    · -- `Object` is a class
      obtain ⟨o, ho, hhandle, hclass⟩ := hobject
      obtain rfl := List.inj_on_of_nodup_map hnodup ho ht (hhandle.trans heq.symm)
      rw [TypeDef.isValueType, hclass] at hvalue
      cases hvalue

/-- **Every built catalog is well-formed.** -/
theorem Built.wellFormed (h : c.Built ids) : c.WellFormed ids := by
  induction h with
  | standard ids h => exact .standard h
  | define hc hids hrun ih =>
    obtain ⟨base, is, t, dr, hin, hsteps, hhandle, hcatalog, hsupply⟩ := exists_of_define hrun
    have hle := Draft.supply_le_of_steps hsteps
    rw [hcatalog, hsupply]
    refine ih.add (fits_of_define ih hids hin hsteps) ?_ ?_
    · exact Nat.le_trans hids (Nat.le_trans (Nat.le_succ _) hle)
    · rw [hhandle]
      exact hle

/-- A type with a built-in handle is a built-in type. -/
theorem Built.exists_builtinType (h : c.Built ids) (ht : t ∈ c.types)
    (hbuiltin : t.handle.isBuiltin = true) : ∃ n a, t = builtinType n a := by
  induction h with
  | standard ids h =>
    obtain ⟨a, -, rfl⟩ := List.mem_map.1 ht
    exact ⟨_, a, rfl⟩
  | define hc hids hrun ih =>
    obtain ⟨base, is, u, dr, hin, hsteps, -, hcatalog, -⟩ := exists_of_define hrun
    rw [hcatalog] at ht
    rcases mem_concat_cases ht with ht | rfl
    · exact ih ht
    · rw [(fits_of_define hc.wellFormed hids hin hsteps).user] at hbuiltin
      cases hbuiltin

/-- **A constructor names the type that has it.** -/
theorem Built.declaringType_eq (h : c.Built ids) (ht : t ∈ c.types) {k : Constructor}
    (hk : k ∈ t.constructors) : k.declaringType = t.handle := by
  induction h generalizing t with
  | standard ids h =>
    obtain ⟨a, -, rfl⟩ := List.mem_map.1 ht
    -- of the built-in types `Object` alone has a constructor
    by_cases hobject : a = .object
    · subst hobject
      rw [List.mem_singleton.1 hk]
      rfl
    · unfold builtinType at hk
      simp only [hobject, if_false] at hk
      split at hk <;> cases hk
  | define hc hids hrun ih =>
    obtain ⟨base, is, u, dr, hin, hsteps, -, hcatalog, -⟩ := exists_of_define hrun
    rw [hcatalog] at ht
    rcases mem_concat_cases ht with ht | rfl
    · exact ih ht hk
    · obtain ⟨-, -, -, -, -, -, -, hnone⟩ := hin.head
      exact Draft.constructors_of_steps hsteps (by simp [hnone]) k hk

end Catalog

/-- **A registry that has been built**: a built catalog, frozen. -/
def Registry.Built (r : Registry) : Prop := ∃ ids, r.toCatalog.Built ids

namespace Sample

/-! ## A small catalog -/

/-- A struct with one number. -/
def pointDefinition : TypeDefinition where
  name := "Point"
  kind := .structType
  fields := [{ name := "x", type := .int32 }]

/-- A class with a struct-typed field, a method and a constructor. -/
def penDefinition : TypeDefinition where
  name := "Pen"
  kind := .classType
  fields := [{ name := "tip", type := ⟨65⟩ }]
  methods := [{
    name := "moveTo"
    parameters := [⟨"to", ⟨65⟩⟩]
    body := some (.writeSlot 0) }]
  constructors := [{ parameters := [⟨"width", .int32⟩] }]

/-- The number of a point. -/
def x : Field where
  id := ⟨66⟩
  name := "x"
  declaringType := ⟨65⟩
  type := .int32
  visibility := .anyone
  storage := .slot 0

/-- The point that a pen is at. -/
def tip : Field where
  id := ⟨68⟩
  name := "tip"
  declaringType := ⟨67⟩
  type := ⟨65⟩
  visibility := .anyone
  storage := .slot 0

def moveTo : Method where
  id := ⟨69⟩
  name := "moveTo"
  declaringType := ⟨67⟩
  parameters := [⟨"to", ⟨65⟩, 0⟩]
  returnType := .void
  visibility := .anyone
  isStatic := false
  slot := none
  body := some (.writeSlot 0)

def point : TypeDef :=
  { TypeDef.blank ⟨65⟩ "Point" .structType with
    fields := [x]
    layout := [x]
    defaults := [.int32 0] }

def pen : TypeDef :=
  { TypeDef.blank ⟨67⟩ "Pen" .classType with
    base := some .object
    fields := [tip]
    layout := [tip]
    defaults := [.object ⟨0⟩]
    methods := [moveTo]
    constructors := [⟨⟨70⟩, ⟨67⟩, [⟨"width", .int32, 0⟩], .anyone, none⟩] }

/-- The built-in types and the two. -/
def catalog : Catalog := ⟨(Catalog.standard {}).1.types ++ [point] ++ [pen]⟩

theorem define_point :
    ((Catalog.standard {}).1.define pointDefinition (Catalog.standard {}).2).run {} =
      some (.ok ⟨⟨65⟩, ⟨(Catalog.standard {}).1.types ++ [point]⟩, ⟨67⟩⟩, {}) := by rfl

theorem define_pen :
    (Catalog.define ⟨(Catalog.standard {}).1.types ++ [point]⟩ penDefinition ⟨67⟩).run {} =
      some (.ok ⟨⟨67⟩, catalog, ⟨71⟩⟩, { objects := #[⟨point, [.int32 0]⟩] }) := by rfl

/-- The two definitions lead to the catalog. -/
theorem built : catalog.Built ⟨71⟩ :=
  .define (.define (.standard {} (by decide)) (Nat.le_refl _) define_point) (Nat.le_refl _)
    define_pen

def registry : Registry := (catalog.freeze ⟨71⟩).1

theorem registry_built : registry.Built := ⟨⟨71⟩, built⟩

/-- A point, and a pen that is at it. -/
def desk : Heap where
  objects := #[⟨point, [.int32 7]⟩, ⟨pen, [.object ⟨0⟩]⟩]

end Sample

end MemberAccess
