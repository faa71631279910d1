import MemberAccess.Proofs.Catalog.Accessors
/-!
# Catalog — where properties come from

Each property that a type of a built catalog declares was added to a draft of
that type (`Built.exists_addProperty`), so what is true of one addition is true
of them all: the property names the type that declares it, and both of its
accessors are static or neither is (`Property.DeclaredBy`). A property that a
type has without declaring it is one that another type declares.
-/

namespace MemberAccess

/-- **A property as a type declares it.** -/
structure Property.DeclaredBy (p : Property) (h : TypeHandle) : Prop where
  declaringType : p.declaringType = h
  getter : ∀ m, p.getter = some m → m.isStatic = p.isStatic
  setter : ∀ m, p.setter = some m → m.isStatic = p.isStatic

/-- **A property was added** to a draft of a type. -/
def Property.AddedTo (p : Property) (h : TypeHandle) : Prop :=
  ∃ (d : PropertyDefinition) (dr dr' : Draft), dr.addProperty d = .ok dr' ∧ dr.type.handle = h ∧
    dr'.type.properties = dr.type.properties ++ [p]

namespace Draft

variable {d : TypeDefinition} {dr dr' : Draft} {m : MethodDefinition} {p : Property}

/-- An accessor is static when its property is defined to be. -/
theorem isStatic_of_addAccessor {q : PropertyDefinition} {a : Option AccessorDefinition}
    {generated : Option MemberBody} {o : Option Method}
    (h : dr.addAccessor q a generated m = .ok (o, dr')) :
    ∀ k, o = some k → k.isStatic = m.isStatic := by
  intro k hk
  rcases addAccessor_cases h with ⟨-, rfl, -⟩ | ⟨b, body, n, -, -, hadd, rfl⟩ <;> cases hk
  exact (adds_of_addMethod hadd).isStatic

/-- **An addition appends one property.** -/
theorem exists_of_addProperty {q : PropertyDefinition} (h : dr.addProperty q = .ok dr') :
    ∃ p, dr'.type.properties = dr.type.properties ++ [p] ∧ p.DeclaredBy dr.type.handle := by
  obtain ⟨place, dr₁, dr₂, p, hp⟩ := addsProperty_of_addProperty h
  have hgetter := isStatic_of_addAccessor hp.getter
  have hsetter := isStatic_of_addAccessor hp.setter
  have hsteps : MemberSteps dr dr₂ :=
    (steps_of_addAccessor hp.getter).trans (steps_of_addAccessor hp.setter)
  refine ⟨p, hp.properties_eq, hp.declaringType.trans hsteps.sameHead.handle, fun k hk => ?_,
    fun k hk => ?_⟩
  · simp [Property.isStatic, hk]
  · -- a property is static when its get method is, if it has one
    cases hg : p.getter with
    | none => simp [Property.isStatic, hg, hk]
    | some m =>
      have hsame := (hsetter k hk).trans (hgetter m hg).symm
      simpa [Property.isStatic, hg] using hsame

/-- **Members bring the properties that are added to the type**, and no
others. -/
theorem addedTo_of_addMembers {c : Catalog} (h : c.addMembers d dr = .ok dr')
    (hnone : dr.type.properties = []) : ∀ p ∈ dr'.type.properties, p.AddedTo dr.type.handle := by
  obtain ⟨dr₁, dr₂, t, hmethods, hproperties, hbind, hconstructors⟩ := addMembers_eq_ok h
  have hnone₁ : dr₁.type.properties = [] := (properties_of_addMethods hmethods).trans hnone
  have hhandle₁ := (steps_of_addMethods hmethods).sameHead.handle
  have hadded : dr₂.type.handle = dr.type.handle ∧
      ∀ p ∈ dr₂.type.properties, p.AddedTo dr.type.handle := by
    refine invariant_of_foldlM
      (P := fun x : Draft => x.type.handle = dr.type.handle ∧
        ∀ p ∈ x.type.properties, p.AddedTo dr.type.handle)
      (fun x q _ y hx hadd => ?_) hproperties ⟨hhandle₁, by simp [hnone₁]⟩
    obtain ⟨p, hp, -⟩ := exists_of_addProperty hadd
    refine ⟨(steps_of_addProperty hadd).sameHead.handle.trans hx.1, ?_⟩
    rw [hp]
    exact forall_mem_concat hx.2 ⟨q, x, y, hadd, hx.1, hp⟩
  rw [properties_of_bindAll hbind hconstructors]
  exact hadded.2

end Draft

/-- What was added to a draft of a type is declared by that type. -/
theorem Property.AddedTo.declaredBy {p : Property} {h : TypeHandle} (hp : p.AddedTo h) :
    p.DeclaredBy h := by
  obtain ⟨d, dr, dr', hadd, rfl, hproperties⟩ := hp
  obtain ⟨q, hq, hdeclared⟩ := Draft.exists_of_addProperty hadd
  rw [hproperties] at hq
  obtain rfl : p = q := by simpa using hq
  exact hdeclared

namespace Catalog

variable {c : Catalog} {ids : Supply} {t : TypeDef} {p : Property}

/-- **Every declared property was added** to a draft of the type that declares
it. -/
theorem Built.addedTo (hb : c.Built ids) :
    ∀ t ∈ c.types, ∀ p ∈ t.properties, p.AddedTo t.handle := by
  induction hb with
  | standard ids h => exact forall_mem_standard fun _ _ _ _ _ p hp => absurd hp List.not_mem_nil
  | define hc hids hrun ih =>
    obtain ⟨t, dr, dr', -, hinherit, hfields, hmembers, rfl⟩ := define_eq_ok hrun
    obtain ⟨base, is, hin⟩ := inherits_of_inherit hinherit
    obtain ⟨-, -, -, -, -, -, hnone, -⟩ := hin.head
    have hdr : dr.type.properties = [] := (properties_of_addFields hfields).trans hnone
    refine forall_mem_concat ih fun p hp => ?_
    rw [(Draft.steps_of_addMembers hmembers).sameHead.handle]
    exact Draft.addedTo_of_addMembers hmembers hdr p hp

/-- Only defined types declare properties. -/
theorem Built.isBuiltin_of_properties (hb : c.Built ids) :
    ∀ t ∈ c.types, ∀ p ∈ t.properties, t.handle.isBuiltin = false := by
  intro t ht p hp
  by_contra hbuiltin
  obtain ⟨n, a, rfl⟩ := hb.exists_builtinType ht (by simpa using hbuiltin)
  obtain ⟨_, _, _, hframe⟩ := builtinType_frame n a
  rw [hframe] at hp
  cases (hp : p ∈ [])

/-- **Every property of a type** is declared by a type of the catalog. -/
theorem Built.exists_declaring_property (hb : c.Built ids) :
    ∀ t ∈ c.types, ∀ p ∈ t.allProperties, ∃ u ∈ c.types, p ∈ u.properties := by
  induction hb with
  | standard ids h => exact forall_mem_standard fun _ _ _ _ _ p hp => absurd hp List.not_mem_nil
  | @define c _ _ _ _ _ _ hc hids hrun ih =>
    obtain ⟨base, is, t, dr, hin, hsteps, -, hcatalog, -⟩ := exists_of_define hrun
    rw [hcatalog]
    have hold : ∀ u ∈ c.types, ∀ p ∈ u.allProperties,
        ∃ v ∈ c.types ++ [dr.type], p ∈ v.properties := fun u hu p hp =>
      exists_mem_concat (ih u hu p hp)
    refine forall_mem_concat hold fun p hp => ?_
    rcases List.mem_append.1 hp with hp | hp
    · exact ⟨_, by simp, hp⟩
    · rcases hin.mem_inheritedProperties (Draft.inheritedProperties_of_steps hsteps hp) with
        ⟨i, hi, hp⟩ | ⟨b, hb, hp⟩
      · exact hold i (hin.mem_interfaces hi).1 p hp
      · exact hold b (hin.mem_base hb).2.1 p hp

end Catalog

end MemberAccess
