import MemberAccess.Proofs.Catalog.Inherits
import MemberAccess.Proofs.Catalog.Step
/-!
# Catalog — the type that a definition adds

A definition that succeeds inherits first and then takes its steps
(`Catalog.define_eq_ok`); the `_cases` lemmas say what one does that may also be
rejected halfway. `Draft.Extends` is what the steps keep of the type
that they started from, and what they see to for every member they add: a
field sits in the slot that it names, a static method in none.
-/

namespace MemberAccess

/-! ## Taking a definition apart -/

namespace Catalog

open Exec (run_bind_eq_ok run_ofExcept)

variable {c : Catalog} {d : TypeDefinition} {ids : Supply} {h h' : Heap} {o : Defined}
  {dr dr' : Draft} {f : FieldDefinition}

open Exec in
/-- **What a field starts as**: a copy of the value it is given, or the zero
of its type. -/
def initialValue (c : Catalog) (f : FieldDefinition) : Exec DefinitionError Value :=
  match f.initial with
  | some v => detach v
  | none => ofExcept (c.lookup f.type) >>= zeroOf

/-- **What becomes of an initial value**: it is detached, or made as the zero of
the field's type, unless that type is not found. -/
theorem initialValue_cases {out : Except DefinitionError Value}
    (hrun : (c.initialValue f).run h = some (out, h')) :
    (∃ v w, f.initial = some v ∧ h.detach? v = some (w, h') ∧ out = .ok w) ∨
      (∃ e, out = .error e) ∧ h' = h ∨
      ∃ t w, c.find? f.type = some t ∧ h.zeroOf? t = some (w, h') ∧ out = .ok w := by
  unfold initialValue at hrun
  cases hinitial : f.initial with
  | some v =>
    rw [hinitial] at hrun
    obtain ⟨⟨w, h₁⟩, hdetach, hpair⟩ := Option.map_eq_some_iff.1 hrun
    cases hpair
    exact .inl ⟨v, w, rfl, hdetach, rfl⟩
  | none =>
    rw [hinitial] at hrun
    rcases Exec.run_bind_cases hrun with ⟨e, hlookup, rfl⟩ | ⟨t, h₁, hlookup, hzero⟩
    · exact .inr (.inl ⟨⟨e, rfl⟩, (Exec.run_ofExcept_eq.1 hlookup).2.symm⟩)
    · obtain ⟨hfound, rfl⟩ := Exec.run_ofExcept_eq.1 hlookup
      obtain ⟨⟨w, h₁⟩, hzero, hpair⟩ := Option.map_eq_some_iff.1 hzero
      cases hpair
      exact .inr (.inr ⟨t, w, lookup_eq_ok.1 hfound, hzero, rfl⟩)

/-- A field is laid out once it has its initial value. -/
theorem addField_eq (c : Catalog) (d : TypeDefinition) (dr : Draft) (f : FieldDefinition) :
    c.addField d dr f =
      if d.kind = .interfaceType then
        Exec.throw (.invalidMember d.name f.name .fieldOnInterface)
      else c.initialValue f >>= fun initial =>
        if f.isStatic then
          Exec.alloc (·.allocCell initial) >>= fun cell =>
            pure (dr.appendField f initial (some cell))
        else pure (dr.appendField f initial none) := by
  unfold addField initialValue
  cases f.initial with
  | some v => rfl
  | none => simp only [bind_assoc]

/-- **A field that is added** has its initial value in a cell of its own when
it is static, and as its default when it is not. -/
theorem addField_eq_ok (hrun : (c.addField d dr f).run h = some (.ok dr', h')) :
    d.kind ≠ .interfaceType ∧
      ∃ initial h₁, (c.initialValue f).run h = some (.ok initial, h₁) ∧
        if f.isStatic then
          dr' = dr.appendField f initial (some (h₁.allocCell initial).1) ∧
            h' = (h₁.allocCell initial).2
        else dr' = dr.appendField f initial none ∧ h' = h₁ := by
  rw [addField_eq] at hrun
  split at hrun
  · cases hrun
  · rename_i hkind
    obtain ⟨initial, h₁, hinitial, hrest⟩ := run_bind_eq_ok.1 hrun
    refine ⟨hkind, initial, h₁, hinitial, ?_⟩
    cases hs : f.isStatic with
    | true =>
      simp only [hs, if_true] at hrest ⊢
      cases hrest
      exact ⟨rfl, rfl⟩
    | false =>
      simp only [hs, Bool.false_eq_true, if_false] at hrest ⊢
      cases hrest
      exact ⟨rfl, rfl⟩

/-- **What becomes of a field**: it is rejected at once, for want of an initial
value, or added with it. -/
theorem addField_cases {out : Except DefinitionError Draft}
    (hrun : (c.addField d dr f).run h = some (out, h')) :
    (∃ e, out = .error e) ∧ h' = h ∨
      (∃ e e', out = .error e ∧ (c.initialValue f).run h = some (.error e', h')) ∨
      ∃ v h₁, (c.initialValue f).run h = some (.ok v, h₁) ∧
        if f.isStatic then
          out = .ok (dr.appendField f v (some (h₁.allocCell v).1)) ∧ h' = (h₁.allocCell v).2
        else out = .ok (dr.appendField f v none) ∧ h' = h₁ := by
  rw [addField_eq] at hrun
  split at hrun
  · cases hrun
    exact .inl ⟨⟨_, rfl⟩, rfl⟩
  · rcases Exec.run_bind_cases hrun with ⟨e, hinitial, rfl⟩ | ⟨v, h₁, hinitial, hrest⟩
    · exact .inr (.inl ⟨e, e, rfl, hinitial⟩)
    · refine .inr (.inr ⟨v, h₁, hinitial, ?_⟩)
      cases hs : f.isStatic with
      | true =>
        simp only [hs, if_true] at hrest ⊢
        cases hrest
        exact ⟨rfl, rfl⟩
      | false =>
        simp only [hs, Bool.false_eq_true, if_false] at hrest ⊢
        cases hrest
        exact ⟨rfl, rfl⟩

/-- **A definition inherits and then takes its steps.** Its fields are added
first, and only they touch the heap. -/
theorem define_eq_ok (hrun : (c.define d ids).run h = some (.ok o, h')) :
    ∃ t dr dr', c.checkHead d = .ok () ∧
      c.inherit d (d.start ⟨ids.next⟩) = .ok t ∧
      (d.storedFields.foldlM (c.addField d) ⟨t, ⟨ids.next + 1⟩⟩).run h = some (.ok dr, h') ∧
      c.addMembers d dr = .ok dr' ∧
      o = { handle := ⟨ids.next⟩, catalog := ⟨c.types ++ [dr'.type]⟩, supply := dr'.supply } := by
  unfold define at hrun
  obtain ⟨u, h₀, hhead, hrun⟩ := run_bind_eq_ok.1 hrun
  obtain ⟨t, h₁, hinherit, hrun⟩ := run_bind_eq_ok.1 hrun
  obtain ⟨dr, h₂, hfields, hrun⟩ := run_bind_eq_ok.1 hrun
  obtain ⟨dr', h₃, hmembers, hrun⟩ := run_bind_eq_ok.1 hrun
  cases hrun
  simp only [run_ofExcept, Option.some.injEq, Prod.mk.injEq] at hhead hinherit hmembers
  obtain ⟨hhead, rfl⟩ := hhead
  obtain ⟨hinherit, rfl⟩ := hinherit
  obtain ⟨hmembers, rfl⟩ := hmembers
  exact ⟨t, dr, dr', hhead, hinherit, hfields, hmembers, rfl⟩

/-- **What becomes of a definition**: it is rejected before any field, or it
inherits and adds its fields, and then only members follow that leave the heap
alone. -/
theorem define_cases {out : Except DefinitionError Defined}
    (hrun : (c.define d ids).run h = some (out, h')) :
    (∃ e, out = .error e) ∧ h' = h ∨
      ∃ base is t out₁, c.Inherits d ⟨ids.next⟩ base is t ∧
        (d.storedFields.foldlM (c.addField d) ⟨t, ids.take.2⟩).run h = some (out₁, h') ∧
        ∀ o, out = .ok o → ∃ dr dr', out₁ = .ok dr ∧ Draft.MemberSteps dr dr' ∧
          o.catalog = ⟨c.types ++ [dr'.type]⟩ := by
  unfold define at hrun
  rcases Exec.run_bind_cases hrun with ⟨e, hhead, rfl⟩ | ⟨u, h₁, hhead, hrest⟩
  · exact .inl ⟨⟨e, rfl⟩, (Exec.run_ofExcept_eq.1 hhead).2.symm⟩
  obtain ⟨-, rfl⟩ := Exec.run_ofExcept_eq.1 hhead
  rcases Exec.run_bind_cases hrest with ⟨e, hinherit, rfl⟩ | ⟨t, h₁, hinherit, hrest⟩
  · exact .inl ⟨⟨e, rfl⟩, (Exec.run_ofExcept_eq.1 hinherit).2.symm⟩
  obtain ⟨hderived, rfl⟩ := Exec.run_ofExcept_eq.1 hinherit
  obtain ⟨base, is, hin⟩ := inherits_of_inherit hderived
  rcases Exec.run_bind_cases hrest with ⟨e, hfields, rfl⟩ | ⟨dr, h₁, hfields, hrest⟩
  · exact .inr ⟨base, is, t, _, hin, hfields, nofun⟩
  rcases Exec.run_bind_cases hrest with ⟨e, hmembers, rfl⟩ | ⟨dr', h₂, hmembers, hrest⟩
  · obtain ⟨-, rfl⟩ := Exec.run_ofExcept_eq.1 hmembers
    exact .inr ⟨base, is, t, _, hin, hfields, nofun⟩
  · obtain ⟨hadded, rfl⟩ := Exec.run_ofExcept_eq.1 hmembers
    cases hrest
    refine .inr ⟨base, is, t, _, hin, hfields, fun o hout => ?_⟩
    cases hout
    exact ⟨dr, dr', rfl, Draft.steps_of_addMembers hadded, rfl⟩

/-- Adding fields is a chain of steps. -/
theorem steps_of_addFields {fs : List FieldDefinition}
    (hrun : (fs.foldlM (c.addField d) dr).run h = some (.ok dr', h')) : Draft.Steps d dr dr' := by
  refine Exec.chain_of_foldlM (fun dr _ => dr) (fun dr f h dr' h' hf => ?_) hrun
  obtain ⟨hkind, initial, h₁, -, hrest⟩ := addField_eq_ok hf
  split at hrest
  · exact hrest.1 ▸ .single (.field dr f initial _ hkind)
  · exact hrest.1 ▸ .single (.field dr f initial _ hkind)

end Catalog

/-! ## What the steps keep -/

namespace Draft

variable {d : TypeDefinition} {t : TypeDef} {dr dr' : Draft}

/-- **A draft that has come out of a type without members of its own**: its
head and ancestors are that type's, its layout goes on from that type's, and
every member it has added is its own. -/
structure Extends (d : TypeDefinition) (t : TypeDef) (dr : Draft) : Prop where
  handle : dr.type.handle = t.handle
  name : dr.type.name = t.name
  kind : dr.type.kind = t.kind
  declaredAbstract : dr.type.declaredAbstract = t.declaredAbstract
  ancestors : dr.type.ancestors = t.ancestors
  inheritedFields : dr.type.inheritedFields = t.inheritedFields
  /-- Own fields are the type's, which then is no interface. -/
  fields : ∀ f ∈ dr.type.fields, f.declaringType = t.handle ∧ d.kind ≠ .interfaceType
  /-- An own instance field sits in the slot that it names. -/
  slots : ∀ f ∈ dr.type.fields, ∀ i, f.slot? = some i → dr.type.layout[i]? = some f
  layout : t.layout <+: dr.type.layout
  laidOut : ∀ f ∈ dr.type.layout, f ∈ t.layout ∨ f ∈ dr.type.fields
  defaults : dr.type.defaults.length = dr.type.layout.length
  methods : ∀ m ∈ dr.type.methods,
    m.declaringType = t.handle ∧ (m.isStatic = true → m.slot = none)
  inheritedMethods : dr.type.inheritedMethods ⊆ t.inheritedMethods

/-- A type without members of its own extends itself. -/
theorem Extends.refl (supply : Supply) (hfields : t.fields = []) (hmethods : t.methods = [])
    (hdefaults : t.defaults.length = t.layout.length) : Extends d t ⟨t, supply⟩ where
  handle := rfl
  name := rfl
  kind := rfl
  declaredAbstract := rfl
  ancestors := rfl
  inheritedFields := rfl
  fields := by simp [hfields]
  slots := by simp [hfields]
  layout := List.prefix_refl _
  laidOut := fun f hf => .inl hf
  defaults := hdefaults
  methods := by simp [hmethods]
  inheritedMethods := List.Subset.refl _

/-- A new instance field takes the slot behind all others; a new static field
takes none. -/
theorem Extends.appendField (h : Extends d t dr) (hkind : d.kind ≠ .interfaceType)
    (f : FieldDefinition) (initial : Value) (cell : Option CellRef) :
    Extends d t (dr.appendField f initial cell) := by
  have hfields : ∀ {x : Field}, x.declaringType = dr.type.handle → ∀ g ∈ dr.type.fields ++ [x],
      g.declaringType = t.handle ∧ d.kind ≠ .interfaceType :=
    fun hx => forall_mem_concat h.fields ⟨hx.trans h.handle, hkind⟩
  cases cell with
  | some c =>
    -- a static field is declared, and the layout stays as it is
    exact
      { h with
        fields := hfields rfl
        slots := forall_mem_concat h.slots nofun
        laidOut := fun g hg => (h.laidOut g hg).imp_right (List.mem_append_left _) }
  | none =>
    -- an instance field goes to the end of the layout, which is the slot it names
    refine
      { h with
        fields := hfields rfl
        slots := forall_mem_concat (fun g hg i hi => ?oldSlot) fun i hi => ?newSlot
        layout := h.layout.trans (List.prefix_append _ _)
        laidOut := fun g hg => ?laidOut
        defaults := by simp [Draft.appendField, nextId, h.defaults] }
    case oldSlot => exact getElem?_of_prefix (List.prefix_append _ _) (h.slots g hg i hi)
    case newSlot =>
      cases hi
      exact List.getElem?_concat_length
    case laidOut =>
      rcases List.mem_append.1 hg with hg | hg
      · exact (h.laidOut g hg).imp_right (List.mem_append_left _)
      · exact .inr (List.mem_append_right _ hg)

/-- **Every step keeps to the type it started from.** -/
theorem Extends.step (h : Extends d t dr) (hs : Step d dr dr') : Extends d t dr' := by
  cases hs with
  | field f initial cell hkind => exact h.appendField hkind f initial cell
  | member hs =>
    cases hs with
    | method hadd =>
      obtain ⟨hdeclaring, hstatic, htype, -⟩ := addMethod_eq_ok hadd
      obtain ⟨type, supply⟩ := dr'
      subst htype
      refine { h with methods := ?_, inheritedMethods := ?_ }
      · exact forall_mem_concat h.methods ⟨hdeclaring.trans h.handle, hstatic⟩
      · -- an override hides the method that it overrides
        intro n hn
        simp only [TypeDef.appendMethod] at hn
        split at hn
        · exact h.inheritedMethods (List.mem_of_mem_filter hn)
        · exact h.inheritedMethods hn
    | property p hp => exact { h with }
    | bind s m => exact { h with }
    | constructor k => exact { h with }

theorem Extends.steps (h : Extends d t dr) (hs : Steps d dr dr') : Extends d t dr' :=
  chain_invariant (fun _ _ hs h => h.step hs) hs h

/-- Constructors are declared by the type that they are added to. -/
theorem constructors_of_steps (hs : Steps d dr dr')
    (hall : ∀ k ∈ dr.type.constructors, k.declaringType = dr.type.handle) :
    ∀ k ∈ dr'.type.constructors, k.declaringType = dr'.type.handle := by
  refine chain_invariant
    (P := fun x => ∀ k ∈ x.type.constructors, k.declaringType = x.type.handle)
    (fun x y hs hx => ?_) hs hall
  cases hs with
  | field f initial cell hkind => cases cell <;> exact hx
  | member hs =>
    cases hs with
    | method hadd =>
      rw [(addMethod_eq_ok hadd).2.2.1]
      exact hx
    | property p hp => exact hx
    | bind s m => exact hx
    | constructor k => exact forall_mem_concat hx rfl

/-- Steps only use identities up. -/
theorem supply_le_of_steps (hs : Steps d dr dr') : dr.supply.next ≤ dr'.supply.next := by
  induction hs with
  | refl => exact Nat.le_refl _
  | tail _ hstep ih =>
    refine Nat.le_trans ih ?_
    cases hstep with
    | field f initial cell hkind => cases cell <;> exact Nat.le_succ _
    | member hs =>
      cases hs with
      | method hadd => exact (addMethod_eq_ok hadd).2.2.2
      | property p hp => exact Nat.le_succ _
      | bind s m => exact Nat.le_refl _
      | constructor k => exact Nat.le_succ _

end Draft

namespace Catalog

variable {c : Catalog} {d : TypeDefinition} {ids : Supply} {h h' : Heap} {o : Defined}

/-- **A definition adds one type**, which extends what it inherits, under a
fresh handle. -/
theorem exists_of_define (hrun : (c.define d ids).run h = some (.ok o, h')) :
    ∃ base is t dr, c.Inherits d ⟨ids.next⟩ base is t ∧
      Draft.Steps d ⟨t, ⟨ids.next + 1⟩⟩ dr ∧ dr.type.handle = ⟨ids.next⟩ ∧
      o.catalog = ⟨c.types ++ [dr.type]⟩ ∧ o.supply = dr.supply := by
  obtain ⟨t, dr, dr', -, hinherit, hfields, hmembers, rfl⟩ := define_eq_ok hrun
  obtain ⟨base, is, hin⟩ := inherits_of_inherit hinherit
  have hsteps : Draft.Steps d _ dr' :=
    (steps_of_addFields hfields).trans (Draft.steps_of_addMembers hmembers).steps
  exact ⟨base, is, t, dr', hin, hsteps, hsteps.sameHead.handle.trans hin.head.1, rfl, rfl⟩

/-- The types that were there come first. -/
theorem extends_of_define (hrun : (c.define d ids).run h = some (.ok o, h')) :
    c.types <+: o.catalog.types := by
  obtain ⟨t, dr, dr', -, -, -, -, rfl⟩ := define_eq_ok hrun
  exact List.prefix_append _ _

end Catalog

end MemberAccess
