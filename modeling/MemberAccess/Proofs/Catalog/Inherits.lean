import MemberAccess.Catalog.Define
import MemberAccess.Proofs.Partial
/-!
# Catalog — what a new type inherits

`Inherits` names the base and the interfaces that a new type takes over from.
They are types of the catalog, the base a class and each interface an
interface, and the new type is what they make of it. The lemmas say what it
then has: which ancestors, which fields and slots, which methods.
-/

namespace MemberAccess

/-- Everything kept was there. -/
theorem mem_of_mem_keepFirst {α : Type} {clash : α → α → Bool} {l : List α} {a : α}
    (h : a ∈ keepFirst clash l) : a ∈ l := by
  have hfold : ∀ (l kept : List α),
      a ∈ l.foldl (fun kept a => if kept.any (clash · a) then kept else kept ++ [a]) kept →
      a ∈ kept ∨ a ∈ l := by
    intro l
    induction l with
    | nil => exact fun kept hk => .inl hk
    | cons b l ih =>
      intro kept hk
      rcases ih _ hk with hk | hl
      · dsimp only at hk
        split at hk
        · exact .inl hk
        · rcases List.mem_append.1 hk with hk | hb
          · exact .inl hk
          · exact .inr (List.mem_singleton.1 hb ▸ List.mem_cons_self)
      · exact .inr (List.mem_cons_of_mem _ hl)
  exact (hfold l [] h).resolve_left List.not_mem_nil

namespace TypeDef

variable {t u i : TypeDef}

theorem mem_joinAncestors {a : TypeHandle} :
    a ∈ t.joinAncestors u ↔ a ∈ t.ancestors ∨ a ∈ u.ancestors := by
  by_cases h : a ∈ t.ancestors <;> simp [joinAncestors, h]

/-- **An interface brings its ancestors**, and to an interface its properties
and methods too. -/
theorem implement_eq (t i : TypeDef) :
    t.implement i = { t with
      interfaces := t.interfaces ++ [i.handle]
      ancestors := t.joinAncestors i
      inheritedProperties :=
        t.inheritedProperties ++ if t.isInterface then i.allProperties else []
      inheritedMethods := t.inheritedMethods ++ if t.isInterface then i.allMethods else [] } := by
  have hi : ({ t with
      interfaces := t.interfaces ++ [i.handle]
      ancestors := t.joinAncestors i } : TypeDef).isInterface = t.isInterface := rfl
  unfold implement
  cases h : t.isInterface <;> simp [hi, h]

/-- A type with the interfaces of a list. -/
def implementAll (t : TypeDef) (is : List TypeDef) : TypeDef := is.foldl implement t

/-- Interfaces leave the rest of a type alone. -/
theorem implementAll_frame (t : TypeDef) (is : List TypeDef) :
    ∃ interfaces ancestors properties methods, t.implementAll is = { t with
      interfaces := interfaces
      ancestors := ancestors
      inheritedProperties := properties
      inheritedMethods := methods } := by
  induction is generalizing t with
  | nil => exact ⟨_, _, _, _, rfl⟩
  | cons i is ih =>
    obtain ⟨interfaces, ancestors, properties, methods, h⟩ := ih (t.implement i)
    refine ⟨interfaces, ancestors, properties, methods, h.trans ?_⟩
    rw [implement_eq]

theorem mem_ancestors_implementAll {is : List TypeDef} {a : TypeHandle} :
    a ∈ (t.implementAll is).ancestors ↔ a ∈ t.ancestors ∨ ∃ i ∈ is, a ∈ i.ancestors := by
  induction is generalizing t with
  | nil => simp [implementAll]
  | cons i is ih =>
    have hstep : a ∈ (t.implement i).ancestors ↔ a ∈ t.ancestors ∨ a ∈ i.ancestors := by
      rw [implement_eq]
      exact mem_joinAncestors
    have htail := ih (t := t.implement i)
    rw [show (t.implementAll (i :: is)) = (t.implement i).implementAll is from rfl, htail, hstep]
    simp [or_assoc]

/-- Methods come from interfaces alone. -/
theorem mem_inheritedMethods_implementAll {is : List TypeDef} {m : Method}
    (h : m ∈ (t.implementAll is).inheritedMethods) :
    m ∈ t.inheritedMethods ∨ ∃ i ∈ is, m ∈ i.allMethods := by
  induction is generalizing t with
  | nil => exact .inl h
  | cons i is ih =>
    rcases ih (t := t.implement i) h with h | ⟨j, hj, hm⟩
    · rw [implement_eq] at h
      rcases List.mem_append.1 h with h | h
      · exact .inl h
      · split at h
        · exact .inr ⟨i, List.mem_cons_self, h⟩
        · cases h
    · exact .inr ⟨j, List.mem_cons_of_mem _ hj, hm⟩

/-- So do properties. -/
theorem mem_inheritedProperties_implementAll {is : List TypeDef} {p : Property}
    (h : p ∈ (t.implementAll is).inheritedProperties) :
    p ∈ t.inheritedProperties ∨ ∃ i ∈ is, p ∈ i.allProperties := by
  induction is generalizing t with
  | nil => exact .inl h
  | cons i is ih =>
    rcases ih (t := t.implement i) h with h | ⟨j, hj, hp⟩
    · rw [implement_eq] at h
      rcases List.mem_append.1 h with h | h
      · exact .inl h
      · split at h
        · exact .inr ⟨i, List.mem_cons_self, h⟩
        · cases h
    · exact .inr ⟨j, List.mem_cons_of_mem _ hj, hp⟩

end TypeDef

namespace Catalog

variable {c : Catalog} {d : TypeDefinition} {h : TypeHandle} {t : TypeDef}

/-- A type that is found goes by the handle it is looked up under. -/
theorem handle_of_find? (ht : c.find? h = some t) : t.handle = h := by
  simpa using List.find?_some ht

theorem lookup_eq_ok : c.lookup h = .ok t ↔ c.find? h = some t := by
  unfold lookup
  cases c.find? h <;> simp

/-- **What a new type takes over from**: a base and interfaces of the
catalog. -/
structure Inherits (c : Catalog) (d : TypeDefinition) (h : TypeHandle) (base : Option TypeDef)
    (is : List TypeDef) (t : TypeDef) : Prop where
  base_eq : c.resolveBase d = .ok base
  interfaces_eq : List.Forall₂ (fun h i => c.find? h = some i ∧ i.isInterface = true)
    d.interfaces is
  type_eq : t = (match base with
    | some b => ((d.start h).implementAll is).derive b
    | none => (d.start h).implementAll is).withoutClashes

/-- Inheriting succeeds from a base and interfaces. -/
theorem inherits_of_inherit (hin : c.inherit d (d.start h) = .ok t) :
    ∃ base is, c.Inherits d h base is t := by
  unfold inherit at hin
  obtain ⟨base, hbase, hin⟩ := bind_eq_ok.1 hin
  obtain ⟨u, hfold, hin⟩ := bind_eq_ok.1 hin
  -- the interfaces are found one after the other, in the order they are named in
  have hall : ∀ (hs : List TypeHandle) (s u : TypeDef), hs.foldlM (c.implement d) s = .ok u →
      ∃ is, List.Forall₂ (fun h i => c.find? h = some i ∧ i.isInterface = true) hs is ∧
        u = s.implementAll is := by
    intro hs
    induction hs with
    | nil =>
      intro s u hu
      cases hu
      exact ⟨[], .nil, rfl⟩
    | cons a hs ih =>
      intro s u hu
      rw [List.foldlM_cons] at hu
      obtain ⟨s₁, hstep, hrest⟩ := bind_eq_ok.1 hu
      obtain ⟨i, hi, hstep⟩ := bind_eq_ok.1 hstep
      split at hstep
      · rename_i hinterface
        cases hstep
        obtain ⟨is, his, rfl⟩ := ih _ _ hrest
        exact ⟨i :: is, .cons ⟨lookup_eq_ok.1 hi, hinterface⟩ his, rfl⟩
      · cases hstep
  obtain ⟨is, his, rfl⟩ := hall _ _ _ hfold
  refine ⟨base, is, hbase, his, ?_⟩
  cases hin
  cases base <;> rfl

/-- **A base is a class of the catalog**, and only classes have one. -/
theorem resolveBase_eq_some {b : TypeDef} (hb : c.resolveBase d = .ok (some b)) :
    d.kind = .classType ∧ c.find? (d.base.getD .object) = some b ∧ b.kind = .classType := by
  unfold resolveBase at hb
  split at hb
  · rename_i hkind
    obtain ⟨b', hlookup, hb⟩ := bind_eq_ok.1 hb
    split at hb
    · cases hb
    · rename_i hclass
      split at hb
      · cases hb
      · cases hb
        exact ⟨hkind, lookup_eq_ok.1 hlookup, by simpa using hclass⟩
  · obtain ⟨b', -, hb⟩ := bind_eq_ok.1 hb
    cases hb
  · cases hb

namespace Inherits

variable {base : Option TypeDef} {is : List TypeDef}

/-- **The new type keeps its head and has no member of its own yet.** -/
theorem head (hi : c.Inherits d h base is t) :
    t.handle = h ∧ t.name = d.name ∧ t.kind = d.kind ∧ t.declaredAbstract = d.isAbstract ∧
      t.fields = [] ∧ t.methods = [] ∧ t.properties = [] ∧ t.constructors = [] := by
  obtain ⟨_, _, _, _, hframe⟩ := TypeDef.implementAll_frame (d.start h) is
  rw [hi.type_eq, hframe]
  cases base <;> exact ⟨rfl, rfl, rfl, rfl, rfl, rfl, rfl, rfl⟩

/-- Fields, slots and defaults come from the base alone. -/
theorem fields_eq (hi : c.Inherits d h base is t) :
    t.inheritedFields = base.elim [] (·.allFields) ∧ t.layout = base.elim [] (·.layout) ∧
      t.defaults = base.elim [] (·.defaults) := by
  obtain ⟨_, _, _, _, hframe⟩ := TypeDef.implementAll_frame (d.start h) is
  rw [hi.type_eq, hframe]
  cases base <;> exact ⟨rfl, rfl, rfl⟩

/-- So do the slots that are bound. -/
theorem dispatch_eq (hi : c.Inherits d h base is t) : t.dispatch = base.elim {} (·.dispatch) := by
  obtain ⟨_, _, _, _, hframe⟩ := TypeDef.implementAll_frame (d.start h) is
  rw [hi.type_eq, hframe]
  cases base <;> rfl

theorem mem_interfaces (hi : c.Inherits d h base is t) {i : TypeDef} (hmem : i ∈ is) :
    i ∈ c.types ∧ i.isInterface = true := by
  obtain ⟨a, -, hfind, hinterface⟩ := exists_partner hi.interfaces_eq hmem
  exact ⟨List.mem_of_find?_eq_some hfind, hinterface⟩

theorem mem_base (hi : c.Inherits d h base is t) {b : TypeDef} (hb : base = some b) :
    d.kind = .classType ∧ b ∈ c.types ∧ b.kind = .classType := by
  obtain ⟨hkind, hfind, hclass⟩ := resolveBase_eq_some (hb ▸ hi.base_eq)
  exact ⟨hkind, List.mem_of_find?_eq_some hfind, hclass⟩

/-- **The ancestors of a new type**: itself, `Object`, and those of the types
it takes over from. -/
theorem mem_ancestors (hi : c.Inherits d h base is t) {a : TypeHandle} :
    a ∈ t.ancestors ↔
      a ∈ (d.start h).ancestors ∨ (∃ i ∈ is, a ∈ i.ancestors) ∨
        ∃ b, base = some b ∧ a ∈ b.ancestors := by
  cases base with
  | none =>
    have hancestors : t.ancestors = ((d.start h).implementAll is).ancestors := by
      rw [hi.type_eq]
      rfl
    simp [hancestors, TypeDef.mem_ancestors_implementAll]
  | some b =>
    have hancestors : t.ancestors = ((d.start h).implementAll is).joinAncestors b := by
      rw [hi.type_eq]
      rfl
    simp [hancestors, TypeDef.mem_joinAncestors, TypeDef.mem_ancestors_implementAll, or_assoc]

/-- Inherited methods are methods of the types taken over from. -/
theorem mem_inheritedMethods (hi : c.Inherits d h base is t) {m : Method}
    (hm : m ∈ t.inheritedMethods) :
    (∃ i ∈ is, m ∈ i.allMethods) ∨ ∃ b, base = some b ∧ m ∈ b.allMethods := by
  rw [hi.type_eq] at hm
  cases base with
  | none =>
    rcases TypeDef.mem_inheritedMethods_implementAll (mem_of_mem_keepFirst hm) with hm | hm
    · cases hm
    · exact .inl hm
  | some b => exact .inr ⟨b, rfl, mem_of_mem_keepFirst hm⟩

/-- Inherited properties are properties of the types taken over from. -/
theorem mem_inheritedProperties (hi : c.Inherits d h base is t) {p : Property}
    (hp : p ∈ t.inheritedProperties) :
    (∃ i ∈ is, p ∈ i.allProperties) ∨ ∃ b, base = some b ∧ p ∈ b.allProperties := by
  rw [hi.type_eq] at hp
  cases base with
  | none =>
    rcases TypeDef.mem_inheritedProperties_implementAll (mem_of_mem_keepFirst hp) with hp | hp
    · cases hp
    · exact .inl hp
  | some b => exact .inr ⟨b, rfl, mem_of_mem_keepFirst hp⟩

end Inherits

end Catalog

end MemberAccess
