import MemberAccess.Proofs.Accessor.Generated
import MemberAccess.Proofs.Catalog.Accessors
import MemberAccess.Proofs.Catalog.Layout
import MemberAccess.Proofs.Catalog.Subtyping
import MemberAccess.Proofs.Code.Dispatched
import MemberAccess.Proofs.Heap.Fitted
/-!
# Typing — accessors that agree with what they are over

Of types whose methods are all generated accessors (`Catalog.Generated`),
whatever accessor method a call ends at reads or writes a field. Nobody checks
that the field is of the type of the property that was asked for: a property may
be backed by any field, and a get method may be overridden, or stand in for that
of an interface, whatever either of them returns. Where types do agree
(`Catalog.Agrees`), what is read may go where it was asked for, and what is set
to the field that gets it (`Agrees.exists_read`, `Agrees.exists_write`). For a
set method nothing is asked of those that stand in for it, as the type that it
takes is part of its signature.
-/

namespace MemberAccess

namespace Catalog

/-- **All methods are generated accessors**, those apart that interfaces
require. -/
structure Generated (c : Catalog) : Prop where
  getters : ∀ t ∈ c.types, t.isInterface = false → ∀ p ∈ t.properties, ∀ m ∈ p.getter,
    ∃ f ∈ t.allFields, m.body = some f.storage.reader
  setters : ∀ t ∈ c.types, t.isInterface = false → ∀ p ∈ t.properties, ∀ m ∈ p.setter,
    ∃ f ∈ t.allFields, m.body = some f.storage.writer
  accessors : ∀ t ∈ c.types, ∀ m ∈ t.methods,
    ∃ p ∈ t.properties, p.getter = some m ∨ p.setter = some m

/-- **Types agree** wherever a property meets a field or another property: a
property may be read off a field of a type that may go to its own, and set to a
field of a type that its own may go to. -/
structure Agrees (c : Catalog) : Prop where
  getters : ∀ t ∈ c.types, ∀ p ∈ t.properties, ∀ m ∈ p.getter, ∀ f ∈ t.allFields,
    m.body = some f.storage.reader → c.isAssignable p.type f.type = true
  setters : ∀ t ∈ c.types, ∀ p ∈ t.properties, ∀ m ∈ p.setter, ∀ f ∈ t.allFields,
    m.body = some f.storage.writer → c.isAssignable f.type p.type = true
  /-- Wherever a get method is overridden or stands in for another, what it
  returns may go where that was asked for. -/
  dispatched : ∀ u ∈ c.types, ∀ p ∈ u.properties, ∀ m ∈ p.getter, ∀ t ∈ c.types,
    u.handle ∈ t.ancestors → ∀ n ∈ t.resolve? m, c.isAssignable p.type n.returnType = true

variable {c : Catalog} {ids : Supply} {t u : TypeDef} {m n : Method} {p : Property}
  {b : MemberBody} {this : Option ObjectRef} {h h' : Heap}

/-- A call ends at the method that is called, or at one that the table of the
receiver's type has for its slot. -/
theorem implementation?_cases (hn : h.implementation? m this = some n) :
    n = m ∨ ∃ o s, this = some o ∧ m.slot = some s ∧
      (h.typeAt o).dispatch.find? s = some n := by
  cases this with
  | none =>
    unfold Heap.implementation? at hn
    cases hs : m.slot <;> simp only [hs, Option.some.injEq] at hn <;> exact .inl hn.symm
  | some o =>
    rw [Method.implementation?_object] at hn
    rcases TypeDef.resolve?_cases hn with rfl | ⟨s, hs, hb⟩
    · exact .inl rfl
    · exact .inr ⟨o, s, rfl, hs, hb⟩

/-- What a body may be called on: an object that is a kind of the type that
declares the method, if on anything. -/
def Serves (c : Catalog) (h : Heap) (u : TypeDef) (this : Option ObjectRef) : Prop :=
  ∀ o, this = some o → h.Has o ∧ h.typeAt o ∈ c.types ∧ u.handle ∈ (h.typeAt o).ancestors

theorem serves_none : c.Serves h u none := by
  rintro _ ⟨⟩

/-- **Where a call ends**: at a method of the same signature that the receiver
serves, too. -/
theorem Built.exists_declaring (hb : c.Built ids) (hu : u ∈ c.types) (hm : m ∈ u.methods)
    (hthis : c.Serves h u this) (hn : h.implementation? m this = some n) :
    ∃ v ∈ c.types, n ∈ v.methods ∧ n.parameterTypes = m.parameterTypes ∧ c.Serves h v this := by
  rcases implementation?_cases hn with rfl | ⟨o, s, rfl, hs, hfind⟩
  · exact ⟨u, hu, hm, rfl, hthis⟩
  · obtain ⟨ho, ht, -⟩ := hthis o rfl
    have hd := hb.dispatches
    obtain ⟨v, hv, hnv⟩ := mem_lineageMethods.1 ((hd.table _ ht).binding s n hfind).mem
    have hsignature := hd.signature_eq ht hfind hu (List.mem_append_left _ hm) hs
    refine ⟨v, mem_types_of_mem_lineage hv, hnv, (Method.signature_eq_iff.1 hsignature).2.symm, ?_⟩
    rintro _ ⟨⟩
    exact ⟨ho, ht, hb.hierarchy.mem_ancestors_of_mem_lineage hb ht hv⟩

/-- Only classes and structs declare methods with a body. -/
theorem Built.isInterface_of_body (hb : c.Built ids) (ht : t ∈ c.types) (hm : m ∈ t.methods)
    (hbody : m.body = some b) : t.isInterface = false := by
  by_contra hi
  have hcontract := (hb.contracts.regular t ht).contracts (by simpa using hi) m hm
  rw [hcontract.body] at hbody
  cases hbody

/-- A set method takes one parameter more than the get method of its property. -/
theorem Built.length_parameterTypes (hb : c.Built ids) (ht : t ∈ c.types) (hp : p ∈ t.properties) :
    (∀ m ∈ p.getter, m.parameterTypes.length = p.indexParameters.length) ∧
      ∀ m ∈ p.setter, m.parameterTypes.length = p.indexParameters.length + 1 := by
  have haccessors := (hb.contracts.regular t ht).properties p hp
  exact ⟨fun m hm => by simpa [Method.parameterTypes] using (haccessors.getter m hm).2.1,
    fun m hm => by simpa [Method.parameterTypes] using (haccessors.setter m hm).2.1⟩

namespace Agrees

/-- **A get method reads a field whose type may go to that of its property**,
wherever a call of it ends. -/
theorem exists_read (ha : c.Agrees) (hg : c.Generated) (hb : c.Built ids) (hu : u ∈ c.types)
    (hp : p ∈ u.properties) (hindex : p.indexParameters = []) (hm : p.getter = some m)
    (hthis : c.Serves h u this) (hn : h.implementation? m this = some n)
    (hbody : n.body = some b) :
    ∃ v ∈ c.types, c.Serves h v this ∧ ∃ f ∈ v.allFields, b = f.storage.reader ∧
      c.isAssignable p.type f.type = true := by
  have haccessors := (hb.contracts.regular u hu).properties p hp
  obtain ⟨hmu, -, hreturn⟩ := haccessors.getter m hm
  obtain ⟨v, hv, hnv, htypes, hserves⟩ := hb.exists_declaring hu hmu hthis hn
  obtain ⟨q, hq, hget | hset⟩ := hg.accessors v hv n hnv
  · have hreturns : c.isAssignable p.type n.returnType = true := by
      cases this with
      | none =>
        obtain rfl : n = m := by
          rcases implementation?_cases hn with rfl | ⟨_, _, hnone, -⟩
          · rfl
          · cases hnone
        exact isAssignable_iff.2 (.inl hreturn.symm)
      | some o =>
        rw [Method.implementation?_object] at hn
        obtain ⟨-, ht, hancestor⟩ := hthis o rfl
        exact ha.dispatched u hu p hp m hm _ ht hancestor n hn
    have hinterface := hb.isInterface_of_body hv hnv hbody
    obtain ⟨f, hf, hreader⟩ := hg.getters v hv hinterface q hq n hget
    have htype := ha.getters v hv q hq n hget f hf hreader
    have hown := (((hb.contracts.regular v hv).properties q hq).getter n hget).2.2
    refine ⟨v, hv, hserves, f, hf, Option.some.inj (hbody.symm.trans hreader), ?_⟩
    exact hb.isPartialOrder.trans _ _ _ htype (hown ▸ hreturns)
  · -- a set method takes a parameter, and a get method none
    have hone := (hb.length_parameterTypes hv hq).2 n hset
    have hnone := (hb.length_parameterTypes hu hp).1 m hm
    rw [htypes, hnone, hindex] at hone
    cases hone

/-- **A set method writes a field that the type of its property may go to**,
wherever a call of it ends, if it does not end at a get method. -/
theorem exists_write (ha : c.Agrees) (hg : c.Generated) (hb : c.Built ids) (hu : u ∈ c.types)
    (hp : p ∈ u.properties) (hindex : p.indexParameters = []) (hm : p.setter = some m)
    (hthis : c.Serves h u this) (hn : h.implementation? m this = some n)
    (hbody : n.body = some b) :
    ∃ v ∈ c.types, c.Serves h v this ∧ ∃ f ∈ v.allFields, b = f.storage.reader ∨
      b = f.storage.writer ∧ c.isAssignable f.type p.type = true := by
  obtain ⟨hmu, -, -⟩ := ((hb.contracts.regular u hu).properties p hp).setter m hm
  obtain ⟨v, hv, hnv, htypes, hserves⟩ := hb.exists_declaring hu hmu hthis hn
  have hinterface := hb.isInterface_of_body hv hnv hbody
  obtain ⟨q, hq, hget | hset⟩ := hg.accessors v hv n hnv
  · obtain ⟨f, hf, hreader⟩ := hg.getters v hv hinterface q hq n hget
    exact ⟨v, hv, hserves, f, hf, .inl (Option.some.inj (hbody.symm.trans hreader))⟩
  · obtain ⟨f, hf, hwriter⟩ := hg.setters v hv hinterface q hq n hset
    have htype := ha.setters v hv q hq n hset f hf hwriter
    refine ⟨v, hv, hserves, f, hf, .inr ⟨Option.some.inj (hbody.symm.trans hwriter), ?_⟩⟩
    -- what is set is of a type that both signatures end with
    obtain ⟨_, hstored⟩ := hb.keepsProperties u hu p hp
    obtain ⟨_, hstored'⟩ := hb.keepsProperties v hv q hq
    have hlast := hstored'.input n hset
    rw [htypes, hstored.input m hm, hindex, List.map_nil, List.nil_append] at hlast
    have hlast := congrArg List.getLast? hlast
    rw [List.getLast?_concat, List.getLast?_singleton] at hlast
    rwa [Option.some.inj hlast]

end Agrees

/-! ## Places of fields -/

/-- **The location of a field has the type of the field**, in whatever serves a
type that has the field. -/
theorem Built.declares (hb : c.Built ids) (ht : t ∈ c.types) {f : Field} (hf : f ∈ t.allFields)
    (hthis : c.Serves h t this) {l : Location} (hl : f.storage.location? this = some l) :
    h.Declares c l f.type := by
  obtain ⟨u, hu, hfu⟩ := hb.wellFormed.fields t ht f hf
  cases hstorage : f.storage with
  | cell k =>
    rw [hstorage] at hl
    cases hl
    exact ⟨u, hu, f, hfu, hstorage, rfl⟩
  | slot i =>
    rw [hstorage] at hl
    obtain ⟨o, rfl, rfl⟩ := Option.map_eq_some_iff.1 hl
    obtain ⟨-, htype, hancestor⟩ := hthis o rfl
    have hdeclaring := hb.contracts.closed _ htype t ht hancestor (hb.layouts.declaring t ht f hf)
    have hslot : f.slot? = some i := by rw [Field.slot?, hstorage]
    exact ⟨f, hb.wellFormed.slots u hu f hfu i hslot _ htype hdeclaring, rfl⟩

end Catalog

end MemberAccess
