import MemberAccess.Proofs.Accessor.PropertyRoundTrip
import MemberAccess.Proofs.Catalog.FieldTypes
/-!
# Accessor — which fields have accessors

All that a getter or a setter without a view needs besides its field is the
type of the field: with it both are compiled, whatever is cached, and without
it neither is (`Reflector.compiles_field`). The type is known for every field
that is defined without an initial value, hidden ones among them. A field with
an initial value may be of any type, and then it may have no accessors
(`Sample.quill_not_compiled`).
-/

namespace MemberAccess

variable {r : Reflector} {f : Field} {t : TypeDef} {a : Accessor}

/-- **What can be compiled is answered**, whatever is cached. -/
theorem Workshop.exists_answer {q : Request} (ha : r.Compiles q a) (w : Workshop) :
    ∃ b, (w.request r q).1 = .ok b := by
  obtain ⟨p, hp, hcode, -⟩ := Reflector.compiles_iff.1 ha
  obtain ⟨b, supply, hcompile⟩ : ∃ b supply, w.compile p = .ok (b, supply) := by
    rw [compile, hcode]
    exact ⟨_, _, rfl⟩
  have hfetch : ∃ b, (w.fetch p).1 = .ok b := by
    cases hhit : (w.cache.find? p.key).filter (·.shape = p.shape) with
    | some kept => exact ⟨kept, by simp only [fetch, hhit]⟩
    | none =>
      refine ⟨b, ?_⟩
      simp only [fetch, hhit, hcompile]
      -- what is compiled is kept unless something is kept there already
      split <;> rfl
  simpa only [request, hp] using hfetch

namespace Reflector

/-- The types that an access works with include the field's own. -/
theorem contains_of_fieldTypes? {owner value : Option TypeHandle} {s : FieldTypes}
    (hs : r.registry.fieldTypes? f owner value = some s) :
    r.registry.contains f.type = true :=
  Catalog.contains_iff.2 ⟨s.type, (Registry.fieldTypes?_eq_some.1 hs).1⟩

/-- **A getter needs the type of its field.** -/
theorem contains_of_getter {view : Option View} (ha : r.Compiles (.fieldGetter (some f) view) a) :
    r.registry.contains f.type = true := by
  obtain ⟨s, hs, -⟩ := get_eq_read ha
  exact contains_of_fieldTypes? hs

/-- **So does a setter.** -/
theorem contains_of_setter {view : Option View} (ha : r.Compiles (.fieldSetter (some f) view) a) :
    r.registry.contains f.type = true := by
  obtain ⟨s, hs, -⟩ := set_eq_write ha
  exact contains_of_fieldTypes? hs

/-- **A field has accessors if its type is known.** Every field of a type,
declared, hidden or inherited, static or not, comes from a place in one of the
definitions that the registry was built from, and its type is registered if the
place is that of a hidden field or gives no initial value. If the type is
registered, each request for a getter or a setter of the field without a view is
answered, whatever is cached; if it is not, neither is ever compiled. -/
theorem compiles_field {ds : List TypeDefinition} (hr : r.registry.BuiltFrom ds)
    (ht : t ∈ r.registry.types) (hf : f ∈ t.allFields) :
    (∃ d ∈ ds, ∃ i a, r.registry.DefinesAt d i a f ∧
      (d.fields.length ≤ i ∨ a.initial = none → r.registry.contains f.type = true)) ∧
    (r.registry.contains f.type = true → ∀ w : Workshop,
      (∃ getter, (w.request r (.fieldGetter (some f) none)).1 = .ok getter) ∧
      ∃ setter, (w.request r (.fieldSetter (some f) none)).1 = .ok setter) ∧
    (r.registry.contains f.type = false → ∀ accessor,
      ¬ r.Compiles (.fieldGetter (some f) none) accessor ∧
      ¬ r.Compiles (.fieldSetter (some f) none) accessor) := by
  have hbuilt : r.registry.Built := Registry.built_iff.2 ⟨ds, hr⟩
  obtain ⟨ids, hb⟩ := hr
  refine ⟨hb.exists_definesAt ht hf, fun hknown w => ?_, fun hunknown accessor => ?_⟩
  · obtain ⟨type, htype⟩ := Catalog.contains_iff.1 hknown
    obtain ⟨-, -, s, hs, -⟩ := hbuilt.fieldTypes? ht hf htype
    obtain ⟨getter, hget⟩ := exists_get hs
    obtain ⟨setter, hset⟩ := exists_set hs
    exact ⟨Workshop.exists_answer hget w, Workshop.exists_answer hset w⟩
  · have hnot : r.registry.contains f.type ≠ true := by simp [hunknown]
    exact ⟨fun hget => hnot (contains_of_getter hget), fun hset => hnot (contains_of_setter hset)⟩

end Reflector

namespace Sample

theorem dashboard_from : dashboardRegistry.BuiltFrom [meterDefinition, dialDefinition] :=
  ⟨⟨78⟩, .define (.define (.standard {} (by decide)) (Nat.le_refl _) define_meter) (Nat.le_refl _)
    define_dial⟩

/-- The level of a meter, which is hidden and which a dial inherits, has
accessors. -/
theorem compiles_meterLevel : meterLevel ∈ dial.allFields ∧
    (∃ d ∈ [meterDefinition, dialDefinition], ∃ i a,
      dashboardRegistry.DefinesAt d i a meterLevel) ∧
    ∀ w : Workshop,
      (∃ getter, (w.request ⟨dashboardRegistry, {}⟩ (.fieldGetter (some meterLevel) none)).1 =
        .ok getter) ∧
      ∃ setter, (w.request ⟨dashboardRegistry, {}⟩ (.fieldSetter (some meterLevel) none)).1 =
        .ok setter := by
  have hf : meterLevel ∈ dial.allFields := by decide
  obtain ⟨⟨d, hd, i, a, hplace, -⟩, hanswered, -⟩ :=
    Reflector.compiles_field (r := ⟨dashboardRegistry, {}⟩) dashboard_from (t := dial)
      (by decide) hf
  exact ⟨hf, ⟨d, hd, i, a, hplace⟩, hanswered (by decide)⟩

/-! ## A field of a type that is not there -/

/-- A class that says what its field starts as, and is not asked what that field
is. -/
def quillDefinition : TypeDefinition where
  name := "Quill"
  kind := .classType
  fields := [{ name := "ink", type := ⟨90⟩, initial := some .null }]

def ink : Field where
  id := ⟨66⟩
  name := "ink"
  declaringType := ⟨65⟩
  type := ⟨90⟩
  visibility := .anyone
  storage := .slot 0

def quill : TypeDef :=
  { TypeDef.blank ⟨65⟩ "Quill" .classType with
    base := some .object
    fields := [ink]
    layout := [ink]
    defaults := [.null]
    constructors := [⟨⟨67⟩, ⟨65⟩, [], .anyone, none⟩] }

theorem define_quill :
    ((Catalog.standard {}).1.define quillDefinition (Catalog.standard {}).2).run {} =
      some (.ok ⟨⟨65⟩, ⟨(Catalog.standard {}).1.types ++ [quill]⟩, ⟨68⟩⟩, {}) := by rfl

def quillRegistry : Registry :=
  (Catalog.freeze ⟨(Catalog.standard {}).1.types ++ [quill]⟩ ⟨68⟩).1

theorem quillRegistry_built : quillRegistry.Built :=
  ⟨⟨68⟩, .define (.standard {} (by decide)) (Nat.le_refl _) define_quill⟩

/-- **A field may be of a type that is not registered**, and then it has no
getter. -/
theorem quill_not_compiled :
    (¬ ∀ (r : Registry) (t : TypeDef) (f : Field), r.Built → t ∈ r.types → f ∈ t.allFields →
      r.contains f.type = true) ∧
    ¬ ∀ (r : Reflector) (t : TypeDef) (f : Field), r.registry.Built → t ∈ r.registry.types →
      f ∈ t.allFields → ∃ getter, r.Compiles (.fieldGetter (some f) none) getter := by
  have hunknown : quillRegistry.contains ink.type ≠ true := by decide
  constructor
  · intro hall
    exact hunknown (hall quillRegistry quill ink quillRegistry_built (by decide) (by decide))
  · intro hall
    obtain ⟨getter, hget⟩ := hall ⟨quillRegistry, {}⟩ quill ink quillRegistry_built (by decide)
      (by decide)
    exact hunknown (Reflector.contains_of_getter hget)

end Sample

end MemberAccess
