import MemberAccess.Proofs.Accessor.Compiled
/-!
# Accessor — what getters and setters of fields do

A getter reads a location and hands a copy of it out; a setter coerces the
input, then finds the location, then writes. `FieldTypes` holds the types that
both work with, `Field.read` and `Field.write` say what they do without a
stack, and `get_eq_read` and `set_eq_write` say that the compiled accessors do
just that, through a view or without one.
-/

namespace MemberAccess

/-- **The types an access to a field works with**: those that the receiver is
seen as, those that an input is seen as, and the field's own. -/
structure FieldTypes where
  receiver : List TypeDef
  input : List TypeDef
  type : TypeDef

/-- The types of a field, seen through an owner and a value type, if the
registry has them all. Static fields have no receiver. -/
def Registry.fieldTypes? (r : Registry) (f : Field) (owner value : Option TypeHandle) :
    Option FieldTypes := do
  let type ← r.find? f.type
  let input ← r.inputTypes type value
  let receiver ← if f.isStatic then some [] else r.receiverTypes f.declaringType owner
  return ⟨receiver, input, type⟩

namespace Field

open Exec

variable (f : Field) (s : FieldTypes)

/-- The object that holds a field's slot: the receiver, once it has been
checked. -/
def holder (receiver : Value) : Exec RuntimeFault ObjectRef := do
  let v ← Exec.read (·.castReceiver s.receiver receiver)
  Exec.read (·.expectObject v)

/-- The value that a field holds. -/
def fetch (receiver : Value) : Exec RuntimeFault Value :=
  match f.storage with
  | .cell c => readCell c
  | .slot i => holder s receiver >>= fun o => load o i

/-- Puts a value where a field holds it. -/
def put (receiver v : Value) : Exec RuntimeFault Unit :=
  match f.storage with
  | .cell c => writeCell c v
  | .slot i => holder s receiver >>= fun o => store o i v

/-- **Reads a field** and hands out what it holds. -/
def read (receiver : Value) : Exec RuntimeFault Value := do
  let v ← f.fetch s receiver
  handOut s.type v

/-- **Writes a field.** The input is coerced before the receiver is looked
at. -/
def write (receiver input : Value) : Exec RuntimeFault Unit := do
  let v ← castValues s.input input
  f.put s receiver v

/-- The instructions of a getter. -/
def getterOps : List Op :=
  (match f.storage with
    | .cell c => [.loadStaticField c]
    | .slot i => Op.receiverCasts s.receiver ++ [.loadField i]) ++
  Op.boxIfNeeded s.type ++ [.ret]

/-- The instructions of a setter. -/
def setterOps : List Op :=
  Op.inputCasts s.input ++
  (match f.storage with
    | .cell c => [.loadLocal 0, .storeStaticField c]
    | .slot i => Op.receiverCasts s.receiver ++ [.loadLocal 0, .storeField i]) ++
  [.retVoid]

variable {f s}

/-- Only instance fields are in slots. -/
theorem isStatic_of_slot {i : Nat} (hi : f.storage = .slot i) : f.isStatic = false := by
  rw [isStatic, hi]
  rfl

theorem balanced_getterOps : Op.Balanced (f.getterOps s) where
  straight := by
    intro op hop
    unfold getterOps at hop
    cases hstorage : f.storage with
    | cell c =>
      simp only [hstorage, List.mem_append, List.mem_singleton] at hop
      rcases hop with (rfl | hop) | rfl
      · rfl
      · exact Op.straight_boxIfNeeded s.type op hop
      · rfl
    | slot i =>
      simp only [hstorage, List.mem_append, List.mem_singleton] at hop
      rcases hop with ((hop | rfl) | hop) | rfl
      · exact Op.straight_receiverCasts s.receiver op hop
      · rfl
      · exact Op.straight_boxIfNeeded s.type op hop
      · rfl
  height := by
    have hbox : Op.heightAfter (Op.boxIfNeeded s.type ++ [.ret]) 1 = some 0 := by
      rw [Op.heightAfter_append, Op.heightAfter_boxIfNeeded]
      rfl
    unfold getterOps
    rw [List.append_assoc, Op.heightAfter_append]
    cases f.storage with
    | cell c => exact hbox
    | slot i =>
      rw [Op.heightAfter_append, Op.heightAfter_receiverCasts]
      exact hbox
  last := by simp [getterOps, List.getLast?_append, Op.isTerminator]

theorem balanced_setterOps : Op.Balanced (f.setterOps s) where
  straight := by
    intro op hop
    unfold setterOps at hop
    cases hstorage : f.storage with
    | cell c =>
      simp only [hstorage, List.mem_append, List.mem_cons, List.not_mem_nil, or_false] at hop
      rcases hop with (hop | rfl | rfl) | rfl
      · exact Op.straight_inputCasts s.input op hop
      all_goals rfl
    | slot i =>
      simp only [hstorage, List.mem_append, List.mem_cons, List.not_mem_nil, or_false] at hop
      rcases hop with (hop | hop | rfl | rfl) | rfl
      · exact Op.straight_inputCasts s.input op hop
      · exact Op.straight_receiverCasts s.receiver op hop
      all_goals rfl
  height := by
    unfold setterOps
    rw [List.append_assoc, Op.heightAfter_append, Op.heightAfter_inputCasts, Option.bind_some]
    cases f.storage with
    | cell c => rfl
    | slot i =>
      rw [List.append_assoc, Op.heightAfter_append, Op.heightAfter_receiverCasts]
      rfl
  last := by simp [setterOps, List.getLast?_append, Op.isTerminator]

end Field

/-! ## What is compiled -/

namespace Registry

variable {r : Registry} {f : Field} {owner value : Option TypeHandle} {s : FieldTypes} {code : Code}

theorem fieldTypes?_eq_some :
    r.fieldTypes? f owner value = some s ↔
      r.find? f.type = some s.type ∧ r.inputTypes s.type value = some s.input ∧
        if f.isStatic then s.receiver = []
        else r.receiverTypes f.declaringType owner = some s.receiver := by
  obtain ⟨receiver, input, type⟩ := s
  unfold fieldTypes?
  simp only [Option.bind_eq_bind, Option.bind_eq_some_iff]
  constructor
  · rintro ⟨type', htype, input', hinput, hrest⟩
    cases hs : f.isStatic with
    | true =>
      simp only [hs, if_true] at hrest ⊢
      cases hrest
      exact ⟨htype, hinput, rfl⟩
    | false =>
      simp only [hs, Bool.false_eq_true, if_false] at hrest ⊢
      obtain ⟨receiver', hreceiver, hrest⟩ := Option.bind_eq_some_iff.1 hrest
      cases hrest
      exact ⟨htype, hinput, hreceiver⟩
  · rintro ⟨htype, hinput, hreceiver⟩
    refine ⟨type, htype, input, hinput, ?_⟩
    cases hs : f.isStatic with
    | true =>
      simp only [hs, if_true] at hreceiver ⊢
      simp [hreceiver]
    | false =>
      simp only [hs, Bool.false_eq_true, if_false] at hreceiver ⊢
      simp [hreceiver]

/-- **The body of a getter.** -/
theorem fieldGetter_of_types (hs : r.fieldTypes? f owner value = some s) :
    ∃ code, r.fieldGetter f owner = .ok code ∧
      code.Unguarded (r.bodyName f.declaringType f.name "get") (f.getterOps s) 0 := by
  obtain ⟨htype, -, hreceiver⟩ := fieldTypes?_eq_some.1 hs
  obtain ⟨code, hcode, hbody⟩ := Listing.assemble_straight
    (Field.balanced_getterOps (f := f) (s := s)) 0 (r.bodyName f.declaringType f.name "get")
  refine ⟨code, ?_, hbody⟩
  unfold fieldGetter
  rw [require_eq_ok.2 htype]
  unfold Field.getterOps at hcode
  cases hstorage : f.storage with
  | cell c =>
    rw [hstorage] at hcode
    exact compileListing_eq_ok hcode
  | slot i =>
    rw [Field.isStatic_of_slot hstorage, if_neg Bool.false_ne_true] at hreceiver
    rw [hstorage] at hcode
    rw [receiverOps_eq_ok.2 ⟨_, hreceiver, rfl⟩]
    exact compileListing_eq_ok hcode

/-- **The body of a setter.** -/
theorem fieldSetter_of_types (hs : r.fieldTypes? f owner value = some s) :
    ∃ code, r.fieldSetter f owner value = .ok code ∧
      code.Unguarded (r.bodyName f.declaringType f.name "set") (f.setterOps s) 1 := by
  obtain ⟨htype, hinput, hreceiver⟩ := fieldTypes?_eq_some.1 hs
  obtain ⟨code, hcode, hbody⟩ := Listing.assemble_straight
    (Field.balanced_setterOps (f := f) (s := s)) 1 (r.bodyName f.declaringType f.name "set")
  refine ⟨code, ?_, hbody⟩
  unfold fieldSetter
  rw [require_eq_ok.2 htype]
  unfold Field.setterOps at hcode
  cases hstorage : f.storage with
  | cell c =>
    rw [hstorage] at hcode
    simp only [bind, Except.bind, inputOps_eq_ok.2 ⟨_, hinput, rfl⟩]
    exact compileListing_eq_ok hcode
  | slot i =>
    rw [Field.isStatic_of_slot hstorage, if_neg Bool.false_ne_true] at hreceiver
    rw [hstorage] at hcode
    simp only [bind, Except.bind, inputOps_eq_ok.2 ⟨_, hinput, rfl⟩,
      receiverOps_eq_ok.2 ⟨_, hreceiver, rfl⟩]
    exact compileListing_eq_ok hcode

/-- The types that the receiver of an instance field needs are found when its
operations are. -/
theorem exists_receiverTypes {param : String} {f : Field}
    (h : ∀ i, f.storage = .slot i → ∃ ops, r.receiverOps f.declaringType owner param = .ok ops) :
    ∃ ts : List TypeDef, if f.isStatic then ts = []
      else r.receiverTypes f.declaringType owner = some ts := by
  cases hstorage : f.storage with
  | cell c => exact ⟨[], by rw [if_pos (by rw [Field.isStatic, hstorage]; rfl)]⟩
  | slot i =>
    obtain ⟨ops, hops⟩ := h i hstorage
    obtain ⟨ts, hts, -⟩ := receiverOps_eq_ok.1 hops
    exact ⟨ts, by rw [if_neg (by simp [Field.isStatic_of_slot hstorage])]; exact hts⟩

/-- A getter needs the types of its field and nothing else. -/
theorem types_of_fieldGetter (h : r.fieldGetter f owner = .ok code) :
    ∃ s, r.fieldTypes? f owner none = some s := by
  unfold fieldGetter at h
  obtain ⟨type, htype, h⟩ := bind_eq_ok.1 h
  have hreceiver : ∀ i, f.storage = .slot i →
      ∃ ops, r.receiverOps f.declaringType owner "field" = .ok ops := by
    intro i hi
    simp only [hi] at h
    obtain ⟨load, hload, -⟩ := bind_eq_ok.1 h
    exact ⟨load, hload⟩
  obtain ⟨ts, hts⟩ := exists_receiverTypes hreceiver
  exact ⟨⟨ts, [type], type⟩,
    fieldTypes?_eq_some.2 ⟨require_eq_ok.1 htype, by simp [inputTypes], hts⟩⟩

/-- So does a setter. -/
theorem types_of_fieldSetter (h : r.fieldSetter f owner value = .ok code) :
    ∃ s, r.fieldTypes? f owner value = some s := by
  unfold fieldSetter at h
  obtain ⟨type, htype, h⟩ := bind_eq_ok.1 h
  obtain ⟨input, hinput, h⟩ := bind_eq_ok.1 h
  obtain ⟨is, his, -⟩ := inputOps_eq_ok.1 hinput
  have hreceiver : ∀ i, f.storage = .slot i →
      ∃ ops, r.receiverOps f.declaringType owner "field" = .ok ops := by
    intro i hi
    simp only [hi] at h
    obtain ⟨load, hload, -⟩ := bind_eq_ok.1 h
    exact ⟨load, hload⟩
  obtain ⟨ts, hts⟩ := exists_receiverTypes hreceiver
  exact ⟨⟨ts, is, type⟩, fieldTypes?_eq_some.2 ⟨require_eq_ok.1 htype, his, hts⟩⟩

end Registry

/-! ## Walking through an access -/

namespace Code

variable {natives : Natives} {frame : Frame} {f : Field} {s : FieldTypes} {body : String}

/-- **The body of a getter reads the field.** -/
theorem walk_getterOps :
    walk natives frame (f.getterOps s) {} >>= Progress.answer body =
      Exec.mapFault .runtime (f.read s frame.receiver) := by
  -- either way the value that is fetched is left on the stack
  have hfetch : walk natives frame (match f.storage with
        | .cell c => [.loadStaticField c]
        | .slot i => Op.receiverCasts s.receiver ++ [.loadField i]) {} =
      Exec.mapFault .runtime (f.fetch s frame.receiver) >>= fun v =>
        pure (.next (Config.push {} v)) := by
    unfold Field.fetch
    cases f.storage with
    | cell c => rfl
    | slot i =>
      rw [walk_append, walk_receiverCasts, Field.holder]
      simp only [Exec.mapFault_bind, bind_assoc, pure_bind, Progress.andThen_next, walk_cons, step,
        Config.popObject, Config.pop, Config.push, continueWith, walk_nil]
  unfold Field.getterOps Field.read
  rw [List.append_assoc, walk_append, hfetch, Exec.mapFault_bind]
  simp only [bind_assoc, pure_bind, Progress.andThen_next, walk_boxIfNeeded]

/-- **The body of a setter writes the field.** -/
theorem walk_setterOps :
    walk natives frame (f.setterOps s) { locals := [.null] } >>= Progress.answer body =
      Exec.mapFault .runtime (f.write s frame.receiver frame.input) >>= fun _ => pure .null := by
  -- the coerced input waits in the local until the receiver has been cast
  have hput : ∀ v, walk natives frame ((match f.storage with
        | .cell c => [.loadLocal 0, .storeStaticField c]
        | .slot i => Op.receiverCasts s.receiver ++ [.loadLocal 0, .storeField i]) ++ [.retVoid])
        { locals := [v] } =
      Exec.mapFault .runtime (f.put s frame.receiver v) >>= fun _ => pure (.done .null) := by
    intro v
    unfold Field.put
    cases f.storage with
    | cell c => rfl
    | slot i =>
      rw [List.append_assoc, walk_append, walk_receiverCasts, Field.holder]
      simp only [Exec.mapFault_bind, bind_assoc, pure_bind, Progress.andThen_next, List.cons_append,
        List.nil_append, walk_cons, step, Config.popObject, Config.pop, Config.push, continueWith,
        List.getElem?_cons_zero, Progress.andThen_done]
  unfold Field.setterOps Field.write
  rw [List.append_assoc, walk_append, walk_inputCasts _ (by simp), Exec.mapFault_bind]
  simp only [bind_assoc, pure_bind, Progress.andThen_next, List.set_cons_zero, hput,
    Progress.answer_done]

end Code

namespace Reflector

variable {r : Reflector} {f : Field} {view : Option View} {a : Accessor}

/-- The body of a compiled getter. -/
theorem unguarded_of_fieldGetter (ha : r.Compiles (.fieldGetter (some f) view) a) :
    ∃ s, r.registry.fieldTypes? f (view.map (·.owner)) none = some s ∧
      a.code.Unguarded (r.registry.bodyName f.declaringType f.name "get") (f.getterOps s) 0 := by
  obtain ⟨p, hp, hcode, -, -⟩ := compiles_iff.1 ha
  cases hp
  obtain ⟨u, -, hcode⟩ := bind_eq_ok.1 hcode
  obtain ⟨s, hs⟩ := Registry.types_of_fieldGetter hcode
  obtain ⟨code, hcode', hbody⟩ := Registry.fieldGetter_of_types hs
  obtain rfl : a.code = code := Except.ok.inj (hcode.symm.trans hcode')
  exact ⟨s, hs, hbody⟩

/-- The body of a compiled setter. -/
theorem unguarded_of_fieldSetter (ha : r.Compiles (.fieldSetter (some f) view) a) :
    ∃ s, r.registry.fieldTypes? f (view.map (·.owner)) (view.map (·.value)) = some s ∧
      a.code.Unguarded (r.registry.bodyName f.declaringType f.name "set") (f.setterOps s) 1 := by
  obtain ⟨p, hp, hcode, -, -⟩ := compiles_iff.1 ha
  cases hp
  obtain ⟨u, -, hcode⟩ := bind_eq_ok.1 hcode
  obtain ⟨s, hs⟩ := Registry.types_of_fieldSetter hcode
  obtain ⟨code, hcode', hbody⟩ := Registry.fieldSetter_of_types hs
  obtain rfl : a.code = code := Except.ok.inj (hcode.symm.trans hcode')
  exact ⟨s, hs, hbody⟩

/-- **A getter reads the field**, through a view or without one. -/
theorem get_eq_read (ha : r.Compiles (.fieldGetter (some f) view) a) :
    ∃ s, r.registry.fieldTypes? f (view.map (·.owner)) none = some s ∧
      ∀ natives receiver, a.get natives receiver =
        Exec.mapFault .runtime (f.read s receiver) := by
  obtain ⟨s, hs, hbody⟩ := unguarded_of_fieldGetter ha
  refine ⟨s, hs, fun natives receiver => ?_⟩
  rw [Accessor.get, Accessor.call_of_unguarded hbody Field.balanced_getterOps.straight]
  exact Code.walk_getterOps

/-- **A setter writes the field**, through a view or without one. -/
theorem set_eq_write (ha : r.Compiles (.fieldSetter (some f) view) a) :
    ∃ s, r.registry.fieldTypes? f (view.map (·.owner)) (view.map (·.value)) = some s ∧
      ∀ natives receiver input, a.set natives receiver input =
        Exec.mapFault .runtime (f.write s receiver input) := by
  obtain ⟨s, hs, hbody⟩ := unguarded_of_fieldSetter ha
  refine ⟨s, hs, fun natives receiver input => ?_⟩
  rw [Accessor.set, Accessor.call_of_unguarded hbody Field.balanced_setterOps.straight]
  have hwalk := @Code.walk_setterOps natives (.setter receiver input) f s
    (r.registry.bodyName f.declaringType f.name "set")
  rw [List.replicate_one, hwalk, bind_assoc]
  exact bind_pure _

/-- Without a view an accessor is compiled once the types are found. -/
theorem exists_get {s : FieldTypes} (hs : r.registry.fieldTypes? f none none = some s) :
    ∃ a, r.Compiles (.fieldGetter (some f) none) a := by
  obtain ⟨code, hcode, -⟩ := Registry.fieldGetter_of_types hs
  obtain ⟨a, ha, -⟩ := exists_compiles (r := r) (q := .fieldGetter (some f) none) rfl hcode
  exact ⟨a, ha⟩

theorem exists_set {s : FieldTypes} (hs : r.registry.fieldTypes? f none none = some s) :
    ∃ a, r.Compiles (.fieldSetter (some f) none) a := by
  obtain ⟨code, hcode, -⟩ := Registry.fieldSetter_of_types hs
  obtain ⟨a, ha, -⟩ := exists_compiles (r := r) (q := .fieldSetter (some f) none) rfl hcode
  exact ⟨a, ha⟩

end Reflector

end MemberAccess
