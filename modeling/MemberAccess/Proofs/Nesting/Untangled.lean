import MemberAccess.Proofs.Heap.Instances
import MemberAccess.Proofs.Nesting.Knots
import MemberAccess.Proofs.Ownership.Calls
import MemberAccess.Proofs.Ownership.Defining
/-!
# Nesting — what accessors do to a heap where no box nests itself

A heap is `Untangled` when no box nests itself and nothing that the heap or its
catalog refers to is missing. Copies, new instances and definitions keep it
so, and so do factories as long as the bodies of constructors do on the
instances that they are run on (`Natives.Tame`). Writing a field keeps it so
unless what is stored ties a knot, and what is stored in a field of a value type
never does, for it is a copy (`Untangled.write`).
-/

namespace MemberAccess

/-- **Native bodies that make no box nest itself**, and leave nothing dangling,
where they are run as factories run them: on a new instance, with arguments that
were there before it. -/
def Natives.Tame (natives : Natives) : Prop :=
  ∀ (token : NativeId) (h₀ h : Heap) (t : TypeDef) (o : ObjectRef) (args : List Value),
    h₀.Closed → h₀.Acyclic → (∀ v ∈ t.defaults, h₀.Reaches v) → (∀ v ∈ args, h₀.Reaches v) →
    h₀.zeroed? t = some (o, h) → ∀ out h', (natives token ⟨some o, args⟩).run h = some (out, h') →
      h.Keeps h' ∧ h'.Closed ∧ h'.Acyclic

namespace Heap

/-- **A heap where no box nests itself**, with all that a catalog refers to. -/
structure Untangled (h : Heap) (c : Catalog) : Prop where
  closed : h.Closed
  acyclic : h.Acyclic
  cells : ∀ t ∈ c.types, ∀ f ∈ t.fields, ∀ k, f.storage = .cell k → k.index < h.cells.size
  defaults : ∀ t ∈ c.types, ∀ v ∈ t.defaults, h.Reaches v

variable {c : Catalog} {h h₁ h' : Heap} {v : Value} {t : TypeDef} {o : ObjectRef} {l : Location}

/-- **A new instance makes no box nest itself.** -/
theorem acyclic_of_zeroed? (hc : h.Closed) (ha : h.Acyclic) (hd : ∀ v ∈ t.defaults, h.Reaches v)
    (hz : h.zeroed? t = some (o, h')) : h'.Acyclic := by
  obtain ⟨vs, h₁, hvs, rfl, rfl⟩ := zeroed?_eq_some hz
  obtain ⟨hk, hreach⟩ := copies_of_detachAll? hc hd hvs
  exact acyclic_alloc (hk.closed hc) (hk.acyclic hc ha) hreach

namespace Untangled

/-- The empty heap, with the built-in types. -/
theorem standard (ids : Supply) : ({} : Heap).Untangled (Catalog.standard ids).1 where
  closed := (Typed.standard ids).closed
  acyclic := acyclic_of_older fun _ _ hp => absurd (has_of_mem_slotsAt hp) (Nat.not_lt_zero _)
  cells := (Typed.standard ids).cells
  defaults := (Typed.standard ids).defaults

/-- The heap moves on to another one without knots. -/
theorem move (hu : h.Untangled c) (hk : h.Keeps h') (hc : h'.Closed) (ha : h'.Acyclic) :
    h'.Untangled c where
  closed := hc
  acyclic := ha
  cells t ht f hf k hcell := Nat.lt_of_lt_of_le (hu.cells t ht f hf k hcell) hk.cells_le
  defaults t ht v hv := hk.reaches (hu.defaults t ht v hv)

/-- **Copies.** -/
theorem copies (hu : h.Untangled c) (hk : h.Copies h') : h'.Untangled c :=
  hu.move hk.keeps (hk.closed hu.closed) (hk.acyclic hu.closed hu.acyclic)

/-- **A new cell.** -/
theorem allocCell (hu : h.Untangled c) (hv : h.Reaches v) : (h.allocCell v).2.Untangled c :=
  hu.move (changesOnly_allocCell h v fun _ => False).keeps (hu.closed.allocCell hv)
    (hu.acyclic.of_nests fun _ _ hn => hn)

/-- **A write** that leaves no box nested in itself. -/
theorem writes (hu : h.Untangled c) (hw : h.Overwrites h' l v) (hv : h.Reaches v)
    (ha : h'.Acyclic) : h'.Untangled c :=
  hu.move hw.keeps (hw.closed hu.closed hv) ha

/-! ## New instances -/

/-- **A zeroed instance.** -/
theorem zeroed (hu : h.Untangled c) (ht : t ∈ c.types) (hz : h.zeroed? t = some (o, h')) :
    h'.Untangled c ∧ h.Grows h' ∧ h'.Has o := by
  have hd := hu.defaults t ht
  have hcreates := creates_of_zeroed? hu.closed hd hz
  have hmoved := hu.move hcreates.grows.keeps (closed_of_zeroed? hu.closed hd hz)
    (acyclic_of_zeroed? hu.closed hu.acyclic hd hz)
  exact ⟨hmoved, hcreates.grows, hcreates.has⟩

/-- **The zero value** of a type. -/
theorem zeroOf (hu : h.Untangled c) (ht : t ∈ c.types) (hz : h.zeroOf? t = some (v, h')) :
    h'.Untangled c ∧ h.Grows h' ∧ h'.Reaches v := by
  rcases zeroOf?_eq_some hz with ⟨o, rfl, hzeroed⟩ | ⟨rfl, hv⟩
  · obtain ⟨hu', hgrows, ho⟩ := hu.zeroed ht hzeroed
    refine ⟨hu', hgrows, fun p hp => ?_⟩
    cases hp
    exact ho
  · exact ⟨hu, .refl h', fun o heq => absurd heq (hv o)⟩

/-! ## Accesses -/

variable {f : Field} {s : FieldTypes} {receiver : Value}

/-- **A value that is handed out.** -/
theorem handOut {out : Except RuntimeFault Value} (hu : h.Untangled c) (hv : h.Reaches v)
    (hrun : (Exec.handOut t v).run h = some (out, h')) :
    h'.Untangled c ∧ h.Grows h' ∧ ∀ w, out = .ok w → h'.Reaches w := by
  obtain ⟨w, rfl, hcoerced⟩ := Exec.coerced_of_handOut hu.closed hv hrun
  refine ⟨hu.copies hcoerced.copies, hcoerced.copies.toGrows, fun w' hw => ?_⟩
  cases hw
  exact hcoerced.reaches

/-- **Reading a field.** -/
theorem read {out : Except RuntimeFault Value} (hu : h.Untangled c)
    (hrun : (f.read s receiver).run h = some (out, h')) :
    h'.Untangled c ∧ h.Grows h' ∧ ∀ w, out = .ok w → h'.Reaches w := by
  rcases Exec.run_bind_cases hrun with ⟨e, hfetch, rfl⟩ | ⟨v, h₁, hfetch, hout⟩
  · obtain ⟨rfl, -⟩ := Field.fetch_cases hfetch
    exact ⟨hu, .refl h', nofun⟩
  · obtain ⟨rfl, hv⟩ := Field.fetch_cases hfetch
    refine hu.handOut ?_ hout
    rcases hv v rfl with ⟨k, -, rfl⟩ | ⟨o, i, -, -, hslot, -⟩
    · exact hu.closed.cells k
    · exact hu.closed.slots o v (List.mem_of_getElem? hslot)

/-- **Writing a field** leaves the heap untangled, or has stored something in a
slot that may tie a knot there: no box nests itself then unless it does, and
it does not where the field is of a value type. -/
theorem write {out : Except RuntimeFault Unit} (hu : h.Untangled c) (hs : s.Of c f)
    (hr : h.Reaches receiver) (hv : h.Reaches v)
    (hrun : (f.write s receiver v).run h = some (out, h')) :
    h.Keeps h' ∧ (h'.Acyclic → h'.Untangled c) ∧
      (((∃ e, out = .error e) ∨ ∃ k, f.storage = .cell k) ∧ h'.Acyclic ∨
        out = .ok () ∧ ∃ o i w, receiver = .object o ∧ f.storage = .slot i ∧
          h'.at? (.slot o i) = some w ∧ (h'.Acyclic ↔ ¬ h.Ties w o) ∧
          (h.Ties w o → s.type.isValueType = false)) := by
  obtain ⟨ts, hinput⟩ := hs.input
  unfold Field.write at hrun
  rw [hinput] at hrun
  rcases Exec.run_bind_cases hrun with ⟨e, hcast, rfl⟩ | ⟨w, h₁, hcast, hput⟩
  · obtain ⟨hk, -⟩ := Exec.copies_of_castValues hu.closed hv hcast
    exact ⟨hk.keeps, fun _ => hu.copies hk, .inl ⟨.inl ⟨e, rfl⟩, (hu.copies hk).acyclic⟩⟩
  · obtain ⟨hk, hw⟩ := Exec.copies_of_castValues hu.closed hv hcast
    obtain ⟨hderived, hfresh⟩ := hw w rfl
    have hu₁ := hu.copies hk
    have hcell : ∀ k, f.storage = .cell k → k.index < h₁.cells.size := by
      obtain ⟨u, hmem, hfu, -⟩ := hs.declaring
      exact hu₁.cells u hmem f hfu
    rcases Field.put_cases hcell hput with ⟨herror, rfl⟩ | ⟨rfl, l, hl, hwrite, -⟩
    · exact ⟨hk.keeps, fun _ => hu₁, .inl ⟨.inl herror, hu₁.acyclic⟩⟩
    · refine ⟨hk.keeps.trans hwrite.keeps, fun ha => hu₁.writes hwrite hderived.reaches ha, ?_⟩
      cases l with
      | cell k =>
        exact .inl ⟨.inr ⟨k, Field.location?_eq_cell hl⟩, hwrite.acyclic_of_cell hu₁.acyclic⟩
      | slot o i =>
        obtain ⟨hi, rfl⟩ := Field.location?_eq_slot hl
        -- what has been copied first ties no knot, so the heap before decides
        have hties := hk.ties_iff (v := w) hu.closed (hr o rfl)
        refine .inr ⟨rfl, o, i, w, rfl, hi, hwrite.written, ?_, fun hknot => ?_⟩
        · rw [hwrite.acyclic_iff hu₁.acyclic, hties]
        · by_contra hvalue
          obtain ⟨p, rfl, hbox, -⟩ := hknot
          have hold := has_of_isValueType hbox
          exact hfresh (by simpa using hvalue) p rfl ((hk.keeps.isBoxAt_iff hold).2 hbox) hold

/-! ## Factories -/

variable {natives : Natives} {k : Constructor}

/-- **A new instance**, initialized by a body that ties no knot. -/
theorem construct {body : Option NativeId} {args : List Value}
    {out : Except RuntimeFault ObjectRef} (hu : h.Untangled c) (hn : natives.Tame)
    (ht : t ∈ c.types) (hargs : ∀ v ∈ args, h.Reaches v)
    (hrun : (Code.construct natives t body args).run h = some (out, h')) :
    h'.Untangled c ∧ h.Keeps h' ∧ ∀ o, out = .ok o → h'.Has o := by
  rcases Exec.run_bind_cases hrun with ⟨e, hz, -⟩ | ⟨o, h₁, hz, hrest⟩
  · obtain ⟨o, herror, -⟩ := zeroed?_of_run hz
    cases herror
  · obtain ⟨o, hok, hz⟩ := zeroed?_of_run hz
    cases hok
    obtain ⟨hu₁, hgrows, ho⟩ := hu.zeroed ht hz
    cases body with
    | none =>
      cases hrest
      refine ⟨hu₁, hgrows.keeps, fun p hp => ?_⟩
      cases hp
      exact ho
    | some token =>
      have htame : ∀ out h', (natives token ⟨some o, args⟩).run h₁ = some (out, h') →
          h'.Untangled c ∧ h₁.Keeps h' := by
        intro out h' hbody
        obtain ⟨hkeeps, hclosed, hacyclic⟩ := hn token h h₁ t o args hu.closed hu.acyclic
          (hu.defaults t ht) hargs hz out h' hbody
        exact ⟨hu₁.move hkeeps hclosed hacyclic, hkeeps⟩
      rcases Exec.run_bind_cases hrest with ⟨e, hbody, rfl⟩ | ⟨w, h₂, hbody, hpure⟩
      · obtain ⟨hu', hkeeps⟩ := htame _ _ hbody
        exact ⟨hu', hgrows.keeps.trans hkeeps, nofun⟩
      · obtain ⟨hu', hkeeps⟩ := htame _ _ hbody
        cases hpure
        refine ⟨hu', hgrows.keeps.trans hkeeps, fun p hp => ?_⟩
        cases hp
        exact hkeeps.has ho

/-- The same, as a value. -/
theorem construct_value {body : Option NativeId} {args : List Value}
    {out : Except RuntimeFault Value} (hu : h.Untangled c) (hn : natives.Tame) (ht : t ∈ c.types)
    (hargs : ∀ v ∈ args, h.Reaches v)
    (hrun : (Code.construct natives t body args >>= fun o => pure (.object o)).run h =
      some (out, h')) :
    h'.Untangled c ∧ h.Keeps h' ∧ ∀ w, out = .ok w → h'.Reaches w := by
  rcases Exec.run_bind_cases hrun with ⟨e, hnew, rfl⟩ | ⟨o, h₁, hnew, hpure⟩
  · obtain ⟨hu', hkeeps, -⟩ := hu.construct hn ht hargs hnew
    exact ⟨hu', hkeeps, nofun⟩
  · cases hpure
    obtain ⟨hu', hkeeps, ho⟩ := hu.construct hn ht hargs hnew
    refine ⟨hu', hkeeps, fun w hw p hp => ?_⟩
    cases hw
    cases hp
    exact ho o rfl

/-- **A new instance from arguments.** -/
theorem newInstance {out : Except RuntimeFault Value} {ts : List TypeDef}
    {arguments : Option (List Value)} (hu : h.Untangled c) (hn : natives.Tame) (ht : t ∈ c.types)
    (hargs : ∀ vs, arguments = some vs → ∀ v ∈ vs, h.Reaches v)
    (hrun : (k.newInstance natives t ts arguments).run h = some (out, h')) :
    h'.Untangled c ∧ h.Keeps h' ∧ ∀ w, out = .ok w → h'.Reaches w := by
  rcases Exec.run_bind_cases hrun with ⟨e, hcoerce, rfl⟩ | ⟨args, h₁, hcoerce, hrest⟩
  · obtain ⟨hk, -⟩ := Exec.copies_of_coerceArguments hu.closed hargs hcoerce
    exact ⟨hu.copies hk, hk.keeps, nofun⟩
  · obtain ⟨hk, hreach⟩ := Exec.copies_of_coerceArguments hu.closed hargs hcoerce
    obtain ⟨hu', hkeeps, hout⟩ := (hu.copies hk).construct_value hn ht (hreach args rfl) hrest
    exact ⟨hu', hk.keeps.trans hkeeps, hout⟩

/-- **A default instance.** -/
theorem newDefault {out : Except RuntimeFault Value} (hu : h.Untangled c) (hn : natives.Tame)
    (ht : t ∈ c.types) (hrun : (t.newDefault natives).run h = some (out, h')) :
    h'.Untangled c ∧ h.Keeps h' ∧ ∀ w, out = .ok w → h'.Reaches w := by
  unfold TypeDef.newDefault at hrun
  cases hvalue : t.isValueType with
  | false =>
    rw [hvalue, if_neg Bool.false_ne_true] at hrun
    exact hu.construct_value hn ht (by simp) hrun
  | true =>
    rw [hvalue, if_pos rfl] at hrun
    rcases Exec.run_bind_cases hrun with ⟨e, hz, -⟩ | ⟨v, h₁, hz, hout⟩
    · obtain ⟨v, herror, -⟩ := zeroOf?_of_run hz
      cases herror
    · obtain ⟨v, hok, hz⟩ := zeroOf?_of_run hz
      cases hok
      obtain ⟨hu₁, hgrows, hv⟩ := hu.zeroOf ht hz
      obtain ⟨hu', hgrows', hw⟩ := hu₁.handOut hv hout
      exact ⟨hu', (hgrows.trans hgrows').keeps, hw⟩

/-! ## Definitions -/

/-- **The initial value of a field.** -/
theorem initialValue {g : FieldDefinition} {out : Except DefinitionError Value} (hu : h.Untangled c)
    (hg : ∀ v, g.initial = some v → h.Reaches v)
    (hrun : (c.initialValue g).run h = some (out, h')) :
    h'.Untangled c ∧ h.Grows h' ∧ ∀ v, out = .ok v → h'.Reaches v := by
  rcases Catalog.initialValue_cases hrun with
    ⟨v, w, hinitial, hdetach, rfl⟩ | ⟨⟨e, rfl⟩, rfl⟩ | ⟨t, w, hfind, hz, rfl⟩
  · obtain ⟨cs, -, hplaced⟩ := placed_of_detach? hu.closed (hg v hinitial) hdetach
    refine ⟨hu.copies hplaced.copies, hplaced.copies.toGrows, fun w' hw => ?_⟩
    cases hw
    exact hplaced.reaches
  · refine ⟨hu, .refl h', fun v hv => ?_⟩
    cases hv
  · obtain ⟨hu', hgrows, hv⟩ := hu.zeroOf (List.mem_of_find?_eq_some hfind) hz
    refine ⟨hu', hgrows, fun w' hw => ?_⟩
    cases hw
    exact hv

end Untangled

/-- **A heap on which a type is being defined**: untangled, with all that the
draft refers to. -/
structure Carries (h : Heap) (c : Catalog) (dr : Draft) : Prop where
  untangled : h.Untangled c
  defaults : ∀ v ∈ dr.type.defaults, h.Reaches v
  cells : ∀ f ∈ dr.type.fields, ∀ k, f.storage = .cell k → k.index < h.cells.size

namespace Carries

variable {g : FieldDefinition} {d : TypeDefinition} {dr dr' : Draft}

/-- A new instance field brings its initial value as a default. -/
theorem append_instance (hh : h.Carries c dr) (hv : h.Reaches v) :
    h.Carries c (dr.appendField g v none) where
  untangled := hh.untangled
  defaults := forall_mem_concat hh.defaults hv
  cells := forall_mem_concat hh.cells nofun

/-- A new static field brings a cell with its initial value. -/
theorem append_static (hh : h.Carries c dr) (hv : h.Reaches v) :
    (h.allocCell v).2.Carries c (dr.appendField g v (some (h.allocCell v).1)) where
  untangled := hh.untangled.allocCell hv
  defaults := hh.defaults
  cells := by
    refine forall_mem_concat (fun f hf k hk => ?_) fun k hk => ?_
    · exact Nat.lt_of_lt_of_le (hh.cells f hf k hk)
        (changesOnly_allocCell h v fun _ => False).keeps.cells_le
    · cases hk
      simp [Heap.allocCell]

/-- **One field**, added or rejected. -/
theorem addField {out : Except DefinitionError Draft} (hh : h.Carries c dr)
    (hg : ∀ v, g.initial = some v → h.Reaches v)
    (hrun : (c.addField d dr g).run h = some (out, h')) :
    h.Keeps h' ∧ h'.Untangled c ∧ ∀ dr', out = .ok dr' → h'.Carries c dr' := by
  rcases Catalog.addField_cases hrun with
    ⟨⟨e, rfl⟩, rfl⟩ | ⟨e, e', rfl, hnone⟩ | ⟨v, h₁, hsome, hrest⟩
  · exact ⟨.refl _, hh.untangled, nofun⟩
  · obtain ⟨hu', hgrows, -⟩ := hh.untangled.initialValue hg hnone
    exact ⟨hgrows.keeps, hu', nofun⟩
  · obtain ⟨hu₁, hgrows, hv⟩ := hh.untangled.initialValue hg hsome
    have hh₁ : h₁.Carries c dr := {
      untangled := hu₁
      defaults := fun v hv => hgrows.keeps.reaches (hh.defaults v hv)
      cells := fun f hf k hk => Nat.lt_of_lt_of_le (hh.cells f hf k hk) hgrows.keeps.cells_le }
    split at hrest
    · obtain ⟨rfl, rfl⟩ := hrest
      have hh' := hh₁.append_static (g := g) (hv v rfl)
      refine ⟨hgrows.keeps.trans (changesOnly_allocCell h₁ v fun _ => False).keeps,
        hh'.untangled, fun dr' hdr => ?_⟩
      cases hdr
      exact hh'
    · obtain ⟨rfl, rfl⟩ := hrest
      refine ⟨hgrows.keeps, hu₁, fun dr' hdr => ?_⟩
      cases hdr
      exact hh₁.append_instance (hv v rfl)

/-- **All fields**, up to the first that is rejected. -/
theorem addFields {gs : List FieldDefinition} {out : Except DefinitionError Draft}
    (hh : h.Carries c dr) (hgs : ∀ g ∈ gs, ∀ v, g.initial = some v → h.Reaches v)
    (hrun : (gs.foldlM (c.addField d) dr).run h = some (out, h')) :
    h.Keeps h' ∧ h'.Untangled c ∧ ∀ dr', out = .ok dr' → h'.Carries c dr' := by
  have hfold := Exec.outcome_of_foldlM (I := fun dr h₁ => h.Keeps h₁ ∧ h₁.Carries c dr)
    (E := fun h₁ => h.Keeps h₁ ∧ h₁.Untangled c) (fun _ _ hh => ⟨hh.1, hh.2.untangled⟩)
    (fun g hg dr h₁ out h' ⟨hkeeps, hh⟩ hfield => ?_) ⟨.refl h, hh⟩ hrun
  · exact ⟨hfold.1.1, hfold.1.2, fun dr' hdr => (hfold.2 dr' hdr).2⟩
  · obtain ⟨hkeeps', hu', hdr⟩ := hh.addField (fun v hv => hkeeps.reaches (hgs g hg v hv)) hfield
    exact ⟨⟨hkeeps.trans hkeeps', hu'⟩, fun dr' h => ⟨hkeeps.trans hkeeps', hdr dr' h⟩⟩

end Carries

namespace Untangled

variable {d : TypeDefinition}

/-- A finished type joins the catalog. -/
theorem extend (hu : h.Untangled c) (hdefaults : ∀ v ∈ t.defaults, h.Reaches v)
    (hcells : ∀ f ∈ t.fields, ∀ k, f.storage = .cell k → k.index < h.cells.size) :
    h.Untangled ⟨c.types ++ [t]⟩ where
  closed := hu.closed
  acyclic := hu.acyclic
  cells := forall_mem_concat hu.cells hcells
  defaults := forall_mem_concat hu.defaults hdefaults

/-- **A definition**, also when it is rejected. -/
theorem define {out : Except DefinitionError Defined} {ids : Supply} (hu : h.Untangled c)
    (hd : ∀ g ∈ d.storedFields, ∀ v, g.initial = some v → h.Reaches v)
    (hrun : (c.define d ids).run h = some (out, h')) :
    h.Keeps h' ∧ h'.Untangled c ∧ ∀ o, out = .ok o → h'.Untangled o.catalog := by
  rcases Catalog.define_cases hrun with
    ⟨⟨e, rfl⟩, rfl⟩ | ⟨base, is, t, out₁, hin, hfields, hok⟩
  · exact ⟨.refl _, hu, nofun⟩
  -- what is inherited has no fields of its own, and its defaults are the base's
  have hh : h.Carries c ⟨t, ids.take.2⟩ := by
    obtain ⟨-, -, -, -, hnone, -⟩ := hin.head
    obtain ⟨-, -, hdefaults⟩ := hin.fields_eq
    refine ⟨hu, fun v hv => ?_, by simp [hnone]⟩
    cases hb : base with
    | none => simp [hdefaults, hb] at hv
    | some b =>
      rw [hdefaults, hb] at hv
      exact hu.defaults b (hin.mem_base hb).2.1 v hv
  obtain ⟨hkeeps, hu', hdr⟩ := hh.addFields hd hfields
  refine ⟨hkeeps, hu', fun o ho => ?_⟩
  obtain ⟨dr, dr', rfl, hsteps, hcatalog⟩ := hok o ho
  -- members other than fields leave the layout as it is
  obtain ⟨hfieldsEq, -, hdefaultsEq⟩ := hsteps.storage_eq
  rw [hcatalog]
  exact hu'.extend (hdefaultsEq ▸ (hdr dr rfl).defaults) (hfieldsEq ▸ (hdr dr rfl).cells)

end Untangled

end Heap

end MemberAccess
