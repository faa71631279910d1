import MemberAccess.Proofs.Accessor.Factory
import MemberAccess.Proofs.Accessor.RoundTrip
import MemberAccess.Proofs.Ownership.Orderly
/-!
# Ownership — what accessors do to an orderly heap

Values enter a member as themselves or as new boxes, and leave it so. Reading
a field therefore never hands out a private box (`Orderly.read`), writing one
takes the copy that it stores into the private set when the slot owns it
(`Orderly.write`), and factories hand out instances that are new
(`Orderly.newInstance`, `Orderly.newDefault`).
-/

namespace MemberAccess

/-! ## Coercion -/

namespace Exec

variable {h h' : Heap} {v : Value} {t : TypeDef} {ts : List TypeDef}

/-- **Coercing a value copies at most**, whatever comes of it. -/
theorem copies_of_castValue {out : Except RuntimeFault Value} (hc : h.Closed) (hv : h.Reaches v)
    (hrun : (castValue v t).run h = some (out, h')) :
    h.Copies h' ∧ ∀ v', out = .ok v' → h.Derived h' v v' ∧
      (t.isValueType = true → h.Fresh h' v') := by
  cases hadmissible : h.isAdmissible v t with
  | false =>
    rw [run_castValue_of_not hadmissible] at hrun
    cases hrun
    refine ⟨.refl _, fun v' hv' => ?_⟩
    cases hv'
  | true =>
    rw [run_castValue_eq_handOut hadmissible] at hrun
    obtain ⟨w, rfl, hcoerced⟩ := coerced_of_handOut hc hv hrun
    refine ⟨hcoerced.copies, fun v' hv' => ?_⟩
    obtain rfl : w = v' := Except.ok.inj hv'
    cases ht : t.isValueType with
    | false =>
      obtain rfl := hcoerced.shared ht
      refine ⟨⟨hcoerced.reaches, fun _ ho _ => ho⟩, fun hvalue => ?_⟩
      cases hvalue
    | true =>
      obtain ⟨cs, hplaced, -⟩ := hcoerced.value ht
      exact ⟨hplaced.derived, fun _ => hplaced.fresh⟩

/-- The same for a chain of types; the last of them decides. -/
theorem copies_of_castValues {out : Except RuntimeFault Value} (hc : h.Closed) (hv : h.Reaches v)
    (hrun : (castValues (ts ++ [t]) v).run h = some (out, h')) :
    h.Copies h' ∧ ∀ v', out = .ok v' → h.Derived h' v v' ∧
      (t.isValueType = true → h.Fresh h' v') := by
  induction ts generalizing v h with
  | nil =>
    rw [List.nil_append, castValues_singleton] at hrun
    exact copies_of_castValue hc hv hrun
  | cons u ts ih =>
    rcases run_bind_cases hrun with ⟨e, hcast, rfl⟩ | ⟨w, h₁, hcast, hrest⟩
    · exact ⟨(copies_of_castValue hc hv hcast).1, nofun⟩
    · obtain ⟨hk, hw⟩ := copies_of_castValue hc hv hcast
      have hderived := (hw w rfl).1
      obtain ⟨hk', hrest⟩ := ih (hk.closed hc) hderived.reaches hrest
      refine ⟨hk.trans hk', fun v' hv' => ?_⟩
      obtain ⟨hderived', hfresh'⟩ := hrest v' hv'
      refine ⟨hderived.trans hderived' hk.keeps, fun hvalue o ho hbox hold => ?_⟩
      exact hfresh' hvalue o ho hbox (hk.has hold)

/-- An argument that is there to fetch is one of the arguments. -/
theorem mem_of_fetchArgument {arguments : Option (List Value)} {i : Nat}
    (hv : fetchArgument arguments i = .ok v) : ∃ vs, arguments = some vs ∧ v ∈ vs := by
  unfold fetchArgument at hv
  cases ha : arguments with
  | none => simp [ha] at hv
  | some vs =>
    cases hget : vs[i]? with
    | none => simp [ha, hget] at hv
    | some w =>
      simp only [ha, hget, Except.ok.injEq] at hv
      exact ⟨vs, rfl, hv ▸ List.mem_of_getElem? hget⟩

/-- **Coercing arguments copies at most**, and none of them dangles. -/
theorem copies_of_coerceArguments {arguments : Option (List Value)} {i : Nat}
    {out : Except RuntimeFault (List Value)} (hc : h.Closed)
    (hargs : ∀ vs, arguments = some vs → ∀ v ∈ vs, h.Reaches v)
    (hrun : (coerceArguments arguments i ts).run h = some (out, h')) :
    h.Copies h' ∧ ∀ ws, out = .ok ws → ∀ w ∈ ws, h'.Reaches w := by
  induction ts generalizing i h out with
  | nil =>
    cases hrun
    refine ⟨.refl _, fun ws hws => ?_⟩
    cases hws
    simp
  | cons t ts ih =>
    rcases run_bind_cases hrun with ⟨e, hfetch, rfl⟩ | ⟨v, h₀, hfetch, hrest⟩
    · obtain ⟨-, rfl⟩ := run_ofExcept_eq.1 hfetch
      exact ⟨.refl _, nofun⟩
    · obtain ⟨hv, rfl⟩ := run_ofExcept_eq.1 hfetch
      have hreach : h.Reaches v := by
        obtain ⟨vs, hvs, hmem⟩ := mem_of_fetchArgument hv
        exact hargs vs hvs v hmem
      rcases run_bind_cases hrest with ⟨e, hcast, rfl⟩ | ⟨w, h₁, hcast, hrest⟩
      · exact ⟨(copies_of_castValue hc hreach hcast).1, nofun⟩
      · obtain ⟨hk, hw⟩ := copies_of_castValue hc hreach hcast
        have hargs₁ : ∀ vs, arguments = some vs → ∀ v ∈ vs, h₁.Reaches v :=
          fun vs hvs v hv => hk.keeps.reaches (hargs vs hvs v hv)
        rcases run_bind_cases hrest with ⟨e, hothers, rfl⟩ | ⟨ws, h₂, hothers, hpure⟩
        · exact ⟨hk.trans (ih (hk.closed hc) hargs₁ hothers).1, nofun⟩
        · cases hpure
          obtain ⟨hk', hws⟩ := ih (hk.closed hc) hargs₁ hothers
          refine ⟨hk.trans hk', fun us hus => ?_⟩
          cases hus
          exact List.forall_mem_cons.2 ⟨hk'.keeps.reaches (hw w rfl).1.reaches, hws ws rfl⟩

end Exec

/-! ## Accesses -/

/-- **The types of an access to a field of a catalog**: its own, which inputs
are seen as last, and the declaring one, which receivers are seen as. -/
structure FieldTypes.Of (s : FieldTypes) (c : Catalog) (f : Field) : Prop where
  type : c.find? f.type = some s.type
  input : ∃ ts, s.input = ts ++ [s.type]
  declaring : ∃ u ∈ c.types, f ∈ u.fields ∧ u.handle = f.declaringType ∧
    u.handle.isBuiltin = false ∧ (f.isStatic = false → u ∈ s.receiver)

/-- An access to a field of a built registry has such types. -/
theorem Registry.Built.fieldTypes_of {r : Registry} {f : Field} {t : TypeDef} {s : FieldTypes}
    {owner value : Option TypeHandle} (hr : r.Built) (ht : t ∈ r.types) (hf : f ∈ t.allFields)
    (hs : r.fieldTypes? f owner value = some s) : s.Of r.toCatalog f := by
  obtain ⟨htype, hinput, hreceiver⟩ := fieldTypes?_eq_some.1 hs
  obtain ⟨ids, hbuilt⟩ := hr
  obtain ⟨u, hu, hfu, hhandle, hbuiltin, hfind⟩ := hbuilt.wellFormed.exists_declaring ht hf
  refine ⟨htype, ?_, u, hu, hfu, hhandle, hbuiltin, fun hstatic => ?_⟩
  · obtain ⟨ts, -, hts⟩ := Option.map_eq_some_iff.1 hinput
    exact ⟨ts, hts.symm⟩
  · rw [hstatic, if_neg Bool.false_ne_true] at hreceiver
    obtain ⟨u', hu', hfind'⟩ := exists_image (mapM_eq_some.1 hreceiver)
      (List.mem_append_right _ (List.mem_singleton_self f.declaringType))
    rwa [Option.some.inj (hfind.symm.trans hfind')]

theorem Catalog.find?_of_prefix {c c' : Catalog} (hc : c.types <+: c'.types) {a : TypeHandle}
    {t : TypeDef} (ht : c.find? a = some t) : c'.find? a = some t := by
  obtain ⟨ts, hts⟩ := hc
  rw [find?, ← hts, List.find?_append]
  rw [find?] at ht
  rw [ht]
  rfl

namespace Heap.Orderly

variable {c₀ c : Catalog} {ids : Supply} {h h₁ h' : Heap} {P : ObjectRef → Prop} {f : Field}
  {s : FieldTypes} {receiver v : Value} {t : TypeDef}

/-- **A slot of a field is owned by its instance only if the field is of a
struct type**, and in that slot is no other field. -/
theorem layout_of_slot (ho : h.Orderly c₀ c P) (hc : c₀.WellFormed ids) (hs : s.Of c₀ f) {i : Nat}
    (hi : f.storage = .slot i) {o : ObjectRef}
    (hall : ∀ t ∈ s.receiver, t.handle.isBuiltin = false → t.handle ∈ (h.typeAt o).ancestors) :
    (h.typeAt o).layout[i]? = some f := by
  obtain ⟨u, hu, hfu, hhandle, hbuiltin, hreceiver⟩ := hs.declaring
  have hancestor := hall u (hreceiver (Field.isStatic_of_slot hi)) hbuiltin
  exact (hc.slot_lt ho.typed.sound hu hfu hi (hhandle ▸ hancestor)).1

theorem isValueType_of_owns (hsub : c₀.types <+: c.types) (hs : s.Of c₀ f) {i : Nat}
    (hlayout : t.layout[i]? = some f) (howns : t.OwnsAt c i) : s.type.isValueType = true := by
  obtain ⟨-, g, u, hg, hu, hkind⟩ := howns
  obtain rfl : f = g := Option.some.inj (hlayout.symm.trans hg)
  obtain rfl : s.type = u := Option.some.inj ((Catalog.find?_of_prefix hsub hs.type).symm.trans hu)
  rw [TypeDef.isValueType, hkind]
  rfl

/-- Handing out a value copies at most, and what is handed out is free if the
value is, or of a value type. -/
theorem handOut {out : Except RuntimeFault Value} (ho : h.Orderly c₀ c P) (hv : h.Reaches v)
    (hfree : t.isValueType = false → h.Free P v)
    (hrun : (Exec.handOut t v).run h = some (out, h')) :
    h'.Orderly c₀ c P ∧ h.Grows h' ∧ ∀ w, out = .ok w → h'.Free P w := by
  obtain ⟨w, rfl, hcoerced⟩ := Exec.coerced_of_handOut ho.closed hv hrun
  refine ⟨ho.copies_outside hcoerced.copies, hcoerced.copies.toGrows, fun w' hw => ?_⟩
  obtain rfl : w = w' := Except.ok.inj hw
  intro p hp
  refine ⟨hcoerced.reaches p hp, fun hP => ?_⟩
  cases ht : t.isValueType with
  | false =>
    obtain rfl := hcoerced.shared ht
    exact (hfree ht p hp).2 hP
  | true =>
    obtain ⟨cs, hplaced, -⟩ := hcoerced.value ht
    have hbox := (hplaced.copies.keeps.isBoxAt_iff (ho.owned.has hP)).2 (ho.owned.box p hP)
    exact hplaced.fresh p hp hbox (ho.owned.has hP)

/-- **Reading a field hands out nothing private**, and changes nothing. -/
theorem read {out : Except RuntimeFault Value} (ho : h.Orderly c₀ c P) (hc : c₀.WellFormed ids)
    (hsub : c₀.types <+: c.types) (hs : s.Of c₀ f) (hr : h.Free P receiver)
    (hrun : (f.read s receiver).run h = some (out, h')) :
    h'.Orderly c₀ c P ∧ h.Grows h' ∧ ∀ w, out = .ok w → h'.Free P w := by
  rcases Exec.run_bind_cases hrun with ⟨e, hfetch, rfl⟩ | ⟨v, h₁, hfetch, hout⟩
  · obtain ⟨rfl, -⟩ := Field.fetch_cases hfetch
    exact ⟨ho, .refl _, nofun⟩
  · obtain ⟨rfl, hv⟩ := Field.fetch_cases hfetch
    rcases hv v rfl with ⟨k, -, rfl⟩ | ⟨o, i, rfl, hi, hslot, hall⟩
    · have hreach := ho.closed.cells k
      exact ho.handOut hreach (fun _ => free_of_suits hreach (ho.owned.cells k)) hout
    · have hreach := ho.closed.slots o v (List.mem_of_getElem? hslot)
      refine ho.handOut hreach (fun hvalue => ?_) hout
      have hsuits := ho.owned.slots o i v (hr o rfl).2 hslot
      refine fun p hp => ⟨hreach p hp, fun hP => ?_⟩
      -- a private box is in an owning slot, and then the field is of a value type
      have hvalue' := isValueType_of_owns hsub hs (ho.layout_of_slot hc hs hi hall)
        ((hsuits p hp).1 hP)
      rw [hvalue] at hvalue'
      cases hvalue'

/-- **A slot admits what was coerced for it**: a new box, when it owns what it
holds, which is private from then on. -/
theorem admits_of_copies (ho : h.Orderly c₀ c P) (hk : h.Copies h₁) {o : ObjectRef} {i : Nat}
    (hhas : h.Has o) (hnot : ¬ P o) (hfree : h₁.Free P v)
    (hfresh : (h.typeAt o).OwnsAt c i → h.Fresh h₁ v) :
    Private.Admits c h₁ (fun p => P p ∨ (h.typeAt o).OwnsAt c i ∧ ¬ h.Has p ∧ h₁.Has p) v
      (.slot o i) := by
  refine ⟨fun hP => ?_, ?_⟩
  · exact hP.elim hnot fun hnew => hnew.2.1 hhas
  · rw [hk.typeAt_eq hhas]
    by_cases howns : (h.typeAt o).OwnsAt c i
    · exact (hfresh howns).suits hfree.reaches ho.owned hk.keeps _
    · intro p hp
      refine ⟨?_, fun hyes => absurd hyes howns⟩
      rintro (hP | ⟨hyes, -⟩)
      · exact absurd hP (hfree p hp).2
      · exact hyes

/-- **Writing a field keeps a heap orderly**, and changes at most the field's
location: the copy that is stored in a slot that owns it becomes private. -/
theorem write {out : Except RuntimeFault Unit} (ho : h.Orderly c₀ c P) (hc : c₀.WellFormed ids)
    (hsub : c₀.types <+: c.types) (hs : s.Of c₀ f) (hr : h.Free P receiver) (hv : h.Free P v)
    (hrun : (f.write s receiver v).run h = some (out, h')) :
    ∃ P', h'.Orderly c₀ c P' ∧ h.Widens P P' ∧
      ((∃ e, out = .error e) ∧ h.Grows h' ∨
        out = .ok () ∧ ∃ l, f.location? receiver = some l ∧ h.ChangesOnly h' (· = l) ∧
          ∀ o i, l = .slot o i → (h.typeAt o).layout[i]? = some f) := by
  obtain ⟨ts, hinput⟩ := hs.input
  unfold Field.write at hrun
  rw [hinput] at hrun
  rcases Exec.run_bind_cases hrun with ⟨e, hcast, rfl⟩ | ⟨v', h₁, hcast, hput⟩
  · obtain ⟨hk, -⟩ := Exec.copies_of_castValues ho.closed hv.reaches hcast
    exact ⟨P, ho.copies_outside hk, .refl h P, .inl ⟨⟨e, rfl⟩, hk.toGrows⟩⟩
  · obtain ⟨hk, hv'⟩ := Exec.copies_of_castValues ho.closed hv.reaches hcast
    obtain ⟨hderived, hfresh⟩ := hv' v' rfl
    have hfree := hderived.free hv ho.owned
    have hcell : ∀ k, f.storage = .cell k → k.index < h₁.cells.size := by
      obtain ⟨u, hu, hfu, -⟩ := hs.declaring
      rw [hk.cells_eq]
      exact ho.typed.cells u hu f hfu
    rcases Field.put_cases hcell hput with ⟨herror, rfl⟩ | ⟨rfl, l, hl, hw, hall⟩
    · exact ⟨P, ho.copies_outside hk, .refl h P, .inl ⟨herror, hk.toGrows⟩⟩
    · have hchanges := (hk.toGrows.changesOnly (· = l)).trans hw.toChangesOnly
      cases l with
      -- nobody owns what is in a static cell
      | cell k =>
        have ho₁ := ho.copies_outside hk
        exact ⟨P, ho₁.writes hw hderived.reaches hfree.suits, .refl h P,
          .inr ⟨rfl, .cell k, hl, hchanges, nofun⟩⟩
      -- what is stored becomes private when the slot owns it
      | slot o i =>
        obtain ⟨hi, rfl⟩ := Field.location?_eq_slot hl
        obtain ⟨hhas, hnot⟩ := hr o rfl
        obtain ⟨ho₁, hwidens⟩ := ho.copies hk ((h.typeAt o).OwnsAt c i)
        have hlayout : (h.typeAt o).layout[i]? = some f := by
          rw [← hk.typeAt_eq hhas]
          exact ho₁.layout_of_slot hc hs hi (hall o i rfl)
        have hadmits := ho.admits_of_copies hk hhas hnot hfree fun howns =>
          hfresh (isValueType_of_owns hsub hs hlayout howns)
        refine ⟨_, ho₁.writes hw hderived.reaches hadmits, hwidens,
          .inr ⟨rfl, .slot o i, hl, hchanges, ?_⟩⟩
        rintro _ _ heq
        cases heq
        exact hlayout

/-! ## Factories -/

/-- Without a body a new instance stays as it was zeroed. -/
theorem construct {out : Except RuntimeFault Value} {natives : Natives} {args : List Value}
    (ho : h.Orderly c₀ c P) (hc : c₀.WellFormed ids) (ht : t ∈ c₀.types)
    (hrun : (Code.construct natives t none args >>= fun o => pure (.object o)).run h =
      some (out, h')) :
    ∃ P', h'.Orderly c₀ c P' ∧ h.Widens P P' ∧ h.Grows h' ∧ ∀ w, out = .ok w → h'.Free P' w := by
  have hzeroed : Code.construct natives t none args = Exec.zeroed t := bind_pure _
  rw [hzeroed] at hrun
  rcases Exec.run_bind_cases hrun with ⟨e, hz, -⟩ | ⟨o, h₁, hz, hpure⟩
  · obtain ⟨o, herror, -⟩ := zeroed?_of_run hz
    cases herror
  · cases hpure
    obtain ⟨o, hok, hz⟩ := zeroed?_of_run hz
    cases hok
    obtain ⟨P', ho', hwidens, hgrows, -, hfree⟩ := ho.zeroed ht (hc.defaults t ht) hz
    refine ⟨P', ho', hwidens, hgrows, fun w hw => ?_⟩
    cases hw
    exact hfree

/-- **A constructor without a body hands out a new instance.** -/
theorem newInstance {out : Except RuntimeFault Value} {natives : Natives} {k : Constructor}
    {ts : List TypeDef} {arguments : Option (List Value)} (ho : h.Orderly c₀ c P)
    (hc : c₀.WellFormed ids) (ht : t ∈ c₀.types) (hbody : k.body = none)
    (hargs : ∀ vs, arguments = some vs → ∀ v ∈ vs, h.Free P v)
    (hrun : (k.newInstance natives t ts arguments).run h = some (out, h')) :
    ∃ P', h'.Orderly c₀ c P' ∧ h.Widens P P' ∧ h.Grows h' ∧ ∀ w, out = .ok w → h'.Free P' w := by
  have hreach : ∀ vs, arguments = some vs → ∀ v ∈ vs, h.Reaches v :=
    fun vs hvs v hv => (hargs vs hvs v hv).reaches
  rcases Exec.run_bind_cases hrun with ⟨e, hcoerce, rfl⟩ | ⟨args, h₁, hcoerce, hrest⟩
  · have hk := (Exec.copies_of_coerceArguments ho.closed hreach hcoerce).1
    exact ⟨P, ho.copies_outside hk, .refl h P, hk.toGrows, nofun⟩
  · have hk := (Exec.copies_of_coerceArguments ho.closed hreach hcoerce).1
    rw [hbody] at hrest
    obtain ⟨P', ho', hwidens, hgrows, hfree⟩ := (ho.copies_outside hk).construct hc ht hrest
    exact ⟨P', ho', (Widens.refl h P).trans hk.keeps hwidens, hk.toGrows.trans hgrows, hfree⟩

/-- **A default instance** whose constructor has no body is new, too. -/
theorem newDefault {out : Except RuntimeFault Value} {natives : Natives} (ho : h.Orderly c₀ c P)
    (hc : c₀.WellFormed ids) (ht : t ∈ c₀.types)
    (hbody : t.defaultConstructor?.bind (·.body) = none)
    (hrun : (t.newDefault natives).run h = some (out, h')) :
    ∃ P', h'.Orderly c₀ c P' ∧ h.Widens P P' ∧ h.Grows h' ∧ ∀ w, out = .ok w → h'.Free P' w := by
  unfold TypeDef.newDefault at hrun
  cases hvalue : t.isValueType with
  | false =>
    rw [hvalue, if_neg Bool.false_ne_true, hbody] at hrun
    exact ho.construct hc ht hrun
  | true =>
    rw [hvalue, if_pos rfl] at hrun
    rcases Exec.run_bind_cases hrun with ⟨e, hz, -⟩ | ⟨v, h₁, hz, hout⟩
    · obtain ⟨v, herror, -⟩ := zeroOf?_of_run hz
      cases herror
    · obtain ⟨v, hok, hz⟩ := zeroOf?_of_run hz
      cases hok
      obtain ⟨P', ho', hwidens, hgrows, hfree⟩ := ho.zeroOf ht (hc.defaults t ht) hz
      obtain ⟨ho'', hgrows', hfree'⟩ := ho'.handOut hfree.reaches (fun _ => hfree) hout
      exact ⟨P', ho'', hwidens, hgrows.trans hgrows', hfree'⟩

end Heap.Orderly

end MemberAccess
