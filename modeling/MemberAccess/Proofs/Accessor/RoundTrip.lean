import MemberAccess.Proofs.Accessor.Location
import MemberAccess.Proofs.Heap.Sound
/-!
# Accessor — what is written to a field is read back

A setter either refuses and leaves everything as it was, or writes the one
location of its field; the getter then reads back what was passed, as itself
or as a fresh box with the same contents (`Reflector.set_get`). What is handed
out is treated like what is let in, only that nothing refuses it
(`Exec.coerced_of_handOut`).
-/

namespace MemberAccess

namespace Exec

variable {h h' : Heap} {t : TypeDef} {v : Value} {out : Except RuntimeFault Value}

/-! ## Handing out -/

/-- **Nothing is refused on its way out**: a value of a value type is copied,
any other is passed on. -/
theorem handOut_eq_some (hrun : (handOut t v).run h = some (out, h')) :
    (t.isValueType = false ∧ out = .ok v ∧ h' = h) ∨
      t.isValueType = true ∧ ∃ w, h.detach? v = some (w, h') ∧ out = .ok w := by
  unfold handOut at hrun
  cases ht : t.isValueType with
  | false =>
    rw [ht] at hrun
    cases hrun
    exact .inl ⟨rfl, rfl, rfl⟩
  | true =>
    simp only [ht, if_true, detach, run_alloc?] at hrun
    obtain ⟨⟨w, h₁⟩, hdetach, hpair⟩ := Option.map_eq_some_iff.1 hrun
    cases hpair
    exact .inr ⟨rfl, w, hdetach, rfl⟩

/-- What is handed out was coerced. -/
theorem coerced_of_handOut (hc : h.Closed) (hr : h.Reaches v)
    (hrun : (handOut t v).run h = some (out, h')) : ∃ w, out = .ok w ∧ h.Coerced h' t v w := by
  rcases handOut_eq_some hrun with ⟨ht, rfl, rfl⟩ | ⟨ht, w, hdetach, rfl⟩
  · exact ⟨v, rfl, .refl h', hr, fun hvalue => by simp [ht] at hvalue, fun _ => rfl⟩
  · obtain ⟨c, hread, hplaced⟩ := Heap.placed_of_detach? hc hr hdetach
    exact ⟨w, rfl, hplaced.copies, hplaced.reaches, fun _ => ⟨c, hplaced, hread⟩, by simp [ht]⟩

/-- Coercing what is admissible is handing it out. -/
theorem run_castValue_eq_handOut (hv : h.isAdmissible v t = true) :
    (castValue v t).run h = (handOut t v).run h := by
  unfold castValue handOut
  simp only [run_bind, run_ask, hv, if_true]

/-- What is admissible is not refused. -/
theorem ok_of_castValue (hv : h.isAdmissible v t = true)
    (hrun : (castValue v t).run h = some (out, h')) : ∃ w, out = .ok w := by
  rw [run_castValue_eq_handOut hv] at hrun
  rcases handOut_eq_some hrun with ⟨-, rfl, -⟩ | ⟨-, w, -, rfl⟩
  · exact ⟨v, rfl⟩
  · exact ⟨w, rfl⟩

end Exec

namespace Field

variable {f : Field} {s : FieldTypes} {t u : TypeDef} {h h₁ h₂ : Heap} {receiver v w : Value}
  {l : Location}

/-- **When a write is refused**: the value is null where the field's type does
not accept it, or no instance of that type; or the field is an instance field
and the receiver is null or no instance of the declaring type. -/
def Rejects (f : Field) (h : Heap) (type : TypeDef) (receiver v : Value) : Prop :=
  (if v.isNull then type.isValueType = true else h.isInstance v f.type = false) ∨
    f.isStatic = false ∧ (receiver.isNull = true ∨ h.isInstance receiver f.declaringType = false)

/-- Reading a field changes nothing. -/
theorem within_read (f : Field) (s : FieldTypes) (receiver : Value) :
    Exec.Within Heap.Grows (f.read s receiver) := by
  have hread : ∀ {α : Type} (g : Heap → Except RuntimeFault α),
      Exec.Within Heap.Grows (Exec.read g) := fun g => .read Heap.Grows.refl g
  refine Exec.grows_bind ?_ fun v => ?_
  · unfold fetch
    cases f.storage with
    | cell c => exact .ask Heap.Grows.refl _
    | slot i =>
      exact Exec.grows_bind (Exec.grows_bind (hread _) fun _ => hread _) fun o => hread _
  · unfold Exec.handOut
    cases s.type.isValueType with
    | false => exact .pure Heap.Grows.refl v
    | true => exact Exec.within_detach v

/-! ## Writing -/

/-- Either reason for a refusal, as the two checks that are made. -/
theorem rejects_iff (ht : t.handle = f.type) :
    f.Rejects h t receiver v ↔ h.isAdmissible v t = false ∨
      f.isStatic = false ∧
        (receiver.isNull = true ∨ h.isInstance receiver f.declaringType = false) := by
  unfold Rejects Heap.isAdmissible TypeDef.acceptsNull
  rw [ht]
  cases v.isNull with
  | true => simp
  | false => simp

/-- A receiver that is not refused passes. -/
theorem accepts_of_not_rejects (hu : u.handle = f.declaringType)
    (hbuiltin : u.handle.isBuiltin = false) (hno : ¬ f.Rejects h t receiver v) :
    f.Accepts u h receiver := by
  intro hstatic
  have hreceiver : ¬ (receiver.isNull = true ∨ h.isInstance receiver f.declaringType = false) :=
    fun hbad => hno (.inr ⟨hstatic, hbad⟩)
  rw [← hu] at hreceiver
  cases hinstance : h.isInstance receiver u.handle with
  | false => exact absurd (.inr hinstance) hreceiver
  | true => exact Heap.exists_object_of_isInstance hbuiltin hinstance

/-- What is written to a field of a value type is an instance of that type. -/
theorem isInstance_of_not_rejects (ht : t.handle = f.type) (hvalue : t.isValueType = true)
    (hyes : ¬ f.Rejects h t receiver v) : h.isInstance v t.handle = true := by
  rw [rejects_iff ht] at hyes
  have hadmissible : h.isAdmissible v t = true := by
    cases hadmissible : h.isAdmissible v t with
    | false => exact absurd (.inl hadmissible) hyes
    | true => rfl
  cases hnull : v.isNull with
  | true => simp [Heap.isAdmissible, hnull, TypeDef.acceptsNull, hvalue] at hadmissible
  | false => simpa [Heap.isAdmissible, hnull] using hadmissible

/-- A receiver that passes still does after other objects have come. -/
theorem Accepts.keeps (haccepts : f.Accepts u h receiver) (hk : h.Keeps h₁)
    (hr : h.Reaches receiver) : f.Accepts u h₁ receiver := by
  intro hstatic
  obtain ⟨o, rfl, ho⟩ := haccepts hstatic
  exact ⟨o, rfl, by rwa [hk.typeAt_eq o (hr o rfl)]⟩

/-- **A write that is refused** changes nothing. -/
theorem run_write_of_rejects (hs : s.input = [t])
    (hreceiver : f.isStatic = false → s.receiver = [u]) (ht : t.handle = f.type)
    (hu : u.handle = f.declaringType) (hbuiltin : u.handle.isBuiltin = false) (hc : h.Closed)
    (ha : h.Acyclic) (hr : h.Reaches receiver) (hv : h.Reaches v)
    (hno : f.Rejects h t receiver v) :
    ∃ fault h', (f.write s receiver v).run h = some (.error fault, h') ∧ h.Grows h' := by
  unfold write
  rw [hs, Exec.castValues_singleton]
  cases hadmissible : h.isAdmissible v t with
  | false =>
    have hcast := Exec.run_castValue_of_not hadmissible
    exact ⟨_, h, Exec.run_bind_eq_error.2 (.inl hcast), .refl h⟩
  | true =>
    -- the value passes, and the receiver fails after the value has been copied
    obtain ⟨hstatic, hbad⟩ := ((rejects_iff ht).1 hno).resolve_left (by simp [hadmissible])
    obtain ⟨v', h₁, hcast, hcoerced⟩ :=
      Exec.run_castValue hc (fun _ => ha.hasContents v) hv hadmissible
    have hgrows := hcoerced.copies.toGrows
    have hbad₁ : receiver.isNull = true ∨ h₁.isInstance receiver u.handle = false := by
      rwa [hu, hgrows.keeps.isInstance_eq hr]
    obtain ⟨fault, hput⟩ := run_put_of_not (hreceiver hstatic) hbuiltin hstatic hbad₁ v'
    exact ⟨fault, h₁, Exec.run_bind_eq_error.2 (.inr ⟨v', h₁, hcast, hput⟩), hgrows⟩

/-- **Any other write succeeds**: the value is coerced, and then one location
is written. -/
theorem run_write (hs : s.input = [t]) (hreceiver : f.isStatic = false → s.receiver = [u])
    (ht : t.handle = f.type) (hu : u.handle = f.declaringType)
    (hbuiltin : u.handle.isBuiltin = false) (hc : h.Closed) (ha : h.Acyclic)
    (hr : h.Reaches receiver) (hv : h.Reaches v) (hl : f.location? receiver = some l)
    (hthere : (h.at? l).isSome = true) (hyes : ¬ f.Rejects h t receiver v) :
    ∃ v' h₁ h', (f.write s receiver v).run h = some (.ok (), h') ∧ h.Coerced h₁ t v v' ∧
      h₁.Overwrites h' l v' := by
  have hadmissible : h.isAdmissible v t = true := by
    cases hadmissible : h.isAdmissible v t with
    | false => exact absurd ((rejects_iff ht).2 (.inl hadmissible)) hyes
    | true => rfl
  obtain ⟨v', h₁, hcast, hcoerced⟩ :=
    Exec.run_castValue hc (fun _ => ha.hasContents v) hv hadmissible
  have hgrows := hcoerced.copies.toGrows
  have haccepts := (accepts_of_not_rejects hu hbuiltin hyes).keeps hgrows.keeps hr
  have hthere₁ : (h₁.at? l).isSome = true := by rwa [hgrows.at?_eq hthere]
  obtain ⟨h', hput, hwrites⟩ := run_put hreceiver hbuiltin haccepts hl hthere₁ v'
  refine ⟨v', h₁, h', ?_, hcoerced, hwrites⟩
  unfold write
  rw [hs, Exec.castValues_singleton]
  exact Exec.run_bind_eq_ok.2 ⟨v', h₁, hcast, hput⟩

/-! ## Reading back -/

/-- **What is read back of a value that was written**: the value itself, or,
where a value type is given a box, a box that is new and has the contents that
the value had when it was written. -/
structure ReadBack (t : TypeDef) (h : Heap) (v : Value) (h₁ h₂ : Heap) (w : Value) : Prop where
  same : t.isValueType = false ∨ h.isBox v = false → w = v
  copied : t.isValueType = true → h.isBox v = true → ∃ o c n m, w = .object o ∧ ¬ h₁.Has o ∧
    h.contents? n v = some c ∧ h₂.contents? m w = some c

/-- **What was written is handed out**: of a value type a copy, with the
contents that were written. -/
theorem run_handOut_of_written {v' : Value} (hc : h.Closed) (hcoerced : h.Coerced h₁ t v v')
    (hw : h₁.Overwrites h₂ l v') (hthere : (h.at? l).isSome = true) :
    ∃ w h₃, (Exec.handOut t v').run h₂ = some (.ok w, h₃) ∧ h₂.Grows h₃ ∧
      ReadBack t h v h₂ h₃ w ∧ (t.isValueType = true → ∃ c,
        h.contents? h.objects.size v = some c ∧ h₃.contents? h₂.objects.size w = some c) := by
  unfold Exec.handOut
  cases hvalue : t.isValueType with
  -- a reference is stored and handed out as it is
  | false =>
    refine ⟨v', h₂, rfl, .refl h₂, ⟨fun _ => hcoerced.shared hvalue, fun hbox => ?_⟩, nofun⟩
    rw [hvalue] at hbox
    cases hbox
  -- of a value type a copy is stored, and a copy of that is handed out
  | true =>
    obtain ⟨c, hplaced, hread⟩ := hcoerced.value hvalue
    have hobject : ∀ o i, l = .slot o i → h.Has o := by
      rintro o i rfl
      exact Heap.has_of_at? hthere
    have hread₂ : h₂.contents? h.objects.size v' = some c :=
      (hw.contents?_eq hplaced hobject _).trans hplaced.contents
    have hclosed := hw.closed (hcoerced.copies.closed hc) hcoerced.reaches
    obtain ⟨w, h₃, hdetach, hplaced₃⟩ :=
      Heap.detached_of_contents hclosed (hw.keeps.reaches hcoerced.reaches) hread₂
    refine ⟨w, h₃, ?_, hplaced₃.copies.toGrows, ⟨?_, ?_⟩, fun _ => ⟨c, hread, hplaced₃.contents⟩⟩
    · simp only [if_true, Exec.detach, Exec.run_alloc?, hdetach, Option.map_some]
    · intro hbox
      have hnone : h.box? v = none := by simpa [hvalue, Heap.isBox] using hbox
      rw [Heap.contents?_of_box?_eq_none hnone] at hread
      cases hread
      exact (Heap.contents?_eq_leaf.1 hplaced₃.contents).2
    · intro _ hbox
      rcases hplaced₃.copy with ⟨hnone, -⟩ | ⟨o, rfl, hnew, -⟩
      · rw [← Option.some.inj ((Heap.contents?_of_box?_eq_none hnone).symm.trans
          hplaced₃.contents)] at hread
        simp [Heap.isBox, (Heap.contents?_eq_leaf.1 hread).1] at hbox
      · exact ⟨o, c, _, _, rfl, hnew, hread, hplaced₃.contents⟩

/-- **What was written is read back.** -/
theorem run_read_of_written {v' : Value} (hs : s.type = t)
    (hreceiver : f.isStatic = false → s.receiver = [u]) (hbuiltin : u.handle.isBuiltin = false)
    (hc : h.Closed) (hcoerced : h.Coerced h₁ t v v') (hw : h₁.Overwrites h₂ l v')
    (hl : f.location? receiver = some l) (hthere : (h.at? l).isSome = true)
    (haccepts : f.Accepts u h₂ receiver) :
    ∃ w h₃, (f.read s receiver).run h₂ = some (.ok w, h₃) ∧ h₂.Grows h₃ ∧
      ReadBack t h v h₂ h₃ w := by
  have hfetch := run_fetch hreceiver hbuiltin haccepts hl hw.written
  obtain ⟨w, h₃, hout, hgrows, hback, -⟩ := run_handOut_of_written hc hcoerced hw hthere
  exact ⟨w, h₃, Exec.run_bind_eq_ok.2 ⟨v', h₂, hfetch, hs ▸ hout⟩, hgrows, hback⟩

end Field

namespace Registry

variable {r : Registry} {f : Field} {t type : TypeDef} {h : Heap} {receiver v : Value}

/-- **The types of an access without a view** are the field's own and, unless
it is static, the declaring one. -/
theorem Built.fieldTypes? (hr : r.Built) (ht : t ∈ r.types) (hf : f ∈ t.allFields)
    (htype : r.find? f.type = some type) :
    ∃ u ∈ r.types, ∃ s, r.fieldTypes? f none none = some s ∧ f ∈ u.fields ∧
      u.handle = f.declaringType ∧ u.handle.isBuiltin = false ∧ s.type = type ∧
      s.input = [type] ∧ (f.isStatic = false → s.receiver = [u]) := by
  obtain ⟨ids, hbuilt⟩ := hr
  obtain ⟨u, hu, hfu, hhandle, hbuiltin, hfind⟩ := hbuilt.wellFormed.exists_declaring ht hf
  have hinput : r.inputTypes type none = some [type] := rfl
  have hreceiver : r.receiverTypes f.declaringType none = some [u] := by
    simp [receiverTypes, hfind]
  refine ⟨u, hu, ⟨if f.isStatic then [] else [u], [type], type⟩, ?_, hfu, hhandle, hbuiltin, rfl,
    rfl, fun hstatic => by simp [hstatic]⟩
  refine fieldTypes?_eq_some.2 ⟨htype, hinput, ?_⟩
  cases f.isStatic with
  | true => rfl
  | false => exact hreceiver

/-- **The location of a field is there** for a receiver that passes. -/
theorem Built.exists_location (hr : r.Built) (hs : h.Sound r.toCatalog) {u : TypeDef}
    (hu : u ∈ r.types) (hf : f ∈ u.fields) (hhandle : u.handle = f.declaringType)
    (haccepts : f.Accepts u h receiver) :
    ∃ l, f.location? receiver = some l ∧ (h.at? l).isSome = true := by
  obtain ⟨ids, hbuilt⟩ := hr
  cases hstorage : f.storage with
  | cell c =>
    have hlt := hs.cells u hu f hf c hstorage
    exact ⟨.cell c, by simp [Field.location?, hstorage], by simpa [Heap.at?] using hlt⟩
  | slot i =>
    obtain ⟨o, rfl, ho⟩ := haccepts (Field.isStatic_of_slot hstorage)
    have hlt := (hbuilt.wellFormed.slot_lt hs hu hf hstorage (hhandle ▸ ho)).2
    exact ⟨.slot o i, by simp [Field.location?, hstorage, Value.toObject?],
      by simpa [Heap.at?] using hlt⟩

end Registry

namespace Reflector

variable {r : Reflector} {f : Field} {t type : TypeDef}

/-- **What is written to a field is read back.** Every field whose type is
registered has a setter and a getter. On a heap that fits the types and has no
box that nests itself the setter fails exactly when the write is refused, and
then nothing has changed; else it changes the location of the field and nothing else, and
the getter hands out what was written. The getter never changes anything. -/
theorem set_get (hr : r.registry.Built) (ht : t ∈ r.registry.types) (hf : f ∈ t.allFields)
    (htype : r.registry.find? f.type = some type) :
    (∃ setter, r.Compiles (.fieldSetter (some f) none) setter) ∧
    (∃ getter, r.Compiles (.fieldGetter (some f) none) getter) ∧
    ∀ setter getter, r.Compiles (.fieldSetter (some f) none) setter →
      r.Compiles (.fieldGetter (some f) none) getter → ∀ natives h receiver v,
      h.Sound r.registry.toCatalog → h.Acyclic → h.Reaches receiver → h.Reaches v →
      (f.Rejects h type receiver v → ∃ e h', (setter.set natives receiver v).run h =
        some (.error e, h') ∧ h.Grows h') ∧
      (¬ f.Rejects h type receiver v → ∃ l stored h', f.location? receiver = some l ∧
        (setter.set natives receiver v).run h = some (.ok (), h') ∧
        h.WritesOnly h' l stored ∧ (type.kind = .structType → h.isBox v = true) ∧
        ∃ w h'', (getter.get natives receiver).run h' = some (.ok w, h'') ∧
          Field.ReadBack type h v h' h'' w) ∧
      Exec.Within Heap.Grows (getter.get natives receiver) := by
  obtain ⟨u, hu, s, hs, hfu, hhandle, hbuiltin, htype', hinput, hreceiver⟩ :=
    hr.fieldTypes? ht hf htype
  have hf' := Catalog.handle_of_find? htype
  refine ⟨exists_set hs, exists_get hs, ?_⟩
  intro setter getter hset hget natives h receiver v hsound hacyclic hreach hv
  obtain ⟨s₁, hs₁, hset⟩ := set_eq_write hset
  obtain rfl : s = s₁ := Option.some.inj (hs.symm.trans hs₁)
  obtain ⟨s₂, hs₂, hget⟩ := get_eq_read hget
  obtain rfl : s = s₂ := Option.some.inj (hs.symm.trans hs₂)
  rw [hset, hget]
  refine ⟨fun hno => ?_, fun hyes => ?_, ?_⟩
  · obtain ⟨fault, h', hrun, hgrows⟩ := Field.run_write_of_rejects hinput hreceiver hf' hhandle
      hbuiltin hsound.closed hacyclic hreach hv hno
    exact ⟨_, h', Exec.run_mapFault_eq_error.2 ⟨fault, hrun, rfl⟩, hgrows⟩
  · have haccepts := Field.accepts_of_not_rejects hhandle hbuiltin hyes
    obtain ⟨l, hl, hthere⟩ := hr.exists_location hsound hu hfu hhandle haccepts
    obtain ⟨v', h₁, h', hrun, hcoerced, hwrites⟩ := Field.run_write hinput hreceiver
      hf' hhandle hbuiltin hsound.closed hacyclic hreach hv hl hthere hyes
    -- seen from before the value was copied, the one location is written as well
    have hwrites' := hwrites.after_growth hcoerced.copies.toGrows hthere
    obtain ⟨w, h'', hread, -, hback⟩ := Field.run_read_of_written htype' hreceiver hbuiltin
      hsound.closed hcoerced hwrites hl hthere (haccepts.keeps hwrites'.keeps hreach)
    refine ⟨l, v', h', hl, Exec.run_mapFault_eq_ok.2 hrun, hwrites', ?_, w, h'',
      Exec.run_mapFault_eq_ok.2 hread, hback⟩
    intro hkind
    obtain ⟨ids, hbuilt⟩ := hr
    exact hbuilt.wellFormed.isBox_of_struct hsound (List.mem_of_find?_eq_some htype) hkind hv
      (Field.isInstance_of_not_rejects hf' (by rw [TypeDef.isValueType, hkind]; rfl) hyes)
  · exact .mapFault (Field.within_read f s receiver)

end Reflector

/-- A pen is given the point that it is at. -/
theorem Sample.set_get_tip : ∃ setter getter,
    Reflector.Compiles ⟨registry, {}⟩ (.fieldSetter (some tip) none) setter ∧
    Reflector.Compiles ⟨registry, {}⟩ (.fieldGetter (some tip) none) getter ∧
    ¬ tip.Rejects desk point (.object ⟨1⟩) (.object ⟨0⟩) ∧
    ∀ natives, ∃ h' w h'',
      (setter.set natives (.object ⟨1⟩) (.object ⟨0⟩)).run desk = some (.ok (), h') ∧
      (getter.get natives (.object ⟨1⟩)).run h' = some (.ok w, h'') ∧
      Field.ReadBack point desk (.object ⟨0⟩) h' h'' w := by
  have ht : pen ∈ registry.types := by decide
  have hf : tip ∈ pen.allFields := by decide
  obtain ⟨⟨setter, hset⟩, ⟨getter, hget⟩, hrun⟩ :=
    Reflector.set_get (r := ⟨registry, {}⟩) registry_built ht hf rfl
  have hyes : ¬ tip.Rejects desk point (.object ⟨1⟩) (.object ⟨0⟩) := by
    rw [Field.rejects_iff rfl]
    decide
  have hreach : ∀ i < 2, desk.Reaches (.object ⟨i⟩) := by
    rintro i hi p ⟨⟩
    exact hi
  refine ⟨setter, getter, hset, hget, hyes, fun natives => ?_⟩
  obtain ⟨-, hsucceeds, -⟩ := hrun setter getter hset hget natives desk (.object ⟨1⟩)
    (.object ⟨0⟩) desk_sound desk_acyclic (hreach 1 (by decide)) (hreach 0 (by decide))
  obtain ⟨_, _, h', -, hwritten, -, -, w, h'', hread, hback⟩ := hsucceeds hyes
  exact ⟨h', w, h'', hwritten, hread, hback⟩

end MemberAccess
