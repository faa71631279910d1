import MemberAccess.Proofs.Accessor.PropertyAccess
import MemberAccess.Proofs.Typing.Admissible
import MemberAccess.Proofs.Typing.Backed
/-!
# Typing — accesses keep a heap fitted

A write coerces what it is given to the type of its own member and then stores
it where that member, or an accessor that stands in for it, is kept; a read
trusts what is there. On a fitted heap both are sound for fields, whose slots
and cells have the types of the fields that are in them. For properties they
are where accessors agree with what they are over (`Catalog.Agrees`).
-/

namespace MemberAccess

namespace Heap.Fitted

variable {Q : Judgement} {c cf : Catalog} {ids : Supply} {h h' : Heap} {t : TypeDef} {f : Field}
  {o : ObjectRef} {l : Location} {a : TypeHandle} {v : Value}

/-- An object of a fitted heap serves the types that it is a kind of. -/
theorem serves (hf : h.Fitted Q c c) (ho : h.Has o) (ha : t.handle ∈ (h.typeAt o).ancestors) :
    c.Serves h t (some o) := by
  rintro _ ⟨⟩
  exact ⟨ho, hf.types o ho, ha⟩

/-- Static fields have their cells. -/
theorem cell_lt (hf : h.Fitted Q c c) (hb : c.Built ids) (ht : t ∈ c.types)
    (hft : f ∈ t.allFields) {k : CellRef} (hk : f.storage = .cell k) :
    k.index < h.cells.size := by
  obtain ⟨u, hu, hfu⟩ := hb.wellFormed.fields t ht f hft
  exact hf.cells u hu f hfu k hk

/-- What is at a place may be held there, and does not dangle. -/
theorem read (hf : h.Fitted Q c c) (ha : h.Declares c l a) (hv : h.at? l = some v) :
    h.Reaches v ∧ Q h a v :=
  ⟨closed_iff.1 hf.closed l v hv, hf.holds l a v ha hv⟩

/-- A place is written with what may be held there. -/
theorem write (hf : h.Fitted Q c c) (hQ : Q.Lasting cf) (ha : h.Declares c l a)
    (hv : h.Reaches v) (hheld : Q h a v) (hw : h.Overwrites h' l v) : h'.Fitted Q c c :=
  hf.writes hQ hw hv fun _ hb => hf.declares_unique ha hb ▸ hheld

end Heap.Fitted

/-- What is admissible for the type that is found may be held. -/
theorem Judgement.admissible_of_find? {c : Catalog} {h : Heap} {a : TypeHandle} {t : TypeDef}
    {v : Value} (ht : c.find? a = some t) (hv : h.isAdmissible v t = true) :
    Judgement.admissible c h a v := by
  intro u hu
  rwa [← Option.some.inj (ht.symm.trans hu)]

namespace Exec.Maintains

variable {Q : Judgement} {c : Catalog} {ids : Supply} {h : Heap} {f : Field} {s : FieldTypes}
  {receiver v : Value} {u : TypeDef}

/-- **A holder serves every type that it has passed for.** -/
theorem holder (hf : h.Fitted Q c c) (hr : h.Reaches receiver) (hu : u ∈ s.receiver)
    (hbuiltin : u.handle.isBuiltin = false) :
    Maintains Q c h (Field.holder s receiver) fun h' o =>
      receiver = .object o ∧ c.Serves h' u (some o) := by
  refine of_eq hf fun out h' hrun => ?_
  obtain ⟨rfl, hpass⟩ := Field.holder_cases hrun
  refine ⟨rfl, fun o ho => ?_⟩
  obtain ⟨rfl, hall⟩ := hpass o ho
  exact ⟨rfl, hf.serves (hr o rfl) (hall u hu hbuiltin)⟩

/-! ## Fields -/

/-- **What a field holds** may be held by it. -/
theorem fetch (hf : h.Fitted Q c c) (hb : c.Built ids) (hs : s.Of c f)
    (hr : h.Reaches receiver) :
    Maintains Q c h (f.fetch s receiver) fun h' w => h'.Reaches w ∧ Q h' f.type w := by
  obtain ⟨u, hu, hfu, -, hbuiltin, hreceiver⟩ := hs.declaring
  have hfu' : f ∈ u.allFields := List.mem_append_left _ hfu
  refine of_eq hf fun out h' hrun => ?_
  obtain ⟨rfl, hfetched⟩ := Field.fetch_cases hrun
  refine ⟨rfl, fun w hw => ?_⟩
  rcases hfetched w hw with ⟨k, hk, rfl⟩ | ⟨o, i, rfl, hi, hslot, hall⟩
  · exact hf.read (l := .cell k) ⟨u, hu, f, hfu, hk, rfl⟩ (Heap.at?_cell (hf.cells u hu f hfu k hk))
  · have hancestor := hall u (hreceiver (Field.isStatic_of_slot hi)) hbuiltin
    have hserves := hf.serves (hr o rfl) hancestor
    have hl : f.storage.location? (some o) = some (.slot o i) := by
      rw [hi]
      rfl
    exact hf.read (hb.declares hu hfu' hserves hl) hslot

/-- **A field is given** what it may hold. -/
theorem put {cf : Catalog} (hf : h.Fitted Q c c) (hQ : Q.Lasting cf) (hb : c.Built ids)
    (hs : s.Of c f) (hr : h.Reaches receiver) (hv : h.Reaches v) (hheld : Q h f.type v) :
    Maintains Q c h (f.put s receiver v) fun _ _ => True := by
  obtain ⟨u, hu, hfu, -, hbuiltin, hreceiver⟩ := hs.declaring
  have hfu' : f ∈ u.allFields := List.mem_append_left _ hfu
  intro out h' hrun
  rcases Field.put_cases (hf.cells u hu f hfu) hrun with
    ⟨⟨e, rfl⟩, rfl⟩ | ⟨rfl, l, hl, hwrites, hall⟩
  · exact ⟨hf, .refl h', nofun⟩
  · have hdeclares : h.Declares c l f.type := by
      cases l with
      | cell k => exact ⟨u, hu, f, hfu, Field.location?_eq_cell hl, rfl⟩
      | slot o i =>
        obtain ⟨hi, rfl⟩ := Field.location?_eq_slot hl
        have hancestor := hall o i rfl u (hreceiver (Field.isStatic_of_slot hi)) hbuiltin
        refine hb.declares hu hfu' (hf.serves (hr o rfl) hancestor) ?_
        rw [hi]
        rfl
    exact ⟨hf.write hQ hdeclares hv hheld hwrites, hwrites.keeps, fun _ _ => trivial⟩

/-- **A field is read.** -/
theorem readField {cf : Catalog} (hf : h.Fitted Q c c) (hQ : Q.Lasting cf) (hb : c.Built ids)
    (hs : s.Of c f) (hr : h.Reaches receiver) :
    Maintains Q c h (f.read s receiver) fun h' w => h'.Reaches w ∧ Q h' f.type w :=
  (fetch hf hb hs hr).bind fun _ _ hf₁ _ hv =>
    (handOut hf₁ hQ hv.1).mono fun _ _ _ hw => ⟨hw.1, hw.2 _ hv.2⟩

/-- **A field is written** with what has been coerced to its type. -/
theorem writeField (hf : h.Fitted (.admissible c) c c) (hb : c.Built ids) (hs : s.Of c f)
    (hr : h.Reaches receiver) (hv : h.Reaches v) :
    Maintains (.admissible c) c h (f.write s receiver v) fun _ _ => True := by
  obtain ⟨ts, hinput⟩ := hs.input
  unfold Field.write
  rw [hinput]
  refine (castValues hf hb.lasting hv).bind fun h₁ w hf₁ hk hw => ?_
  exact put hf₁ hb.lasting hb hs (hk.reaches hr) hw.1
    (Judgement.admissible_of_find? hs.type hw.2)

end Exec.Maintains

/-! ## Properties -/

/-- **The types of an access to a property of a catalog** through an accessor
method: those of the property, and the declaring one, which receivers are seen
as. -/
structure FieldTypes.Through (s : FieldTypes) (c : Catalog) (p : Property) (m : Method)
    (u : TypeDef) : Prop where
  type : c.find? p.type = some s.type
  input : ∃ ts, s.input = ts ++ [s.type]
  builtin : u.handle.isBuiltin = false
  receiver : m.isStatic = false → u ∈ s.receiver

/-- An access to a property of a built registry has such types. -/
theorem Registry.Built.through {r : Registry} {p : Property} {m : Method} {u : TypeDef}
    {s : FieldTypes} {owner value : Option TypeHandle} (hr : r.Built) (hu : u ∈ r.types)
    (hm : m ∈ u.methods) (hs : r.HasPropertyTypes p m owner value s) :
    s.Through r.toCatalog p m u := by
  obtain ⟨ids, hb⟩ := hr
  have hdeclaring := hb.methods_declaring u hu m hm
  have hbuiltin := (hb.wellFormed.methods u hu m (List.mem_append_left _ hm)).1
  refine ⟨hs.type, ?_, hdeclaring ▸ hbuiltin, fun hstatic => ?_⟩
  · obtain ⟨ts, -, hts⟩ := Option.map_eq_some_iff.1 hs.input
    exact ⟨ts, hts.symm⟩
  · have hreceiver := hs.receiver
    rw [hstatic, if_neg Bool.false_ne_true] at hreceiver
    obtain ⟨u', hu', hfind⟩ := exists_image (mapM_eq_some.1 hreceiver)
      (List.mem_append_right _ (List.mem_singleton_self m.declaringType))
    rw [hdeclaring, hb.wellFormed.find?_eq hu] at hfind
    rwa [Option.some.inj hfind]

/-- An instance method is called on its holder. -/
theorem Method.invocation_eq {m : Method} (hm : m.isStatic = false) (s : FieldTypes)
    (receiver : Value) (args : List Value) :
    m.invocation s.receiver receiver args =
      Field.holder s receiver >>= fun o => pure ⟨some o, args⟩ := by
  unfold invocation Field.holder
  rw [hm, if_neg Bool.false_ne_true, bind_assoc]

namespace Exec.Maintains

variable {Q : Judgement} {c : Catalog} {ids : Supply} {h : Heap} {s : FieldTypes} {p : Property}
  {m : Method} {u : TypeDef} {inv : Invocation} {natives : Natives} {receiver v : Value}
  {args : List Value}

/-- **What an accessor method is called on** serves the type that declares
it. -/
theorem invocation (hf : h.Fitted Q c c) (hs : s.Through c p m u) (hr : h.Reaches receiver) :
    Maintains Q c h (m.invocation s.receiver receiver args) fun h' inv =>
      inv.arguments = args ∧ c.Serves h' u inv.this := by
  cases hstatic : m.isStatic with
  | true =>
    rw [Method.invocation, hstatic, if_pos rfl]
    exact pure hf ⟨rfl, Catalog.serves_none⟩
  | false =>
    rw [Method.invocation_eq hstatic]
    exact (holder hf hr (hs.receiver hstatic) hs.builtin).bind fun h₁ o hf₁ _ ho =>
      pure hf₁ ⟨rfl, ho.2⟩

variable (hb : c.Built ids) (hg : c.Generated) (ha : c.Agrees) (hu : u ∈ c.types)
  (hp : p ∈ u.properties) (hindex : p.indexParameters = [])

include hb hg ha hu hp hindex

/-- **A get method** answers with what its property may hold. -/
theorem getMethod (hf : h.Fitted (.admissible c) c c) (hm : p.getter = some m)
    (hthis : c.Serves h u inv.this) :
    Maintains (.admissible c) c h (m.runBody natives inv) fun h' w =>
      h'.Reaches w ∧ Judgement.admissible c h' p.type w := by
  refine of_eq hf fun out h' hrun => ?_
  rcases Method.runBody_cases hrun with ⟨⟨e, rfl⟩, rfl⟩ | ⟨n, b, hn, hbody, hrun⟩
  · exact ⟨rfl, nofun⟩
  · obtain ⟨t, ht, hserves, f, hft, rfl, hto⟩ :=
      ha.exists_read hg hb hu hp hindex hm hthis hn hbody
    obtain ⟨rfl, hread⟩ := Storage.reader_cases (fun k hk => hf.cell_lt hb ht hft hk) hrun
    refine ⟨rfl, fun w hw => ?_⟩
    obtain ⟨l, hl, hat⟩ := hread w hw
    -- what the field holds may go to the property
    obtain ⟨hr, hheld⟩ := hf.read (hb.declares ht hft hserves hl) hat
    exact ⟨hr, hb.admissible_mono hf.types hr hto hheld⟩

/-- **A set method** stores what its property may hold. -/
theorem setMethod (hf : h.Fitted (.admissible c) c c) (hm : p.setter = some m)
    (hthis : c.Serves h u inv.this) (hargs : inv.arguments = [v]) (hv : h.Reaches v)
    (hheld : Judgement.admissible c h p.type v) :
    Maintains (.admissible c) c h (m.runBody natives inv) fun _ _ => True := by
  intro out h' hrun
  rcases Method.runBody_cases hrun with ⟨⟨e, rfl⟩, rfl⟩ | ⟨n, b, hn, hbody, hrun⟩
  · exact ⟨hf, .refl h', nofun⟩
  obtain ⟨t, ht, hserves, f, hft, hbody⟩ := ha.exists_write hg hb hu hp hindex hm hthis hn hbody
  have hcell := fun k hk => hf.cell_lt hb ht hft (k := k) hk
  rcases hbody with rfl | ⟨rfl, hto⟩
  -- a body that reads stores nothing
  · obtain ⟨rfl, -⟩ := Storage.reader_cases hcell hrun
    exact ⟨hf, .refl h', fun _ _ => trivial⟩
  · rcases Storage.writer_cases hcell hrun with ⟨⟨e, rfl⟩, rfl⟩ | ⟨l, w, hl, hw, hwrites⟩
    · exact ⟨hf, .refl h', nofun⟩
    · rw [hargs] at hw
      cases hw
      have hdeclares := hb.declares ht hft hserves hl
      have hheld' := hb.admissible_mono hf.types hv hto hheld
      exact ⟨hf.write hb.lasting hdeclares hv hheld' hwrites, hwrites.keeps, fun _ _ => trivial⟩

/-- **A property is read.** -/
theorem readProperty (hf : h.Fitted (.admissible c) c c) (hm : p.getter = some m)
    (hs : s.Through c p m u) (hr : h.Reaches receiver) :
    Maintains (.admissible c) c h (Property.read natives m s receiver) fun h' w =>
      h'.Reaches w ∧ Judgement.admissible c h' p.type w :=
  (invocation hf hs hr).bind fun _ _ hf₁ _ hinv =>
    (getMethod hb hg ha hu hp hindex hf₁ hm hinv.2).bind fun _ _ hf₂ _ hw =>
      (handOut hf₂ hb.lasting hw.1).mono fun _ _ _ hout => ⟨hout.1, hout.2 _ hw.2⟩

/-- **A property is written** with what has been coerced to its type. -/
theorem writeProperty (hf : h.Fitted (.admissible c) c c) (hm : p.setter = some m)
    (hs : s.Through c p m u) (hr : h.Reaches receiver) (hv : h.Reaches v) :
    Maintains (.admissible c) c h (Property.write natives m s receiver v) fun _ _ => True := by
  obtain ⟨ts, hinput⟩ := hs.input
  unfold Property.write
  rw [hinput]
  refine (castValues hf hb.lasting hv).bind fun h₁ w hf₁ hk₁ hw => ?_
  refine (invocation hf₁ hs (hk₁.reaches hr)).bind fun h₂ inv hf₂ hk₂ hinv => ?_
  -- what was admissible when it was coerced still is when it is stored
  have hheld : Judgement.admissible c h₂ p.type w :=
    Heap.Fitted.keep hb.lasting hk₂ hw.1 (Judgement.admissible_of_find? hs.type hw.2)
  exact (setMethod hb hg ha hu hp hindex hf₂ hm hinv.2 hinv.1 (hk₂.reaches hw.1) hheld).bind
    fun _ _ hf₃ _ _ => pure hf₃ trivial

end Exec.Maintains

end MemberAccess
