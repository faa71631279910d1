import MemberAccess.Proofs.Heap.Furnished
import MemberAccess.Proofs.Ownership.Hidden
/-!
# Ownership — defaults are boxes that nobody refers to

The default of a field is a copy of its initial value or a new zero, and in
either case every box in it is new (`newBoxes_of_initialValue`). So the boxes among
the defaults of types can be hidden as the types are defined: `Reserves` says
that a heap hides them, and a definition keeps it so and brings the defaults
that it adds (`Reserves.define`). A type inherits the very boxes of its base,
which are hidden already.

What is hidden does not change, so an instance that is zeroed later holds
clones of the defaults as they were (`Reserves.cloned`).
-/

namespace MemberAccess

namespace Heap

variable {c : Catalog} {ts us : List TypeDef} {held : List ObjectRef} {h h₁ h₂ h' : Heap}
  {P P₁ P' : ObjectRef → Prop} {v : Value} {t : TypeDef} {o : ObjectRef} {d : TypeDefinition}
  {dr : Draft} {g : FieldDefinition}

/-! ## Initial values -/

/-- A zeroed struct is a new box with new boxes in it. -/
theorem newBoxes_of_zeroed? (hc : h.Closed) (hd : ∀ v ∈ t.defaults, h.Reaches v)
    (ht : t.isValueType = true) (hz : h.zeroed? t = some (o, h')) : h.NewBoxes h' := by
  obtain ⟨vs, h₁, hvs, rfl, rfl⟩ := zeroed?_eq_some hz
  obtain ⟨hk, hclones⟩ := cloned_of_detachAll? hc hd hvs
  refine hk.newBoxes.alloc ht fun p hp => ?_
  obtain ⟨v, -, hclone⟩ := exists_partner hclones hp
  exact ⟨hclone.reaches p rfl, hclone.fresh p rfl⟩

/-- The zero value is an object for structs only. -/
theorem isValueType_of_zeroOf? (hz : h.zeroOf? t = some (.object o, h')) :
    t.isValueType = true := by
  unfold zeroOf? at hz
  split at hz
  case h_5 hkind =>
    rw [TypeDef.isValueType, hkind]
    rfl
  all_goals cases hz

/-- A zero is no box that was there before. -/
theorem newBoxes_of_zeroOf? (hc : h.Closed) (hd : ∀ v ∈ t.defaults, h.Reaches v)
    (hz : h.zeroOf? t = some (v, h')) : h.NewBoxes h' ∧ h'.Reaches v ∧ h.Fresh h' v := by
  rcases zeroOf?_eq_some hz with ⟨o, rfl, hzeroed⟩ | ⟨rfl, hnot⟩
  · have hcreates := creates_of_zeroed? hc hd hzeroed
    refine ⟨newBoxes_of_zeroed? hc hd (isValueType_of_zeroOf? hz) hzeroed, fun p hp => ?_, ?_⟩
    · cases hp
      exact hcreates.has
    · intro p hp _
      cases hp
      exact hcreates.fresh
  · refine ⟨(Copies.refl h').newBoxes, fun p hp => ?_, fun p hp => ?_⟩
    · exact absurd hp (hnot p)
    · exact absurd hp (hnot p)

/-- **The initial value of a field is no box that was there before**, whether
it is given or not. -/
theorem newBoxes_of_initialValue {out : Except DefinitionError Value} (hc : h.Closed)
    (hd : ∀ t ∈ c.types, ∀ v ∈ t.defaults, h.Reaches v)
    (hg : ∀ v, g.initial = some v → h.Reaches v)
    (hrun : (c.initialValue g).run h = some (out, h')) :
    h.NewBoxes h' ∧ ∀ v, out = .ok v → h'.Reaches v ∧ h.Fresh h' v := by
  rcases Catalog.initialValue_cases hrun with
    ⟨v, w, hinitial, hdetach, rfl⟩ | ⟨⟨e, rfl⟩, rfl⟩ | ⟨t, w, hfind, hz, rfl⟩
  · obtain ⟨cs, -, hplaced⟩ := placed_of_detach? hc (hg v hinitial) hdetach
    refine ⟨hplaced.copies.newBoxes, fun w' hw => ?_⟩
    cases hw
    exact ⟨hplaced.reaches, hplaced.fresh⟩
  · refine ⟨(Copies.refl h').newBoxes, fun v hv => ?_⟩
    cases hv
  · have ht := List.mem_of_find?_eq_some hfind
    obtain ⟨hk, hreach, hfresh⟩ := newBoxes_of_zeroOf? hc (hd t ht) hz
    refine ⟨hk, fun w' hw => ?_⟩
    cases hw
    exact ⟨hreach, hfresh⟩

/-! ## From one heap to a later one -/

/-- **What leads from one heap that hides boxes to a later one**: hidden boxes
stay as they are, and only new ones come to be hidden. -/
structure Passes (h h' : Heap) (P P' : ObjectRef → Prop) : Prop where
  widens : h.Widens P P'
  spares : h.Spares h' P

namespace Passes

theorem of_spares (hs : h.Spares h' P) : h.Passes h' P P := ⟨.refl h P, hs⟩

theorem refl (h : Heap) (P : ObjectRef → Prop) : h.Passes h P P := of_spares (.refl h P)

theorem trans (hp : h.Passes h₁ P P₁) (hp₁ : h₁.Passes h' P₁ P') (hP : h.Private c P) :
    h.Passes h' P P' where
  widens := hp.widens.trans hp.spares.keeps hp₁.widens
  spares := hp.spares.trans (hp₁.spares.mono fun _ ho => hP.subset_of_widens hp.widens ho)

end Passes

/-! ## Defaults that are hidden -/

/-- **A heap that keeps the defaults of some types to itself**: each box among
them is hidden. -/
structure Reserves (h : Heap) (ts : List TypeDef) (held : List ObjectRef)
    (P : ObjectRef → Prop) : Prop extends Hides h ts held P where
  boxes : ∀ t ∈ ts, ∀ v ∈ t.defaults, h.Suits P True v

namespace Reserves

theorem mono (hr : h.Reserves ts held P) (hsub : us ⊆ ts) : h.Reserves us held P where
  closed := hr.closed
  hidden := hr.hidden
  defaults u hu := hr.defaults u (hsub hu)
  held := hr.held
  boxes u hu := hr.boxes u (hsub hu)

/-- **One more type**, whose defaults are those of the others or hidden like
them. -/
theorem append (hr : h.Reserves ts held P) (hsub : us ⊆ ts)
    (ht : ∀ v ∈ t.defaults, (∃ u ∈ ts, v ∈ u.defaults) ∨ h.Reaches v ∧ h.Suits P True v) :
    h.Reserves (us ++ [t]) held P := by
  have hall : ∀ v ∈ t.defaults, h.Reaches v ∧ h.Suits P True v := by
    intro v hv
    rcases ht v hv with ⟨u, hu, hvu⟩ | hboth
    · exact ⟨hr.defaults u hu v hvu, hr.boxes u hu v hvu⟩
    · exact hboth
  have hold := hr.mono hsub
  exact
    { hold with
      defaults := forall_mem_concat hold.defaults fun v hv => (hall v hv).1
      boxes := forall_mem_concat hold.boxes fun v hv => (hall v hv).2 }

/-- Defaults stay hidden when boxes stay hidden. -/
theorem passes {held' : List ObjectRef} (hr : h.Reserves ts held P) (hh : h'.Hides ts held' P')
    (hp : h.Passes h' P P') : h'.Reserves ts held' P' where
  toHides := hh
  boxes t ht v hv := (hr.boxes t ht v hv).widen (hr.defaults t ht v hv) hp.spares.keeps hp.widens

/-- **A field's initial value, as a default**: its boxes are hidden from now
on. -/
theorem newDefault (hr : h.Reserves ts held P) (hk : h.NewBoxes h₁) (hv : h₁.Reaches v)
    (hfresh : h.Fresh h₁ v) :
    ∃ P₁, h.Passes h₁ P P₁ ∧ h₁.Reserves ts held P₁ ∧ h₁.Suits P₁ True v := by
  obtain ⟨hh₁, hwidens, hspares⟩ := hr.newBoxes hk True
  have hpasses := Passes.mk hwidens hspares
  exact ⟨_, hpasses, hr.passes hh₁ hpasses, hfresh.suits hv hr.hidden hk.keeps True⟩

/-- **A field's initial value, in a cell**: anybody may read it there. -/
theorem newCell (hr : h.Reserves ts held P) (hk : h.NewBoxes h₁) (hv : h₁.Reaches v)
    (hfresh : h.Fresh h₁ v) :
    h.Passes (h₁.allocCell v).2 P P ∧ (h₁.allocCell v).2.Reserves ts held P := by
  obtain ⟨hh₁, hspares₁⟩ := hr.newBoxes_outside hk
  have hfree := hfresh.free hv hr.hidden hk.keeps
  obtain ⟨hh', hspares'⟩ := hh₁.allocCell hfree
  have hpasses := Passes.of_spares (hspares₁.trans hspares')
  exact ⟨hpasses, hr.passes hh' hpasses⟩

/-- **One field**, added or rejected. -/
theorem addField {out : Except DefinitionError Draft}
    (hr : h.Reserves (c.types ++ [dr.type]) held P) (hg : ∀ v, g.initial = some v → h.Reaches v)
    (hrun : (c.addField d dr g).run h = some (out, h')) :
    ∃ P', h.Passes h' P P' ∧ h'.Reserves c.types held P' ∧
      ∀ dr', out = .ok dr' → h'.Reserves (c.types ++ [dr'.type]) held P' := by
  have hsub : c.types ⊆ c.types ++ [dr.type] := List.subset_append_left _ _
  have hdefaults : ∀ t ∈ c.types, ∀ v ∈ t.defaults, h.Reaches v :=
    fun t ht => hr.defaults t (hsub ht)
  rcases Catalog.addField_cases hrun with
    ⟨⟨e, rfl⟩, rfl⟩ | ⟨e, e', rfl, hnone⟩ | ⟨v, h₁, hsome, hrest⟩
  · exact ⟨P, .refl _ P, hr.mono hsub, nofun⟩
  · obtain ⟨hk, -⟩ := newBoxes_of_initialValue hr.closed hdefaults hg hnone
    obtain ⟨hh', hspares⟩ := hr.newBoxes_outside hk
    have hpasses := Passes.of_spares hspares
    exact ⟨P, hpasses, (hr.passes hh' hpasses).mono hsub, nofun⟩
  · obtain ⟨hk, hv⟩ := newBoxes_of_initialValue hr.closed hdefaults hg hsome
    obtain ⟨hreach, hfresh⟩ := hv v rfl
    split at hrest
    · obtain ⟨rfl, rfl⟩ := hrest
      obtain ⟨hpasses, hr'⟩ := hr.newCell hk hreach hfresh
      refine ⟨P, hpasses, hr'.mono hsub, fun dr' hdr => ?_⟩
      cases hdr
      exact hr'.append hsub fun w hw => .inl ⟨dr.type, by simp, hw⟩
    · obtain ⟨rfl, rfl⟩ := hrest
      obtain ⟨P₁, hpasses, hr₁, hsuits⟩ := hr.newDefault hk hreach hfresh
      refine ⟨P₁, hpasses, hr₁.mono hsub, fun dr' hdr => ?_⟩
      cases hdr
      -- the new default comes after those that the draft has
      exact hr₁.append hsub
        (forall_mem_concat (fun w hw => .inl ⟨dr.type, by simp, hw⟩) (.inr ⟨hreach, hsuits⟩))

end Reserves

/-- **A later heap that keeps the defaults of some types to itself**, those of
before and perhaps new ones. -/
def Secures (h : Heap) (P : ObjectRef → Prop) (held : List ObjectRef) (ts : List TypeDef)
    (h' : Heap) : Prop :=
  ∃ P', h.Passes h' P P' ∧ h'.Reserves ts held P'

namespace Reserves

/-- **All fields**, up to the first that is rejected. -/
theorem addFields {gs : List FieldDefinition} {out : Except DefinitionError Draft}
    (hr : h.Reserves (c.types ++ [dr.type]) held P)
    (hgs : ∀ g ∈ gs, ∀ v, g.initial = some v → h.Reaches v)
    (hrun : (gs.foldlM (c.addField d) dr).run h = some (out, h')) :
    h.Secures P held c.types h' ∧
      ∀ dr', out = .ok dr' → h.Secures P held (c.types ++ [dr'.type]) h' := by
  refine Exec.outcome_of_foldlM (I := fun dr h₁ => h.Secures P held (c.types ++ [dr.type]) h₁)
    (E := fun h₁ => h.Secures P held c.types h₁) ?_ ?_ ⟨P, .refl h P, hr⟩ hrun
  · rintro dr h₁ ⟨P₁, hpasses, hr₁⟩
    exact ⟨P₁, hpasses, hr₁.mono (List.subset_append_left _ _)⟩
  · rintro g hg dr h₁ out h' ⟨P₁, hpasses, hr₁⟩ hfield
    obtain ⟨P', hpasses', hr', hdr⟩ :=
      hr₁.addField (fun v hv => hpasses.spares.keeps.reaches (hgs g hg v hv)) hfield
    have hboth := hpasses.trans hpasses' hr.hidden
    exact ⟨⟨P', hboth, hr'⟩, fun dr' h => ⟨P', hboth, hdr dr' h⟩⟩

/-- **A definition keeps defaults hidden**, also when it is rejected, and hides
those that it adds. -/
theorem define {out : Except DefinitionError Defined} {ids : Supply}
    (hr : h.Reserves c.types held P)
    (hd : ∀ g ∈ d.storedFields, ∀ v, g.initial = some v → h.Reaches v)
    (hrun : (c.define d ids).run h = some (out, h')) :
    h.Secures P held c.types h' ∧ ∀ o, out = .ok o → h.Secures P held o.catalog.types h' := by
  rcases Catalog.define_cases hrun with
    ⟨⟨e, rfl⟩, rfl⟩ | ⟨base, is, t, out₁, hderived, hfields, hok⟩
  · exact ⟨⟨P, .refl _ P, hr⟩, nofun⟩
  obtain ⟨-, -, hdefaults⟩ := hderived.fields_eq
  -- a type starts with the defaults of its base, the same boxes
  have hstart : h.Reserves (c.types ++ [t]) held P := by
    refine hr.append (List.Subset.refl _) fun v hv => .inl ?_
    rw [hdefaults] at hv
    cases hb : base with
    | none => simp [hb] at hv
    | some b =>
      rw [hb] at hv
      exact ⟨b, (hderived.mem_base hb).2.1, hv⟩
  obtain ⟨hsecures, hdr⟩ := addFields hstart hd hfields
  refine ⟨hsecures, fun o ho => ?_⟩
  obtain ⟨dr, dr', rfl, hsteps, hcatalog⟩ := hok o ho
  obtain ⟨P', hpasses, hr'⟩ := hdr dr rfl
  -- members other than fields leave the defaults as they are
  obtain ⟨-, -, hsame⟩ := hsteps.storage_eq
  rw [hcatalog]
  refine ⟨P', hpasses, hr'.append (List.subset_append_left _ _) fun v hv => .inl ?_⟩
  exact ⟨dr.type, by simp, hsame ▸ hv⟩

/-! ## Instances -/

/-- **There is always a zeroed instance.** -/
theorem exists_zeroed? (hr : h.Reserves ts held P) (ht : t ∈ ts) :
    ∃ o h', h.zeroed? t = some (o, h') ∧ h.Creates h' t o := by
  have hdefaults := hr.defaults t ht
  obtain ⟨o, h', hz⟩ := Heap.exists_zeroed? hr.closed hdefaults fun v hv =>
    hr.hidden.hasContents_of_suits (hr.boxes t ht v hv)
  exact ⟨o, h', hz, creates_of_zeroed? hr.closed hdefaults hz⟩

/-- **A clone of a default is a clone of what the default was.** -/
theorem cloned {vs : List Value} (hr : h.Reserves ts held P) (ht : t ∈ ts)
    (hs : h.Spares h₁ P) (hclones : List.Forall₂ (h₁.Cloned h₂) t.defaults vs) :
    List.Forall₂ (h.Cloned h₂) t.defaults vs := by
  have hpairs := (List.forall₂_and_left t.defaults vs).2 ⟨fun v hv => hv, hclones⟩
  refine hpairs.imp fun v w ⟨hv, hclone⟩ => ⟨hclone.reaches, ?_, ?_⟩
  · exact fun o ho hbox hold => hclone.fresh o ho hbox (hs.keeps.has hold)
  · obtain ⟨n, m, cs, hread, hread'⟩ := hclone.contents
    have hsame := hr.hidden.contents?_eq hr.closed hs (hr.boxes t ht v hv) (hr.defaults t ht v hv) n
    exact ⟨n, m, cs, hsame.symm.trans hread, hread'⟩

end Reserves

end Heap

end MemberAccess
