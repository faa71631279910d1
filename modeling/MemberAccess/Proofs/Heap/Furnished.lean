import MemberAccess.Proofs.Catalog.Layout
import MemberAccess.Proofs.Heap.Fitted
/-!
# Heap — definitions keep a heap fitted

A definition touches the heap for the initial values of fields alone, and
each of them goes where its own field is declared: into a cell or among the
defaults. So a definition keeps a heap fitted whose initial values may be held
by the fields that they are given for, and leaves it fitted also when it is
rejected halfway (`Fitted.define`).
-/

namespace MemberAccess

namespace Heap

variable {Q : Judgement} {c c' cf : Catalog} {ids : Supply} {h h₁ h' : Heap} {l : Location}
  {a : TypeHandle} {v : Value} {d : TypeDefinition} {dr dr' : Draft} {g : FieldDefinition}

theorem at?_allocCell {w : Value} (hw : (h.allocCell v).2.at? l = some w) :
    l = .cell (h.allocCell v).1 ∧ w = v ∨ h.at? l = some w := by
  cases l with
  | slot o i => exact .inr hw
  | cell k =>
    obtain ⟨k⟩ := k
    simp only [at?, allocCell, Array.getElem?_push] at hw
    split at hw
    · rename_i heq
      subst heq
      cases hw
      exact .inl ⟨rfl, rfl⟩
    · exact .inr hw

/-- **A heap on which a type is being defined**: fitted for what there is and
for the type under construction, which has a default for each slot. -/
structure Furnishes (Q : Judgement) (h : Heap) (c : Catalog) (dr : Draft) : Prop where
  fitted : h.Fitted Q c ⟨c.types ++ [dr.type]⟩
  lengths : dr.type.defaults.length = dr.type.layout.length

namespace Fitted

/-- **A new cell** is of no type yet. -/
theorem allocCell (hf : h.Fitted Q c c') (hQ : Q.Lasting cf) (hv : h.Reaches v) :
    (h.allocCell v).2.Fitted Q c c' := by
  have hk := (changesOnly_allocCell h v fun _ => False).keeps
  refine
    { closed := hf.closed.allocCell hv, types := hf.types, slots := hf.slots
      cells := fun t ht f hft k hcell =>
        Nat.lt_of_lt_of_le (hf.cells t ht f hft k hcell) hk.cells_le
      defaults := fun t ht w hw => hk.reaches (hf.defaults t ht w hw)
      holds := fun l a w ha hw => ?_
      starts := hf.starts_of_keeps hQ hk, apart := hf.apart }
  rcases at?_allocCell hw with ⟨rfl, -⟩ | hold
  · obtain ⟨t, ht, f, hft, hcell, -⟩ := ha
    exact absurd (hf.cells t ht f hft _ hcell) (Nat.lt_irrefl _)
  · exact keep hQ hk (closed_iff.1 hf.closed l w hold) (hf.holds l a w ha hold)

/-- **The initial value of a field** may be held by it. -/
theorem initialValue {out : Except DefinitionError Value} (hf : h.Fitted Q c c')
    (hQ : Q.Lasting cf) (hin : c.types <+: cf.types) (hsub : c.types ⊆ c'.types)
    (hlen : ∀ t ∈ c.types, t.defaults.length = t.layout.length)
    (hg : ∀ v, g.initial = some v → h.Reaches v ∧ Q h g.type v)
    (hrun : (c.initialValue g).run h = some (out, h')) :
    h'.Fitted Q c c' ∧ h.Grows h' ∧ ∀ v, out = .ok v → h'.Reaches v ∧ Q h' g.type v := by
  rcases Catalog.initialValue_cases hrun with
    ⟨v, w, hinitial, hdetach, rfl⟩ | ⟨⟨e, rfl⟩, rfl⟩ | ⟨t, w, hfind, hz, rfl⟩
  · obtain ⟨hreach, hheld⟩ := hg v hinitial
    obtain ⟨hf', hgrows, hw, hall⟩ := hf.detach hQ hreach hdetach
    refine ⟨hf', hgrows, fun w' hw' => ?_⟩
    cases hw'
    exact ⟨hw, hall _ hheld⟩
  · refine ⟨hf, .refl h', fun v hv => ?_⟩
    cases hv
  · have ht := List.mem_of_find?_eq_some hfind
    obtain ⟨hf', hgrows, hv⟩ := hf.zeroOf hQ ht (hsub ht) (hlen t ht) hz
    refine ⟨hf', hgrows, fun w' hw => ?_⟩
    cases hw
    exact ⟨hv, hQ.zero (Catalog.find?_of_prefix hin hfind) hz⟩

end Fitted

namespace Furnishes

/-- A new instance field brings its initial value as a default. -/
theorem append_instance (hh : h.Furnishes Q c dr) (hv : h.Reaches v) (hheld : Q h g.type v) :
    h.Furnishes Q c (dr.appendField g v none) := by
  obtain ⟨hf, hlen⟩ := hh
  have hold : ∀ t ∈ c.types, t ∈ c.types ++ [dr.type] := fun t ht => List.mem_append_left _ ht
  have hself : dr.type ∈ c.types ++ [dr.type] := by simp
  -- the new field is in a slot, so no cell comes to belong to anything
  have hdeclares : ∀ {l a}, h.Declares ⟨c.types ++ [(dr.appendField g v none).type]⟩ l a →
      h.Declares ⟨c.types ++ [dr.type]⟩ l a := by
    intro l a ha
    cases l with
    | slot o i => exact ha
    | cell k =>
      obtain ⟨t, ht, f, hft, hcell, hfa⟩ := ha
      rcases mem_concat_cases ht with ht | rfl
      · exact ⟨t, hold t ht, f, hft, hcell, hfa⟩
      · rcases mem_concat_cases hft with hft | rfl
        · exact ⟨dr.type, hself, f, hft, hcell, hfa⟩
        · cases hcell
  refine ⟨{ hf with
    cells := forall_mem_concat (fun t ht => hf.cells t (hold t ht))
      (forall_mem_concat (hf.cells dr.type hself) nofun)
    defaults := forall_mem_concat (fun t ht => hf.defaults t (hold t ht))
      (forall_mem_concat (hf.defaults dr.type hself) hv)
    holds := fun l a w ha hw => hf.holds l a w (hdeclares ha) hw
    starts := forall_mem_concat (fun t ht => hf.starts t (hold t ht)) fun i f w hfi hw => ?starts
    apart := fun k a b ha hb => hf.apart k a b (hdeclares ha) (hdeclares hb) }, ?inStep⟩
  case starts =>
    -- layout and defaults go on in step
    rw [Draft.appendField_instance] at hfi hw
    rcases getElem?_concat_cases hfi with hold | ⟨hi, rfl⟩
    · rcases getElem?_concat_cases hw with hw | ⟨hi, -⟩
      · exact hf.starts dr.type hself i f w hold hw
      · have hlt := (List.getElem?_eq_some_iff.1 hold).1
        omega
    · rcases getElem?_concat_cases hw with hold | ⟨-, rfl⟩
      · have hlt := (List.getElem?_eq_some_iff.1 hold).1
        omega
      · exact hheld
  case inStep =>
    rw [Draft.appendField_instance, List.length_append, List.length_append, hlen]
    rfl

/-- A new static field brings a cell with its initial value. -/
theorem append_static (hh : h.Furnishes Q c dr) (hQ : Q.Lasting cf) (hv : h.Reaches v)
    (hheld : Q h g.type v) :
    (h.allocCell v).2.Furnishes Q c (dr.appendField g v (some (h.allocCell v).1)) := by
  obtain ⟨hf₀, hlen⟩ := hh
  have hf := hf₀.allocCell hQ hv
  have hk := (changesOnly_allocCell h v fun _ => False).keeps
  have hold : ∀ t ∈ c.types, t ∈ c.types ++ [dr.type] := fun t ht => List.mem_append_left _ ht
  have hself : dr.type ∈ c.types ++ [dr.type] := by simp
  -- the new cell belongs to the new field alone
  have hdeclares : ∀ {k a}, (h.allocCell v).2.Declares
      ⟨c.types ++ [(dr.appendField g v (some (h.allocCell v).1)).type]⟩ (.cell k) a →
      (k.index < h.cells.size ∧ h.Declares ⟨c.types ++ [dr.type]⟩ (.cell k) a) ∨
        k.index = h.cells.size ∧ a = g.type := by
    rintro k a ⟨t, ht, f, hft, hcell, rfl⟩
    rcases mem_concat_cases ht with ht | rfl
    · exact .inl ⟨hf₀.cells t (hold t ht) f hft k hcell, t, hold t ht, f, hft, hcell, rfl⟩
    · rcases mem_concat_cases hft with hft | rfl
      · exact .inl ⟨hf₀.cells dr.type hself f hft k hcell, dr.type, hself, f, hft, hcell, rfl⟩
      · cases hcell
        exact .inr ⟨rfl, rfl⟩
  refine ⟨{ hf with
    cells := forall_mem_concat (fun t ht => hf.cells t (hold t ht))
      (forall_mem_concat (hf.cells dr.type hself) fun k hcell => ?newCell)
    defaults := forall_mem_concat (fun t ht => hf.defaults t (hold t ht))
      (hf.defaults dr.type hself)
    holds := fun l a w ha hw => ?holds
    starts := forall_mem_concat (fun t ht => hf.starts t (hold t ht)) (hf.starts dr.type hself)
    apart := fun k a b ha hb => ?apart }, hlen⟩
  case newCell =>
    cases hcell
    simp [Heap.allocCell]
  case holds =>
    cases l with
    | slot o i => exact hf.holds (.slot o i) a w ha hw
    | cell k =>
      rcases hdeclares ha with ⟨-, ha⟩ | ⟨hlast, rfl⟩
      · exact hf.holds (.cell k) a w ha hw
      · rcases at?_allocCell hw with ⟨-, rfl⟩ | hw
        · exact Fitted.keep hQ hk hv hheld
        · have hlt := (Array.getElem?_eq_some_iff.1 hw).1
          omega
  case apart =>
    rcases hdeclares ha with ⟨hlt, ha⟩ | ⟨heq, rfl⟩ <;>
      rcases hdeclares hb with ⟨hlt', hb⟩ | ⟨heq', rfl⟩
    · exact hf₀.apart k a b ha hb
    · omega
    · omega
    · rfl

/-- **One field**, added or rejected. -/
theorem addField {out : Except DefinitionError Draft} (hh : h.Furnishes Q c dr)
    (hQ : Q.Lasting cf) (hin : c.types <+: cf.types)
    (hlen : ∀ t ∈ c.types, t.defaults.length = t.layout.length)
    (hg : ∀ v, g.initial = some v → h.Reaches v ∧ Q h g.type v)
    (hrun : (c.addField d dr g).run h = some (out, h')) :
    h.Keeps h' ∧ h'.Fitted Q c c ∧ ∀ dr', out = .ok dr' → h'.Furnishes Q c dr' := by
  have hsub : c.types ⊆ c.types ++ [dr.type] := List.subset_append_left _ _
  rcases Catalog.addField_cases hrun with
    ⟨⟨e, rfl⟩, rfl⟩ | ⟨e, e', rfl, hnone⟩ | ⟨v, h₁, hsome, hrest⟩
  · exact ⟨.refl _, hh.fitted.restrict hsub, nofun⟩
  · obtain ⟨hf', hgrows, -⟩ := hh.fitted.initialValue hQ hin hsub hlen hg hnone
    exact ⟨hgrows.keeps, hf'.restrict hsub, nofun⟩
  · obtain ⟨hf₁, hgrows, hv⟩ := hh.fitted.initialValue hQ hin hsub hlen hg hsome
    obtain ⟨hreach, hheld⟩ := hv v rfl
    have hh₁ : h₁.Furnishes Q c dr := ⟨hf₁, hh.lengths⟩
    split at hrest
    · obtain ⟨rfl, rfl⟩ := hrest
      have hh' := hh₁.append_static hQ hreach hheld
      refine ⟨hgrows.keeps.trans (changesOnly_allocCell h₁ v fun _ => False).keeps,
        hh'.fitted.restrict (List.subset_append_left _ _), fun dr' hdr => ?_⟩
      cases hdr
      exact hh'
    · obtain ⟨rfl, rfl⟩ := hrest
      refine ⟨hgrows.keeps, hf₁.restrict hsub, fun dr' hdr => ?_⟩
      cases hdr
      exact hh₁.append_instance hreach hheld

/-- **All fields**, up to the first that is rejected. -/
theorem addFields {gs : List FieldDefinition} {out : Except DefinitionError Draft}
    (hh : h.Furnishes Q c dr) (hQ : Q.Lasting cf) (hin : c.types <+: cf.types)
    (hlen : ∀ t ∈ c.types, t.defaults.length = t.layout.length)
    (hgs : ∀ g ∈ gs, ∀ v, g.initial = some v → h.Reaches v ∧ Q h g.type v)
    (hrun : (gs.foldlM (c.addField d) dr).run h = some (out, h')) :
    h.Keeps h' ∧ h'.Fitted Q c c ∧ ∀ dr', out = .ok dr' → h'.Furnishes Q c dr' := by
  have hfold := Exec.outcome_of_foldlM (I := fun dr h₁ => h.Keeps h₁ ∧ h₁.Furnishes Q c dr)
    (E := fun h₁ => h.Keeps h₁ ∧ h₁.Fitted Q c c)
    (fun _ _ hh => ⟨hh.1, hh.2.fitted.restrict (List.subset_append_left _ _)⟩)
    (fun g hg dr h₁ out h' ⟨hkeeps, hh⟩ hfield => ?_) ⟨.refl h, hh⟩ hrun
  · exact ⟨hfold.1.1, hfold.1.2, fun dr' hdr => (hfold.2 dr' hdr).2⟩
  · have hg₁ : ∀ v, g.initial = some v → h₁.Reaches v ∧ Q h₁ g.type v := by
      intro v hv
      obtain ⟨hreach, hheld⟩ := hgs g hg v hv
      exact ⟨hkeeps.reaches hreach, Fitted.keep hQ hkeeps hreach hheld⟩
    obtain ⟨hkeeps', hf', hdr⟩ := hh.addField hQ hin hlen hg₁ hfield
    exact ⟨⟨hkeeps.trans hkeeps', hf'⟩, fun dr' h => ⟨hkeeps.trans hkeeps', hdr dr' h⟩⟩

end Furnishes

/-- **A definition keeps a heap fitted**, also when it is rejected, and leaves
it fitted for the type that it adds. -/
theorem Fitted.define {out : Except DefinitionError Defined} {ids' : Supply}
    (hf : h.Fitted Q c c) (hc : c.WellFormed ids) (hQ : Q.Lasting cf) (hin : c.types <+: cf.types)
    (hd : ∀ g ∈ d.storedFields, ∀ v, g.initial = some v → h.Reaches v ∧ Q h g.type v)
    (hrun : (c.define d ids').run h = some (out, h')) :
    h.Keeps h' ∧ h'.Fitted Q c c ∧ ∀ o, out = .ok o → h'.Fitted Q o.catalog o.catalog := by
  rcases Catalog.define_cases hrun with
    ⟨⟨e, rfl⟩, rfl⟩ | ⟨base, is, t, out₁, hderived, hfields, hok⟩
  · exact ⟨.refl _, hf, nofun⟩
  obtain ⟨-, -, -, -, hnone, -⟩ := hderived.head
  obtain ⟨-, hlayout, hdefaults⟩ := hderived.fields_eq
  -- what is inherited has no fields of its own, and starts like its base
  have hh : h.Furnishes Q c ⟨t, ids'.take.2⟩ := by
    refine ⟨hf.congr (fun u hu g hg => ?_) (fun u hu => ?_), ?_⟩
    · rcases mem_concat_cases hu with hu | rfl
      · exact ⟨u, hu, hg⟩
      · simp [hnone] at hg
    · rcases mem_concat_cases hu with hu | rfl
      · exact .inr ⟨u, hu, rfl, rfl⟩
      · cases hb : base with
        | none => exact .inl (by rw [hdefaults, hb]; rfl)
        | some b =>
          rw [hb] at hlayout hdefaults
          exact .inr ⟨b, (hderived.mem_base hb).2.1, hlayout, hdefaults⟩
    · rw [hlayout, hdefaults]
      cases hb : base with
      | none => rfl
      | some b => exact hc.defaults b (hderived.mem_base hb).2.1
  obtain ⟨hkeeps, hf', hdr⟩ := hh.addFields hQ hin hc.defaults hd hfields
  refine ⟨hkeeps, hf', fun o ho => ?_⟩
  obtain ⟨dr, dr', rfl, hsteps, hcatalog⟩ := hok o ho
  -- members other than fields leave the layout as it is
  obtain ⟨hfieldsEq, hlayoutEq, hdefaultsEq⟩ := hsteps.storage_eq
  have hself : dr.type ∈ c.types ++ [dr.type] := by simp
  have hdone : h'.Fitted Q c ⟨c.types ++ [dr'.type]⟩ := by
    refine (hdr dr rfl).fitted.congr (fun u hu g hg => ?_) (fun u hu => ?_)
    · rcases mem_concat_cases hu with hu | rfl
      · exact ⟨u, List.mem_append_left _ hu, hg⟩
      · exact ⟨dr.type, hself, hfieldsEq ▸ hg⟩
    · rcases mem_concat_cases hu with hu | rfl
      · exact .inr ⟨u, List.mem_append_left _ hu, rfl, rfl⟩
      · exact .inr ⟨dr.type, hself, hlayoutEq, hdefaultsEq⟩
  rw [hcatalog]
  exact { hdone with types := fun o ho => List.mem_append_left _ (hdone.types o ho) }

end Heap

end MemberAccess
