import MemberAccess.Proofs.Heap.Mirrors
/-!
# Heap — every place holds what it may hold

Slots and static cells are places of declared types. A `Judgement` says what a
place of a type may hold, and a heap is `Fitted` when every place on it does,
and every default does that a new instance starts from. Copies, new instances
and definitions keep a heap fitted as long as the judgement depends on the
types of objects alone and lets a place hold the zero of its type
(`Judgement.Lasting`); a write does when what is written may be held there.

With a judgement that lets every place hold anything, this is no more than that
the heap is laid out as its types say.
-/

namespace MemberAccess

/-- **What a place of a declared type may hold** on a heap. -/
def Judgement : Type := Heap → TypeHandle → Value → Prop

/-- **A judgement that outlasts what happens to a heap**: it does not tell
values that are alike apart, and it admits the zeros of a catalog. -/
structure Judgement.Lasting (Q : Judgement) (c : Catalog) : Prop where
  alike : ∀ {h h' : Heap} {a : TypeHandle} {v w : Value}, h.Keeps h' → h.Reaches v →
    h.Alike h' v w → Q h a v → Q h' a w
  zero : ∀ {h h' : Heap} {a : TypeHandle} {t : TypeDef} {v : Value}, c.find? a = some t →
    h.zeroOf? t = some (v, h') → Q h' a v

namespace Heap

/-- **A place has a declared type**: a slot that of the field in it, a cell that
of the static field that it belongs to. -/
def Declares (h : Heap) (c : Catalog) : Location → TypeHandle → Prop
  | .slot o i, a => ∃ f : Field, (h.typeAt o).layout[i]? = some f ∧ f.type = a
  | .cell k, a => ∃ t ∈ c.types, ∃ f ∈ t.fields, f.storage = .cell k ∧ f.type = a

/-- **A heap whose places hold what they may**, with objects of the types of one
catalog and cells and defaults for the types of another, which may be ahead by
a type under construction. -/
structure Fitted (Q : Judgement) (h : Heap) (c c' : Catalog) : Prop where
  closed : h.Closed
  types : ∀ o, h.Has o → h.typeAt o ∈ c.types
  slots : ∀ o, h.Has o → (h.slotsAt o).length = (h.typeAt o).layout.length
  cells : ∀ t ∈ c'.types, ∀ f ∈ t.fields, ∀ k, f.storage = .cell k → k.index < h.cells.size
  defaults : ∀ t ∈ c'.types, ∀ v ∈ t.defaults, h.Reaches v
  holds : ∀ l a v, h.Declares c' l a → h.at? l = some v → Q h a v
  starts : ∀ t ∈ c'.types, ∀ (i : Nat) (f : Field) (v : Value), t.layout[i]? = some f →
    t.defaults[i]? = some v → Q h f.type v
  /-- No cell belongs to fields of two types. -/
  apart : ∀ k a b, h.Declares c' (.cell k) a → h.Declares c' (.cell k) b → a = b

variable {Q : Judgement} {c c' c'' cf : Catalog} {h h₁ h' : Heap} {a b : TypeHandle}
  {l : Location} {t : TypeDef} {o : ObjectRef} {v w : Value}

namespace Fitted

theorem typed (hf : h.Fitted Q c c) : h.Typed c :=
  ⟨hf.closed, hf.types, hf.slots, hf.cells, hf.defaults⟩

/-- **A place has one type.** -/
theorem declares_unique (hf : h.Fitted Q c c') (ha : h.Declares c' l a) (hb : h.Declares c' l b) :
    a = b := by
  cases l with
  | cell k => exact hf.apart k a b ha hb
  | slot o i =>
    obtain ⟨f, hfi, rfl⟩ := ha
    obtain ⟨g, hgi, rfl⟩ := hb
    rw [Option.some.inj (hfi.symm.trans hgi)]

/-- At the start there is nothing to hold. -/
theorem standard (ids : Supply) :
    ({} : Heap).Fitted Q (Catalog.standard ids).1 (Catalog.standard ids).1 := by
  have ht := Typed.standard ids
  have hnone : ∀ l, ({} : Heap).at? l = none := by
    rintro (⟨o, i⟩ | k)
    · rw [at?, slotsAt_of_not_has (Nat.not_lt_zero _)]
      rfl
    · rfl
  have hfields : ∀ t ∈ (Catalog.standard ids).1.types, t.fields = [] ∧ t.layout = [] :=
    Catalog.forall_mem_standard fun _ _ _ _ _ => ⟨rfl, rfl⟩
  refine ⟨ht.closed, ht.types, ht.slots, ht.cells, ht.defaults, fun l a v _ hv => ?_,
    fun t ht i f v hf => ?_, fun k a b ha => ?_⟩
  · rw [hnone] at hv
    cases hv
  · simp [(hfields t ht).2] at hf
  · obtain ⟨t, ht, f, hf, -⟩ := ha
    simp [(hfields t ht).1] at hf

/-- **What counts of a type are its fields, and what its instances start
as.** -/
theorem congr (hf : h.Fitted Q c c')
    (hfields : ∀ t ∈ c''.types, ∀ f ∈ t.fields, ∃ u ∈ c'.types, f ∈ u.fields)
    (hstarts : ∀ t ∈ c''.types, t.defaults = [] ∨
      ∃ u ∈ c'.types, t.layout = u.layout ∧ t.defaults = u.defaults) : h.Fitted Q c c'' := by
  have hdeclares : ∀ {l a}, h.Declares c'' l a → h.Declares c' l a := by
    intro l a ha
    cases l with
    | slot o i => exact ha
    | cell k =>
      obtain ⟨t, ht, f, hft, hrest⟩ := ha
      obtain ⟨u, hu, hfu⟩ := hfields t ht f hft
      exact ⟨u, hu, f, hfu, hrest⟩
  refine { hf with
    cells := fun t ht f hft k hk => ?_
    defaults := fun t ht v hv => ?_
    holds := fun l a v ha hv => hf.holds l a v (hdeclares ha) hv
    starts := fun t ht i f v hfi hv => ?_
    apart := fun k a b ha hb => hf.apart k a b (hdeclares ha) (hdeclares hb) }
  · obtain ⟨u, hu, hfu⟩ := hfields t ht f hft
    exact hf.cells u hu f hfu k hk
  · rcases hstarts t ht with hnone | ⟨u, hu, -, hdefaults⟩
    · simp [hnone] at hv
    · exact hf.defaults u hu v (hdefaults ▸ hv)
  · rcases hstarts t ht with hnone | ⟨u, hu, hlayout, hdefaults⟩
    · simp [hnone] at hv
    · exact hf.starts u hu i f v (hlayout ▸ hfi) (hdefaults ▸ hv)

/-- What was fitted for more types is fitted for fewer. -/
theorem restrict (hf : h.Fitted Q c c') (hsub : c''.types ⊆ c'.types) : h.Fitted Q c c'' :=
  hf.congr (fun t ht _ hf => ⟨t, hsub ht, hf⟩) fun t ht => .inr ⟨t, hsub ht, rfl, rfl⟩

/-- What a value may be held for, it may be held for later. -/
theorem keep (hQ : Q.Lasting cf) (hk : h.Keeps h') (hv : h.Reaches v) (hheld : Q h a v) :
    Q h' a v :=
  hQ.alike hk hv (.inl rfl) hheld

/-- What starts well goes on starting well. -/
theorem starts_of_keeps (hf : h.Fitted Q c c') (hQ : Q.Lasting cf) (hk : h.Keeps h') :
    ∀ t ∈ c'.types, ∀ (i : Nat) (f : Field) (v : Value), t.layout[i]? = some f →
      t.defaults[i]? = some v → Q h' f.type v := by
  intro t ht i f v hfi hv
  exact keep hQ hk (hf.defaults t ht v (List.mem_of_getElem? hv)) (hf.starts t ht i f v hfi hv)

/-- **New objects with old ones for models** hold what they may. -/
theorem mirrors (hf : h.Fitted Q c c') (hQ : Q.Lasting cf) (hm : h.Mirrors h')
    (hclosed : h'.Closed) : h'.Fitted Q c c' where
  closed := hclosed
  types o ho := by
    obtain ⟨p, hp, htype, -⟩ := hm.exists_model ho
    exact htype ▸ hf.types p hp
  slots o ho := by
    obtain ⟨p, hp, htype, hslots⟩ := hm.exists_model ho
    rw [htype, hslots.length, hf.slots p hp]
  cells := by
    rw [hm.cells_eq]
    exact hf.cells
  defaults t ht v hv := hm.toGrows.keeps.reaches (hf.defaults t ht v hv)
  holds l a v ha hv := by
    cases l with
    | slot o i =>
      obtain ⟨p, hp, htype, hslots⟩ := hm.exists_model (has_of_at? (by rw [hv]; rfl))
      obtain ⟨u, hu, huv⟩ := hslots.like i v hv
      obtain ⟨f, hfi, rfl⟩ := ha
      have hheld := hf.holds (.slot p i) f.type u ⟨f, htype ▸ hfi, rfl⟩ hu
      exact hQ.alike hm.toGrows.keeps (hf.closed.slots p u (List.mem_of_getElem? hu)) huv hheld
    | cell k =>
      rw [at?, hm.cells_eq] at hv
      exact keep hQ hm.toGrows.keeps (closed_iff.1 hf.closed (.cell k) v hv)
        (hf.holds (.cell k) a v ha hv)
  starts := hf.starts_of_keeps hQ hm.toGrows.keeps
  apart := hf.apart

/-- **A new object** whose slots hold what they may. -/
theorem alloc (hf : h.Fitted Q c c') (hQ : Q.Lasting cf) (ht : t ∈ c.types) {vs : List Value}
    (hlen : vs.length = t.layout.length) (hvs : ∀ v ∈ vs, h.Reaches v)
    (hheld : ∀ (i : Nat) (f : Field) (v : Value), t.layout[i]? = some f → vs[i]? = some v →
      Q h f.type v) : (h.alloc ⟨t, vs⟩).2.Fitted Q c c' := by
  have hg := grows_alloc h ⟨t, vs⟩
  refine
    { closed := hf.closed.alloc hvs, types := fun o ho => ?types, slots := fun o ho => ?slots
      cells := hf.cells
      defaults := fun u hu v hv => hg.keeps.reaches (hf.defaults u hu v hv)
      holds := fun l a v ha hv => ?holds
      starts := hf.starts_of_keeps hQ hg.keeps, apart := hf.apart }
  case types =>
    rcases alloc_cases ho with ho | ⟨-, hnew⟩
    · rw [hg.typeAt_eq ho]
      exact hf.types o ho
    · rw [typeAt, hnew]
      exact ht
  case slots =>
    rcases alloc_cases ho with ho | ⟨-, hnew⟩
    · rw [hg.typeAt_eq ho, hg.slotsAt_eq ho]
      exact hf.slots o ho
    · rw [typeAt, slotsAt, hnew]
      exact hlen
  case holds =>
    cases l with
    | slot o i =>
      obtain ⟨f, hfi, rfl⟩ := ha
      rcases alloc_cases (has_of_at? (by rw [hv]; rfl)) with ho | ⟨-, hnew⟩
      · rw [hg.typeAt_eq ho] at hfi
        rw [at?, hg.slotsAt_eq ho] at hv
        exact keep hQ hg.keeps (hf.closed.slots o v (List.mem_of_getElem? hv))
          (hf.holds (.slot o i) f.type v ⟨f, hfi, rfl⟩ hv)
      · rw [typeAt, hnew] at hfi
        rw [at?, slotsAt, hnew] at hv
        exact keep hQ hg.keeps (hvs v (List.mem_of_getElem? hv)) (hheld i f v hfi hv)
    | cell k =>
      exact keep hQ hg.keeps (closed_iff.1 hf.closed (.cell k) v hv)
        (hf.holds (.cell k) a v ha hv)

/-- **A write** of what may be held where it is written. -/
theorem writes (hf : h.Fitted Q c c') (hQ : Q.Lasting cf) (hw : h.Overwrites h' l v)
    (hv : h.Reaches v) (hheld : ∀ a, h.Declares c' l a → Q h a v) : h'.Fitted Q c c' := by
  have hdeclares : ∀ {l a}, (h'.at? l).isSome = true → h'.Declares c' l a → h.Declares c' l a := by
    intro l a hl ha
    cases l with
    | slot o i =>
      obtain ⟨f, hfi, hfa⟩ := ha
      rw [hw.keeps.typeAt_eq o (hw.has_iff.1 (has_of_at? hl))] at hfi
      exact ⟨f, hfi, hfa⟩
    | cell k => exact ha
  refine
    { closed := hw.closed hf.closed hv, types := fun o ho => ?types, slots := fun o ho => ?slots
      cells := by rw [hw.cells_size]; exact hf.cells
      defaults := fun u hu w hw' => hw.keeps.reaches (hf.defaults u hu w hw')
      holds := fun l' a w ha hl => ?holds
      starts := hf.starts_of_keeps hQ hw.keeps, apart := hf.apart }
  case types =>
    have hold := hw.has_iff.1 ho
    rw [hw.keeps.typeAt_eq o hold]
    exact hf.types o hold
  case slots =>
    have hold := hw.has_iff.1 ho
    rw [hw.keeps.typeAt_eq o hold, hw.lengths o hold]
    exact hf.slots o hold
  case holds =>
    have ha' := hdeclares (by rw [hl]; rfl) ha
    rcases hw.at?_cases hl with ⟨rfl, rfl⟩ | hl
    · exact keep hQ hw.keeps hv (hheld a ha')
    · exact keep hQ hw.keeps (closed_iff.1 hf.closed l' w hl) (hf.holds l' a w ha' hl)

/-! ## New instances -/

/-- Copies of a list of values. -/
theorem detachAll {vs ws : List Value} (hf : h.Fitted Q c c') (hQ : Q.Lasting cf)
    (hvs : ∀ v ∈ vs, h.Reaches v) (hd : h.detachAll? vs = some (ws, h')) :
    h'.Fitted Q c c' ∧ h.Grows h' ∧ (∀ w ∈ ws, h'.Reaches w) ∧ h.AlikeAll h' vs ws := by
  obtain ⟨hm, halike⟩ := mirrors_detachAll? hf.closed hvs hd
  obtain ⟨hk, hreach⟩ := copies_of_detachAll? hf.closed hvs hd
  exact ⟨hf.mirrors hQ hm (hk.closed hf.closed), hm.toGrows, hreach, halike⟩

/-- **A copy.** -/
theorem detach (hf : h.Fitted Q c c') (hQ : Q.Lasting cf) (hv : h.Reaches v)
    (hd : h.detach? v = some (w, h')) :
    h'.Fitted Q c c' ∧ h.Grows h' ∧ h'.Reaches w ∧ ∀ a, Q h a v → Q h' a w := by
  obtain ⟨hm, halike⟩ := mirrors_detach? hf.closed hv hd
  obtain ⟨cs, -, hplaced⟩ := placed_of_detach? hf.closed hv hd
  exact ⟨hf.mirrors hQ hm (hplaced.copies.closed hf.closed), hm.toGrows, hplaced.reaches,
    fun a hheld => hQ.alike hm.toGrows.keeps hv halike hheld⟩

/-- **A zeroed instance** starts from defaults that its slots may hold. -/
theorem zeroed (hf : h.Fitted Q c c') (hQ : Q.Lasting cf) (ht : t ∈ c.types) (ht' : t ∈ c'.types)
    (hlen : t.defaults.length = t.layout.length) (hz : h.zeroed? t = some (o, h')) :
    h'.Fitted Q c c' ∧ h.Grows h' ∧ h'.Has o := by
  obtain ⟨vs, h₁, hvs, rfl, rfl⟩ := zeroed?_eq_some hz
  obtain ⟨hf₁, hg, hreach, halike⟩ := hf.detachAll hQ (hf.defaults t ht') hvs
  refine ⟨hf₁.alloc hQ ht (halike.length.trans hlen) hreach fun i f v hfi hv => ?_,
    hg.trans (grows_alloc _ _), ?_⟩
  · obtain ⟨u, hu, huv⟩ := halike.like i v hv
    exact hQ.alike hg.keeps (hf.defaults t ht' u (List.mem_of_getElem? hu)) huv
      (hf.starts t ht' i f u hfi hu)
  · rw [Has, size_alloc]
    exact Nat.lt_succ_self _

/-- **The zero value** of a type. -/
theorem zeroOf (hf : h.Fitted Q c c') (hQ : Q.Lasting cf) (ht : t ∈ c.types) (ht' : t ∈ c'.types)
    (hlen : t.defaults.length = t.layout.length) (hz : h.zeroOf? t = some (v, h')) :
    h'.Fitted Q c c' ∧ h.Grows h' ∧ h'.Reaches v := by
  rcases zeroOf?_eq_some hz with ⟨o, rfl, hzeroed⟩ | ⟨rfl, hv⟩
  · obtain ⟨hf', hgrows, ho⟩ := hf.zeroed hQ ht ht' hlen hzeroed
    refine ⟨hf', hgrows, fun p hp => ?_⟩
    cases hp
    exact ho
  · exact ⟨hf, .refl h', fun o heq => absurd heq (hv o)⟩

end Fitted
end Heap
end MemberAccess
