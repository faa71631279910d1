import MemberAccess.Proofs.Accessor.Orders
import MemberAccess.Proofs.Catalog.Built
/-!
# Accessor — a shared cache is transparent

Whatever was asked before, and of whichever reflector, an order comes to what
it would come to alone (`Coherent.serve_transparent`). The checks that only a
compilation makes are implied by an entry under the same key: the entry was
made to the plan of an order about the same subject in the same registry, and
that plan is the one at hand (`Order.Agrees.plan_eq`).
-/

namespace MemberAccess

/-- What an accessor is, but for the identity of its body. -/
def Accessor.content (a : Accessor) : Shape × Option View × Code := (a.shape, a.view, a.code)

theorem Plan.Makes.content_eq {p : Plan} {a b : Accessor} (ha : p.Makes a) (hb : p.Makes b) :
    a.content = b.content := by
  have hcode : a.code = b.code := Except.ok.inj (ha.code.symm.trans hb.code)
  simp only [Accessor.content, ha.shape, ha.view, hb.shape, hb.view, hcode]

/-- **Registries frozen one after another.** Their identities come out of one
supply, which other things draw on in between. -/
inductive Frozen : List Registry → Supply → Prop
  | none (ids : Supply) : Frozen [] ids
  | spend {rs : List Registry} {ids ids' : Supply} (h : Frozen rs ids)
      (hids : ids.next ≤ ids'.next) : Frozen rs ids'
  | freeze {rs : List Registry} {ids : Supply} (h : Frozen rs ids) (c : Catalog) :
      Frozen ((c.freeze ids).1 :: rs) (c.freeze ids).2

namespace Frozen

variable {rs : List Registry} {ids : Supply} {r r' : Registry}

theorem id_lt (h : Frozen rs ids) : ∀ r ∈ rs, r.id.raw < ids.next := by
  induction h with
  | none ids => simp
  | spend h hids ih =>
    intro r hr
    have := ih r hr
    omega
  | freeze h c ih =>
    intro r hr
    simp only [Catalog.freeze, Supply.take_fst, Supply.take_next] at hr ⊢
    rcases List.mem_cons.1 hr with rfl | hr
    · exact Nat.lt_succ_self _
    · have := ih r hr
      omega

/-- **A registry is known by its identity.** -/
theorem eq_of_id (h : Frozen rs ids) (hr : r ∈ rs) (hr' : r' ∈ rs) (hid : r.id = r'.id) :
    r = r' := by
  induction h with
  | none ids => cases hr
  | spend h hids ih => exact ih hr hr'
  | @freeze rs ids h c ih =>
    -- the newest identity is none of the older ones
    have hnew {s : Registry} (hs : s ∈ rs) : s.id ≠ (c.freeze ids).1.id := by
      intro heq
      have hlt : s.id.raw < ids.next := h.id_lt s hs
      rw [heq] at hlt
      exact Nat.lt_irrefl _ hlt
    rcases List.mem_cons.1 hr with rfl | hr
    · rcases List.mem_cons.1 hr' with rfl | hr'
      · rfl
      · exact absurd hid.symm (hnew hr')
    · rcases List.mem_cons.1 hr' with rfl | hr'
      · exact absurd hid (hnew hr)
      · exact ih hr hr'

end Frozen

/-! ## Orders that mean the same by the same identity -/

/-- Two orders take a registry's identity for one registry, and what a target
stands for to be one subject. -/
structure Order.Agrees (o o' : Order) : Prop where
  registry : o.reflector.registry.id = o'.reflector.registry.id →
    o.reflector.registry = o'.reflector.registry
  subject : ∀ s s', o.request.subject? = some s → o'.request.subject? = some s' →
    s.target = s'.target → s = s'

/-- **Orders that can be made in one program**: the registries were frozen one
after another, the identity of a member stands for one descriptor, and a handle
for one type definition. -/
structure Coherent (os : List Order) : Prop where
  registries : ∃ rs ids, Frozen rs ids ∧ ∀ o ∈ os, o.reflector.registry ∈ rs
  members : ∀ o ∈ os, ∀ o' ∈ os, ∀ m m', o.request.subject? = some (.member m) →
    o'.request.subject? = some (.member m') → m.id = m'.id → m = m'
  types : ∀ o ∈ os, ∀ o' ∈ os, ∀ t t', o.request.subject? = some (.type t) →
    o'.request.subject? = some (.type t') → t.handle = t'.handle → t = t'

theorem Coherent.agrees {os : List Order} (h : Coherent os) {o o' : Order} (ho : o ∈ os)
    (ho' : o' ∈ os) : o.Agrees o' where
  registry := by
    obtain ⟨rs, ids, hrs, hmem⟩ := h.registries
    exact hrs.eq_of_id (hmem o ho) (hmem o' ho')
  subject := by
    intro s s' hs hs' htarget
    cases s with
    | member m =>
      cases s' with
      | member m' => rw [h.members o ho o' ho' m m' hs hs' (CacheTarget.member.inj htarget)]
      | type t' => cases htarget
    | type t =>
      cases s' with
      | member m' => cases htarget
      | type t' => rw [h.types o ho o' ho' t t' hs hs' (CacheTarget.type.inj htarget)]

/-- **One key, one plan.** -/
theorem Order.Agrees.plan_eq {o o' : Order} (h : o.Agrees o') {p p' : Plan} (hp : o.plan = .ok p)
    (hp' : o'.plan = .ok p') (hk : p.key = p'.key) : p = p' := by
  obtain ⟨s, hs, hfits⟩ := Reflector.fits_of_plan hp
  obtain ⟨s', hs', hfits'⟩ := Reflector.fits_of_plan hp'
  have hsubject : s = s' :=
    h.subject s s' hs hs' (by rw [← hfits.target, ← hfits'.target, hk])
  have hregistry : o.reflector.registry = o'.reflector.registry :=
    h.registry (by rw [← hfits.registry, ← hfits'.registry, hk])
  have hplan := hfits.recomputed
  rw [hregistry, hsubject, hk, hfits'.recomputed] at hplan
  exact (Except.ok.inj hplan).symm

/-! ## Transparency -/

namespace Workshop

variable {w : Workshop} {o : Order} {os os' : List Order}

/-- **An order comes to what it comes to alone**, whatever is stocked. -/
theorem Stocked.content_answer (hw : w.Stocked os) (h : ∀ o' ∈ os, o'.Agrees o) (ids : Supply) :
    (w.answer o).1.map Accessor.content =
      (Workshop.answer ⟨{}, ids⟩ o).1.map Accessor.content := by
  have halone (p : Plan) : (⟨{}, ids⟩ : Workshop).cache.find? p.key = none := rfl
  cases hp : o.plan with
  | error e => rw [answer_of_no_plan hp, answer_of_no_plan hp]
  | ok p =>
    cases hk : w.cache.find? p.key with
    | none =>
      cases hcode : p.code with
      | error e => rw [answer_of_no_code hp hk hcode, answer_of_no_code hp (halone p) hcode]
      | ok code =>
        obtain ⟨a, ha, hanswer⟩ := answer_of_compiled hp hk hcode
        obtain ⟨b, hb, hanswer'⟩ := answer_of_compiled hp (halone p) hcode
        rw [hanswer, hanswer']
        exact congrArg Except.ok (ha.content_eq hb)
    | some a =>
      -- what is found was made to the plan of an order about the same subject
      obtain ⟨o', ho', p', hp', hkey, ha⟩ := hw p.key a hk
      obtain rfl : p' = p := (h o' ho').plan_eq hp' hp hkey
      obtain ⟨b, hb, hanswer'⟩ := answer_of_compiled hp (halone p') ha.code
      rw [hw.answer_of_find? hp hk, hanswer']
      exact congrArg Except.ok (ha.content_eq hb)

theorem Stocked.contents_serve (hw : w.Stocked os')
    (h : ∀ o ∈ os' ++ os, ∀ o' ∈ os' ++ os, o.Agrees o') (ids : Supply) :
    (w.serve os).1.map (·.map Accessor.content) =
      os.map fun o => (Workshop.answer ⟨{}, ids⟩ o).1.map Accessor.content := by
  induction os generalizing w os' with
  | nil => rfl
  | cons o os ih =>
    have hfirst := hw.content_answer
      (fun o' ho' => h o' (List.mem_append_left _ ho') o (by simp)) ids
    have hrest := ih (hw.answer o) (by simpa using h)
    rw [serve_cons, List.map_cons, List.map_cons, hfirst, hrest]

end Workshop

/-- **A shared cache is transparent.** Out of any run of coherent orders, each
comes to the error, or the form, the view and the code, that it comes to on an
empty cache. -/
theorem Coherent.serve_transparent {os : List Order} (h : Coherent os) (ids alone : Supply) :
    (Workshop.serve ⟨{}, ids⟩ os).1.map (·.map Accessor.content) =
      os.map fun o => (Workshop.answer ⟨{}, alone⟩ o).1.map Accessor.content := by
  have hempty : Workshop.Stocked ⟨{}, ids⟩ [] := Workshop.Stocked.empty ids
  exact hempty.contents_serve (fun o ho o' ho' => h.agrees ho ho') alone

namespace Sample

/-- The catalog once more, frozen later. -/
def reprint : Registry := (catalog.freeze ⟨72⟩).1

/-- Orders to three reflectors over two registries: through a view and without
one, spelled out and left to defaults, one that fails and one that repeats. -/
def orders : List Order := [
  ⟨⟨registry, {}⟩, .fieldSetter (some tip) (some ⟨⟨67⟩, ⟨65⟩⟩)⟩,
  ⟨⟨registry, {}⟩, .memberSetter (some (.field tip))⟩,
  ⟨⟨reprint, { validateArguments := false }⟩, .methodInvoker (some moveTo) none⟩,
  ⟨⟨reprint, {}⟩, .methodInvoker (some moveTo) (some false)⟩,
  ⟨⟨registry, {}⟩, .fieldSetter (some tip) (some ⟨⟨65⟩, ⟨65⟩⟩)⟩,
  ⟨⟨registry, {}⟩, .fieldSetter (some tip) (some ⟨⟨67⟩, ⟨65⟩⟩)⟩]

theorem member_of_orders {o : Order} (ho : o ∈ orders) {m : Member}
    (hm : o.request.subject? = some (.member m)) : m = .field tip ∨ m = .method moveTo := by
  simp only [orders, List.mem_cons, List.not_mem_nil, or_false] at ho
  rcases ho with rfl | rfl | rfl | rfl | rfl | rfl <;> cases hm <;> simp

theorem orders_coherent : Coherent orders where
  registries := by
    refine ⟨[reprint, registry], ⟨73⟩, .freeze (.freeze (.none ⟨71⟩) catalog) catalog, ?_⟩
    simp [orders]
  members := by
    intro o ho o' ho' m m' hm hm' hid
    rcases member_of_orders ho hm with rfl | rfl
    · rcases member_of_orders ho' hm' with rfl | rfl
      · rfl
      · cases hid
    · rcases member_of_orders ho' hm' with rfl | rfl
      · cases hid
      · rfl
  types := by
    intro o ho o' ho' t t' ht
    simp only [orders, List.mem_cons, List.not_mem_nil, or_false] at ho
    rcases ho with rfl | rfl | rfl | rfl | rfl | rfl <;> cases ht

/-- One order fails, and all come to what they come to alone. -/
theorem serve_orders :
    (Workshop.serve ⟨{}, {}⟩ orders).1.map (·.isOk) = [true, true, true, true, false, true] ∧
      (Workshop.serve ⟨{}, {}⟩ orders).1.map (·.map Accessor.content) =
        orders.map fun o => (Workshop.answer ⟨{}, {}⟩ o).1.map Accessor.content :=
  ⟨by decide +kernel, orders_coherent.serve_transparent {} {}⟩

end Sample

end MemberAccess
