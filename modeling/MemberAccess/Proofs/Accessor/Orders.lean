import MemberAccess.Proofs.Accessor.Keys
/-!
# Accessor — one cache over many requests

Reflectors that share a cache serve requests one after another
(`Workshop.serve`). A request whose key is present gets what stands there and
compiles nothing (`Stocked.answer_of_find?`), any other request changes the
cache only by its own key and only if it succeeds; so the keys present are at
all times those of the requests that succeeded.
-/

namespace MemberAccess

/-- **A request together with the reflector it is made to.** -/
structure Order where
  reflector : Reflector
  request : Request
deriving Inhabited

namespace Order

def plan (o : Order) : Except AccessorError Plan := o.reflector.plan o.request

/-- The key that is looked up for a request, if it comes that far. -/
def key? (o : Order) : Option CacheKey := o.plan.toOption.map (·.key)

theorem key?_eq_some {o : Order} {k : CacheKey} :
    o.key? = some k ↔ ∃ p, o.plan = .ok p ∧ p.key = k := by
  unfold key?
  cases o.plan with
  | error e => simp [Except.toOption]
  | ok p => simp [Except.toOption]

end Order

namespace Cache

variable {c : Cache} {k k' : CacheKey} {a : Accessor}

theorem find?_insert (h : c.find? k = none) :
    (c.insert k a).find? k' = if k' = k then some a else c.find? k' := by
  simp only [find?, insert, List.lookup_append, List.lookup_cons, List.lookup_nil] at h ⊢
  by_cases hk : k' = k
  · simp [hk, h]
  · simp [hk, beq_false_of_ne hk]

theorem contains_iff : c.contains k = true ↔ ∃ a, c.find? k = some a :=
  Option.isSome_iff_exists

end Cache

namespace Plan

/-- **An accessor is made to a plan**: it has the plan's form, view and code. -/
structure Makes (p : Plan) (a : Accessor) : Prop where
  shape : a.shape = p.shape
  view : a.view = p.key.view
  code : p.code = .ok a.code

end Plan

namespace Workshop

variable {w w' : Workshop} {o : Order} {os os' : List Order} {p : Plan} {k : CacheKey}
  {a : Accessor} {e : AccessorError}

/-- Answers one order. -/
def answer (w : Workshop) (o : Order) : Except AccessorError Accessor × Workshop :=
  w.request o.reflector o.request

/-- **Answers orders in turn**, whether they succeed or not. -/
def serve (w : Workshop) : List Order → List (Except AccessorError Accessor) × Workshop
  | [] => ([], w)
  | o :: os =>
    let (first, w) := w.answer o
    let (rest, w) := w.serve os
    (first :: rest, w)

@[simp] theorem serve_nil : w.serve [] = ([], w) := rfl

@[simp] theorem serve_cons :
    w.serve (o :: os) =
      ((w.answer o).1 :: ((w.answer o).2.serve os).1, ((w.answer o).2.serve os).2) := rfl

theorem mem_zip_serve_cons {x : Order × Except AccessorError Accessor} :
    x ∈ (o :: os).zip (w.serve (o :: os)).1 ↔
      x = (o, (w.answer o).1) ∨ x ∈ os.zip ((w.answer o).2.serve os).1 := by
  rw [serve_cons, List.zip_cons_cons, List.mem_cons]

theorem answer_of_plan (h : o.plan = .ok p) : w.answer o = w.fetch p := by
  simp only [answer, request]
  rw [show o.reflector.plan o.request = .ok p from h]

theorem answer_of_no_plan (h : o.plan = .error e) : w.answer o = (.error e, w) := by
  simp only [answer, request]
  rw [show o.reflector.plan o.request = .error e from h]

/-- **All that is kept was made to the plan of an order** out of `os`, and is
kept under the key of that plan. -/
def Stocked (w : Workshop) (os : List Order) : Prop :=
  ∀ k a, w.cache.find? k = some a →
    ∃ o ∈ os, ∃ p, o.plan = .ok p ∧ p.key = k ∧ p.Makes a

theorem Stocked.empty (ids : Supply) : Stocked ⟨{}, ids⟩ os := by
  intro k a h
  cases h

theorem Stocked.mono (hw : w.Stocked os) (h : os ⊆ os') : w.Stocked os' := by
  intro k a hk
  obtain ⟨o, ho, hp⟩ := hw k a hk
  exact ⟨o, h ho, hp⟩

/-- What stands under a key has the form and the view that the key dictates. -/
theorem Stocked.dictated (hw : w.Stocked os) (h : w.cache.find? k = some a) :
    a.shape = k.shape ∧ a.view = k.view := by
  obtain ⟨o, -, p, hp, rfl, hmakes⟩ := hw k a h
  obtain ⟨s, -, hfits⟩ := Reflector.fits_of_plan hp
  exact ⟨hmakes.shape.trans hfits.shape, hmakes.view⟩

/-- **A key that is present is answered from the cache**, which compiles
nothing. -/
theorem Stocked.answer_of_find? (hw : w.Stocked os) (hp : o.plan = .ok p)
    (h : w.cache.find? p.key = some a) : w.answer o = (.ok a, w) := by
  obtain ⟨s, -, hfits⟩ := Reflector.fits_of_plan hp
  have hshape : a.shape = p.shape := (hw.dictated h).1.trans hfits.shape.symm
  have hhit : (some a).filter (·.shape = p.shape) = some a := by simp [Option.filter, hshape]
  simp only [answer_of_plan hp, fetch, h, hhit]

/-- A key that is absent is filled if the plan has code. -/
theorem answer_of_compiled {code : Code} (hp : o.plan = .ok p) (h : w.cache.find? p.key = none)
    (hcode : p.code = .ok code) :
    ∃ a, p.Makes a ∧ w.answer o = (.ok a, ⟨w.cache.insert p.key a, w.supply.take.2⟩) := by
  refine ⟨⟨p.shape, p.key.view, code, ⟨w.supply.next⟩⟩, ⟨rfl, rfl, hcode⟩, ?_⟩
  rw [answer_of_plan hp, fetch, h, compile, hcode]
  rfl

theorem answer_of_no_code (hp : o.plan = .ok p) (h : w.cache.find? p.key = none)
    (hcode : p.code = .error e) : w.answer o = (.error e, w) := by
  rw [answer_of_plan hp, fetch, h, compile, hcode]
  rfl

/-- **What an order comes to**: it fails and changes nothing, finds its key
and changes nothing, or fills its key. -/
theorem Stocked.answer_cases (hw : w.Stocked os) (o : Order) :
    (∃ e, w.answer o = (.error e, w)) ∨
    (∃ p a, o.plan = .ok p ∧ w.cache.find? p.key = some a ∧ w.answer o = (.ok a, w)) ∨
    (∃ p a, o.plan = .ok p ∧ w.cache.find? p.key = none ∧ p.Makes a ∧
      w.answer o = (.ok a, ⟨w.cache.insert p.key a, w.supply.take.2⟩)) := by
  cases hp : o.plan with
  | error e => exact .inl ⟨e, answer_of_no_plan hp⟩
  | ok p =>
    cases hk : w.cache.find? p.key with
    | some a => exact .inr (.inl ⟨p, a, rfl, hk, hw.answer_of_find? hp hk⟩)
    | none =>
      cases hcode : p.code with
      | error e => exact .inl ⟨e, answer_of_no_code hp hk hcode⟩
      | ok code =>
        obtain ⟨a, hmakes, hanswer⟩ := answer_of_compiled hp hk hcode
        exact .inr (.inr ⟨p, a, rfl, hk, hmakes, hanswer⟩)

/-! ## What an order leaves under a key -/

/-- What stands under a key stays. -/
theorem Stocked.find?_answer (hw : w.Stocked os) (h : w.cache.find? k = some a) (o : Order) :
    (w.answer o).2.cache.find? k = some a := by
  rcases hw.answer_cases o with ⟨e, hanswer⟩ | ⟨p, b, -, -, hanswer⟩ | ⟨p, b, -, hp, -, hanswer⟩
  · rw [hanswer]
    exact h
  · rw [hanswer]
    exact h
  · have hk : k ≠ p.key := by
      rintro rfl
      rw [hp] at h
      cases h
    rw [hanswer, Cache.find?_insert hp, if_neg hk]
    exact h

/-- An order leaves under its key what it was answered with. -/
theorem Stocked.find?_of_answer (hw : w.Stocked os) (hk : o.key? = some k)
    (h : (w.answer o).1 = .ok a) : (w.answer o).2.cache.find? k = some a := by
  obtain ⟨p', hp', rfl⟩ := Order.key?_eq_some.1 hk
  rcases hw.answer_cases o with ⟨e, hanswer⟩ | ⟨p, b, hp, hb, hanswer⟩ | ⟨p, b, hp, hb, -, hanswer⟩
  · rw [hanswer] at h
    cases h
  all_goals
    rw [hp'] at hp
    cases hp
    rw [hanswer] at h ⊢
    cases h
  · exact hb
  · rw [Cache.find?_insert hb, if_pos rfl]

/-- An order that brings a key was answered with what it brings, made to its
plan. -/
theorem Stocked.find?_cases (hw : w.Stocked os) (o : Order)
    (h : (w.answer o).2.cache.find? k = some a) :
    w.cache.find? k = some a ∨
      (w.answer o).1 = .ok a ∧ ∃ p, o.plan = .ok p ∧ p.key = k ∧ p.Makes a := by
  rcases hw.answer_cases o with
    ⟨e, hanswer⟩ | ⟨p, b, -, -, hanswer⟩ | ⟨p, b, hp, hb, hmakes, hanswer⟩
  · rw [hanswer] at h
    exact .inl h
  · rw [hanswer] at h
    exact .inl h
  · rw [hanswer, Cache.find?_insert hb] at h
    split at h
    · rename_i hk
      cases h
      exact .inr ⟨by rw [hanswer], p, hp, hk.symm, hmakes⟩
    · exact .inl h

theorem Stocked.answer (hw : w.Stocked os) (o : Order) : (w.answer o).2.Stocked (os ++ [o]) := by
  intro k a h
  rcases hw.find?_cases o h with h | ⟨-, p, hp⟩
  · exact hw.mono (List.subset_append_left os [o]) k a h
  · exact ⟨o, by simp, p, hp⟩

/-- One entry for each key. -/
theorem Stocked.nodup_answer (hw : w.Stocked os) (h : (w.cache.entries.map (·.1)).Nodup)
    (o : Order) : ((w.answer o).2.cache.entries.map (·.1)).Nodup := by
  rcases hw.answer_cases o with ⟨e, hanswer⟩ | ⟨p, b, -, -, hanswer⟩ | ⟨p, b, -, hb, -, hanswer⟩
  · rwa [hanswer]
  · rwa [hanswer]
  · have hnew : p.key ∉ w.cache.entries.map (·.1) := by
      intro hmem
      obtain ⟨⟨_, c⟩, hc, rfl⟩ := List.mem_map.1 hmem
      simpa using List.lookup_eq_none_iff.1 hb _ hc
    simp only [hanswer, Cache.insert, List.map_append, List.map_cons, List.map_nil]
    refine List.nodup_append.2 ⟨h, by simp, fun k hk k' hk' => ?_⟩
    obtain rfl := List.mem_singleton.1 hk'
    exact ne_of_mem_of_not_mem hk hnew

/-! ## Runs -/

/-- **What holds between a run of orders and what it leaves.** -/
structure Ledger (w : Workshop) (os : List Order) (answers : List (Except AccessorError Accessor)) :
    Prop where
  /-- No key has two entries. -/
  nodup : (w.cache.entries.map (·.1)).Nodup
  /-- The keys present are those of the orders that succeeded. -/
  contains_iff : ∀ k, w.cache.contains k = true ↔
    ∃ o a, (o, .ok a) ∈ os.zip answers ∧ o.key? = some k
  /-- Every such order was answered with the very accessor that stands under
  its key. -/
  answered : ∀ o a k, (o, .ok a) ∈ os.zip answers → o.key? = some k →
    w.cache.find? k = some a
  /-- Its form and its view are those that the key dictates. -/
  dictated : ∀ k a, w.cache.find? k = some a → a.shape = k.shape ∧ a.view = k.view
  /-- A later order that finds its key is answered with what stands there and
  compiles nothing. -/
  found : ∀ o k a, o.key? = some k → w.cache.find? k = some a → w.answer o = (.ok a, w)
  /-- No later orders replace it. -/
  kept : ∀ later k a, w.cache.find? k = some a → (w.serve later).2.cache.find? k = some a
  /-- A later order that fails changes nothing. -/
  failed : ∀ o e, (w.answer o).1 = .error e → (w.answer o).2 = w

theorem Stocked.serve (hw : w.Stocked os') : (w.serve os).2.Stocked (os' ++ os) := by
  induction os generalizing w os' with
  | nil => simpa using hw
  | cons o os ih => simpa using ih (hw.answer o)

theorem Stocked.find?_serve (hw : w.Stocked os') (h : w.cache.find? k = some a) :
    (w.serve os).2.cache.find? k = some a := by
  induction os generalizing w os' with
  | nil => exact h
  | cons o os ih => exact ih (hw.answer o) (hw.find?_answer h o)

theorem Stocked.nodup_serve (hw : w.Stocked os') (h : (w.cache.entries.map (·.1)).Nodup) :
    ((w.serve os).2.cache.entries.map (·.1)).Nodup := by
  induction os generalizing w os' with
  | nil => exact h
  | cons o os ih => exact ih (hw.answer o) (hw.nodup_answer h o)

/-- An order that succeeds in a run finds its accessor in what the run leaves. -/
theorem Stocked.find?_of_mem_serve (hw : w.Stocked os')
    (h : (o, .ok a) ∈ os.zip (w.serve os).1) (hk : o.key? = some k) :
    (w.serve os).2.cache.find? k = some a := by
  induction os generalizing w os' with
  | nil => cases h
  | cons o' os ih =>
    rcases mem_zip_serve_cons.1 h with heq | h
    · obtain ⟨rfl, hok⟩ := Prod.mk.inj heq
      exact (hw.answer _).find?_serve (hw.find?_of_answer hk hok.symm)
    · exact ih (hw.answer o') h

/-- What a run leaves was there before or was the answer to one of its orders. -/
theorem Stocked.find?_serve_cases (hw : w.Stocked os')
    (h : (w.serve os).2.cache.find? k = some a) :
    w.cache.find? k = some a ∨ ∃ o, (o, .ok a) ∈ os.zip (w.serve os).1 ∧ o.key? = some k := by
  induction os generalizing w os' with
  | nil => exact .inl h
  | cons o os ih =>
    rcases ih (hw.answer o) h with h | ⟨o', ho', hk⟩
    · rcases hw.find?_cases o h with h | ⟨hok, p, hp, rfl, -⟩
      · exact .inl h
      · have ho : (o, .ok a) ∈ (o :: os).zip (w.serve (o :: os)).1 :=
          mem_zip_serve_cons.2 (.inl (by rw [hok]))
        exact .inr ⟨o, ho, Order.key?_eq_some.2 ⟨p, hp, rfl⟩⟩
    · exact .inr ⟨o', mem_zip_serve_cons.2 (.inr ho'), hk⟩

theorem Stocked.found (hw : w.Stocked os) (hk : o.key? = some k) (h : w.cache.find? k = some a) :
    w.answer o = (.ok a, w) := by
  obtain ⟨p, hp, rfl⟩ := Order.key?_eq_some.1 hk
  exact hw.answer_of_find? hp h

theorem Stocked.failed (hw : w.Stocked os) (h : (w.answer o).1 = .error e) :
    (w.answer o).2 = w := by
  rcases hw.answer_cases o with ⟨e, hanswer⟩ | ⟨p, b, -, -, hanswer⟩ | ⟨p, b, -, -, -, hanswer⟩
  · rw [hanswer]
  · rw [hanswer]
  · rw [hanswer] at h
    cases h

/-- **Every run from an empty cache keeps its ledger.** -/
theorem ledger_of_serve (ids : Supply) (os : List Order) :
    Ledger (serve ⟨{}, ids⟩ os).2 os (serve ⟨{}, ids⟩ os).1 := by
  have hempty : Stocked ⟨{}, ids⟩ [] := Stocked.empty ids
  have hw : (serve ⟨{}, ids⟩ os).2.Stocked os := hempty.serve
  have hanswered {o a k} (hmem : (o, .ok a) ∈ os.zip (serve ⟨{}, ids⟩ os).1)
      (hk : o.key? = some k) : (serve ⟨{}, ids⟩ os).2.cache.find? k = some a :=
    hempty.find?_of_mem_serve hmem hk
  refine
    { nodup := hempty.nodup_serve List.nodup_nil
      contains_iff := fun k => ?_
      answered := fun o a k => hanswered
      dictated := fun k a => hw.dictated
      found := fun o k a => hw.found
      kept := fun later k a => hw.find?_serve
      failed := fun o e => hw.failed }
  rw [Cache.contains_iff]
  constructor
  · rintro ⟨a, ha⟩
    -- nothing was there before
    rcases hempty.find?_serve_cases ha with h | ⟨o, ho, hk⟩
    · cases h
    · exact ⟨o, a, ho, hk⟩
  · rintro ⟨o, a, ho, hk⟩
    exact ⟨a, hanswered ho hk⟩

end Workshop

end MemberAccess
