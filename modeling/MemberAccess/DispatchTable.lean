import MemberAccess.Member
/-!
# DispatchTable — which method a virtual slot runs

A finite map from virtual slots to methods. A slot is bound by `bind`, and
`redirect` moves every slot bound to one method over to another, which is how
an interface slot follows an override. The view is `find?`; `find?_bind` and
`find?_redirect` say what the operations do to it.
-/

namespace MemberAccess

/-- Removing a key does not show in a look-up of another. -/
theorem lookup_filter_ne {α β : Type} [BEq α] [LawfulBEq α] {a key : α} (h : a ≠ key)
    (bs : List (α × β)) : (bs.filter (·.1 != key)).lookup a = bs.lookup a := by
  induction bs with
  | nil => rfl
  | cons b bs ih =>
    obtain ⟨k, n⟩ := b
    by_cases hk : k = key
    · subst hk
      have hb : (a == k) = false := by simp [h]
      simp [List.lookup_cons, ih, hb]
    · simp [List.lookup_cons, hk, ih]

/-- **A map from virtual slots to methods.** -/
structure DispatchTable where
  bindings : List (VirtualSlot × Method) := []
deriving DecidableEq, Inhabited, Repr

namespace DispatchTable

/-- The method bound to a slot. -/
def find? (t : DispatchTable) (s : VirtualSlot) : Option Method := t.bindings.lookup s

/-- Binds a slot, replacing what it was bound to. -/
def bind (t : DispatchTable) (s : VirtualSlot) (m : Method) : DispatchTable :=
  ⟨(s, m) :: t.bindings.filter (·.1 != s)⟩

/-- Binds to `new` every slot that was bound to `old`. -/
def redirect (t : DispatchTable) (old new : Method) : DispatchTable :=
  ⟨t.bindings.map fun (s, m) => (s, if m.id = old.id then new else m)⟩

variable {t : DispatchTable} {s s' : VirtualSlot} {m m' : Method}

/-- Binding one slot leaves the others as they were. -/
theorem find?_bind : (t.bind s m).find? s' = if s' = s then some m else t.find? s' := by
  by_cases h : s' = s
  · simp [find?, bind, h]
  · have hb : (s' == s) = false := by simp [h]
    simp [find?, bind, List.lookup_cons, h, hb, lookup_filter_ne h]

/-- Redirection replaces a method wherever it is bound. -/
theorem find?_redirect :
    (t.redirect m m').find? s = (t.find? s).map fun n => if n.id = m.id then m' else n := by
  obtain ⟨bs⟩ := t
  induction bs with
  | nil => rfl
  | cons b bs ih =>
    obtain ⟨k, n⟩ := b
    by_cases hk : s = k
    · simp [find?, redirect, hk]
    · have hk' : (s == k) = false := by simp [hk]
      simpa [find?, redirect, List.lookup_cons, hk'] using ih

end DispatchTable

end MemberAccess
