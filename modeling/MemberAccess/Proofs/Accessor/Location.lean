import MemberAccess.Proofs.Accessor.FieldAccess
import MemberAccess.Proofs.Heap.Writes
/-!
# Accessor — where a field is

A static field is in a cell, an instance field in a slot of its receiver
(`Field.location?`). Fetching and putting are given both ways: that they
succeed on a receiver that passes (`Field.run_fetch`, `Field.run_put`), and
what it means that they have come to an end (`Field.fetch_cases`,
`Field.put_cases`).
-/

namespace MemberAccess

namespace Heap

variable {h : Heap} {t : TypeDef} {ts : List TypeDef} {v w : Value}

/-- **What passes for a type** is left as it is. -/
theorem castReference_eq_ok (hcast : h.castReference v t = .ok w) :
    w = v ∧ (v.isNull = true ∨ h.isInstance v t.handle = true) := by
  unfold castReference at hcast
  split at hcast
  · rename_i hnull
    split at hcast
    · cases hcast
    · cases hcast
      exact ⟨rfl, .inl hnull⟩
  · split at hcast
    · rename_i hinstance
      cases hcast
      exact ⟨rfl, .inr hinstance⟩
    · cases hcast

/-- The same for a chain of types; everything passes for `Object`. -/
theorem castReceiver_eq_ok (hcast : h.castReceiver ts v = .ok w) :
    w = v ∧ ∀ t ∈ ts, t.handle = .object ∨ v.isNull = true ∨ h.isInstance v t.handle = true := by
  induction ts with
  | nil =>
    cases hcast
    exact ⟨rfl, by simp⟩
  | cons t ts ih =>
    unfold castReceiver at hcast
    split at hcast
    · rename_i hobject
      obtain ⟨rfl, hall⟩ := ih hcast
      exact ⟨rfl, List.forall_mem_cons.2 ⟨.inl hobject, hall⟩⟩
    · obtain ⟨v', hcheck, hrest⟩ := bind_eq_ok.1 hcast
      obtain ⟨rfl, hpass⟩ := castReference_eq_ok hcheck
      obtain ⟨rfl, hall⟩ := ih hrest
      exact ⟨rfl, List.forall_mem_cons.2 ⟨.inr hpass, hall⟩⟩

/-- An instance of a type passes for it. -/
theorem castReference_of_isInstance (hv : h.isInstance v t.handle = true) :
    h.castReference v t = .ok v := by
  have hnull : v.isNull = false := by
    cases v with
    | null => cases hv
    | _ => rfl
  simp [castReference, hnull, hv]

/-- What passes for the first type is left to the others. -/
theorem castReceiver_cons (hv : t.handle = .object ∨ h.isInstance v t.handle = true) :
    h.castReceiver (t :: ts) v = h.castReceiver ts v := by
  rw [castReceiver]
  split
  · rfl
  · rename_i hobject
    rw [castReference_of_isInstance (hv.resolve_left hobject)]
    rfl

/-- What passes for every type passes. -/
theorem castReceiver_of_passes
    (hpass : ∀ t ∈ ts, t.handle = .object ∨ h.isInstance v t.handle = true) :
    h.castReceiver ts v = .ok v := by
  induction ts with
  | nil => rfl
  | cons t ts ih =>
    rw [castReceiver_cons (hpass t List.mem_cons_self)]
    exact ih fun u hu => hpass u (List.mem_cons_of_mem t hu)

end Heap

/-- **What storing comes to**: nothing changes, or the slot is written. -/
theorem Exec.store_cases {h h' : Heap} {o : ObjectRef} {i : Nat} {v : Value}
    {out : Except RuntimeFault Unit} (hrun : (Exec.store o i v).run h = some (out, h')) :
    (∃ e, out = .error e) ∧ h' = h ∨ out = .ok () ∧ h.Overwrites h' (.slot o i) v := by
  rw [Exec.store, Exec.run_change] at hrun
  cases hstored : h.store o i v with
  | error e =>
    rw [hstored] at hrun
    cases hrun
    exact .inl ⟨⟨e, rfl⟩, rfl⟩
  | ok h₁ =>
    rw [hstored] at hrun
    cases hrun
    obtain ⟨hlt, rfl⟩ := Heap.store_eq_ok.1 hstored
    exact .inr ⟨rfl, Heap.overwrites_setSlots hlt v⟩

namespace Field

variable {f : Field} {s : FieldTypes} {t : TypeDef} {h h' : Heap} {receiver v w : Value}
  {l : Location}

/-- **The location of a field**: its cell, or its slot in the very object that
is the receiver. -/
def location? (f : Field) (receiver : Value) : Option Location :=
  match f.storage with
  | .cell c => some (.cell c)
  | .slot i => receiver.toObject?.map (.slot · i)

/-- A slot is a location of the receiver. -/
theorem location?_eq_slot {o : ObjectRef} {i : Nat} (hl : f.location? receiver = some (.slot o i)) :
    f.storage = .slot i ∧ receiver = .object o := by
  unfold location? at hl
  cases hstorage : f.storage with
  | cell k =>
    rw [hstorage] at hl
    cases hl
  | slot j =>
    rw [hstorage] at hl
    cases receiver with
    | object p =>
      cases hl
      exact ⟨rfl, rfl⟩
    | _ => cases hl

/-- A cell is the location of a static field. -/
theorem location?_eq_cell {k : CellRef} (hl : f.location? receiver = some (.cell k)) :
    f.storage = .cell k := by
  unfold location? at hl
  cases hstorage : f.storage with
  | cell j =>
    rw [hstorage] at hl
    cases hl
    rfl
  | slot i =>
    rw [hstorage] at hl
    cases receiver <;> cases hl

/-! ## Receivers -/

/-- An object that passes for every type holds the field. -/
theorem run_holder_of_passes {o : ObjectRef}
    (hpass : ∀ t ∈ s.receiver, t.handle = .object ∨ h.isInstance (.object o) t.handle = true) :
    (holder s (.object o)).run h = some (.ok o, h) := by
  unfold holder
  simp only [Exec.run_bind, Exec.run_read, Heap.castReceiver_of_passes hpass]
  rfl

/-- An instance of the declaring type does. -/
theorem run_holder (hs : s.receiver = [t]) (ht : t.handle.isBuiltin = false) {o : ObjectRef}
    (ho : t.handle ∈ (h.typeAt o).ancestors) :
    (holder s (.object o)).run h = some (.ok o, h) := by
  have hobject := TypeHandle.ne_object ht
  have hcast : h.castReceiver [t] (.object o) = .ok (.object o) := by
    simp [Heap.castReceiver, hobject, Heap.castReference, Value.isNull, Heap.isInstance,
      TypeDef.isSubtypeOf, ho, bind, Except.bind]
  unfold holder
  rw [hs]
  simp only [Exec.run_bind, Exec.run_read, hcast]
  rfl

/-- Anything else does not, and nothing happens. -/
theorem run_holder_of_not (hs : s.receiver = [t]) (ht : t.handle.isBuiltin = false)
    (hno : receiver.isNull = true ∨ h.isInstance receiver t.handle = false) :
    ∃ fault, (holder s receiver).run h = some (.error fault, h) := by
  have hobject := TypeHandle.ne_object ht
  unfold holder
  rw [hs]
  simp only [Exec.run_bind, Exec.run_read, Heap.castReceiver, hobject, if_false,
    Heap.castReference]
  cases hnull : receiver.isNull with
  | true =>
    cases receiver with
    | null =>
      cases t.isValueType with
      | true => exact ⟨_, rfl⟩
      | false => exact ⟨_, rfl⟩
    | _ => cases hnull
  | false =>
    have hinstance : h.isInstance receiver t.handle = false :=
      hno.resolve_left (by simp [hnull])
    rw [hinstance]
    exact ⟨_, rfl⟩

/-! ## Fetching and putting -/

/-- Whether a receiver passes for the declaring type; static fields do not
ask. -/
def Accepts (f : Field) (t : TypeDef) (h : Heap) (receiver : Value) : Prop :=
  f.isStatic = false → ∃ o, receiver = .object o ∧ t.handle ∈ (h.typeAt o).ancestors

/-- **The receiver holds the field**, as it is seen; static fields do not
ask. -/
def HeldBy (f : Field) (s : FieldTypes) (h : Heap) (receiver : Value) : Prop :=
  f.isStatic = false → ∃ o, receiver = .object o ∧ (holder s receiver).run h = some (.ok o, h)

/-- A receiver that passes for the one type that is asked for holds the field. -/
theorem Accepts.heldBy (haccepts : f.Accepts t h receiver)
    (hs : f.isStatic = false → s.receiver = [t]) (ht : t.handle.isBuiltin = false) :
    f.HeldBy s h receiver := by
  intro hstatic
  obtain ⟨o, rfl, ho⟩ := haccepts hstatic
  exact ⟨o, rfl, run_holder (hs hstatic) ht ho⟩

/-- What is held is fetched from its location. -/
theorem HeldBy.run_fetch (hheld : f.HeldBy s h receiver) (hl : f.location? receiver = some l)
    (hw : h.at? l = some w) : (f.fetch s receiver).run h = some (.ok w, h) := by
  unfold fetch
  unfold location? at hl
  cases hstorage : f.storage with
  | cell c =>
    rw [hstorage] at hl
    cases hl
    show some (Except.ok (h.readCell c), h) = some (Except.ok w, h)
    rw [Heap.readCell_of_at? hw]
  | slot i =>
    obtain ⟨o, rfl, hholder⟩ := hheld (isStatic_of_slot hstorage)
    rw [hstorage] at hl
    cases hl
    refine Exec.run_bind_eq_ok.2 ⟨o, h, hholder, ?_⟩
    simp only [Heap.at?] at hw
    simp only [Exec.load, Exec.run_read, Heap.load, hw]

/-- And put there, and nowhere else. -/
theorem HeldBy.run_put (hheld : f.HeldBy s h receiver) (hl : f.location? receiver = some l)
    (hthere : (h.at? l).isSome = true) (v : Value) :
    ∃ h', (f.put s receiver v).run h = some (.ok (), h') ∧ h.Overwrites h' l v := by
  unfold put
  unfold location? at hl
  cases hstorage : f.storage with
  | cell c =>
    rw [hstorage] at hl
    cases hl
    have hlt : c.index < h.cells.size := by simpa [Heap.at?] using hthere
    exact ⟨_, rfl, Heap.overwrites_writeCell hlt v⟩
  | slot i =>
    obtain ⟨o, rfl, hholder⟩ := hheld (isStatic_of_slot hstorage)
    rw [hstorage] at hl
    cases hl
    have hlt : i < (h.slotsAt o).length := by simpa [Heap.at?] using hthere
    refine ⟨_, Exec.run_bind_eq_ok.2 ⟨o, h, hholder, ?_⟩, Heap.overwrites_setSlots hlt v⟩
    simp only [Exec.store, Exec.run_change, Heap.store_eq_ok.2 ⟨hlt, rfl⟩]

/-- **A field is fetched from its location.** -/
theorem run_fetch (hs : f.isStatic = false → s.receiver = [t]) (ht : t.handle.isBuiltin = false)
    (haccepts : f.Accepts t h receiver) (hl : f.location? receiver = some l)
    (hw : h.at? l = some w) : (f.fetch s receiver).run h = some (.ok w, h) :=
  (haccepts.heldBy hs ht).run_fetch hl hw

/-- **A value is put into the location of its field**, and nowhere else. -/
theorem run_put (hs : f.isStatic = false → s.receiver = [t]) (ht : t.handle.isBuiltin = false)
    (haccepts : f.Accepts t h receiver) (hl : f.location? receiver = some l)
    (hthere : (h.at? l).isSome = true) (v : Value) :
    ∃ h', (f.put s receiver v).run h = some (.ok (), h') ∧ h.Overwrites h' l v :=
  (haccepts.heldBy hs ht).run_put hl hthere v

/-- Nothing is put where the receiver does not pass. -/
theorem run_put_of_not (hs : s.receiver = [t]) (ht : t.handle.isBuiltin = false)
    (hstatic : f.isStatic = false)
    (hno : receiver.isNull = true ∨ h.isInstance receiver t.handle = false) (v : Value) :
    ∃ fault, (f.put s receiver v).run h = some (.error fault, h) := by
  unfold put
  cases hstorage : f.storage with
  | cell c =>
    rw [isStatic, hstorage] at hstatic
    cases hstatic
  | slot i =>
    obtain ⟨fault, hfault⟩ := run_holder_of_not hs ht hno
    exact ⟨fault, Exec.run_bind_eq_error.2 (.inl hfault)⟩

/-! ## Taken apart -/

/-- **A holder is the receiver itself**, once it has passed for each type. -/
theorem holder_cases {out : Except RuntimeFault ObjectRef}
    (hrun : (holder s receiver).run h = some (out, h')) :
    h' = h ∧ ∀ o, out = .ok o → receiver = .object o ∧
      ∀ t ∈ s.receiver, t.handle.isBuiltin = false → t.handle ∈ (h.typeAt o).ancestors := by
  rcases Exec.run_bind_cases hrun with ⟨e, hcast, rfl⟩ | ⟨w, h₁, hcast, hobject⟩
  · simp only [Exec.run_read, Option.some.injEq, Prod.mk.injEq] at hcast
    exact ⟨hcast.2.symm, nofun⟩
  · simp only [Exec.run_read, Option.some.injEq, Prod.mk.injEq] at hcast hobject
    obtain ⟨hcast, rfl⟩ := hcast
    obtain ⟨rfl, rfl⟩ := hobject
    refine ⟨rfl, fun o ho => ?_⟩
    obtain ⟨rfl, hall⟩ := Heap.castReceiver_eq_ok hcast
    cases w with
    -- an object has passed as an instance of every type but `Object`
    | object p =>
      cases ho
      refine ⟨rfl, fun t ht hbuiltin => ?_⟩
      rcases hall t ht with hobject | hnull | hinstance
      · rw [hobject] at hbuiltin
        cases hbuiltin
      · cases hnull
      · simpa [Heap.isInstance, TypeDef.isSubtypeOf] using hinstance
    | _ => cases ho

/-- **What fetching comes to**: nothing changes, and what is fetched is at the
field's location. -/
theorem fetch_cases {out : Except RuntimeFault Value}
    (hrun : (f.fetch s receiver).run h = some (out, h')) :
    h' = h ∧ ∀ w, out = .ok w →
      (∃ k, f.storage = .cell k ∧ w = h.readCell k) ∨
        ∃ o i, receiver = .object o ∧ f.storage = .slot i ∧ (h.slotsAt o)[i]? = some w ∧
          ∀ t ∈ s.receiver, t.handle.isBuiltin = false → t.handle ∈ (h.typeAt o).ancestors := by
  unfold fetch at hrun
  cases hstorage : f.storage with
  | cell k =>
    rw [hstorage] at hrun
    cases hrun
    refine ⟨rfl, fun w hw => .inl ⟨k, rfl, ?_⟩⟩
    exact (Except.ok.inj hw).symm
  | slot i =>
    rw [hstorage] at hrun
    rcases Exec.run_bind_cases hrun with ⟨e, hholder, rfl⟩ | ⟨o, h₁, hholder, hload⟩
    · exact ⟨(holder_cases hholder).1, nofun⟩
    · obtain ⟨rfl, hpass⟩ := holder_cases hholder
      obtain ⟨rfl, hall⟩ := hpass o rfl
      simp only [Exec.load, Exec.run_read, Option.some.injEq, Prod.mk.injEq] at hload
      obtain ⟨hload, rfl⟩ := hload
      refine ⟨rfl, fun w hw => .inr ⟨o, i, rfl, rfl, ?_, hall⟩⟩
      rw [hw] at hload
      exact Heap.load_eq_ok.1 hload

/-- **What putting comes to**: nothing changes, or the field's location is
written. -/
theorem put_cases {out : Except RuntimeFault Unit}
    (hcell : ∀ k, f.storage = .cell k → k.index < h.cells.size)
    (hrun : (f.put s receiver v).run h = some (out, h')) :
    (∃ e, out = .error e) ∧ h' = h ∨
      out = .ok () ∧ ∃ l, f.location? receiver = some l ∧ h.Overwrites h' l v ∧
        ∀ o i, l = .slot o i → ∀ t ∈ s.receiver, t.handle.isBuiltin = false →
          t.handle ∈ (h.typeAt o).ancestors := by
  unfold put at hrun
  unfold location?
  cases hstorage : f.storage with
  | cell k =>
    rw [hstorage] at hrun
    cases hrun
    exact .inr ⟨rfl, .cell k, rfl, Heap.overwrites_writeCell (hcell k hstorage) v, nofun⟩
  | slot i =>
    rw [hstorage] at hrun
    rcases Exec.run_bind_cases hrun with ⟨e, hholder, rfl⟩ | ⟨o, h₁, hholder, hstore⟩
    · exact .inl ⟨⟨e, rfl⟩, (holder_cases hholder).1⟩
    · obtain ⟨rfl, hpass⟩ := holder_cases hholder
      obtain ⟨rfl, hall⟩ := hpass o rfl
      rcases Exec.store_cases hstore with hnot | ⟨rfl, hwrites⟩
      · exact .inl hnot
      · refine .inr ⟨rfl, .slot o i, rfl, hwrites, ?_⟩
        rintro _ _ heq
        cases heq
        exact hall

end Field

end MemberAccess
