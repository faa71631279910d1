import MemberAccess.Proofs.Accessor.Implemented
/-!
# Accessor — what generated bodies do

The body generated for a get method reads the storage behind the property, and
the one for a set method writes its argument there. Both are given as field
accesses are: that they come to an end (`Storage.run_reader`,
`Storage.run_writer`) and what it means that they have (`Storage.reader_cases`,
`Storage.writer_cases`). An accessor method called on an object ends at the
body of whatever the type of the object resolves the method to
(`Method.run_runBody_of_resolve?`, `Method.runBody_cases`).
-/

namespace MemberAccess

namespace Storage

variable {natives : Natives} {s : Storage} {inv : Invocation} {h h' : Heap} {v w : Value}
  {l : Location}

/-- **The location of a storage**: its cell, or its slot in the object that a
body is called on. -/
def location? (s : Storage) (this : Option ObjectRef) : Option Location :=
  match s with
  | .cell k => some (.cell k)
  | .slot i => this.map (.slot · i)

/-- **A reader reads its location.** -/
theorem run_reader (natives : Natives) (inv : Invocation) (hl : s.location? inv.this = some l)
    (hw : h.at? l = some w) : (s.reader.run natives inv).run h = some (.ok w, h) := by
  cases s with
  | cell k =>
    cases hl
    show some (Except.ok (h.readCell k), h) = some (Except.ok w, h)
    rw [Heap.readCell_of_at? hw]
  | slot i =>
    obtain ⟨o, ho, rfl⟩ := Option.map_eq_some_iff.1 hl
    have hload : h.load o i = .ok w := Heap.load_eq_ok.2 hw
    simp only [reader, MemberBody.run, Invocation.receiver_eq_ok.2 ho, Exec.run_bind,
      Exec.run_ofExcept, Exec.load, Exec.run_read, hload]

/-- **A writer writes its argument there**, and nowhere else. -/
theorem run_writer (natives : Natives) (inv : Invocation) (hl : s.location? inv.this = some l)
    (hthere : (h.at? l).isSome = true) (hv : inv.arguments[0]? = some v) :
    ∃ h', (s.writer.run natives inv).run h = some (.ok .null, h') ∧ h.Overwrites h' l v := by
  have hargument := Invocation.argument_eq_ok.2 hv
  cases s with
  | cell k =>
    cases hl
    have hlt : k.index < h.cells.size := by simpa [Heap.at?] using hthere
    refine ⟨_, ?_, Heap.overwrites_writeCell hlt v⟩
    simp only [writer, MemberBody.run, hargument, Exec.run_bind, Exec.run_ofExcept]
    rfl
  | slot i =>
    obtain ⟨o, ho, rfl⟩ := Option.map_eq_some_iff.1 hl
    have hlt : i < (h.slotsAt o).length := by simpa [Heap.at?] using hthere
    refine ⟨_, ?_, Heap.overwrites_setSlots hlt v⟩
    simp only [writer, MemberBody.run, hargument, Invocation.receiver_eq_ok.2 ho, Exec.run_bind,
      Exec.run_ofExcept, Exec.store, Exec.run_change, Heap.store_eq_ok.2 ⟨hlt, rfl⟩]
    rfl

/-- **What a reader comes to**: nothing changes, and what is read is at its
location. -/
theorem reader_cases {out : Except RuntimeFault Value}
    (hcell : ∀ k, s = .cell k → k.index < h.cells.size)
    (hrun : (s.reader.run natives inv).run h = some (out, h')) :
    h' = h ∧ ∀ w, out = .ok w → ∃ l, s.location? inv.this = some l ∧ h.at? l = some w := by
  cases s with
  | cell k =>
    cases hrun
    refine ⟨rfl, fun w hw => ⟨.cell k, rfl, ?_⟩⟩
    rw [Heap.at?_cell (hcell k rfl)]
    exact congrArg some (Except.ok.inj hw)
  | slot i =>
    rcases Exec.run_bind_cases hrun with ⟨e, hreceiver, rfl⟩ | ⟨o, h₁, hreceiver, hload⟩
    · exact ⟨(Exec.run_ofExcept_eq.1 hreceiver).2.symm, nofun⟩
    · obtain ⟨hthis, rfl⟩ := Exec.run_ofExcept_eq.1 hreceiver
      simp only [Exec.load, Exec.run_read, Option.some.injEq, Prod.mk.injEq] at hload
      obtain ⟨hload, rfl⟩ := hload
      refine ⟨rfl, fun w hw => ⟨.slot o i, ?_, Heap.load_eq_ok.1 (hload.trans hw)⟩⟩
      rw [Invocation.receiver_eq_ok.1 hthis]
      rfl

/-- **What a writer comes to**: nothing changes, or the argument is written to
its location. -/
theorem writer_cases {out : Except RuntimeFault Value}
    (hcell : ∀ k, s = .cell k → k.index < h.cells.size)
    (hrun : (s.writer.run natives inv).run h = some (out, h')) :
    (∃ e, out = .error e) ∧ h' = h ∨
      ∃ l v, s.location? inv.this = some l ∧ inv.arguments[0]? = some v ∧ h.Overwrites h' l v := by
  cases s with
  | cell k =>
    rcases Exec.run_bind_cases hrun with ⟨e, hv, rfl⟩ | ⟨v, h₁, hv, hwrite⟩
    · exact .inl ⟨⟨e, rfl⟩, (Exec.run_ofExcept_eq.1 hv).2.symm⟩
    · obtain ⟨hargument, rfl⟩ := Exec.run_ofExcept_eq.1 hv
      cases hwrite
      exact .inr ⟨.cell k, v, rfl, Invocation.argument_eq_ok.1 hargument,
        Heap.overwrites_writeCell (hcell k rfl) v⟩
  | slot i =>
    rcases Exec.run_bind_cases hrun with ⟨e, hv, rfl⟩ | ⟨v, h₁, hv, hrest⟩
    · exact .inl ⟨⟨e, rfl⟩, (Exec.run_ofExcept_eq.1 hv).2.symm⟩
    obtain ⟨hargument, rfl⟩ := Exec.run_ofExcept_eq.1 hv
    rcases Exec.run_bind_cases hrest with ⟨e, hreceiver, rfl⟩ | ⟨o, h₁, hreceiver, hrest⟩
    · exact .inl ⟨⟨e, rfl⟩, (Exec.run_ofExcept_eq.1 hreceiver).2.symm⟩
    obtain ⟨hthis, rfl⟩ := Exec.run_ofExcept_eq.1 hreceiver
    -- a writer that has stored answers null
    rcases Exec.run_bind_cases hrest with ⟨e, hstore, rfl⟩ | ⟨u, h₁, hstore, hdone⟩
    · rcases Exec.store_cases hstore with ⟨-, rfl⟩ | ⟨hok, -⟩
      · exact .inl ⟨⟨e, rfl⟩, rfl⟩
      · cases hok
    · cases hdone
      rcases Exec.store_cases hstore with ⟨⟨e, herror⟩, -⟩ | ⟨-, hwrites⟩
      · cases herror
      · refine .inr ⟨.slot o i, v, ?_, Invocation.argument_eq_ok.1 hargument, hwrites⟩
        rw [Invocation.receiver_eq_ok.1 hthis]
        rfl

end Storage

/-- The location of a field is that of its storage. -/
theorem Field.location?_object (f : Field) (o : ObjectRef) :
    f.location? (.object o) = f.storage.location? (some o) := by
  unfold Field.location? Storage.location?
  cases f.storage <;> rfl

namespace Method

variable {natives : Natives} {m n : Method} {t : TypeDef} {b : MemberBody} {h h' : Heap}
  {o : ObjectRef} {args : List Value}

/-- **What a body is called on**: the receiver, unless the method is static. -/
def this? (m : Method) (o : ObjectRef) : Option ObjectRef := if m.isStatic then none else some o

/-- **An accessor method is called** on every kind of its declaring type. -/
theorem run_invocation {ts : List TypeDef} (args : List Value)
    (hts : m.isStatic = false → ts = [t]) (ht : t.handle.isBuiltin = false)
    (ho : t.handle ∈ (h.typeAt o).ancestors) :
    (m.invocation ts (.object o) args).run h = some (.ok ⟨m.this? o, args⟩, h) := by
  unfold invocation this?
  cases hstatic : m.isStatic with
  | true => rfl
  | false =>
    have hholder : (Field.holder ⟨ts, [], t⟩ (.object o)).run h = some (.ok o, h) :=
      Field.run_holder (hts hstatic) ht ho
    obtain ⟨v, h₁, hcast, hobject⟩ := Exec.run_bind_eq_ok.1 hholder
    refine Exec.run_bind_eq_ok.2 ⟨v, h₁, hcast, Exec.run_bind_eq_ok.2 ⟨o, h, hobject, rfl⟩⟩

/-- **Which method a call on an object ends at**, static methods included. -/
theorem implementation?_this (hslot : m.isStatic = true → m.slot = none) :
    h.implementation? m (m.this? o) = (h.typeAt o).resolve? m := by
  rw [← implementation?_object]
  unfold this?
  cases hstatic : m.isStatic with
  | true => simp [Heap.implementation?, hslot hstatic]
  | false => rfl

/-- **A call runs the body** of the method that the type resolves to. -/
theorem run_runBody_of_resolve? (natives : Natives) (args : List Value)
    (hslot : m.isStatic = true → m.slot = none) (hn : (h.typeAt o).resolve? m = some n)
    (hb : n.body = some b) :
    (m.runBody natives ⟨m.this? o, args⟩).run h = (b.run natives ⟨m.this? o, args⟩).run h := by
  have hbody : (h.implementation? m (m.this? o)).bind (·.body) = some b := by
    rw [implementation?_this hslot, hn, Option.bind_some, hb]
  simp only [runBody, Exec.run_bind, Exec.run_ask, hbody]

/-- **What a call comes to**: nothing, or the body of the method that it ends
at is run. -/
theorem runBody_cases {inv : Invocation} {out : Except RuntimeFault Value}
    (hrun : (m.runBody natives inv).run h = some (out, h')) :
    (∃ e, out = .error e) ∧ h' = h ∨ ∃ n b, h.implementation? m inv.this = some n ∧
      n.body = some b ∧ (b.run natives inv).run h = some (out, h') := by
  rw [runBody, Exec.run_bind, Exec.run_ask] at hrun
  cases hbody : (h.implementation? m inv.this).bind (·.body) with
  | none =>
    simp only [hbody, Exec.run_read, Option.some.injEq, Prod.mk.injEq] at hrun
    exact .inl ⟨⟨_, hrun.1.symm⟩, hrun.2.symm⟩
  | some b =>
    simp only [hbody] at hrun
    obtain ⟨n, hn, hb⟩ := Option.bind_eq_some_iff.1 hbody
    exact .inr ⟨n, b, hn, hb, hrun⟩

end Method

end MemberAccess
