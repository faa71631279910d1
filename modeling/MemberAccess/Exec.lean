import MemberAccess.Heap.Contents
import MemberAccess.Heap.Equality
/-!
# Exec — computations that run on the heap

A computation reads and writes the heap and ends in a result or in a fault;
what it wrote before a fault stays written. It may also have no answer, when
it copies a box that holds itself or runs a loop that does not end. `bind_run`
is the one equation about sequencing that later files need.
-/

namespace MemberAccess

/-- **A computation on the heap.** `none` stands for no answer. -/
def Exec (ε α : Type) : Type := Heap → Option (Except ε α × Heap)

namespace Exec

variable {ε ε' α β : Type}

/-- The outcome of a computation on a heap, with the heap it leaves. -/
def run (x : Exec ε α) (h : Heap) : Option (Except ε α × Heap) := x h

instance : Monad (Exec ε) where
  pure a := fun h => some (.ok a, h)
  bind x f := fun h =>
    match x h with
    | some (.ok a, h) => f a h
    | some (.error e, h) => some (.error e, h)
    | none => none

/-- Ends in a fault. -/
def throw (e : ε) : Exec ε α := fun h => some (.error e, h)

/-- Never ends. -/
def noAnswer : Exec ε α := fun _ => none

/-- A result or fault that does not depend on the heap. -/
def ofExcept (x : Except ε α) : Exec ε α := fun h => some (x, h)

/-- A result or fault read off the heap. -/
def read (f : Heap → Except ε α) : Exec ε α := fun h => some (f h, h)

/-- A result read off the heap. -/
def ask (f : Heap → α) : Exec ε α := fun h => some (.ok (f h), h)

/-- A result read off the heap, if there is one. -/
def ask? (f : Heap → Option α) : Exec ε α := fun h => (f h).map fun a => (.ok a, h)

/-- A change of the heap that may be refused. -/
def change (f : Heap → Except ε Heap) : Exec ε Unit := fun h =>
  match f h with
  | .ok h => some (.ok (), h)
  | .error e => some (.error e, h)

/-- A change of the heap with a result. -/
def alloc (f : Heap → α × Heap) : Exec ε α := fun h =>
  let (a, h) := f h
  some (.ok a, h)

/-- A change of the heap with a result, if there is one. -/
def alloc? (f : Heap → Option (α × Heap)) : Exec ε α := fun h =>
  (f h).map fun (a, h) => (.ok a, h)

/-- Faults of one kind as faults of another. -/
def mapFault (f : ε → ε') (x : Exec ε α) : Exec ε' α := fun h =>
  match x h with
  | some (.ok a, h) => some (.ok a, h)
  | some (.error e, h) => some (.error (f e), h)
  | none => none

@[simp] theorem run_pure (a : α) (h : Heap) : (pure a : Exec ε α).run h = some (.ok a, h) := rfl

/-- **Sequencing**: the second part runs on the heap the first has left. -/
theorem run_bind (x : Exec ε α) (f : α → Exec ε β) (h : Heap) :
    (x >>= f).run h =
      match x.run h with
      | some (.ok a, h) => (f a).run h
      | some (.error e, h) => some (.error e, h)
      | none => none := rfl

/-- A function applied to the result leaves faults and the heap alone. -/
theorem run_map (x : Exec ε α) (f : α → β) (h : Heap) :
    (f <$> x).run h =
      match x.run h with
      | some (.ok a, h) => some (.ok (f a), h)
      | some (.error e, h) => some (.error e, h)
      | none => none := rfl

instance : LawfulMonad (Exec ε) :=
  LawfulMonad.mk' (Exec ε)
    (fun x => by
      funext h
      show (id <$> x).run h = x.run h
      rw [run_map]
      rcases x.run h with _ | ⟨_ | _, _⟩ <;> rfl)
    (fun _ _ => rfl)
    (fun x f g => by
      funext h
      show ((x >>= f) >>= g).run h = (x >>= fun a => f a >>= g).run h
      rw [run_bind, run_bind, run_bind]
      rcases x.run h with _ | ⟨_ | _, _⟩ <;> rfl)

/-! ## Copies -/

/-- A detached copy of a value. -/
def detach (v : Value) : Exec ε Value := alloc? (·.detach? v)

/-- A new zeroed instance of a type. -/
def zeroed (t : TypeDef) : Exec ε ObjectRef := alloc? (·.zeroed? t)

/-- The zero value of a type. -/
def zeroOf (t : TypeDef) : Exec ε Value := alloc? (·.zeroOf? t)

end Exec

end MemberAccess
