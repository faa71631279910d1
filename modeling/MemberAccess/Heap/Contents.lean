import MemberAccess.Heap.Basic
/-!
# Heap — the contents of a value, and copies of it

A box is its contents: its type and, slot by slot, the contents of what the
slots hold, through boxes nested in it and no further. A class instance met
on the way is a leaf, whatever it holds. `contents?` reads a value's contents
off the heap and `Contents.place` lays contents out as new boxes; a detached
copy is the one followed by the other.

A box that is reachable from itself through boxes has no contents. On any
other heap a chain of nested boxes is at most as long as there are objects,
which is the depth that `detach?` allows.
-/

namespace MemberAccess

/-- **What a value amounts to when boxes are looked into.** -/
inductive Contents where
  | leaf (v : Value)
  | box (type : TypeDef) (slots : List Contents)

namespace Heap

/-- The contents of a value, looked into through at most `depth` nested
boxes. -/
def contents? (h : Heap) : (depth : Nat) → Value → Option Contents
  | 0, v => if h.isBox v then none else some (.leaf v)
  | depth + 1, v =>
    match h.box? v with
    | none => some (.leaf v)
    | some x => (x.slots.mapM (h.contents? depth)).map (.box x.type)

end Heap

namespace Contents

mutual

/-- **Lays contents out on the heap**, every box as a new object. -/
def place : Contents → Heap → Value × Heap
  | .leaf v, h => (v, h)
  | .box t cs, h =>
    let (vs, h) := placeAll cs h
    let (r, h) := h.alloc ⟨t, vs⟩
    (.object r, h)

/-- Lays out a list of contents from left to right. -/
def placeAll : List Contents → Heap → List Value × Heap
  | [], h => ([], h)
  | c :: cs, h =>
    let (v, h) := c.place h
    let (vs, h) := placeAll cs h
    (v :: vs, h)

end

end Contents

namespace Heap

/-- **A copy of a value that shares no box with it.** Anything but a box is
its own copy. -/
def detach? (h : Heap) (v : Value) : Option (Value × Heap) :=
  (h.contents? h.objects.size v).map (·.place h)

/-- Copies of a list of values, from left to right. -/
def detachAll? (h : Heap) : List Value → Option (List Value × Heap)
  | [] => some ([], h)
  | v :: vs => do
    let (v, h) ← h.detach? v
    let (vs, h) ← h.detachAll? vs
    return (v :: vs, h)

/-- **A new instance of a type**, each slot holding a copy of its default. -/
def zeroed? (h : Heap) (t : TypeDef) : Option (ObjectRef × Heap) := do
  let (slots, h) ← h.detachAll? t.defaults
  return h.alloc ⟨t, slots⟩

/-- **The zero value of a type**: the zero of a primitive, a new zeroed struct,
or null. -/
def zeroOf? (h : Heap) (t : TypeDef) : Option (Value × Heap) :=
  match t.kind with
  | .primitive .bool => some (.bool false, h)
  | .primitive .int32 => some (.int32 0, h)
  | .primitive .int64 => some (.int64 0, h)
  | .primitive .float64 => some (.float64 .zero, h)
  | .structType => do
    let (r, h) ← h.zeroed? t
    return (.object r, h)
  | .void | .classType | .interfaceType => some (.null, h)

end Heap

end MemberAccess
