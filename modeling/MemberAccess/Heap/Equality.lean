import MemberAccess.Heap.Basic
/-!
# Heap — when two values are equal

Primitives are equal by value, numbers in floating point by IEEE rules,
classes by identity. Boxes are equal when they are the same box, or boxes of
one type with equal slots, so comparing nested boxes recurses as deep as they
nest.
-/

namespace MemberAccess

/-- Compares two lists from left to right up to the first difference. -/
def equalAll? (equal? : Value → Value → Option Bool) : List Value → List Value → Option Bool
  | [], [] => some true
  | a :: as, b :: bs => do
    if ← equal? a b then equalAll? equal? as bs else return false
  | _, _ => some false

namespace Heap

/-- Equality of two values, given an equality for the slots of boxes. -/
def equalLayer? (h : Heap) (nested : Value → Value → Option Bool) : Value → Value → Option Bool
  | .float64 x, .float64 y => some (x.ieeeEq y)
  | .object r, .object s =>
    if r = s then some true
    else if (h.typeAt r).isValueType && (h.typeAt r).handle == (h.typeAt s).handle then
      equalAll? nested (h.slotsAt r) (h.slotsAt s)
    else some false
  | a, b => some (a == b)

/-- Equality of two values, looked into through at most `depth` nested
boxes. -/
def equal? (h : Heap) : (depth : Nat) → Value → Value → Option Bool
  | 0 => h.equalLayer? fun _ _ => none
  | depth + 1 => h.equalLayer? (h.equal? depth)

/-- **Equality of values.** -/
def eq? (h : Heap) (a b : Value) : Option Bool := h.equal? h.objects.size a b

end Heap

end MemberAccess
