import MemberAccess.Float64
/-!
# Value — what receivers, arguments and results are

A value is null, a primitive, a piece of text or a reference to an object on
the heap. The object itself, with its type and its slots, is the heap's
affair (`Heap`); a value only points at it.
-/

namespace MemberAccess

/-- A reference to an object of the heap. -/
structure ObjectRef where
  index : Nat
deriving DecidableEq, Inhabited, Repr

/-- A reference to the cell of a static field. -/
structure CellRef where
  index : Nat
deriving DecidableEq, Inhabited, Repr

/-- **A dynamically typed value.** -/
inductive Value where
  | null
  | bool (b : Bool)
  | int32 (i : Int32)
  | int64 (i : Int64)
  | float64 (x : Float64)
  | str (s : String)
  /-- A class instance, or a boxed struct. -/
  | object (r : ObjectRef)
deriving DecidableEq, Inhabited

namespace Value

def isNull : Value → Bool
  | null => true
  | _ => false

def toBool? : Value → Option Bool
  | bool b => some b
  | _ => none

def toInt32? : Value → Option Int32
  | int32 i => some i
  | _ => none

def toInt64? : Value → Option Int64
  | int64 i => some i
  | _ => none

def toFloat64? : Value → Option Float64
  | float64 x => some x
  | _ => none

def toStr? : Value → Option String
  | str s => some s
  | _ => none

def toObject? : Value → Option ObjectRef
  | object r => some r
  | _ => none

/-- Two values are the same object when both refer to it; no primitive is an
object. -/
def sameObject : Value → Value → Bool
  | object r, object s => r == s
  | _, _ => false

end Value

end MemberAccess
