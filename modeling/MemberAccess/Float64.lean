import MemberAccess.Decimal.Shortest
/-!
# Float64 — 64-bit floating point, by its bits

Values are stored, copied, compared and printed but never computed with, so a
double is its bit pattern. Comparison is the IEEE one, under which a NaN
differs from itself and the two zeros are equal.
-/

namespace MemberAccess

/-- **A double, as its IEEE 754 bits.** Equality of this type is equality of
bits; `Float64.ieeeEq` is equality of numbers. -/
structure Float64 where
  bits : UInt64
deriving DecidableEq, Inhabited, Repr

namespace Float64

/-- Positive zero. -/
def zero : Float64 := ⟨0⟩

def isNegative (x : Float64) : Bool := x.bits >>> 63 == 1

/-- The biased exponent. -/
def exponent (x : Float64) : Nat := ((x.bits >>> 52) &&& 0x7FF).toNat

/-- The stored part of the significand. -/
def fraction (x : Float64) : Nat := (x.bits &&& 0xFFFFFFFFFFFFF).toNat

def isNaN (x : Float64) : Bool := x.exponent == 0x7FF && x.fraction != 0

def isInfinite (x : Float64) : Bool := x.exponent == 0x7FF && x.fraction == 0

def isZero (x : Float64) : Bool := x.exponent == 0 && x.fraction == 0

/-- Equality of numbers: no NaN equals anything, and the two zeros are equal. -/
def ieeeEq (x y : Float64) : Bool :=
  !x.isNaN && !y.isNaN && (x == y || x.isZero && y.isZero)

/-- The reals that round to the magnitude of a finite number other than zero.
The gap below a power of two is half the gap above, except at the least
exponent. -/
def interval (x : Float64) : Decimal.Interval :=
  let e := x.exponent
  let m := if e == 0 then x.fraction else x.fraction + Nat.pow 2 52
  let shift : Int := (if e == 0 then 1 else (e : Int)) - 1075
  let below := if x.fraction == 0 && 1 < e then 1 else 2
  let up := Nat.pow 2 shift.toNat
  { value := 4 * m * up
    low := (4 * m - below) * up
    high := (4 * m + 2) * up
    den := 4 * Nat.pow 2 (-shift).toNat
    closed := m % 2 == 0 }

/-- **A double is written with the fewest digits that read back**, without an
exponent and, when whole, without a point. -/
def text (x : Float64) : String :=
  if x.isNaN then "NaN"
  else
    let magnitude :=
      if x.isInfinite then "inf"
      else if x.isZero then "0"
      else
        let (d, e) := x.interval.shortest
        Decimal.positional d e
    if x.isNegative then "-" ++ magnitude else magnitude

/-! ## Bits in hexadecimal -/

/-- The bits as sixteen hexadecimal digits, which tell all doubles apart. -/
def hex (x : Float64) : String :=
  String.ofList ((List.range 16).map fun i =>
    Nat.digitChar (x.bits.toNat / Nat.pow 16 (15 - i) % 16))

/-- The number that a hexadecimal digit of either case stands for. -/
def hexDigit? (c : Char) : Option Nat :=
  (List.range 16).find? fun d => Nat.digitChar d == c.toLower

/-- The double whose bits are written in hexadecimal. -/
def ofHex? (s : String) : Option Float64 := do
  let digits ← s.toList.mapM hexDigit?
  return ⟨UInt64.ofNat (digits.foldl (fun n d => 16 * n + d) 0)⟩

end Float64

end MemberAccess
