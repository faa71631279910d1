/-!
# Decimal — the fewest digits that read back

A number held with limited precision stands for all reals that round to it.
Its shortest decimal is a point of the coarsest decimal grid that meets that
interval, and of two such points the nearer. `Interval.shortest` finds it in
exact arithmetic, `positional` writes it without an exponent.
-/

namespace MemberAccess

namespace Decimal

/-- **The reals that round to one positive number**, as multiples of
`1 / den`: those between `low` and `high`, the ends included when `closed`. -/
structure Interval where
  value : Nat
  low : Nat
  high : Nat
  den : Nat
  closed : Bool
deriving DecidableEq, Repr

namespace Interval

/-- The same interval measured in units of `10 ^ j`. -/
def inUnits (I : Interval) (j : Int) : Interval :=
  let up := Nat.pow 10 (-j).toNat
  { I with
    value := I.value * up
    low := I.low * up
    high := I.high * up
    den := I.den * Nat.pow 10 j.toNat }

/-- Whether the whole number `k` lies in the interval. -/
def holds (I : Interval) (k : Nat) : Bool :=
  if I.closed then decide (I.low ≤ k * I.den ∧ k * I.den ≤ I.high)
  else decide (I.low < k * I.den ∧ k * I.den < I.high)

/-- The whole number of the interval nearest to its value, the upper one when
two are equally near. A grid that meets the interval meets it in one of the
value's two neighbours, so only these are tried. -/
def nearest? (I : Interval) : Option Nat :=
  let k := I.value / I.den
  match I.holds k, I.holds (k + 1) with
  | true, true => some (if I.den ≤ 2 * (I.value - k * I.den) then k + 1 else k)
  | true, false => some k
  | false, true => some (k + 1)
  | false, false => none

/-- The number of digits before the point; zero or less below one tenth. -/
def magnitude (I : Interval) : Int :=
  if I.den ≤ I.value then (Nat.toDigits 10 (I.value / I.den)).length
  else
    match (List.range 400).find? (fun k => I.den ≤ I.value * Nat.pow 10 k) with
    | some k => 1 - (k : Int)
    | none => 0

/-- **The shortest decimal**: digits `d` and exponent `e` stand for
`d * 10 ^ e`. Seventeen digits always suffice for a double. -/
def shortest (I : Interval) : Nat × Int :=
  let p := I.magnitude
  ((List.range 17).findSome? fun (n : Nat) =>
    let j := p - 1 - (n : Int)
    (I.inUnits j).nearest?.map fun d => (d, j)).getD (0, 0)

end Interval

/-- `d * 10 ^ e` written out in full, without an exponent and without idle
zeros behind the point. -/
def positional (d : Nat) (e : Int) : String :=
  let digits := Nat.toDigits 10 d
  let zeros := (digits.reverse.takeWhile (· == '0')).length
  let digits := digits.take (digits.length - zeros)
  let e := e + (zeros : Int)
  if 0 ≤ e then String.ofList (digits ++ List.replicate e.toNat '0')
  else
    let places := (-e).toNat
    let whole := digits.length - places
    if digits.length ≤ places then
      "0." ++ String.ofList (List.replicate (places - digits.length) '0' ++ digits)
    else
      String.ofList (digits.take whole) ++ "." ++ String.ofList (digits.drop whole)

end Decimal

end MemberAccess
