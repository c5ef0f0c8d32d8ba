/-!
# Shortest decimals

A binary floating-point number stands for the interval of reals that round to it. The shortest
decimal of the number is the point of that interval on the coarsest decimal grid that has one; of
two such points the nearer, and on a tie the even one. All of it is exact arithmetic on naturals.

* `Binary.ofBits`: the significand and the exponent of a 64-bit pattern.
* `Binary.gridPoint?`: the point of the grid of multiples of `10 ^ k`, if it has one.
* `Binary.shortest`: the point of the coarsest grid.
-/

namespace HunkScope.Decimal

/-- The positive number `significand * 2 ^ exponent`, and whether the next smaller number is half
as far from it as the next larger one. -/
structure Binary where
  significand : Nat
  exponent : Int
  tightBelow : Bool
deriving DecidableEq, Repr

/-- The decimal number `digits * 10 ^ scale`. -/
structure Scaled where
  digits : Nat
  scale : Int
deriving DecidableEq, Repr

namespace Binary

/-- The number of fractions that a pattern tells apart: two to the 52. -/
def fractions : Nat := 0x10000000000000

/-- The number of exponents that a pattern tells apart: two to the 11. -/
def exponents : Nat := 0x800

/-- The magnitude of a finite 64-bit pattern. -/
def ofBits (bits : UInt64) : Binary :=
  let fraction := bits.toNat % fractions
  let biased : Nat := bits.toNat / fractions % exponents
  if biased = 0 then ⟨fraction, -1074, false⟩
  else ⟨fractions + fraction, (biased : Int) - 1075, fraction == 0 && decide (1 < biased)⟩

/-- With the number written as `4 * significand` quarters of its unit, a multiple `d` of `unit`
quarters, each of `part`, rounds to the number. -/
def holds (b : Binary) (part unit d : Nat) : Bool :=
  let low := (4 * b.significand - if b.tightBelow then 1 else 2) * part
  let high := (4 * b.significand + 2) * part
  if b.significand % 2 == 0 then decide (low ≤ d * unit) && decide (d * unit ≤ high)
  else decide (low < d * unit) && decide (d * unit < high)

/-- The multiple of `10 ^ k` that rounds to the number, the nearest if there are two. -/
def gridPoint? (b : Binary) (k : Int) : Option Nat :=
  let part := Nat.pow 2 (b.exponent - 2).toNat * Nat.pow 10 (-k).toNat
  let unit := Nat.pow 2 (2 - b.exponent).toNat * Nat.pow 10 k.toNat
  let here := 4 * b.significand * part
  let below := here / unit
  let above := below + 1
  match decide (0 < below) && b.holds part unit below, b.holds part unit above with
  | false, false => none
  | true, false => some below
  | false, true => some above
  | true, true =>
    let under := here - below * unit
    let beyond := above * unit - here
    if under < beyond then some below
    else if beyond < under then some above
    else if below % 2 = 0 then some below else some above

/-- The shortest decimal that rounds to the number. No 64-bit number has a point on a grid coarser
than `10 ^ 309`, and each has one on the grid of `10 ^ (-324)`. -/
def shortest (b : Binary) : Scaled :=
  let found := (List.range 634).findSome? fun (i : Nat) =>
    let k := (309 : Int) - i
    (b.gridPoint? k).map fun d => Scaled.mk d k
  found.getD ⟨0, 0⟩

/-! ## Some shortest decimals -/

/-- One tenth: the pattern stands for more digits, but one is enough. -/
example : (ofBits 0x3FB999999999999A).shortest = ⟨1, -1⟩ := by decide +kernel

/-- The least positive number. -/
example : (ofBits 1).shortest = ⟨5, -324⟩ := by decide +kernel

/-- The greatest finite number. -/
example : (ofBits 0x7FEFFFFFFFFFFFFF).shortest = ⟨17976931348623157, 292⟩ := by decide +kernel

end Binary

end HunkScope.Decimal
