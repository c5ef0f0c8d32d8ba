import HunkScope.Data.Value

/-!
# Numerals

A `Numeral` is a number as it was written in decimal. One without a fraction and without an
exponent is an integer as long as a 64-bit word, signed or not, can hold it and it is not a
negative zero; every other numeral is a floating-point number.

A floating-point numeral is read by its leading digits, as many as a 64-bit word holds, scaled by
a power of ten.

Premise: this is how numbers are read from a text of structured data (`serde_json`).
-/

namespace HunkScope

/-- A number as it was written; digits are given by their values. -/
structure Numeral where
  negative : Bool
  whole : List Nat
  fraction : Option (List Nat)
  exponent : Option Int
deriving DecidableEq, Repr

namespace Numeral

/-- Leading digits, the power of ten they are scaled by, and whether a digit was left out. -/
structure Leading where
  digits : Nat
  scale : Int
  full : Bool

/-- Takes one digit more unless a digit was left out or the digits outgrow a word. `taken` is the
change of scale for a digit that is taken, `left` for one that is not. -/
def Leading.take (taken left : Int) (l : Leading) (d : Nat) : Leading :=
  if !l.full && decide (l.digits * 10 + d < UInt64.size) then
    { l with digits := l.digits * 10 + d, scale := l.scale + taken }
  else { l with scale := l.scale + left, full := true }

/-- The leading digits of a numeral and their scale. -/
def leading (n : Numeral) : Leading :=
  let whole := n.whole.foldl (Leading.take 0 1) ⟨0, 0, false⟩
  let both := (n.fraction.getD []).foldl (Leading.take (-1) 0) { whole with full := false }
  { both with scale := both.scale + n.exponent.getD 0 }

/-- A power of ten. -/
def powerOfTen (k : Nat) : Float := Float.ofScientific 1 false k

/-- A number scaled by a power of ten; by two powers where one is out of range. -/
def scaled (x : Float) (k : Int) : Float :=
  if 0 ≤ k then x * powerOfTen k.toNat
  else if -308 ≤ k then x / powerOfTen (-k).toNat
  else if -616 ≤ k then x / powerOfTen 308 / powerOfTen (-k - 308).toNat
  else 0.0

/-- The floating-point number of a numeral. -/
def toFloat (n : Numeral) : Float :=
  let l := n.leading
  let x := scaled (Float.ofNat l.digits) l.scale
  if n.negative then -x else x

/-- The integer of a numeral that has one. -/
def toInt? (n : Numeral) : Option Int :=
  let magnitude : Nat := n.whole.foldl (fun m d => m * 10 + d) 0
  if n.fraction.isSome || n.exponent.isSome then none
  else if n.negative then
    if 0 < magnitude ∧ magnitude ≤ UInt64.size / 2 then some (-(magnitude : Int)) else none
  else if magnitude < UInt64.size then some magnitude else none

/-- The value of a numeral. -/
def toValue (n : Numeral) : Value :=
  match n.toInt? with
  | some i => .int i
  | none => .float n.toFloat

end Numeral

end HunkScope
