import HunkScope.Decimal.Shortest

/-!
# Layouts of decimals

A `Layout` says how a floating-point number is written: which powers of ten of the leading digit
are written out in full, and how an exponent is marked otherwise. A number written out in full
always has a digit on each side of its point.

Premise: floating-point numbers are written by their shortest decimals, in texts of structured data
as in the errors of decoders.
-/

namespace HunkScope.Decimal

/-- How a floating-point number is written. -/
structure Layout where
  /-- The least power of ten of a leading digit that is written out in full. -/
  leastFull : Int
  /-- The greatest such power. -/
  greatestFull : Int
  /-- What stands between the digits and the exponent. -/
  mark : String
  /-- The sign of an exponent that is not negative. -/
  plus : String
deriving DecidableEq, Repr

namespace Layout

/-- An exponent with its mark and its sign. -/
def exponent (l : Layout) (e : Int) : String :=
  l.mark ++ (if 0 ≤ e then l.plus else "") ++ toString e

/-- A run of zeros. -/
def zeros (n : Nat) : String := String.ofList (List.replicate n '0')

/-- A positive decimal, its digits not ending in zero. -/
def ofDecimal (l : Layout) (d : Scaled) : String :=
  let digits := toString d.digits
  let leading := d.scale + digits.length - 1
  if l.leastFull ≤ leading ∧ leading ≤ l.greatestFull then
    if 0 ≤ d.scale then digits ++ zeros d.scale.toNat ++ ".0"
    else if 0 ≤ leading then
      let whole := (leading + 1).toNat
      String.ofList (digits.toList.take whole) ++ "." ++ String.ofList (digits.toList.drop whole)
    else "0." ++ zeros (-leading - 1).toNat ++ digits
  else
    let rest := digits.toList.drop 1
    String.ofList (digits.toList.take 1) ++ (if rest.isEmpty then "" else "." ++ String.ofList rest)
      ++ l.exponent leading

/-- A floating-point number by the fewest digits that read back as it. -/
def ofFloat (l : Layout) (x : Float) : String :=
  let bits := x.toBits
  let sign := if UInt64.size / 2 ≤ bits.toNat then "-" else ""
  if x.isNaN then "NaN"
  else if x.isInf then sign ++ "inf"
  else
    let b := Binary.ofBits bits
    sign ++ if b.significand = 0 then "0.0" else l.ofDecimal b.shortest

/-! ## A layout at work -/

example : (Layout.mk (-2) 3 "e" "+").ofDecimal ⟨15, -1⟩ = "1.5" := by decide +kernel

example : (Layout.mk (-2) 3 "e" "+").ofDecimal ⟨2, 3⟩ = "2000.0" := by decide +kernel

example : (Layout.mk (-2) 3 "e" "+").ofDecimal ⟨2, 4⟩ = "2e+4" := by decide +kernel

example : (Layout.mk (-2) 3 "e" "+").ofDecimal ⟨12, -3⟩ = "0.012" := by decide +kernel

example : (Layout.mk (-2) 3 "e" "+").ofDecimal ⟨125, -5⟩ = "1.25e-3" := by decide +kernel

end Layout

end HunkScope.Decimal
