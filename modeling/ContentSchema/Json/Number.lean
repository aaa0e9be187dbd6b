import ContentSchema.Decimal.Shortest

/-! # JSON numbers

A number is a whole number of 64 bits, signed or unsigned, or else a double.
-/

namespace ContentSchema.Json

inductive Number where
  | whole (value : Int)
  | double (bits : UInt64)
  deriving DecidableEq

namespace Number

/-- Doubles are positional from `1e-5` to below `1e16`. -/
def layout : Decimal.Layout := ⟨-5, 16⟩

def doubleText (bits : UInt64) : String :=
  let sign := if bits.toNat < Nat.pow 2 63 then "" else "-"
  sign ++ match Decimal.Scaled.shortest (Decimal.Binary.ofBits bits) with
    | some s => layout.write s
    | none => "0.0"

def text : Number → String
  | whole value => toString value
  | double bits => doubleText bits

/-- Reads a digit onto the significand unless 64 bits no longer hold it. -/
def push (significand : Nat) (digit : Char) : Option Nat :=
  let next := significand * 10 + (digit.toNat - '0'.toNat)
  if next < Nat.pow 2 64 then some next else none

/-- The significand of the digits before the point, and the number of digits left out of it. -/
def wholePart (significand : Nat) : List Char → Nat × Nat
  | [] => (significand, 0)
  | c :: rest =>
    match push significand c with
    | some next => wholePart next rest
    | none => (significand, rest.length + 1)

/-- The significand with the digits after the point, and the number of digits read onto it. -/
def fractionPart (significand taken : Nat) : List Char → Nat × Nat
  | [] => (significand, taken)
  | c :: rest =>
    match push significand c with
    | some next => fractionPart next (taken + 1) rest
    | none => (significand, taken)

def powerOfTen (n : Nat) : Float := Float.ofScientific 1 false n

/-- `significand * 10 ^ exponent` in one rounded step of double arithmetic, unless it overflows.
Exponents too small for a power of ten take a step of `10 ^ -308` first. -/
def scale (significand : Nat) (exponent : Int) : Option Float :=
  let f := significand.toUInt64.toFloat
  if significand = 0 then some f
  else if 308 < exponent then none
  else if 0 ≤ exponent then
    let scaled := f * powerOfTen exponent.toNat
    if scaled.isFinite then some scaled else none
  else if -308 ≤ exponent then some (f / powerOfTen (-exponent).toNat)
  else if -616 ≤ exponent then some (f / powerOfTen 308 / powerOfTen (-exponent - 308).toNat)
  else some 0

/-- The value of a numeral, given by its sign, its digits before and after the point, and its
exponent; none if it lies beyond the doubles. A zero with a minus sign is a double. -/
def ofNumeral (negative : Bool) (digits : List Char) (fraction : Option (List Char))
    (exponent : Option Int) : Option Number :=
  let (significand, dropped) := wholePart 0 digits
  if fraction.isNone && exponent.isNone && dropped == 0 && !negative then
    some (whole significand)
  else if fraction.isNone && exponent.isNone && dropped == 0 && 0 < significand &&
      significand ≤ Nat.pow 2 63 then
    some (whole (-significand))
  else
    let (significand, taken) := fractionPart significand 0 (fraction.getD [])
    let shift := exponent.getD 0 + dropped - taken
    (scale significand shift).map fun f => double (if negative then -f else f).toBits

end Number

end ContentSchema.Json
