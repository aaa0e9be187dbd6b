/-! # Shortest decimals

The shortest decimal that reads back as a given binary fraction, found on the coarsest decimal grid
that has a point among the reals rounding to it.
-/

namespace ContentSchema.Decimal

/-- The positive number `mantissa * 2 ^ exponent`. -/
structure Binary where
  mantissa : Nat
  exponent : Int

namespace Binary

/-- The magnitude of a double; its sign bit is not looked at. -/
def ofBits (bits : UInt64) : Binary :=
  let fraction := bits.toNat % Nat.pow 2 52
  let stored : Nat := bits.toNat / Nat.pow 2 52 % Nat.pow 2 11
  if stored = 0 then ⟨fraction, -1074⟩ else ⟨fraction + Nat.pow 2 52, Int.ofNat stored - 1075⟩

/-- Below a power of two the doubles lie twice as close as above it. -/
def isPower (b : Binary) : Bool := b.mantissa == Nat.pow 2 52 && b.exponent != -1074

end Binary

/-- The number `digits * 10 ^ exponent`. -/
structure Scaled where
  digits : Nat
  exponent : Int
  deriving DecidableEq

namespace Scaled

/-- Whether `a * 2 ^ e ≤ d * 10 ^ k`. -/
def atLeast (a : Nat) (e : Int) (d : Nat) (k : Int) : Bool :=
  a * Nat.pow 2 e.toNat * Nat.pow 10 (-k).toNat ≤ d * Nat.pow 10 k.toNat * Nat.pow 2 (-e).toNat

/-- Whether `d * 10 ^ k ≤ a * 2 ^ e`. -/
def atMost (a : Nat) (e : Int) (d : Nat) (k : Int) : Bool :=
  d * Nat.pow 10 k.toNat * Nat.pow 2 (-e).toNat ≤ a * Nat.pow 2 e.toNat * Nat.pow 10 (-k).toNat

/-- Whether the number rounds to `b`; the ends of the interval do when the mantissa is even. -/
def roundsTo (b : Binary) (s : Scaled) : Bool :=
  let low := 4 * b.mantissa - (if b.isPower then 1 else 2)
  let high := 4 * b.mantissa + 2
  let even := b.mantissa % 2 == 0
  atLeast low (b.exponent - 2) s.digits s.exponent &&
    atMost high (b.exponent - 2) s.digits s.exponent &&
    (even || !(atMost low (b.exponent - 2) s.digits s.exponent ||
      atLeast high (b.exponent - 2) s.digits s.exponent))

/-- The nearer of the two neighbours of `b` on the grid of step `10 ^ k`, if one rounds to `b`; of
two equally near ones the even. -/
def onGrid (b : Binary) (k : Int) : Option Scaled :=
  let num := b.mantissa * Nat.pow 2 b.exponent.toNat * Nat.pow 10 (-k).toNat
  let den := Nat.pow 2 (-b.exponent).toNat * Nat.pow 10 k.toNat
  let below : Scaled := ⟨num / den, k⟩
  let above : Scaled := ⟨num / den + 1, k⟩
  let rest := 2 * (num % den)
  let near := if rest < den ∨ rest = den ∧ num / den % 2 = 0 then [below, above] else [above, below]
  near.find? fun s => s.digits != 0 && s.roundsTo b

/-- The shortest decimal of a finite double other than zero; grids are tried from the coarsest. -/
def shortest (b : Binary) : Option Scaled :=
  if b.mantissa = 0 then none
  else (List.range 660).findSome? fun i : Nat => onGrid b (310 - Int.ofNat i)

end Scaled

/-- How a decimal is written: positional while its point stands close to its digits. -/
structure Layout where
  /-- Positional from this place of the point, exclusive. -/
  after : Int
  /-- Positional up to this place of the point. -/
  upTo : Int

def zeros (n : Nat) : String := String.ofList (List.replicate n '0')

namespace Layout

def write (layout : Layout) (s : Scaled) : String :=
  let digits := (toString s.digits).toList
  let point := (digits.length : Int) + s.exponent
  let split (n : Nat) := String.ofList (digits.take n) ++ "." ++ String.ofList (digits.drop n)
  if layout.after < point ∧ point ≤ layout.upTo then
    if 0 ≤ s.exponent then toString s.digits ++ zeros s.exponent.toNat ++ ".0"
    else if 0 < point then split point.toNat
    else "0." ++ zeros (-point).toNat ++ toString s.digits
  else
    let lead := if digits.length = 1 then toString s.digits else split 1
    lead ++ (if 0 < point then "e+" else "e-") ++ toString (point - 1).natAbs

end Layout

end ContentSchema.Decimal
