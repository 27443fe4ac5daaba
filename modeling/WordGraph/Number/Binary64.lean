/-!
Numbers of the IEEE 754 binary64 format, held as their bits. A decimal is rounded to the nearest of
them in exact natural arithmetic; two are compared by rank, so the zeros of both signs are equal.
-/

namespace WordGraph

/-- A binary64 number other than a NaN, as its sign, exponent and fraction bits. -/
structure Binary64 where
  bits : UInt64
  deriving DecidableEq, Inhabited

namespace Binary64

def signBit : Nat := 0x8000000000000000
def infinityBits : Nat := 0x7FF0000000000000

/-- Grows with the value and is 0 for both zeros. -/
def rank (x : Binary64) : Int :=
  let n := x.bits.toNat
  if n < signBit then n else -((n - signBit : Nat) : Int)

def less (x y : Binary64) : Bool := x.rank < y.rank
def equal (x y : Binary64) : Bool := x.rank = y.rank

def roundQuotient (numerator denominator : Nat) : Nat :=
  let q := numerator / denominator
  let r := numerator % denominator
  if 2 * r < denominator || (2 * r = denominator && q % 2 = 0) then q else q + 1

/-- The exponent of the largest power of two that is not above the quotient. -/
def floorLog2 (numerator denominator : Nat) : Int :=
  let e : Int := numerator.log2 - denominator.log2
  let fits : Bool :=
    if 0 ≤ e then denominator <<< e.toNat ≤ numerator
    else denominator ≤ numerator <<< (-e).toNat
  if fits then e else e - 1

/-- The bits, without the sign, of the number nearest to a positive quotient. Fraction and exponent
are added, so that a fraction rounded up to the next power of two carries into the exponent. -/
def magnitudeBits (numerator denominator : Nat) : Nat :=
  let e := max (floorLog2 numerator denominator - 52) (-1074)
  let m :=
    if 0 ≤ e then roundQuotient numerator (denominator <<< e.toNat)
    else roundQuotient (numerator <<< (-e).toNat) denominator
  min ((e + 1074).toNat <<< 52 + m) infinityBits

def ofMagnitude (negative : Bool) (magnitude : Nat) : Binary64 :=
  ⟨.ofNat (if negative then signBit + magnitude else magnitude)⟩

def infinity (negative : Bool) : Binary64 := ofMagnitude negative infinityBits

/-- The number nearest to `digits · 10^exponent`. Beyond 10^±400 the answer is settled by the order
of magnitude alone. -/
def nearest (negative : Bool) (digits : Nat) (exponent : Int) : Binary64 :=
  let order : Int := (Nat.toDigits 10 digits).length + exponent
  if digits = 0 || order < -400 then ofMagnitude negative 0
  else if 400 < order then infinity negative
  else if 0 ≤ exponent then ofMagnitude negative (magnitudeBits (digits * Nat.pow 10 exponent.toNat) 1)
  else ofMagnitude negative (magnitudeBits digits (Nat.pow 10 (-exponent).toNat))

end Binary64
end WordGraph
