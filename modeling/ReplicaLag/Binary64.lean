/-!
The 64-bit binary floating-point numbers, as words of sign, exponent and fraction. Arithmetic is
done on exact fractions and rounded once, to the nearest representable number and to the even one of
two that are equally near.
-/

namespace ReplicaLag

/-- A binary floating-point number: one sign bit, eleven of exponent, fifty-two of fraction. -/
structure Binary64 where
  bits : UInt64
  deriving DecidableEq, Repr, Inhabited

namespace Binary64

def signBit : Nat := 0x8000000000000000

/-- The weight of the bit above the fraction, which every significand but the smallest ones has. -/
def leadingBit : Nat := 0x10000000000000

def magnitude (x : Binary64) : Nat := x.bits.toNat % signBit

def isNegative (x : Binary64) : Bool := signBit ≤ x.bits.toNat

/-- The magnitude of the infinities; above it stand the words that are not numbers. -/
def infinite : Nat := 2047 * leadingBit

def isFinite (x : Binary64) : Bool := x.magnitude < infinite

def isZero (x : Binary64) : Bool := x.magnitude = 0

/-- The number with the given magnitude word and sign. -/
def ofMagnitude (isNegative : Bool) (m : Nat) : Binary64 :=
  ⟨UInt64.ofNat (if isNegative then signBit + m else m)⟩

def neg (x : Binary64) : Binary64 := ofMagnitude (!x.isNegative) x.magnitude

/-- Zero equals zero whatever the signs; all other numbers equal only themselves. -/
def same (x y : Binary64) : Bool := x = y || (x.isZero && y.isZero)

/-- A finite number is its significand times two to its exponent, up to sign. -/
def significand (x : Binary64) : Nat :=
  if x.magnitude < leadingBit then x.magnitude else x.magnitude % leadingBit + leadingBit

def exponent (x : Binary64) : Int :=
  if x.magnitude < leadingBit then -1074 else (x.magnitude / leadingBit : Nat) - 1075

/-- The absolute value as numerator and denominator. -/
def ratio (x : Binary64) : Nat × Nat :=
  if 0 ≤ x.exponent then (x.significand <<< x.exponent.toNat, 1)
  else (x.significand, 1 <<< (-x.exponent).toNat)

/-- The quotient rounded to the nearest integer, a half to the even one. -/
def roundDiv (num den : Nat) : Nat :=
  let q := num / den
  let r := num % den
  if 2 * r < den then q else if den < 2 * r then q + 1 else q + q % 2

/-- `num / den / 2 ^ e` as numerator and denominator. -/
def scaled (num den : Nat) (e : Int) : Nat × Nat :=
  if 0 ≤ e then (num, den <<< e.toNat) else (num <<< (-e).toNat, den)

/-- The exponent that leaves `num / den` a significand of fifty-three bits, or fewer where the
exponent is the least there is. -/
def fitExponent (num den : Nat) : Int :=
  let e := max ((num.log2 : Int) - den.log2 - 53) (-1074)
  let s := scaled num den e
  if s.1 / s.2 < 2 * leadingBit then e else e + 1

/-- The nearest number to `num / den`, infinite when that is beyond the largest finite one. -/
def ofRatio (num den : Nat) : Binary64 :=
  if num = 0 then ⟨0⟩
  else
    let e := fitExponent num den
    let s := scaled num den e
    ofMagnitude false (min ((e + 1074).toNat * leadingBit + roundDiv s.1 s.2) infinite)

def ofNat (n : Nat) : Binary64 := ofRatio n 1

def mul (x y : Binary64) : Binary64 :=
  ofRatio (x.ratio.1 * y.ratio.1) (x.ratio.2 * y.ratio.2)

/-- The quotient of two absolute values, rounded; the divisor is not zero. -/
def div (x y : Binary64) : Binary64 :=
  ofRatio (x.ratio.1 * y.ratio.2) (x.ratio.2 * y.ratio.1)

theorem same_self (x : Binary64) : x.same x = true := by simp [same]

end Binary64

end ReplicaLag
