/-! Non-negative finite numbers of binary floating point in 64 bits: 53 bits of significand and
exponents from -1074 on. Arithmetic is exact and then rounded to the nearest number, a tie to the
even one. -/

namespace BlockFeed

/-- The number `significand * 2 ^ exponent`. -/
structure Binary64 where
  significand : Nat
  exponent : Int
  deriving Repr, DecidableEq

namespace Binary64

def minExponent : Int := -1074

def maxExponent : Int := 971

/-- The least significand of 53 bits. -/
def leastFull : Nat := 0x10000000000000

def zero : Binary64 := ⟨0, minExponent⟩

/-- The numerator and the denominator of `n / d * 2 ^ e`. -/
def scaleBy (n d : Nat) (e : Int) : Nat × Nat :=
  if 0 ≤ e then (n <<< e.toNat, d) else (n, d <<< (-e).toNat)

/-- The integer nearest to `n / d`, of two the even one. -/
def roundRatio (n d : Nat) : Nat :=
  let q := n / d
  let r := n % d
  if 2 * r < d then q
  else if d < 2 * r then q + 1
  else if q % 2 = 0 then q else q + 1

/-- The exponent at which `n / d` has a significand of 53 bits. -/
def exponentOf (n d : Nat) : Int :=
  let guess : Int := (n.log2 : Int) - d.log2 - 52
  let (a, b) := scaleBy n d (-guess)
  let e := if a / b < leastFull then guess - 1 else guess
  if e < minExponent then minExponent else e

/-- The number nearest to `n / d`, none beyond the greatest. -/
def ofRatio? (n d : Nat) : Option Binary64 :=
  if n = 0 then some zero
  else
    let e := exponentOf n d
    let (a, b) := scaleBy n d (-e)
    let s := roundRatio a b
    let x : Binary64 := if s = 2 * leastFull then ⟨leastFull, e + 1⟩ else ⟨s, e⟩
    if maxExponent < x.exponent then none else some x

/-- Numerator and denominator. -/
def ratio (x : Binary64) : Nat × Nat := scaleBy x.significand 1 x.exponent

def ofNat? (n : Nat) : Option Binary64 := ofRatio? n 1

def mul? (x y : Binary64) : Option Binary64 :=
  let (a, b) := x.ratio
  let (c, d) := y.ratio
  ofRatio? (a * c) (b * d)

/-- The quotient by a number that is not zero. -/
def div? (x y : Binary64) : Option Binary64 :=
  let (a, b) := x.ratio
  let (c, d) := y.ratio
  ofRatio? (a * d) (b * c)

end Binary64

end BlockFeed
