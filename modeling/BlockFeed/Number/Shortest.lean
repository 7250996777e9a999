import BlockFeed.Number.Binary64

/-! The shortest decimal text that reads back as a given number, and the two layouts it is written
in. -/

namespace BlockFeed

/-- The number `digits / 10 ^ (number of digits) * 10 ^ point`: the point stands behind `point`
digits. -/
structure ShortDecimal where
  digits : List Char
  point : Int
  deriving Repr, DecidableEq

namespace Binary64

/-- The numerator and the denominator of `n * 10 ^ e`. -/
def decimalRatio (n : Nat) (e : Int) : Nat × Nat :=
  if 0 ≤ e then (n * Nat.pow 10 e.toNat, 1) else (n, Nat.pow 10 (-e).toNat)

def readsBack (x : Binary64) (n : Nat) (e : Int) : Bool :=
  let (a, b) := decimalRatio n e
  ofRatio? a b == some x

/-- The least `p` with the number below `10 ^ p`, from a guess that is one too low at most. -/
def decimalPoint (x : Binary64) : Int :=
  let (a, b) := x.ratio
  let bits : Int := (a.log2 : Int) - b.log2
  let low : Int := (bits - 1) * 30103 / 100000
  let fits (p : Int) : Bool :=
    let (c, d) := decimalRatio 1 p
    a * d < c * b
  if fits low then low
  else if fits (low + 1) then low + 1
  else if fits (low + 2) then low + 2
  else low + 3

/-- Of the two neighbours of the number on the grid of `10 ^ e`, the nearer that reads back. -/
def nearest? (x : Binary64) (e : Int) : Option Nat :=
  let (a, b) := x.ratio
  let (c, d) := decimalRatio 1 e
  let n := a * d
  let m := b * c
  let low := n / m
  let r := n % m
  let high := low + 1
  match readsBack x low e, readsBack x high e with
  | true, true =>
    some (if 2 * r < m then low else if m < 2 * r then high else if low % 2 = 0 then low else high)
  | true, false => some low
  | false, true => some high
  | false, false => none

/-- Tries one digit more at a time; seventeen always suffice. -/
def shortestFrom (x : Binary64) (point : Int) : Nat → Nat → ShortDecimal
  | 0, _ => ⟨[], point⟩
  | fuel + 1, count =>
    match nearest? x (point - count) with
    | some n => ⟨Nat.toDigits 10 n, point - count + (Nat.toDigits 10 n).length⟩
    | none => shortestFrom x point fuel (count + 1)

def shortest (x : Binary64) : ShortDecimal :=
  if x.significand = 0 then ⟨['0'], 1⟩ else shortestFrom x x.decimalPoint 17 1

end Binary64

namespace ShortDecimal

def zeros (n : Int) : List Char := List.replicate n.toNat '0'

/-- The digits without zeros at the end. -/
def trimmed (s : ShortDecimal) : List Char :=
  let ds := (s.digits.reverse.dropWhile (· = '0')).reverse
  if ds.isEmpty then ['0'] else ds

/-- Positional text without an exponent; whole numbers have no point. -/
def plain (s : ShortDecimal) : List Char :=
  let ds := s.trimmed
  let n : Int := ds.length
  if s.point ≤ 0 then ['0', '.'] ++ zeros (-s.point) ++ ds
  else if n ≤ s.point then ds ++ zeros (s.point - n)
  else ds.take s.point.toNat ++ '.' :: ds.drop s.point.toNat

/-- Positional from 0.00001 up to sixteen digits before the point, always with a place; otherwise
one digit, its places and a signed exponent. -/
def marked (s : ShortDecimal) : List Char :=
  let ds := s.trimmed
  let n : Int := ds.length
  if -4 ≤ s.point ∧ s.point ≤ 16 then
    if 0 < s.point ∧ n ≤ s.point then s.plain ++ ['.', '0'] else s.plain
  else
    let exponent := s.point - 1
    ds.take 1 ++ (if n = 1 then [] else '.' :: ds.drop 1) ++ ['e'] ++
      (if exponent < 0 then ['-'] else ['+']) ++ Nat.toDigits 10 exponent.natAbs

end ShortDecimal

end BlockFeed
