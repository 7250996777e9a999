import BlockFeed.Number.Shortest
import BlockFeed.Json.Fault

/-! Number literals and the numbers they are taken as: integers of 64 bits as they are, all others
as binary floating point. -/

namespace BlockFeed.Json

/-- A number literal in its parts, all of them digits. -/
structure Numeral where
  negative : Bool
  whole : List Char
  /-- The digits after the point, if there is one. -/
  places : List Char
  /-- The exponent, with its sign. -/
  exponent : Option (Bool × List Char)
  deriving Repr, DecidableEq

inductive Number where
  | natural (n : Nat)
  /-- The integer below zero of that size. -/
  | minus (n : Nat)
  | real (negative : Bool) (x : Binary64)
  deriving Repr, DecidableEq

namespace Number

def text : Number → String
  | .natural n => toString n
  | .minus n => s!"-{n}"
  | .real negative x =>
    String.ofList ((if negative then ['-'] else []) ++ x.shortest.marked)

def found : Number → Found
  | .natural n => .integer n
  | .minus n => .integer (-(n : Int))
  | x => .real x.text

end Number

namespace Numeral

def maxNatural : Nat := 0xFFFFFFFFFFFFFFFF

/-- The greatest integer below zero that is kept as it is, without its sign. -/
def maxMinus : Nat := 0x8000000000000000

def maxExponent : Nat := 0x7FFFFFFF

def digit (c : Char) : Nat := c.toNat - 0x30

/-- Adds digits while the significand fits in 64 bits; the rest is left over. -/
def collect (s : Nat) : List Char → Nat × List Char
  | [] => (s, [])
  | c :: cs => if s * 10 + digit c ≤ maxNatural then collect (s * 10 + digit c) cs else (s, c :: cs)

/-- The exponent's value, none beyond 31 bits. -/
def exponentSize? (digits : List Char) : Option Nat :=
  let n := digits.foldl (fun n c => n * 10 + digit c) 0
  if n ≤ maxExponent then some n else none

/-- A power of ten as it is rounded. -/
def power (k : Nat) : Binary64 := (Binary64.ofNat? (Nat.pow 10 k)).getD Binary64.zero

/-- Multiplies by a power of ten, in steps of at most 308 decimal places downwards. -/
def applyExponent (x : Binary64) (e : Int) : Except Fault Binary64 :=
  if 0 ≤ e then
    if e ≤ 308 then
      match x.mul? (power e.toNat) with
      | some y => .ok y
      | none => .error .numberOutOfRange
    else if x.significand = 0 then .ok x
    else .error .numberOutOfRange
  else if -308 ≤ e then .ok ((x.div? (power (-e).toNat)).getD Binary64.zero)
  else if x.significand = 0 then .ok x
  else applyExponent ((x.div? (power 308)).getD Binary64.zero) (e + 308)
termination_by (-e).toNat

def ofParts (negative : Bool) (significand : Nat) (e : Int) : Except Fault Number := do
  let x ← applyExponent ((Binary64.ofNat? significand).getD Binary64.zero) e
  return .real negative x

/-- The number a literal with a point, an exponent or too many digits is taken as. The significand
keeps the leading digits that fit in 64 bits, and every other digit before the point counts as a
power of ten. -/
def toReal (n : Numeral) : Except Fault Number :=
  let (s, dropped) := collect 0 n.whole
  let (s, unused) := collect s n.places
  let start : Int := dropped.length - (n.places.length - unused.length : Nat)
  match n.exponent with
  | none => ofParts n.negative s start
  | some (down, digits) =>
    match exponentSize? digits with
    | some e => ofParts n.negative s (if down then start - e else start + e)
    | none => if s ≠ 0 ∧ !down then .error .numberOutOfRange else .ok (.real n.negative Binary64.zero)

def toNumber (n : Numeral) : Except Fault Number :=
  match n.places, n.exponent, collect 0 n.whole with
  | [], none, (s, []) =>
    if !n.negative then .ok (.natural s)
    else if s = 0 ∨ maxMinus < s then ofParts true s 0
    else .ok (.minus s)
  | _, _, _ => n.toReal

end Numeral

end BlockFeed.Json
