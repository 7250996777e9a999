/-! Base64 in the standard alphabet, with required padding and no stray bits after the last octet.
A fault names the first symbol that is out of place. -/

namespace BlockFeed.Text.Base64

inductive Fault where
  | symbol (offset : Nat) (octet : UInt8)
  | length (n : Nat)
  /-- The last symbol carries bits that no octet takes. -/
  | lastSymbol (offset : Nat) (octet : UInt8)
  | padding
  deriving Repr, DecidableEq

def Fault.message : Fault → String
  | .symbol offset octet => s!"Invalid symbol {octet.toNat}, offset {offset}."
  | .length n => s!"Invalid input length: {n}"
  | .lastSymbol offset octet => s!"Invalid last symbol {octet.toNat}, offset {offset}."
  | .padding => "Invalid padding"

def pad : UInt8 := 0x3D

/-- The six bits of a symbol of the alphabet. -/
def value? (b : UInt8) : Option Nat :=
  if 0x41 ≤ b ∧ b ≤ 0x5A then some (b.toNat - 0x41)
  else if 0x61 ≤ b ∧ b ≤ 0x7A then some (b.toNat - 0x61 + 26)
  else if 0x30 ≤ b ∧ b ≤ 0x39 then some (b.toNat - 0x30 + 52)
  else if b = 0x2B then some 62
  else if b = 0x2F then some 63
  else none

def valueAt (offset : Nat) (b : UInt8) : Except Fault Nat :=
  match value? b with
  | some v => .ok v
  | none => .error (.symbol offset b)

/-- The symbols of the last group and the number of pads behind them. -/
structure Tail where
  values : List Nat
  pads : Nat
  last : UInt8

/-- Reads the last group: pads stand only after two symbols or more, and nothing follows them. -/
def readTail (offset position : Nat) (t : Tail) : List UInt8 → Except Fault Tail
  | [] => .ok t
  | b :: rest =>
    if b = pad then
      if position < 2 then .error (.symbol (offset + position) b)
      else readTail offset (position + 1) { t with pads := t.pads + 1 } rest
    else if 0 < t.pads then .error (.symbol (offset + position - t.pads) pad)
    else match value? b with
      | none => .error (.symbol (offset + position) b)
      | some v => readTail offset (position + 1) ⟨t.values ++ [v], t.pads, b⟩ rest

/-- The octets of the last group, from two, three or four symbols. -/
def tailOctets (offset : Nat) (t : Tail) : Except Fault (List UInt8) :=
  match t.values with
  | [a, b] =>
    if b % 16 = 0 then .ok [UInt8.ofNat (a * 4 + b / 16)]
    else .error (.lastSymbol (offset + 1) t.last)
  | [a, b, c] =>
    if c % 4 = 0 then .ok [UInt8.ofNat (a * 4 + b / 16), UInt8.ofNat (b % 16 * 16 + c / 4)]
    else .error (.lastSymbol (offset + 2) t.last)
  | [a, b, c, d] =>
    .ok [UInt8.ofNat (a * 4 + b / 16), UInt8.ofNat (b % 16 * 16 + c / 4),
         UInt8.ofNat (c % 4 * 64 + d)]
  | _ => .error (.length (offset + t.values.length))

def decodeTail (offset : Nat) (input : List UInt8) : Except Fault (List UInt8) := do
  let t ← readTail offset 0 ⟨[], 0, 0⟩ input
  if t.values.length < 2 then .error (.length (offset + t.values.length))
  else if (t.pads + t.values.length) % 4 ≠ 0 then .error .padding
  else tailOctets offset t

/-- Groups of four symbols, the last one apart: only it may be padded. -/
def decodeFrom (offset : Nat) : List UInt8 → Except Fault (List UInt8)
  | a :: b :: c :: d :: e :: rest => do
    let a ← valueAt offset a
    let b ← valueAt (offset + 1) b
    let c ← valueAt (offset + 2) c
    let d ← valueAt (offset + 3) d
    let bytes ← decodeFrom (offset + 4) (e :: rest)
    return UInt8.ofNat (a * 4 + b / 16) :: UInt8.ofNat (b % 16 * 16 + c / 4) ::
      UInt8.ofNat (c % 4 * 64 + d) :: bytes
  | input => decodeTail offset input

/-- A symbol that stands alone after whole groups and is none of the alphabet's. -/
def strayLast? (input : List UInt8) : Option Fault :=
  if input.length % 4 = 1 then
    match input.getLast? with
    | some b => if b ≠ pad ∧ value? b = none then some (.symbol (input.length - 1) b) else none
    | none => none
  else none

def decode (input : List UInt8) : Except Fault (List UInt8) :=
  if input.isEmpty then .ok []
  else match strayLast? input with
    | some f => .error f
    | none => decodeFrom 0 input

def symbol (v : Nat) : Char :=
  if v < 26 then Char.ofNat (0x41 + v)
  else if v < 52 then Char.ofNat (0x61 + (v - 26))
  else if v < 62 then Char.ofNat (0x30 + (v - 52))
  else if v = 62 then '+'
  else '/'

/-- The symbols of octets, without padding. -/
def encodeBare : List UInt8 → List Char
  | [] => []
  | [a] => [symbol (a.toNat / 4), symbol (a.toNat % 4 * 16)]
  | [a, b] =>
    [symbol (a.toNat / 4), symbol (a.toNat % 4 * 16 + b.toNat / 16), symbol (b.toNat % 16 * 4)]
  | a :: b :: c :: rest =>
    symbol (a.toNat / 4) :: symbol (a.toNat % 4 * 16 + b.toNat / 16) ::
      symbol (b.toNat % 16 * 4 + c.toNat / 64) :: symbol (c.toNat % 64) :: encodeBare rest

end BlockFeed.Text.Base64
