/-! Octets as hexadecimal digits. Digits are read in either case and written in lower case. -/

namespace BlockFeed.Text.Hex

/-- The value of an octet that is a hexadecimal digit. -/
def digit? (b : UInt8) : Option UInt8 :=
  if 0x30 ≤ b ∧ b ≤ 0x39 then some (b - 0x30)
  else if 0x61 ≤ b ∧ b ≤ 0x66 then some (b - 0x57)
  else if 0x41 ≤ b ∧ b ≤ 0x46 then some (b - 0x37)
  else none

def digitChar (n : Nat) : Char :=
  if n < 10 then Char.ofNat (0x30 + n) else Char.ofNat (0x57 + n)

def ofByte (b : UInt8) : List Char :=
  [digitChar (b.toNat / 16), digitChar (b.toNat % 16)]

def encode (bytes : List UInt8) : List Char :=
  bytes.flatMap ofByte

/-- An octet that is no digit, and where it stands. -/
structure Fault where
  octet : UInt8
  position : Nat
  deriving Repr, DecidableEq

def digitAt (b : UInt8) (position : Nat) : Except Fault UInt8 :=
  match digit? b with
  | some v => .ok v
  | none => .error ⟨b, position⟩

/-- Reads digits two by two, naming the first that is none; a last odd digit is dropped. -/
def decodeFrom (position : Nat) : List UInt8 → Except Fault (List UInt8)
  | a :: b :: rest => do
    let high ← digitAt a position
    let low ← digitAt b (position + 1)
    let bytes ← decodeFrom (position + 2) rest
    return (high * 16 + low) :: bytes
  | _ => .ok []

def decode (digits : List UInt8) : Except Fault (List UInt8) :=
  decodeFrom 0 digits

/-- A number in hexadecimal without leading zeros. -/
def ofNat (n : Nat) : List Char :=
  Nat.toDigits 16 n

end BlockFeed.Text.Hex
