import BlockFeed.Text.Quoted
import BlockFeed.Text.Utf8

/-! Subaccount identifiers: 32 octets, written as `0x` and 64 digits in lower case. -/

namespace BlockFeed

structure SubaccountId where
  octets : List UInt8
  length_octets : octets.length = 32
  deriving DecidableEq

inductive IdentifierError where
  | invalidHex (fault : Text.Hex.Fault)
  | wrongLength (n : Nat)
  | tooLong (n : Nat)
  deriving Repr, DecidableEq

def IdentifierError.message : IdentifierError → String
  | .invalidHex f =>
    s!"invalid hex: Invalid character {Text.quotedChar (Char.ofNat f.octet.toNat)} " ++
      s!"at position {f.position}"
  | .wrongLength n => s!"expected 64 hex digits, got {n}"
  | .tooLong n => s!"identifier is {n} bytes, expected at most 32"

namespace SubaccountId

def size : Nat := 32

/-- At most 32 octets, filled with zeros in front. -/
def ofOctets? (octets : List UInt8) : Except IdentifierError SubaccountId :=
  if h : octets.length ≤ size then
    .ok ⟨List.replicate (size - octets.length) 0 ++ octets, by simp [size] at h ⊢; omega⟩
  else .error (.tooLong octets.length)

/-- The digits behind one leading `0x` or `0X`. -/
def dropMark : List UInt8 → List UInt8
  | 0x30 :: 0x78 :: rest => rest
  | 0x30 :: 0x58 :: rest => rest
  | digits => digits

/-- Exactly 64 digits in either case, with or without the mark. -/
def ofText? (text : String) : Except IdentifierError SubaccountId :=
  let digits := dropMark (Text.Utf8.encode text)
  if digits.length ≠ 2 * size then .error (.wrongLength digits.length)
  else match Text.Hex.decode digits with
    | .error f => .error (.invalidHex f)
    | .ok octets => ofOctets? octets

def chars (id : SubaccountId) : List Char := '0' :: 'x' :: Text.Hex.encode id.octets

def text (id : SubaccountId) : String := String.ofList id.chars

instance : ToString SubaccountId := ⟨text⟩

end SubaccountId

end BlockFeed
