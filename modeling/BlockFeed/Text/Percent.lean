import BlockFeed.Text.Utf8

/-! Percent-encoding of a message for a header: all octets but the kept characters become a
percent sign and two digits in upper case. -/

namespace BlockFeed.Text.Percent

def isKept (b : UInt8) : Bool :=
  0x20 < b && b < 0x7F &&
    !([0x22, 0x23, 0x25, 0x3C, 0x3E, 0x60, 0x3F, 0x7B, 0x7D] : List UInt8).contains b

def digit (n : Nat) : Char :=
  if n < 10 then Char.ofNat (0x30 + n) else Char.ofNat (0x37 + n)

def encodeByte (b : UInt8) : List Char :=
  if isKept b then [Char.ofNat b.toNat] else ['%', digit (b.toNat / 16), digit (b.toNat % 16)]

def encode (s : String) : String :=
  String.ofList ((Utf8.encode s).flatMap encodeByte)

end BlockFeed.Text.Percent
