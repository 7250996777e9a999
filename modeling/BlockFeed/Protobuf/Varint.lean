/-! Numbers in groups of seven bits, the lowest group first; the high bit of an octet says that
another one follows. -/

namespace BlockFeed.Protobuf.Varint

def encode (n : Nat) : List UInt8 :=
  if n < 128 then [UInt8.ofNat n] else UInt8.ofNat (n % 128 + 128) :: encode (n / 128)

/-- Reads on from the group numbered `place`. A number has ten groups at most, and the tenth a
single bit. -/
def decodeFrom (place : Nat) : List UInt8 → Option (Nat × List UInt8)
  | [] => none
  | b :: rest =>
    if b.toNat < 128 then
      if place = 9 ∧ 2 ≤ b.toNat then none else some (b.toNat, rest)
    else if 9 ≤ place then none
    else (decodeFrom (place + 1) rest).map fun (n, rest) => (b.toNat - 128 + 128 * n, rest)

def decode (bytes : List UInt8) : Option (Nat × List UInt8) := decodeFrom 0 bytes

end BlockFeed.Protobuf.Varint
