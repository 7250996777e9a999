/-! Account addresses in bech32: a readable part, the separator, the octets regrouped by five bits
and a checksum of six symbols. -/

namespace BlockFeed.Text.Bech32

/-- The longest text, in characters, that the checksum protects. -/
def maxLength : Nat := 1023

def alphabet : List Char := "qpzry9x8gf2tvdw0s3jn54khce6mua7l".toList

def symbol (v : Nat) : Char := alphabet.getD v 'q'

/-- One step of the checksum: shift in five bits and reduce by the generator. -/
def step (check v : Nat) : Nat :=
  let top := check >>> 25
  let shifted := ((check &&& 0x1FFFFFF) <<< 5) ^^^ v
  let mix (bit generator acc : Nat) := if (top >>> bit) &&& 1 = 1 then acc ^^^ generator else acc
  mix 4 0x2A1462B3 (mix 3 0x3D4233DD (mix 2 0x1EA119FA (mix 1 0x26508E6D (mix 0 0x3B6A57B2 shifted))))

def polymod (values : List Nat) : Nat := values.foldl step 1

/-- The readable part as the checksum takes it: high bits, zero, low bits. -/
def expand (readable : List Char) : List Nat :=
  readable.map (·.toNat >>> 5) ++ [0] ++ readable.map (·.toNat &&& 31)

/-- The low bits of a number, the highest first. -/
def bits (width n : Nat) : List Bool := (List.range width).reverse.map n.testBit

def ofBits (bs : List Bool) : Nat := bs.foldl (fun n b => 2 * n + b.toNat) 0

/-- Groups of five bits, the last one filled with zeros. -/
def groups : List Bool → List Nat
  | [] => []
  | a :: b :: c :: d :: e :: rest => ofBits [a, b, c, d, e] :: groups rest
  | short => [ofBits (short ++ List.replicate (5 - short.length) false)]

/-- The bits of octets in groups of five. -/
def regroup (bytes : List UInt8) : List Nat := groups (bytes.flatMap fun b => bits 8 b.toNat)

def checksum (readable : List Char) (data : List Nat) : List Nat :=
  let check := polymod (expand readable ++ data ++ [0, 0, 0, 0, 0, 0]) ^^^ 1
  [25, 20, 15, 10, 5, 0].map fun shift => (check >>> shift) &&& 31

/-- The address of octets, none if it would be too long. -/
def encode? (readable : String) (bytes : List UInt8) : Option String :=
  let data := regroup bytes
  if maxLength < readable.length + 1 + data.length + 6 then none
  else some (String.ofList
    (readable.toList ++ '1' :: (data ++ checksum readable.toList data).map symbol))

end BlockFeed.Text.Bech32
