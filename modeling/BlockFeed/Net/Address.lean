import BlockFeed.Text.Hex

/-! Internet addresses as text: four decimal octets, or eight hexadecimal groups of which one run of
zeros may be left out. -/

namespace BlockFeed

/-- The value of a digit in a base up to 16. -/
def Text.digitIn? (base : Nat) (c : Char) : Option Nat :=
  let value :=
    if c.isDigit then c.toNat - '0'.toNat
    else if 'a' ≤ c ∧ c ≤ 'f' then c.toNat - 'a'.toNat + 10
    else if 'A' ≤ c ∧ c ≤ 'F' then c.toNat - 'A'.toNat + 10
    else base
  if value < base then some value else none

namespace Net

inductive Address where
  | v4 (a b c d : UInt8)
  | v6 (groups : Vector UInt16 8)
  deriving Repr, DecidableEq

namespace Address

/-- A number of one digit at least and `most` at most, and what follows it. -/
def number? (base most : Nat) (leadingZeros : Bool) (cs : List Char) : Option (Nat × List Char) :=
  let digits := cs.takeWhile fun c => (Text.digitIn? base c).isSome
  let zeroLed := digits.head? == some '0' && 1 < digits.length
  if digits.isEmpty || most < digits.length || (zeroLed && !leadingZeros) then none
  else some ((digits.filterMap (Text.digitIn? base)).foldl (fun n d => base * n + d) 0,
    cs.dropWhile fun c => (Text.digitIn? base c).isSome)

def octet? (cs : List Char) : Option (UInt8 × List Char) := do
  let (n, rest) ← number? 10 3 false cs
  if n < 256 then some (UInt8.ofNat n, rest) else none

def after? (mark : Char) : List Char → Option (List Char)
  | [] => none
  | c :: rest => if c = mark then some rest else none

/-- Four octets between points. -/
def octets? (cs : List Char) : Option ((UInt8 × UInt8 × UInt8 × UInt8) × List Char) := do
  let (a, cs) ← octet? cs
  let (b, cs) ← octet? (← after? '.' cs)
  let (c, cs) ← octet? (← after? '.' cs)
  let (d, cs) ← octet? (← after? '.' cs)
  return ((a, b, c, d), cs)

def pair (high low : UInt8) : UInt16 := high.toUInt16 * 256 + low.toUInt16

/-- The groups read from the front of a text, whether four octets stand for the last two, and what
follows. -/
structure Groups where
  groups : List UInt16
  octets : Bool
  rest : List Char

/-- Reads up to `room` groups. All but the very first come after a colon, and where there is room for
two more, four octets may take their place and end the groups. -/
def readGroups (first : Bool) : (room : Nat) → List Char → Groups
  | 0, cs => ⟨[], false, cs⟩
  | room + 1, cs =>
    let start := if first then some cs else after? ':' cs
    match if 0 < room then start.bind octets? else none with
    | some ((a, b, c, d), rest) => ⟨[pair a b, pair c d], true, rest⟩
    | none =>
      match start.bind (number? 16 4 true) with
      | some (group, rest) =>
        let others := readGroups false room rest
        ⟨UInt16.ofNat group :: others.groups, others.octets, others.rest⟩
      | none => ⟨[], false, cs⟩

def ofGroups? (groups : List UInt16) : Option Address :=
  if h : groups.length = 8 then some (.v6 ⟨groups.toArray, by simpa using h⟩) else none

/-- Eight groups, or a double colon for the zeros between two runs of groups. -/
def v6? (cs : List Char) : Option (Address × List Char) :=
  let head := readGroups true 8 cs
  if head.groups.length = 8 then (ofGroups? head.groups).map fun a => (a, head.rest)
  else if head.octets then none
  else do
    let cs ← after? ':' (← after? ':' head.rest)
    let tail := readGroups true (7 - head.groups.length) cs
    let zeros := List.replicate (8 - head.groups.length - tail.groups.length) 0
    let a ← ofGroups? (head.groups ++ zeros ++ tail.groups)
    return (a, tail.rest)

def v4? (cs : List Char) : Option (Address × List Char) := do
  let ((a, b, c, d), rest) ← octets? cs
  return (.v4 a b c d, rest)

def ofText? (s : String) : Option Address :=
  match v4? s.toList <|> v6? s.toList with
  | some (a, []) => some a
  | _ => none

def octetsText (a b c d : UInt8) : String := s!"{a}.{b}.{c}.{d}"

def groupsText (groups : List UInt16) : String :=
  ":".intercalate (groups.map fun g => String.ofList (Text.Hex.ofNat g.toNat))

/-- How many zeros a list of groups begins with. -/
def zeroRun (groups : List UInt16) : Nat := (groups.takeWhile (· == 0)).length

/-- Where the first of the longest runs of zeros begins, and its length. -/
def longestRun (groups : List UInt16) : Nat × Nat :=
  (List.range groups.length).foldl (fun best i =>
    let n := zeroRun (groups.drop i)
    if best.2 < n then (i, n) else best) (0, 0)

/-- The longest run of two zeros or more is left out. An address that stands for four octets shows
them. -/
def text : Address → String
  | v4 a b c d => octetsText a b c d
  | v6 groups =>
    match groups.toList with
    | [0, 0, 0, 0, 0, 0xFFFF, high, low] =>
      "::ffff:" ++ octetsText (high >>> 8).toUInt8 high.toUInt8 (low >>> 8).toUInt8 low.toUInt8
    | groups =>
      let (start, length) := longestRun groups
      if 1 < length then
        groupsText (groups.take start) ++ "::" ++ groupsText (groups.drop (start + length))
      else groupsText groups

/-- The address with a port. -/
def withPort (a : Address) (port : UInt16) : String :=
  match a with
  | v4 .. => s!"{a.text}:{port}"
  | v6 _ => s!"[{a.text}]:{port}"

end Address

end Net

end BlockFeed
