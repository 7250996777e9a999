/-! UTF-8 read octet by octet. A fault names the octets that no character can start with, or the
start of a character that the text ends in. -/

namespace BlockFeed.Text.Utf8

inductive Fault where
  /-- So many octets from `index` on begin no character. -/
  | invalid (length index : Nat)
  | incomplete (index : Nat)
  deriving Repr, DecidableEq

def Fault.message : Fault → String
  | .invalid length index => s!"invalid utf-8 sequence of {length} bytes from index {index}"
  | .incomplete index => s!"incomplete utf-8 byte sequence from index {index}"

/-- A character read in part: octets still owed, the bounds of the next one, the octets read and
the value they make up. -/
structure Pending where
  owed : Nat
  low : Nat
  high : Nat
  seen : Nat
  code : Nat
  deriving Repr, DecidableEq

/-- What the first octet of a character of several octets asks for. -/
def lead? (b : Nat) : Option Pending :=
  if 0xC2 ≤ b ∧ b ≤ 0xDF then some ⟨1, 0x80, 0xBF, 1, b - 0xC0⟩
  else if b = 0xE0 then some ⟨2, 0xA0, 0xBF, 1, 0⟩
  else if b = 0xED then some ⟨2, 0x80, 0x9F, 1, 0xD⟩
  else if 0xE1 ≤ b ∧ b ≤ 0xEF then some ⟨2, 0x80, 0xBF, 1, b - 0xE0⟩
  else if b = 0xF0 then some ⟨3, 0x90, 0xBF, 1, 0⟩
  else if 0xF1 ≤ b ∧ b ≤ 0xF3 then some ⟨3, 0x80, 0xBF, 1, b - 0xF0⟩
  else if b = 0xF4 then some ⟨3, 0x80, 0x8F, 1, 4⟩
  else none

structure State where
  /-- Characters read, the last one first. -/
  chars : List Char
  index : Nat
  pending : Option Pending

def State.start : State := ⟨[], 0, none⟩

def step (s : State) (octet : UInt8) : Except Fault State :=
  let b := octet.toNat
  match s.pending with
  | none =>
    if b < 0x80 then .ok { s with chars := Char.ofNat b :: s.chars, index := s.index + 1 }
    else match lead? b with
      | some p => .ok { s with index := s.index + 1, pending := some p }
      | none => .error (.invalid 1 s.index)
  | some p =>
    if p.low ≤ b ∧ b ≤ p.high then
      let code := p.code * 64 + (b - 0x80)
      if p.owed ≤ 1 then .ok ⟨Char.ofNat code :: s.chars, s.index + 1, none⟩
      else .ok { s with index := s.index + 1,
                        pending := some ⟨p.owed - 1, 0x80, 0xBF, p.seen + 1, code⟩ }
    else .error (.invalid p.seen (s.index - p.seen))

def finish (s : State) : Except Fault (List Char) :=
  match s.pending with
  | none => .ok s.chars.reverse
  | some p => .error (.incomplete (s.index - p.seen))

def decode (bytes : List UInt8) : Except Fault (List Char) :=
  bytes.foldlM step State.start >>= finish

def encode (s : String) : List UInt8 :=
  s.toList.flatMap String.utf8EncodeChar

end BlockFeed.Text.Utf8
