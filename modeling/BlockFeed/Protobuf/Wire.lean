import BlockFeed.Protobuf.Varint

/-! The wire format of Protocol Buffers below the messages: keys, kinds of values, and passing over
what a message does not know. -/

namespace BlockFeed.Protobuf

/-- How a value is laid out. -/
inductive Kind where
  | varint
  | fixed64
  | delimited
  | groupStart
  | groupEnd
  | fixed32
  deriving Repr, DecidableEq

namespace Kind

def ofNumber? : Nat → Option Kind
  | 0 => some varint
  | 1 => some fixed64
  | 2 => some delimited
  | 3 => some groupStart
  | 4 => some groupEnd
  | 5 => some fixed32
  | _ => none

def number : Kind → Nat
  | varint => 0
  | fixed64 => 1
  | delimited => 2
  | groupStart => 3
  | groupEnd => 4
  | fixed32 => 5

def name : Kind → String
  | varint => "Varint"
  | fixed64 => "SixtyFourBit"
  | delimited => "LengthDelimited"
  | groupStart => "StartGroup"
  | groupEnd => "EndGroup"
  | fixed32 => "ThirtyTwoBit"

end Kind

inductive Cause where
  | varint
  | keyValue (key : Nat)
  | kindValue (number : Nat)
  | fieldNumberZero
  | kind (found expected : Kind)
  | underflow
  /-- The fields of an embedded message do not end where it does. -/
  | delimitedLength
  | recursion
  | groupEnd
  | notText
  deriving Repr, DecidableEq

/-- A fault and the fields that led to it, the innermost first. -/
structure Fault where
  path : List (String × String)
  cause : Cause
  deriving Repr, DecidableEq

def Cause.message : Cause → String
  | .varint => "invalid varint"
  | .keyValue key => s!"invalid key value: {key}"
  | .kindValue number => s!"invalid wire type value: {number}"
  | .fieldNumberZero => "invalid tag value: 0"
  | .kind found expected => s!"invalid wire type: {found.name} (expected {expected.name})"
  | .underflow => "buffer underflow"
  | .delimitedLength => "delimited length exceeded"
  | .recursion => "recursion limit reached"
  | .groupEnd => "unexpected end group tag"
  | .notText => "invalid string value: data is not UTF-8 encoded"

def Fault.message (f : Fault) : String :=
  "failed to decode Protobuf message: " ++
    String.join (f.path.map fun place => s!"{place.1}.{place.2}: ") ++ f.cause.message

/-- A step that takes octets from the front of the input. -/
abbrev Parse (α : Type) := StateT (List UInt8) (Except Fault) α

namespace Parse

def fail {α : Type} (cause : Cause) : Parse α := throw ⟨[], cause⟩

/-- Faults are said to lie in a field of a message. -/
def within {α : Type} (message field : String) (p : Parse α) : Parse α := fun bytes =>
  (p bytes).mapError fun f => { f with path := f.path ++ [(message, field)] }

def varint : Parse Nat := do
  match Varint.decode (← get) with
  | some (n, rest) =>
    set rest
    return n
  | none => fail .varint

def take (n : Nat) : Parse (List UInt8) := do
  let bytes ← get
  if bytes.length < n then fail .underflow
  set (bytes.drop n)
  return bytes.take n

/-- The number and the kind of the field that comes next. -/
def key : Parse (Nat × Kind) := do
  let key ← varint
  if UInt32.size ≤ key then fail (.keyValue key)
  match Kind.ofNumber? (key % 8) with
  | none => fail (.kindValue (key % 8))
  | some kind =>
    if key / 8 = 0 then fail .fieldNumberZero
    return (key / 8, kind)

def expect (expected found : Kind) : Parse Unit :=
  unless found = expected do fail (.kind found expected)

/-- Groups and embedded messages nest no deeper than this. -/
def maxDepth : Nat := 100

/-- Passes over a value that is no group. -/
def skipValue : Kind → Parse Unit
  | .varint => do let _ ← varint
  | .fixed64 => do let _ ← take 8
  | .fixed32 => do let _ ← take 4
  | .delimited => do let _ ← take (← varint)
  | .groupStart => fail .groupEnd
  | .groupEnd => fail .groupEnd

/-- Passes over the fields of the group `number` and over its end. Every field takes an octet at
least, so `fuel` is never short if it is the length of the input. -/
def skipGroup : (fuel depth number : Nat) → Parse Unit
  | 0, _, _ => fail .varint
  | fuel + 1, depth, number => do
    let (inner, kind) ← key
    if kind = .groupEnd then
      unless inner = number do fail .groupEnd
    else
      if depth = 0 then fail .recursion
      if kind = .groupStart then skipGroup fuel (depth - 1) inner else skipValue kind
      skipGroup fuel depth number

/-- Passes over a value of the field `number`, at most `depth` levels deep. -/
def skip (depth number : Nat) (kind : Kind) : Parse Unit := do
  if depth = 0 then fail .recursion
  if kind = .groupStart then skipGroup ((← get).length + 1) (depth - 1) number else skipValue kind

end Parse

end BlockFeed.Protobuf
