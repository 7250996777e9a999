import BlockFeed.Protobuf.Wire
import BlockFeed.Text.Utf8

/-! Messages of Protocol Buffers. A message is the list of its fields, and a field knows how to read
a value into a record and how to write it from one. Default values are not written, and a field that
comes again overwrites, extends or merges, as its shape has it. -/

namespace BlockFeed.Protobuf

structure Field (α : Type) where
  number : Nat
  name : String
  /-- Reads a value of a kind into the record, with so many levels of nesting left. -/
  read : Nat → Kind → α → Parse α
  write : α → List UInt8

/-- A message named `name` that is read into records of type `α`. -/
structure Message (α : Type) where
  name : String
  empty : α
  fields : List (Field α)

namespace Message

variable {α : Type}

def encode (m : Message α) (a : α) : List UInt8 := m.fields.flatMap (·.write a)

def readField (m : Message α) (depth : Nat) (a : α) : Parse α := do
  let (number, kind) ← Parse.key
  match m.fields.find? (·.number = number) with
  | some f => Parse.within m.name f.name (f.read depth kind a)
  | none =>
    Parse.skip depth number kind
    return a

/-- Reads fields until no more than `left` octets are left. Every field takes an octet at least. -/
def readUntil (m : Message α) (depth left : Nat) : (fuel : Nat) → α → Parse α
  | 0, a => return a
  | fuel + 1, a => do
    if (← get).length ≤ left then return a
    m.readUntil depth left fuel (← m.readField depth a)

def decode (m : Message α) (bytes : List UInt8) : Except Fault α :=
  Prod.fst <$> m.readUntil Parse.maxDepth 0 bytes.length m.empty bytes

/-- Reads a message inside a message: its length, and its fields into the record `a`. -/
def readEmbedded (m : Message α) (depth : Nat) (kind : Kind) (a : α) : Parse α := do
  Parse.expect .delimited kind
  if depth = 0 then Parse.fail .recursion
  let size ← Parse.varint
  let length := (← get).length
  if length < size then Parse.fail .underflow
  let a ← m.readUntil (depth - 1) (length - size) length a
  unless (← get).length = length - size do Parse.fail .delimitedLength
  return a

end Message

/-- The key of a field. -/
def key (number : Nat) (kind : Kind) : List UInt8 := Varint.encode (8 * number + kind.number)

def delimited (number : Nat) (bytes : List UInt8) : List UInt8 :=
  key number .delimited ++ Varint.encode bytes.length ++ bytes

namespace Parse

def string (kind : Kind) : Parse String := do
  expect .delimited kind
  match Text.Utf8.decode (← take (← varint)) with
  | .ok cs => return String.ofList cs
  | .error _ => fail .notText

def number (kind : Kind) : Parse Nat := do
  expect .varint kind
  varint

end Parse

namespace Field

variable {α β : Type}

def string (number : Nat) (name : String) (get : α → String) (put : α → String → α) : Field α where
  number := number
  name := name
  read := fun _ kind a => put a <$> Parse.string kind
  write := fun a => if get a = "" then [] else delimited number (Text.Utf8.encode (get a))

/-- A text that may be absent, and is written also if it is empty. -/
def optionalString (number : Nat) (name : String) (get : α → Option String)
    (put : α → Option String → α) : Field α where
  number := number
  name := name
  read := fun _ kind a => (put a ∘ some) <$> Parse.string kind
  write := fun a => match get a with
    | some s => delimited number (Text.Utf8.encode s)
    | none => []

def strings (number : Nat) (name : String) (get : α → List String) (put : α → List String → α) :
    Field α where
  number := number
  name := name
  read := fun _ kind a => (fun s => put a (get a ++ [s])) <$> Parse.string kind
  write := fun a => (get a).flatMap fun s => delimited number (Text.Utf8.encode s)

def word (number : Nat) (name : String) (get : α → UInt64) (put : α → UInt64 → α) : Field α where
  number := number
  name := name
  read := fun _ kind a => (fun n => put a (UInt64.ofNat n)) <$> Parse.number kind
  write := fun a => if get a = 0 then [] else key number .varint ++ Varint.encode (get a).toNat

def bool (number : Nat) (name : String) (get : α → Bool) (put : α → Bool → α) : Field α where
  number := number
  name := name
  read := fun _ kind a => (fun n => put a (n != 0)) <$> Parse.number kind
  write := fun a => if get a then key number .varint ++ [1] else []

/-- A number of 32 bits with a sign, which is written in 64. -/
def enumeration (number : Nat) (name : String) (get : α → Int32) (put : α → Int32 → α) : Field α where
  number := number
  name := name
  read := fun _ kind a => (fun n => put a (Int32.ofNat n)) <$> Parse.number kind
  write := fun a =>
    if get a = 0 then []
    else key number .varint ++ Varint.encode (get a).toInt64.toUInt64.toNat

/-- A message that may be absent; one that comes again is merged into the one before. -/
def message (m : Message β) (number : Nat) (name : String) (get : α → Option β)
    (put : α → Option β → α) : Field α where
  number := number
  name := name
  read := fun depth kind a => (put a ∘ some) <$> m.readEmbedded depth kind ((get a).getD m.empty)
  write := fun a => match get a with
    | some b => delimited number (m.encode b)
    | none => []

def messages (m : Message β) (number : Nat) (name : String) (get : α → List β)
    (put : α → List β → α) : Field α where
  number := number
  name := name
  read := fun depth kind a => (fun b => put a (get a ++ [b])) <$> m.readEmbedded depth kind m.empty
  write := fun a => (get a).flatMap fun b => delimited number (m.encode b)

end Field

end BlockFeed.Protobuf
