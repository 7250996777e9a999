import BlockFeed.Json.Value

/-! Readers of JSON trees into typed values. A reader knows how many more containers may be open,
and reports the first fault in reading order. -/

namespace BlockFeed.Json

/-- A reader of nodes, given the number of containers that may still be opened, plus one. -/
abbrev Reader (α : Type) := Nat → Node → Except Fault α

/-- The containers of one text may be nested 127 deep. -/
def maxDepth : Nat := 128

/-- Opens a container. -/
def enter (depth : Nat) : Except Fault Nat :=
  if depth ≤ 1 then .error .recursionLimit else .ok (depth - 1)

namespace Node

/-- What is wrong with a node that is not of the kind expected. -/
def mismatch (expected : String) : Node → Fault
  | .null => .wrongType .null expected
  | .bool b => .wrongType (.bool b) expected
  | .number n =>
    match n.toNumber with
    | .ok n => .wrongType n.found expected
    | .error f => f
  | .string (.ok s) => .wrongType (.string s) expected
  | .string (.error f) => f
  | .list _ _ => .wrongType .list expected
  | .object _ _ => .wrongType .object expected
  | .broken b => b.read

mutual

/-- Passes over a node of any kind and any depth. -/
def skip : Node → Except Fault Unit
  | .list items stop => do
    skipItems items
    stop.skip
  | .object members stop => do
    skipMembers members
    stop.skip
  | .broken b => .error b.skip
  | _ => .ok ()

def skipItems : List Node → Except Fault Unit
  | [] => .ok ()
  | n :: rest => do
    skip n
    skipItems rest

def skipMember : Spelling × Node → Except Fault Unit
  | (_, n) => skip n

def skipMembers : List (Spelling × Node) → Except Fault Unit
  | [] => .ok ()
  | m :: rest => do
    skipMember m
    skipMembers rest

end

mutual

/-- The value of a node of any kind; members are ordered by key, the last of equal keys stays. -/
def value (depth : Nat) : Node → Except Fault Value
  | .null => .ok .null
  | .bool b => .ok (.bool b)
  | .number n => .number <$> n.toNumber
  | .string s => .string <$> s
  | .list items stop => do
    let values ← itemValues (← enter depth) items
    stop.read
    return .list values
  | .object members stop => do
    let values ← memberValues (← enter depth) members
    stop.read
    return .object (values.foldl (fun ms m => Value.insertMember m.1 m.2 ms) [])
  | .broken b => .error b.read

def itemValues (depth : Nat) : List Node → Except Fault (List Value)
  | [] => .ok []
  | n :: rest => do
    let v ← value depth n
    return v :: (← itemValues depth rest)

def memberValue (depth : Nat) : Spelling × Node → Except Fault (String × Value)
  | (key, n) => do
    let key ← key
    return (key, ← value depth n)

def memberValues (depth : Nat) : List (Spelling × Node) → Except Fault (List (String × Value))
  | [] => .ok []
  | m :: rest => do
    let m ← memberValue depth m
    return m :: (← memberValues depth rest)

end

end Node

namespace Reader

/-- Reads a text: its value, then nothing more. -/
def run {α : Type} (r : Reader α) (s : String) : Except Fault α := do
  let doc := Document.ofText s
  let a ← r maxDepth doc.root
  if doc.trailing then .error .trailingCharacters else .ok a

def any : Reader Value := Node.value

def string : Reader String
  | _, .string (.ok s) => .ok s
  | _, n => .error (n.mismatch "a string")

def bool : Reader Bool
  | _, .bool b => .ok b
  | _, n => .error (n.mismatch "a boolean")

/-- An integer of 64 bits without a sign. -/
def word : Reader UInt64
  | _, .number n => do
    match ← n.toNumber with
    | .natural k => .ok (UInt64.ofNat k)
    | .minus k => .error (.negative (-(k : Int)) "u64")
    | x => .error (.wrongType x.found "u64")
  | _, n => .error (n.mismatch "u64")

def readItems {α : Type} (r : Node → Except Fault α) : List Node → Except Fault (List α)
  | [] => .ok []
  | n :: rest => do
    let a ← r n
    return a :: (← readItems r rest)

def list {α : Type} (r : Reader α) : Reader (List α)
  | depth, .list items stop => do
    let depth ← enter depth
    let as ← readItems (r depth) items
    stop.read
    return as
  | _, n => .error (n.mismatch "a sequence")

def nullable {α : Type} (r : Reader α) : Reader (Option α)
  | _, .null => .ok none
  | depth, n => some <$> r depth n

/-- Reads on with a rule that may refuse the value. -/
def andThen {α β : Type} (r : Reader α) (f : α → Except Fault β) : Reader β :=
  fun depth n => r depth n >>= f

end Reader

end BlockFeed.Json
