import BlockFeed.Json.Reader

/-! Readers of records: values with named fields, written as an object in any order or as a list in
the order of declaration. Unknown members are passed over. -/

namespace BlockFeed.Json

structure Field where
  name : String
  /-- Another key for the same field. -/
  alias? : Option String
  check : Reader Unit

/-- The nodes of a record's fields by name, and the fault of a field that has none. -/
structure Members where
  node? : String → Option Node
  missing : String → Fault

/-- The fields of a record in order, and its value once each of them has been read. -/
structure RecordReader (α : Type) where
  fields : List Field
  build : Nat → Members → Except Fault α

namespace RecordReader

variable {α β : Type}

instance : Applicative RecordReader where
  pure a := ⟨[], fun _ _ => .ok a⟩
  seq f x := ⟨f.fields ++ (x ()).fields, fun depth ms => do
    let f ← f.build depth ms
    return f (← (x ()).build depth ms)⟩

def field (name : String) (r : Reader α) (alias? : Option String)
    (absent : Fault → Except Fault α) : RecordReader α where
  fields := [⟨name, alias?, fun depth n => do let _ ← r depth n⟩]
  build depth ms := match ms.node? name with
    | some n => r depth n
    | none => absent (ms.missing name)

def required (name : String) (r : Reader α) : RecordReader α := field name r none .error

def defaulted (name : String) (r : Reader α) (a : α) : RecordReader α :=
  field name r none fun _ => .ok a

/-- A field with a default that goes by two keys. -/
def aliased (name other : String) (r : Reader α) (a : α) : RecordReader α :=
  field name r (some other) fun _ => .ok a

def find? (fields : List Field) (key : String) : Option Field :=
  fields.find? fun f => f.name = key || f.alias? = some key

/-- Reads members in text order, each known key once. -/
def gather (fields : List Field) (depth : Nat) (seen : List (String × Node)) :
    List (Spelling × Node) → Except Fault (List (String × Node))
  | [] => .ok seen
  | (key, n) :: rest => do
    match find? fields (← key) with
    | none =>
      n.skip
      gather fields depth seen rest
    | some f =>
      if seen.any (·.1 = f.name) then .error (.duplicateField f.name)
      else
        f.check depth n
        gather fields depth ((f.name, n) :: seen) rest

/-- Reads items against the fields in order. -/
def align (depth : Nat) (stop : ListEnd) :
    List Field → List Node → Except Fault (List (String × Node) × Except Fault Unit)
  | [], [] => .ok ([], stop.close)
  | [], _ :: _ => .ok ([], .error .trailingCharacters)
  | _ :: _, [] => do
    stop.read
    return ([], .ok ())
  | f :: fields, n :: items => do
    f.check depth n
    let (seen, close) ← align depth stop fields items
    return ((f.name, n) :: seen, close)

def lookup (seen : List (String × Node)) (name : String) : Option Node :=
  (seen.find? (·.1 = name)).map (·.2)

/-- The reader of a record named `record`. -/
def reader (rr : RecordReader α) (record : String) : Reader α
  | depth, .object members stop => do
    let depth ← enter depth
    let seen ← gather rr.fields depth [] members
    stop.read
    rr.build depth ⟨lookup seen, .missingField⟩
  | depth, .list items stop => do
    let depth ← enter depth
    let (seen, close) ← align depth stop rr.fields items
    let position (name : String) := rr.fields.findIdx (·.name = name)
    let a ← rr.build depth ⟨lookup seen, fun name => .wrongLength (position name) record rr.fields.length⟩
    close
    return a
  | _, n => .error (n.mismatch s!"struct {record}")

end RecordReader

end BlockFeed.Json
