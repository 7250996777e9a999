import BlockFeed.Json.Token

/-! A JSON text as a tree. Where the text breaks off the tree holds the break, inside the containers
that were open there, so that a reader meets the faults of a text in reading order. -/

namespace BlockFeed.Json

inductive ListEnd where
  | closed
  | cut
  | cutAfterComma
  /-- A comma before the closing bracket. -/
  | strayComma
  /-- Something else where a comma or the closing bracket should stand. -/
  | noComma
  deriving Repr, DecidableEq

inductive ObjectEnd where
  | closed
  | cut
  | cutAfterComma
  | strayComma
  | noComma
  | noKey
  | brokenKey (b : Break)
  deriving Repr, DecidableEq

inductive Node where
  | null
  | bool (b : Bool)
  | number (n : Numeral)
  | string (s : Spelling)
  | list (items : List Node) (stop : ListEnd)
  | object (members : List (Spelling × Node)) (stop : ObjectEnd)
  | broken (b : Break)

/-- A text: its value and whether anything but blanks follows it. -/
structure Document where
  root : Node
  trailing : Bool

def ListEnd.read : ListEnd → Except Fault Unit
  | .closed => .ok ()
  | .cut => .error .eofList
  | .cutAfterComma => .error .eofValue
  | .strayComma => .error .trailingComma
  | .noComma => .error .expectedCommaOrListEnd

def ListEnd.skip : ListEnd → Except Fault Unit
  | .strayComma => .error .expectedValue
  | stop => stop.read

/-- The list is expected to end here. -/
def ListEnd.close : ListEnd → Except Fault Unit
  | .cutAfterComma => .error .trailingCharacters
  | .noComma => .error .trailingCharacters
  | stop => stop.read

def ObjectEnd.read : ObjectEnd → Except Fault Unit
  | .closed => .ok ()
  | .cut => .error .eofObject
  | .cutAfterComma => .error .eofValue
  | .strayComma => .error .trailingComma
  | .noComma => .error .expectedCommaOrObjectEnd
  | .noKey => .error .keyNotString
  | .brokenKey b => .error b.read

def ObjectEnd.skip : ObjectEnd → Except Fault Unit
  | .cutAfterComma => .error .eofObject
  | .strayComma => .error .keyNotString
  | .brokenKey b => .error b.skip
  | stop => stop.read

namespace Node

/-- An open container, what it holds so far in reverse. -/
inductive Frame where
  | list (items : List Node)
  /-- An object whose member `key` is being read. -/
  | object (members : List (Spelling × Node)) (key : Spelling)

/-- What the text is expected to go on with. -/
inductive State where
  | value (frames : List Frame)
  | firstItem (frames : List Frame)
  | item (items : List Node) (frames : List Frame)
  | firstKey (frames : List Frame)
  | key (members : List (Spelling × Node)) (frames : List Frame)
  | colon (members : List (Spelling × Node)) (key : Spelling) (frames : List Frame)
  /-- A value is complete. -/
  | after (n : Node) (frames : List Frame)
  | ended (d : Document)

/-- The text breaks off in `n`. -/
def unwind (n : Node) : List Frame → Document
  | [] => ⟨n, false⟩
  | .list items :: frames => unwind (.list (n :: items).reverse .closed) frames
  | .object members key :: frames => unwind (.object ((key, n) :: members).reverse .closed) frames

def breakOff (n : Node) (frames : List Frame) : State := .ended (unwind n frames)

/-- The first token of a value. -/
def beginValue (frames : List Frame) : Token → State
  | .null => .after .null frames
  | .bool b => .after (.bool b) frames
  | .number n => .after (.number n) frames
  | .string s => .after (.string s) frames
  | .openList => .firstItem frames
  | .openObject => .firstKey frames
  | .broken b => breakOff (.broken b) frames
  | .brokenString b => breakOff (.broken b) frames
  | _ => breakOff (.broken (.of .expectedValue)) frames

def beginKey (members : List (Spelling × Node)) (frames : List Frame) : Token → State
  | .string key => .colon members key frames
  | .brokenString b => breakOff (.object members.reverse (.brokenKey b)) frames
  | _ => breakOff (.object members.reverse .noKey) frames

def step : State → Token → State
  | .value frames, t => beginValue frames t
  | .firstItem frames, .closeList => .after (.list [] .closed) frames
  | .firstItem frames, t => beginValue (.list [] :: frames) t
  | .item items frames, .closeList => breakOff (.list items.reverse .strayComma) frames
  | .item items frames, t => beginValue (.list items :: frames) t
  | .firstKey frames, .closeObject => .after (.object [] .closed) frames
  | .firstKey frames, t => beginKey [] frames t
  | .key members frames, .closeObject => breakOff (.object members.reverse .strayComma) frames
  | .key members frames, t => beginKey members frames t
  | .colon members key frames, .colon => .value (.object members key :: frames)
  | .colon members key frames, _ =>
    breakOff (.broken (.of .expectedColon)) (.object members key :: frames)
  | .after n [], _ => .ended ⟨n, true⟩
  | .after n (.list items :: frames), .comma => .item (n :: items) frames
  | .after n (.list items :: frames), .closeList => .after (.list (n :: items).reverse .closed) frames
  | .after n (.list items :: frames), _ => breakOff (.list (n :: items).reverse .noComma) frames
  | .after n (.object members key :: frames), .comma => .key ((key, n) :: members) frames
  | .after n (.object members key :: frames), .closeObject =>
    .after (.object ((key, n) :: members).reverse .closed) frames
  | .after n (.object members key :: frames), _ =>
    breakOff (.object ((key, n) :: members).reverse .noComma) frames
  | .ended d, _ => .ended d

/-- The text ends. -/
def finish : State → Document
  | .value frames => unwind (.broken (.of .eofValue)) frames
  | .firstItem frames => unwind (.list [] .cut) frames
  | .item items frames => unwind (.list items.reverse .cutAfterComma) frames
  | .firstKey frames => unwind (.object [] .cut) frames
  | .key members frames => unwind (.object members.reverse .cutAfterComma) frames
  | .colon members key frames => unwind (.broken (.of .eofObject)) (.object members key :: frames)
  | .after n [] => ⟨n, false⟩
  | .after n (.list items :: frames) => unwind (.list (n :: items).reverse .cut) frames
  | .after n (.object members key :: frames) =>
    unwind (.object ((key, n) :: members).reverse .cut) frames
  | .ended d => d

end Node

def Document.ofTokens (ts : List Token) : Document :=
  Node.finish (ts.foldl Node.step (.value []))

def Document.ofText (s : String) : Document := .ofTokens (tokens s.toList)

end BlockFeed.Json
