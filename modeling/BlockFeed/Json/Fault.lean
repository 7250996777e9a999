import BlockFeed.Text.Quoted

/-! What can be wrong with a JSON text, or with its values where a particular shape is expected. -/

namespace BlockFeed.Json

/-- The kind of value found where another was expected. -/
inductive Found where
  | null
  | bool (b : Bool)
  | integer (n : Int)
  /-- A number with a fraction or an exponent, in its shortest text. -/
  | real (text : String)
  | string (s : String)
  | list
  | object
  deriving Repr, DecidableEq

inductive Fault where
  | eofValue
  | eofString
  | eofList
  | eofObject
  | expectedValue
  | expectedIdent
  | expectedColon
  | expectedCommaOrListEnd
  | expectedCommaOrObjectEnd
  | trailingComma
  | trailingCharacters
  | keyNotString
  | invalidNumber
  | numberOutOfRange
  | invalidEscape
  | loneSurrogate
  | endOfHexEscape
  | controlCharacter
  | recursionLimit
  | missingField (name : String)
  | duplicateField (name : String)
  | wrongType (found : Found) (expected : String)
  | negative (n : Int) (expected : String)
  /-- A list of `length` items where the record `record` of `size` fields needs more. -/
  | wrongLength (length : Nat) (record : String) (size : Nat)
  | noVariant
  /-- A value of the right shape that is refused for a reason of its own. -/
  | refused (reason : String)
  deriving Repr, DecidableEq

def Found.message : Found → String
  | .null => "null"
  | .bool b => s!"boolean `{b}`"
  | .integer n => s!"integer `{n}`"
  | .real text => s!"floating point `{text}`"
  | .string s => s!"string {Text.quoted s}"
  | .list => "sequence"
  | .object => "map"

def Fault.message : Fault → String
  | .eofValue => "EOF while parsing a value"
  | .eofString => "EOF while parsing a string"
  | .eofList => "EOF while parsing a list"
  | .eofObject => "EOF while parsing an object"
  | .expectedValue => "expected value"
  | .expectedIdent => "expected ident"
  | .expectedColon => "expected `:`"
  | .expectedCommaOrListEnd => "expected `,` or `]`"
  | .expectedCommaOrObjectEnd => "expected `,` or `\x7d`"
  | .trailingComma => "trailing comma"
  | .trailingCharacters => "trailing characters"
  | .keyNotString => "key must be a string"
  | .invalidNumber => "invalid number"
  | .numberOutOfRange => "number out of range"
  | .invalidEscape => "invalid escape"
  | .loneSurrogate => "lone leading surrogate in hex escape"
  | .endOfHexEscape => "unexpected end of hex escape"
  | .controlCharacter => "control character (\\u0000-\\u001F) found while parsing a string"
  | .recursionLimit => "recursion limit exceeded"
  | .missingField name => s!"missing field `{name}`"
  | .duplicateField name => s!"duplicate field `{name}`"
  | .wrongType found expected => s!"invalid type: {found.message}, expected {expected}"
  | .negative n expected => s!"invalid value: integer `{n}`, expected {expected}"
  | .wrongLength length record size =>
    s!"invalid length {length}, expected struct {record} with {size} element" ++
      (if size = 1 then "" else "s")
  | .noVariant => "data did not match any variant of untagged enum Repr"
  | .refused reason => reason

end BlockFeed.Json
