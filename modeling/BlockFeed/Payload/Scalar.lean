import BlockFeed.Json.Record
import BlockFeed.Record
import BlockFeed.Text.Base64
import BlockFeed.Text.Bech32

/-! The scalars of event payloads: exact decimals as strings, octets in base64, identifiers. -/

namespace BlockFeed.Payload

open Json (Reader Fault Value)

def parseDecimal (text : String) : Except Fault Decimal :=
  match Decimal.ofText? text with
  | .ok d => .ok d
  | .error e => .error (.refused e.message)

def decimal : Reader Decimal := Reader.string.andThen parseDecimal

def nullableDecimal : Reader (Option Decimal) :=
  (Reader.nullable Reader.string).andThen fun
    | none => .ok none
    | some text => some <$> parseDecimal text

def parseBase64 (what text : String) : Except Fault (List UInt8) :=
  match Text.Base64.decode (Text.Utf8.encode text) with
  | .ok octets => .ok octets
  | .error f => .error (.refused s!"invalid {what} {Text.quoted text}: {f.message}")

/-- Octets in base64; `null` and the empty text have none. -/
def octets : Reader (List UInt8) :=
  (Reader.nullable Reader.string).andThen fun text => parseBase64 "base64" (text.getD "")

/-- A hash, written as `0x` and its digits, or as nothing if it is empty. -/
def hashText (octets : List UInt8) : String :=
  if octets.isEmpty then "" else String.ofList ('0' :: 'x' :: Text.Hex.encode octets)

def hash : Reader String := octets.andThen fun bytes => .ok (hashText bytes)

/-- The readable part of account addresses. -/
def accountMark : String := "inj"

/-- An account's address, or nothing if it is empty. -/
def account : Reader String :=
  octets.andThen fun bytes =>
    if bytes.isEmpty then .ok ""
    else match Text.Bech32.encode? accountMark bytes with
      | some address => .ok address
      | none => .error (.refused "encode error")

def refuseIdentifier {α : Type} : Except IdentifierError α → Except Fault α
  | .ok a => .ok a
  | .error e => .error (.refused e.message)

/-- A subaccount as `0x` and 64 digits or as at most 32 octets in base64. -/
def parseSubaccount (text : String) : Except Fault SubaccountId := do
  if text.utf8ByteSize = 2 + 2 * SubaccountId.size ∧ text.toList.take 2 = ['0', 'x'] then
    refuseIdentifier (SubaccountId.ofText? text)
  else
    let bytes ← parseBase64 "subaccount id" text
    refuseIdentifier (SubaccountId.ofOctets? bytes)

def subaccount : Reader SubaccountId := Reader.string.andThen parseSubaccount

def maxInteger : Nat := 0x7FFFFFFFFFFFFFFF

def orderTypeOfNumber (n : Int) : Except Fault OrderType :=
  match OrderType.ofNumber? n with
  | some t => .ok t
  | none => .error (.refused s!"unknown order type {n}")

/-- An order type by its name or its number. -/
def orderType : Reader OrderType :=
  Reader.any.andThen fun
    | .string name =>
      match OrderType.ofName? name with
      | some t => .ok t
      | none => .error (.refused s!"unknown order type {Text.quoted name}")
    | .number (.natural n) => if n ≤ maxInteger then orderTypeOfNumber n else .error .noVariant
    | .number (.minus n) => orderTypeOfNumber (-(n : Int))
    | _ => .error .noVariant

end BlockFeed.Payload
