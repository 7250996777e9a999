import BlockFeed.Protobuf.Message
import BlockFeed.Text.Base64
import BlockFeed.Text.Percent

/-! The status a call ends with, and how it travels in headers. -/

namespace BlockFeed.Grpc

inductive Code where
  | ok
  | invalidArgument
  | permissionDenied
  | resourceExhausted
  | outOfRange
  | unimplemented
  | internal
  | unavailable
  deriving Repr, DecidableEq

namespace Code

def number : Code → Nat
  | ok => 0
  | invalidArgument => 3
  | permissionDenied => 7
  | resourceExhausted => 8
  | outOfRange => 11
  | unimplemented => 12
  | internal => 13
  | unavailable => 14

def name : Code → String
  | ok => "Ok"
  | invalidArgument => "InvalidArgument"
  | permissionDenied => "PermissionDenied"
  | resourceExhausted => "ResourceExhausted"
  | outOfRange => "OutOfRange"
  | unimplemented => "Unimplemented"
  | internal => "Internal"
  | unavailable => "Unavailable"

end Code

/-- A request field that is at fault. -/
structure Violation where
  field : String
  description : String
  deriving Repr, DecidableEq

structure Status where
  code : Code
  message : String
  violations : List Violation
  deriving Repr, DecidableEq

namespace Status

def new (code : Code) (message : String) : Status := ⟨code, message, []⟩

/-- A text that is written unless it is empty. -/
def textField (number : Nat) (s : String) : List UInt8 :=
  if s = "" then [] else Protobuf.delimited number (Text.Utf8.encode s)

def violationOctets (v : Violation) : List UInt8 := textField 1 v.field ++ textField 2 v.description

/-- The details as a message: code, message, and the violations under their type. -/
def details (s : Status) : List UInt8 :=
  let violations := s.violations.flatMap fun v => Protobuf.delimited 1 (violationOctets v)
  let typed := textField 1 "type.googleapis.com/google.rpc.BadRequest" ++ Protobuf.delimited 2 violations
  Protobuf.key 1 .varint ++ Protobuf.Varint.encode s.code.number ++ textField 2 s.message ++
    Protobuf.delimited 3 typed

def headers (s : Status) : List (String × String) :=
  [("grpc-status", toString s.code.number)] ++
    (if s.message = "" then [] else [("grpc-message", Text.Percent.encode s.message)]) ++
    (if s.violations.isEmpty then []
     else [("grpc-status-details-bin", String.ofList (Text.Base64.encodeBare s.details))])

end Status

end BlockFeed.Grpc
