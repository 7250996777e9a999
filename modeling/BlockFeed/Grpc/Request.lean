import BlockFeed.Grpc.Framing
import BlockFeed.Net.Uri
import BlockFeed.Response.Schema

/-! How the service reads the request of a call. -/

namespace BlockFeed.Grpc

/-- The path of the only method. -/
def streamPath : List UInt8 := Net.Uri.octets "/chainstream.v1.ChainStreamService/Stream"

/-- All messages of a body, none of which may be bad. Every one takes an octet at least. -/
def readRequests : (fuel : Nat) → Reader → Except Status (List Request)
  | 0, _ => .ok []
  | fuel + 1, r =>
    match r.next with
    | (.error s, _) => .error s
    | (.ok none, r) => if r.buffer.isEmpty then .ok [] else .error unexpectedEnd
    | (.ok (some bytes), r) =>
      match Request.message.decode bytes with
      | .error fault => .error (.new .internal fault.message)
      | .ok request => (request :: ·) <$> readRequests fuel r

/-- The first message of a body is the request. -/
def readRequest (limit : Option Nat) (body : List UInt8) : Except Status Request := do
  match ← readRequests (body.length + 1) (.new .request limit body) with
  | request :: _ => return request
  | [] => throw (.new .internal "Missing request message.")

/-- The request of a call to a path. -/
def receive (path : List UInt8) (limit : Option Nat) (body : List UInt8) : Except Status Request :=
  if path = streamPath then readRequest limit body else .error (.new .unimplemented "")

end BlockFeed.Grpc
