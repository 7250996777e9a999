import BlockFeed.Grpc.Body

/-! A call of the service by a client in the same process: the request and the responses go through
their encodings, within the limits that either side has set. -/

namespace BlockFeed.Grpc

structure CallOptions where
  /-- The client refuses to send the call. -/
  clientDenies : Bool
  /-- The service refuses to take it. -/
  serverDenies : Bool
  /-- Where the client believes the service to be. -/
  origin : Option Net.Uri
  /-- The longest request that the client sends. -/
  maxEncode : Option Nat
  /-- The longest response that the client takes. -/
  maxDecode : Option Nat
  serverMaxEncode : Option Nat
  serverMaxDecode : Option Nat

structure Call where
  body : Body
  reader : Reader
  /-- The call has failed, with a status that may not have been told yet. -/
  failed : Option (Option Status)

inductive Call.Next where
  | pending
  | response (response : Response)
  | status (status : Status)
  | ended

namespace Call

def denied : Status := .new .permissionDenied "denied by interceptor"

/-- The path of the method behind the path of the origin. -/
def target (origin : Option Net.Uri) : List UInt8 :=
  match origin with
  | none => streamPath
  | some uri =>
    if uri.path = [] ∨ uri.path = Net.Uri.octets "/" then streamPath
    else uri.route ++ streamPath

/-- The request as the service receives it. -/
def send (o : CallOptions) (r : Request) : Except Status Request := do
  if o.clientDenies || o.serverDenies then throw denied
  let bytes := Request.message.encode r
  if target o.origin = streamPath then
    if let some limit := o.maxEncode.filter (· < bytes.length) then
      throw (tooLong "encoded" bytes.length limit)
  receive (target o.origin) o.serverMaxDecode (frame bytes)

def start (w : World) (o : CallOptions) (r : Request) : Except Status (Call × World) := do
  let (session, w) ← w.accept (← send o r)
  return (⟨.new session o.serverMaxEncode, .new .response o.maxDecode [], none⟩, w)

/-- Reads on until there is a message, an end, or nothing to read yet. -/
def nextFrom : (fuel : Nat) → Call → World → Next × Call × World
  | 0, c, w => (.pending, c, w)
  | fuel + 1, c, w =>
    match c.failed with
    | some (some s) => (.status s, { c with failed := some none }, w)
    | some none => (.ended, c, w)
    | none =>
      match c.reader.next with
      | (.error s, reader) => (.status s, { c with reader }, w)
      | (.ok (some bytes), reader) =>
        match Response.message.decode bytes with
        | .ok response => (.response response, { c with reader }, w)
        | .error fault => (.status (.new .internal fault.message), { c with reader }, w)
      | (.ok none, reader) =>
        let c := { c with reader }
        match c.body.poll w with
        | (.pending, body, w) => (.pending, { c with body }, w)
        | (.data bytes, body, w) =>
          let c := { c with body, reader := { reader with buffer := reader.buffer ++ bytes } }
          nextFrom fuel c w
        | (.trailers s, body, w) =>
          if s.code = .ok then (.ended, { c with body }, w)
          else nextFrom fuel { c with body, failed := some (some s) } w
        | (.ended, body, w) =>
          (if reader.buffer.isEmpty then .ended else .status unexpectedEnd, { c with body }, w)

/-- The next response or the end of the call. Every piece of the body holds an item at least. -/
def next (c : Call) (w : World) : Next × Call × World :=
  let items := (w.service.sessions[c.body.session]?.map fun s => s.buffer.length).getD 0
  nextFrom (items + 4) c w

end Call

end BlockFeed.Grpc
