import BlockFeed.Feed.World
import BlockFeed.Grpc.Request

/-! The body of a response: what a session has ready goes out in pieces, and its last status in the
trailers. -/

namespace BlockFeed.Grpc

structure Body where
  session : Nat
  /-- The longest response that may be sent. -/
  limit : Option Nat
  /-- A status that waits behind the piece that was sent last. -/
  held : Option Status
  /-- The trailers are out. -/
  ended : Bool
  deriving Repr, DecidableEq

namespace Body

def new (session : Nat) (limit : Option Nat) : Body := ⟨session, limit, none, false⟩

/-- A piece is sent once it is that long. -/
def pieceSize : Nat := 32768

/-- What the items at hand make up: a piece, the status that comes after it, and the items that are
left. A response that is too long is a status that loses the piece. -/
structure Piece where
  data : List UInt8
  status : Option Status
  rest : List Item

def gather (limit : Option Nat) (data : List UInt8) : List Item → Piece
  | [] => ⟨data, none, []⟩
  | .error s :: rest => ⟨data, some s, rest⟩
  | .ok response :: rest =>
    let bytes := Response.message.encode response
    match limit.filter (· < bytes.length) with
    | some limit => ⟨[], some (tooLong "encoded" bytes.length limit), rest⟩
    | none =>
      let data := data ++ frame bytes
      if pieceSize ≤ data.length then ⟨data, none, rest⟩ else gather limit data rest

inductive Poll where
  | pending
  | data (bytes : List UInt8)
  | trailers (status : Status)
  | ended

/-- Asks for the next piece of a body, given what its session has ready and whether more may come. -/
def pollItems (b : Body) (items : List Item) (finished : Bool) : Poll × Body × List Item :=
  match b.held with
  | some s => (.trailers s, { b with held := none, ended := true }, items)
  | none =>
    let piece := gather b.limit [] items
    if !piece.data.isEmpty then (.data piece.data, { b with held := piece.status }, piece.rest)
    else match piece.status with
      | some s => (.trailers s, { b with ended := true }, piece.rest)
      | none =>
        if !finished then (.pending, b, piece.rest)
        else if b.ended then (.ended, b, piece.rest)
        else (.trailers (.new .ok ""), { b with ended := true }, piece.rest)

def poll (b : Body) (w : World) : Poll × Body × World :=
  match w.service.sessions[b.session]? with
  | none => (.ended, b, w)
  | some s =>
    let (poll, b, rest) := b.pollItems s.buffer (s.phase = .done)
    (poll, b, { w with service := w.service.put b.session { s with buffer := rest } }.rouse)

/-- All that a body has ready: its data, its trailers, and whether it is over. -/
structure Ready where
  data : List UInt8
  trailers : Option Status
  ended : Bool

def drain : (fuel : Nat) → Ready → Body → World → Ready × Body × World
  | 0, ready, b, w => (ready, b, w)
  | fuel + 1, ready, b, w =>
    match b.poll w with
    | (.pending, b, w) => (ready, b, w)
    | (.ended, b, w) => ({ ready with ended := true }, b, w)
    | (.data bytes, b, w) => drain fuel { ready with data := ready.data ++ bytes } b w
    | (.trailers s, b, w) => drain fuel { ready with trailers := some s } b w

/-- Every piece holds an item at least, and the trailers and the end come after them. -/
def readAll (b : Body) (w : World) : Ready × Body × World :=
  let items := (w.service.sessions[b.session]?.map fun s => s.buffer.length).getD 0
  drain (items + 4) ⟨[], none, false⟩ b w

end Body

end BlockFeed.Grpc
