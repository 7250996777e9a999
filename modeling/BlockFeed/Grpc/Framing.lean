import BlockFeed.Grpc.Status

/-! Messages in a stream of octets: each comes after a flag and its length in four octets. -/

namespace BlockFeed.Grpc

def maxMessage : Nat := 4194304

def frame (bytes : List UInt8) : List UInt8 :=
  let n := bytes.length
  [0, UInt8.ofNat (n >>> 24), UInt8.ofNat (n >>> 16), UInt8.ofNat (n >>> 8), UInt8.ofNat n] ++
    bytes

def tooLong (what : String) (found limit : Nat) : Status :=
  .new .outOfRange
    s!"Error, {what} message length too large: found {found} bytes, the limit is: {limit} bytes"

def unexpectedEnd : Status := .new .internal "Unexpected EOF decoding stream."

/-- Which way the messages go. -/
inductive Direction where
  | request
  | response
  deriving Repr, DecidableEq

/-- The status for a flag that is not zero: nothing is sent compressed. -/
def badFlag (d : Direction) (flag : Nat) : Status :=
  let reason :=
    if flag = 1 then "received message with compressed-flag but no grpc-encoding was specified"
    else s!"received message with invalid compression flag: {flag} (valid flags are 0 and 1)" ++
      match d with
      | .request => ", while sending request"
      | .response => " while receiving response with status: 200 OK"
  .new .internal ("protocol error: " ++ reason)

/-- Splits messages off the octets that have come. -/
structure Reader where
  direction : Direction
  limit : Nat
  /-- The length of the message whose prefix has been read. -/
  size : Option Nat
  buffer : List UInt8
  deriving Repr, DecidableEq

namespace Reader

def new (direction : Direction) (limit : Option Nat) (buffer : List UInt8) : Reader :=
  ⟨direction, limit.getD maxMessage, none, buffer⟩

/-- Reads the prefix of the next message, if all of it is there. A bad one is consumed as far as it
has been looked at. -/
def readPrefix (r : Reader) : Except Status Unit × Reader :=
  match r.size, r.buffer with
  | none, flag :: a :: b :: c :: d :: rest =>
    if flag ≠ 0 then (.error (badFlag r.direction flag.toNat), { r with buffer := r.buffer.drop 1 })
    else
      let size := ((a.toNat * 256 + b.toNat) * 256 + c.toNat) * 256 + d.toNat
      if r.limit < size then (.error (tooLong "decoded" size r.limit), { r with buffer := rest })
      else (.ok (), { r with size := some size, buffer := rest })
  | _, _ => (.ok (), r)

/-- The next message, if all of it is there. -/
def next (r : Reader) : Except Status (Option (List UInt8)) × Reader :=
  match r.readPrefix with
  | (.error s, r) => (.error s, r)
  | (.ok (), r) =>
    match r.size with
    | none => (.ok none, r)
    | some size =>
      if r.buffer.length < size then (.ok none, r)
      else (.ok (some (r.buffer.take size)), { r with size := none, buffer := r.buffer.drop size })

end Reader

end BlockFeed.Grpc
