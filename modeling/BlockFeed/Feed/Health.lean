import BlockFeed.Feed.World
import BlockFeed.Json.Value
import BlockFeed.Net.Uri
import BlockFeed.Settings

/-! Health over HTTP: a report, two probes, and the page for the metrics. The service is healthy
while the publisher runs, degraded before it runs and while it drains, unhealthy afterwards. -/

namespace BlockFeed.Health

inductive Verdict where
  | healthy
  | degraded
  | unhealthy
  deriving Repr, DecidableEq

def Verdict.name : Verdict → String
  | .healthy => "healthy"
  | .degraded => "degraded"
  | .unhealthy => "unhealthy"

def Verdict.ofState : PublisherState → Verdict
  | .running => .healthy
  | .idle | .stopping => .degraded
  | .stopped => .unhealthy

structure Report where
  version : String
  network : Network
  state : PublisherState
  latestHeight : UInt64
  queueDepth : Nat
  bufferCapacity : Nat
  lastError : Option String
  /-- Subscriptions registered on the bus. -/
  active : Nat
  streams : Nat
  /-- The bus takes no more subscriptions. -/
  closed : Bool
  deriving Repr, DecidableEq

namespace Report

def of (version : String) (network : Network) (w : World) : Report where
  version := version
  network := network
  state := w.publisher.state
  latestHeight := w.publisher.latestHeight
  queueDepth := w.publisher.depth
  bufferCapacity := w.publisher.fifo.capacity
  lastError := w.publisher.lastError.map FeedError.message
  active := w.bus.registered
  streams := w.service.active
  closed := w.bus.closed

def verdict (r : Report) : Verdict := .ofState r.state

open Json (Value Number) in
def value (r : Report) : Value :=
  let number (n : Nat) : Value := .number (.natural n)
  .object [
    ("status", .string r.verdict.name),
    ("version", .string r.version),
    ("network", .string r.network.name),
    ("publisher", .object [
      ("state", .string r.state.name),
      ("latest_height", number r.latestHeight.toNat),
      ("queue_depth", number r.queueDepth),
      ("buffer_capacity", number r.bufferCapacity),
      ("last_error", (r.lastError.map Value.string).getD .null)]),
    ("subscriptions", .object [
      ("active", number r.active),
      ("grpc_streams", number r.streams),
      ("closed", .bool r.closed)])]

end Report

inductive Body where
  | text (s : String)
  | report (r : Report)

structure Answer where
  status : Nat
  contentType : Option String
  body : Body

def plain (status : Nat) (s : String) : Answer :=
  ⟨status, some "text/plain; charset=utf-8", .text s⟩

/-- An answer without content. -/
def bare (status : Nat) : Answer := ⟨status, none, .text ""⟩

/-- The page for the metrics: one gauge, of the process as a whole. -/
def page : String :=
  "# HELP chain_stream_subscriptions_active Number of subscriptions registered on the bus\n" ++
  "# TYPE chain_stream_subscriptions_active gauge\nchain_stream_subscriptions_active 0\n\n"

/-- What is found at a path. -/
def answerAt? (r : Report) (path : List UInt8) : Option Answer :=
  if path = Net.Uri.octets "/health" then
    some ⟨if r.verdict = .unhealthy then 503 else 200, some "application/json", .report r⟩
  else if path = Net.Uri.octets "/healthz" then some (plain 200 "OK")
  else if path = Net.Uri.octets "/readyz" then
    some (if r.state = .running then plain 200 "READY" else plain 503 "NOT READY")
  else if path = Net.Uri.octets "/metrics" then
    some ⟨200, some "text/plain; version=0.0.4; charset=utf-8", .text page⟩
  else none

/-- The answer to a request. `HEAD` is answered like `GET`, without the content. -/
def answer (r : Report) (method : String) (path : List UInt8) : Answer :=
  match answerAt? r path with
  | none => bare 404
  | some a =>
    if method = "GET" then a
    else if method = "HEAD" then { a with body := .text "" }
    else bare 405

end BlockFeed.Health
