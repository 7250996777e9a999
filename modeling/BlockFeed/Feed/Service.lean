import BlockFeed.Feed.Bus
import BlockFeed.Grpc.Status
import BlockFeed.Response

/-! The streaming service: every accepted request has a session, whose task moves blocks from a
subscription through the client's filter into a bounded buffer, from which the client reads. -/

namespace BlockFeed

open Grpc (Code Status)

/-- What a client reads: responses, and one status at the end. -/
abbrev Item := Except Status Response

/-- How far the task of a session is. -/
inductive Session.Phase where
  | receiving
  /-- A response waits for room. -/
  | sending (response : Response)
  /-- The last status waits for room. -/
  | closing (status : Status)
  | done
  deriving DecidableEq

structure Session where
  filter : StreamFilter
  /-- The subscription on the bus. -/
  subscription : Nat
  /-- What the client has not read yet. -/
  buffer : List Item
  /-- The client is still there. -/
  connected : Bool
  phase : Session.Phase

structure Service where
  /-- The length of each client's buffer. -/
  capacity : Nat
  capacity_pos : 0 < capacity
  /-- A session is known by its place in the list, which only grows. -/
  sessions : List Session
  /-- How many sessions have a task that is not done. -/
  active : Nat
  /-- The number of active sessions, once it has been said. -/
  reported : Option Nat
  /-- Responses placed into buffers. -/
  sent : Nat
  /-- Sessions that ended because their client went away. -/
  clientsGone : Nat

namespace Service

def shutdownMessage : String := "chain stream server is shutting down"

def slowConsumerMessage : String := "subscriber fell behind the chain stream"

def defaultCapacity : Nat := 64

def new (capacity : Nat) : Service where
  capacity := capacityFor capacity
  capacity_pos := capacityFor_pos capacity
  sessions := []
  active := 0
  reported := none
  sent := 0
  clientsGone := 0

/-- The status for a filter that is refused; it names the field at fault. -/
def invalidFilter (e : StreamFilterError) : Status :=
  ⟨.invalidArgument, e.message, [⟨e.field, e.message⟩]⟩

/-- The status for the end of a queue. -/
def endOf : CloseReason → Status
  | .slowConsumer => .new .resourceExhausted slowConsumerMessage
  | .shutdown => .new .unavailable shutdownMessage

/-- Accepts a request, or says why not. -/
def accept (service : Service) (bus : Bus) (r : Request) : Except Status (Nat × Service × Bus) :=
  match StreamFilter.ofRequest r.markets r.subaccounts with
  | .error e => .error (invalidFilter e)
  | .ok filter =>
    match bus.subscribe with
    | .error .closed => .error (endOf .shutdown)
    | .ok (subscription, bus) =>
      .ok (service.sessions.length,
        { service with
          sessions := service.sessions ++ [⟨filter, subscription, [], true, .receiving⟩]
          active := service.active + 1
          reported := some (service.active + 1) },
        bus)

def put (service : Service) (id : Nat) (s : Session) : Service :=
  { service with sessions := service.sessions.set id s }

/-- The task of a session ends, and lets go of the subscription. -/
def finish (service : Service) (id : Nat) (s : Session) (bus : Bus) : Service × Bus :=
  ({ service.put id { s with phase := .done } with
      active := service.active - 1, reported := some (service.active - 1) },
    bus.drop s.subscription)

/-- The task of a session finds its client gone. -/
def finishGone (service : Service) (id : Nat) (s : Session) (bus : Bus) : Service × Bus :=
  { service with clientsGone := service.clientsGone + 1 }.finish id s bus

/-- What the task does next with something from its subscription. -/
def phaseFor (filter : StreamFilter) (reason : CloseReason) : Received → Session.Phase
  | .pending => .receiving
  | .block b => match b.select filter with
    | .ok selection => .sending (Response.ofSelection selection)
    | .error e => .closing (.new .internal e.message)
  | .terminal e => .closing (.new .internal e.message)
  | .ended => .closing (endOf reason)

def hasRoom (service : Service) (s : Session) : Bool := s.buffer.length < service.capacity

/-- The task of a session does one thing, or nothing if it has to wait. -/
def step (service : Service) (bus : Bus) (id : Nat) : Service × Bus :=
  match service.sessions[id]? with
  | none => (service, bus)
  | some s =>
    match s.phase with
    | .done => (service, bus)
    | .receiving =>
      if !s.connected then service.finishGone id s bus
      else
        let (received, bus) := bus.recv s.subscription
        let phase := phaseFor s.filter (bus.closeReason s.subscription) received
        (service.put id { s with phase }, bus)
    | .sending r =>
      if !s.connected then service.finishGone id s bus
      else if service.hasRoom s then
        ({ service.put id { s with buffer := s.buffer ++ [.ok r], phase := .receiving } with
            sent := service.sent + 1 }, bus)
      else (service, bus)
    | .closing status =>
      if !s.connected then service.finish id s bus
      else if service.hasRoom s then
        service.finish id { s with buffer := s.buffer ++ [.error status] } bus
      else (service, bus)

/-- The task of a session need not wait. -/
def canStep (service : Service) (bus : Bus) (id : Nat) : Bool :=
  match service.sessions[id]? with
  | none => false
  | some s =>
    match s.phase with
    | .done => false
    | .receiving => !s.connected || bus.isReady s.subscription
    | .sending _ | .closing _ => !s.connected || service.hasRoom s

/-- What a client finds in its buffer. -/
inductive Read where
  | pending
  | item (item : Item)
  | ended

/-- The client reads one item. -/
def read (service : Service) (id : Nat) : Read × Service :=
  match service.sessions[id]? with
  | none => (.ended, service)
  | some s =>
    match s.buffer with
    | item :: rest => (.item item, service.put id { s with buffer := rest })
    | [] => (if s.phase = .done then .ended else .pending, service)

/-- The client goes away. -/
def hangUp (service : Service) (id : Nat) : Service :=
  match service.sessions[id]? with
  | none => service
  | some s => service.put id { s with connected := false, buffer := [] }

end Service

end BlockFeed
