import BlockFeed.Feed.Endpoint
import BlockFeed.Feed.Pump
import BlockFeed.Feed.Service

/-! The whole feed: a publisher on a bus, the service over the bus, and the pumps that fill the
publisher. Tasks take turns on one thread. A task runs until it must wait, and those that need not
wait any more run in the order in which they became ready. A pause of a pump is longer than anyone
looks. -/

namespace BlockFeed

/-- The delivery task of the publisher, a pump, the task of a session, the endpoint of the service, or
a health server. -/
inductive Task where
  | delivery
  | pump (id : Nat)
  | session (id : Nat)
  | endpoint
  | healthServer (id : Nat)
  deriving Repr, DecidableEq

structure World where
  publisher : Publisher
  bus : Bus
  service : Service
  /-- A pump is known by its place in the list, which only grows. -/
  pumps : List (Pump Source)
  endpoint : Endpoint
  /-- A health server is known by its place in the list, which only grows. -/
  healthServers : List HealthServer
  /-- The tasks that are to run, the next one first. -/
  ready : List Task

namespace World

def new (bufferCapacity subscriberCapacity clientBuffer : Nat) : World :=
  ⟨.new bufferCapacity, .new subscriberCapacity, .new clientBuffer, [], .new, [], []⟩

def call (w : World) : Option BusCall → World
  | none => w
  | some (.publish block) => { w with bus := (w.bus.publish block).2 }
  | some (.fail e) => { w with bus := (w.bus.fail e).2 }

/-- The task need not wait. -/
def canRun (w : World) : Task → Bool
  | .delivery => w.publisher.canDeliver
  | .pump id => w.pumps[id]?.any (·.canStep w.publisher)
  | .session id => w.service.canStep w.bus id
  | .endpoint => w.endpoint.canStep
  | .healthServer id => w.healthServers[id]?.any HealthServer.canStep

/-- A task does one thing, or nothing if it has to wait. -/
def advance (w : World) : Task → World
  | .delivery =>
    let (publisher, call) := w.publisher.deliver
    { w with publisher }.call call
  | .pump id =>
    match w.pumps[id]? with
    | none => w
    | some pump =>
      let (pump, publisher) := pump.step w.publisher
      { w with publisher, pumps := w.pumps.set id pump }
  | .session id =>
    let (service, bus) := w.service.step w.bus id
    { w with service, bus }
  | .endpoint => { w with endpoint := w.endpoint.step }
  | .healthServer id =>
    { w with healthServers := w.healthServers.modify id fun h => h.step w.endpoint }

def tasks (w : World) : List Task :=
  (List.range w.pumps.length).map .pump ++ [.delivery] ++
    (List.range w.service.sessions.length).map .session ++ [.endpoint] ++
    (List.range w.healthServers.length).map .healthServer

/-- Tasks that have become able to run join the end of the line. -/
def rouse (w : World) : World :=
  { w with ready := w.ready ++ w.tasks.filter fun t => w.canRun t && !w.ready.contains t }

/-- The next task does one thing, or leaves the line if it has to wait. -/
def tick? (w : World) : Option World :=
  match w.ready with
  | [] => none
  | t :: rest => some (if w.canRun t then (w.advance t).rouse else { w with ready := rest })

def ticks : (fuel : Nat) → World → World
  | 0, w => w
  | fuel + 1, w => match w.tick? with
    | some w => ticks fuel w
    | none => w

def total (ns : List Nat) : Nat := ns.foldr (· + ·) 0

/-- More ticks than there is work for: what is queued anywhere, times all who may have to do with
it. -/
def work (w : World) : Nat :=
  let octets := total (w.pumps.map fun p => p.source.rest.length)
  let messages := total (w.bus.subscriptions.map fun s => s.queue.length)
  let tasks := w.tasks.length
  8 * (octets + messages + w.publisher.fifo.used + tasks + 1) * (tasks + 1) * (tasks + 1)

/-- Runs all tasks until each of them has to wait. -/
def settle (w : World) : World := ticks w.work w

/-! What others do with the feed, between two turns of the tasks. -/

def run (w : World) : Except PublisherError World :=
  match w.publisher.run with
  | .ok publisher => .ok { w with publisher, ready := w.ready ++ [.delivery] }
  | .error e => .error e

def stop (w : World) : World := { w with publisher := w.publisher.stop }.rouse

def submit (w : World) (batch : Batch) : Except PublisherError Unit × World :=
  let (result, publisher, call) := w.publisher.submit batch
  (result, ({ w with publisher }.call call).rouse)

def submitWait (w : World) (batch : Batch) : Publisher.Submission × World :=
  let (result, publisher) := w.publisher.submitWait batch
  (result, { w with publisher }.rouse)

def resume (w : World) (waiter : Waiter) : Publisher.Submission × World :=
  let (result, publisher) := w.publisher.resume waiter
  (result, { w with publisher }.rouse)

def abandon (w : World) (waiter : Waiter) : World :=
  { w with publisher := w.publisher.abandon waiter }.rouse

def startPump (w : World) (source : Source) (paced cancelled : Bool) : Nat × World :=
  let id := w.pumps.length
  (id, { w with pumps := w.pumps ++ [.new source paced cancelled], ready := w.ready ++ [.pump id] })

def cancelPump (w : World) (id : Nat) : World :=
  { w with pumps := w.pumps.modify id Pump.cancel }.rouse

def pumpOutcome? (w : World) (id : Nat) : Option Pump.Outcome :=
  w.pumps[id]?.bind Pump.outcome?

def subscribe (w : World) : Except Bus.SubscribeError (Nat × World) :=
  match w.bus.subscribe with
  | .ok (id, bus) => .ok (id, { w with bus })
  | .error e => .error e

def recv (w : World) (id : Nat) : Received × World :=
  let (received, bus) := w.bus.recv id
  (received, { w with bus })

def unsubscribe (w : World) (id : Nat) : World := { w with bus := w.bus.unsubscribe id }.rouse

def drop (w : World) (id : Nat) : World := { w with bus := w.bus.drop id }.rouse

def publish (w : World) (block : Block) : Nat × World :=
  let (delivered, bus) := w.bus.publish block
  (delivered, { w with bus }.rouse)

def fail (w : World) (e : FeedError) : Nat × World :=
  let (notified, bus) := w.bus.fail e
  (notified, { w with bus }.rouse)

def close (w : World) : World := { w with bus := w.bus.close }.rouse

/-- A client asks for a stream of blocks. -/
def accept (w : World) (r : Request) : Except Grpc.Status (Nat × World) :=
  match w.service.accept w.bus r with
  | .error s => .error s
  | .ok (id, service, bus) => .ok (id, { w with service, bus, ready := w.ready ++ [.session id] })

def read (w : World) (id : Nat) : Service.Read × World :=
  let (read, service) := w.service.read id
  (read, { w with service }.rouse)

def hangUp (w : World) (id : Nat) : World := { w with service := w.service.hangUp id }.rouse

def serve (w : World) (taken : Bool) : Except ServeError World :=
  match w.endpoint.serve taken with
  | .ok endpoint => .ok { w with endpoint, ready := w.ready ++ [.endpoint] }
  | .error e => .error e

/-- Closes the bus and stops the endpoint. While it listens, the tasks run until it has let go. -/
def stopService (w : World) : World :=
  let closed := { w with bus := w.bus.close, endpoint := { w.endpoint with stopped := true } }.rouse
  if w.endpoint.listening then closed.settle else closed

def startHealthServer (w : World) (contested : Bool) : Nat × World :=
  let id := w.healthServers.length
  (id, { w with healthServers := w.healthServers ++ [.new contested]
                ready := w.ready ++ [.healthServer id] })

def cancelHealthServer (w : World) (id : Nat) : World :=
  { w with healthServers := w.healthServers.modify id fun h => { h with cancelled := true } }.rouse

end World

end BlockFeed
