import BlockFeed.Feed.Bus
import BlockFeed.Feed.Fifo

/-! The publisher takes batches into a bounded queue, and its delivery task turns them into blocks
and hands them to the bus one by one. A full queue and a block that does not decode are fatal: the
bus is told once and nothing is published afterwards. -/

namespace BlockFeed

inductive PublisherState where
  | idle
  | running
  /-- Draining what is queued. -/
  | stopping
  | stopped
  deriving Repr, DecidableEq

def PublisherState.name : PublisherState → String
  | .idle => "idle"
  | .running => "running"
  | .stopping => "stopping"
  | .stopped => "stopped"

inductive PublisherError where
  | alreadyStarted
  | stopped
  | bufferOverflow
  deriving Repr, DecidableEq

def PublisherError.message : PublisherError → String
  | .alreadyStarted => "publisher already started"
  | .stopped => "publisher is stopped"
  | .bufferOverflow => "chain stream event buffer overflow"

/-- How far the delivery task is. -/
inductive Delivery where
  | notStarted
  | looping
  | draining
  /-- Draining, with slots given out that it cannot do without; giving one back does not wake it. -/
  | stranded
  | finished
  deriving Repr, DecidableEq

/-- What the publisher asks of the bus. -/
inductive BusCall where
  | publish (block : Block)
  | fail (error : FeedError)
  deriving DecidableEq

/-- How often something happened, by key, the first key first. -/
abbrev Tally (κ : Type) := List (κ × Nat)

def Tally.add {κ : Type} [DecidableEq κ] (key : κ) : Tally κ → Tally κ
  | [] => [(key, 1)]
  | (k, n) :: rest => if k = key then (k, n + 1) :: rest else (k, n) :: add key rest

structure Publisher.Counts where
  published : Nat
  /-- The height of the last block published. -/
  height : Option UInt64
  decoded : Tally (Option Topic)
  /-- Events that failed to decode; those of no topic have no key. -/
  failed : Tally (Option Topic)
  overflows : Nat
  depth : Option Nat
  processed : Nat
  deriving DecidableEq

/-- Counts the events of a batch up to the first that does not decode. -/
def Publisher.Counts.events (c : Publisher.Counts) : List Event → Publisher.Counts
  | [] => c
  | e :: rest =>
    if e.decode.isOk then
      events { c with decoded := c.decoded.add (Topic.ofTag? e.tag) } rest
    else { c with failed := c.failed.add (Topic.ofTag? e.tag) }

/-- One who waits for a slot in the queue, with the batch to put there. -/
structure Waiter where
  id : Nat
  batch : Batch
  deriving Repr, DecidableEq

structure Publisher where
  state : PublisherState
  lastError : Option FeedError
  /-- The delivery task is asked to leave its loop. -/
  cancelled : Bool
  /-- Nothing will be delivered any more. -/
  finished : Bool
  latestHeight : UInt64
  fifo : Fifo Batch
  /-- The reading end of the queue is here; the delivery task takes it with it. -/
  receiver : Bool
  delivery : Delivery
  nextWaiter : Nat
  counts : Publisher.Counts
  deriving DecidableEq

namespace Publisher

def defaultCapacity : Nat := 100

def new (capacity : Nat) : Publisher where
  state := .idle
  lastError := none
  cancelled := false
  finished := false
  latestHeight := 0
  fifo := Fifo.new capacity
  receiver := true
  delivery := .notStarted
  nextWaiter := 0
  counts := ⟨0, none, [], [], 0, none, 0⟩

def accepts (p : Publisher) : Bool := p.state = .idle || p.state = .running

/-- Stops for good with an error. Only the first call has an effect. -/
def halt (p : Publisher) (e : FeedError) : Publisher × Option BusCall :=
  if p.state = .stopped then (p, none)
  else
    ({ p with state := .stopped, lastError := some e, cancelled := true,
              finished := p.finished || p.state = .idle }, some (.fail e))

def publish (p : Publisher) (block : Block) : Publisher × Option BusCall :=
  if p.state = .running || p.state = .stopping then
    ({ p with latestHeight := block.height,
              counts := { p.counts with published := p.counts.published + 1,
                                        height := some block.height } },
      some (.publish block))
  else (p, none)

/-- Decodes a batch, and publishes its block or halts. -/
def process (p : Publisher) (batch : Batch) : Publisher × Option BusCall :=
  let counts := p.counts.events batch.events
  let p := { p with counts := { counts with processed := counts.processed + 1 } }
  match Block.ofBatch batch with
  | .ok block => p.publish block
  | .error source => p.halt (.decode batch.height source)

/-- The delivery task ends, and its queue goes with it. -/
def finish (p : Publisher) : Publisher :=
  { p with state := .stopped, finished := true, delivery := .finished, fifo := p.fifo.discard,
           counts := { p.counts with depth := some 0 } }

/-- The delivery task does one thing, or nothing if it has to wait. -/
def deliver (p : Publisher) : Publisher × Option BusCall :=
  match p.delivery with
  | .looping =>
    if p.cancelled then
      if p.state = .stopped then (p.finish, none)
      else ({ p with delivery := .draining, fifo := p.fifo.close }, none)
    else match p.fifo.pop? with
      | some (batch, fifo) =>
        process { p with fifo, counts := { p.counts with depth := some fifo.queue.length } } batch
      | none => (p, none)
  | .draining =>
    if p.state = .stopped then (p.finish, none)
    else match p.fifo.pop? with
      | some (batch, fifo) => process { p with fifo } batch
      | none =>
        if p.fifo.granted.isEmpty then (p.finish, none) else ({ p with delivery := .stranded }, none)
  | _ => (p, none)

/-- The delivery task need not wait. -/
def canDeliver (p : Publisher) : Bool :=
  match p.delivery with
  | .looping => p.cancelled || !p.fifo.queue.isEmpty
  | .draining => true
  | _ => false

def run (p : Publisher) : Except PublisherError Publisher :=
  match p.state with
  | .idle =>
    if p.receiver then .ok { p with state := .running, receiver := false, delivery := .looping }
    else .error .alreadyStarted
  | .running | .stopping => .error .alreadyStarted
  | .stopped => .error .stopped

/-- Asks the publisher to stop. It has stopped once it has `finished`. -/
def stop (p : Publisher) : Publisher :=
  match p.state with
  | .idle => { p with state := .stopped, finished := true }
  | .running => { p with state := .stopping, cancelled := true }
  | _ => p

/-- Takes a batch in, or halts if there is no room. -/
def submit (p : Publisher) (batch : Batch) :
    Except PublisherError Unit × Publisher × Option BusCall :=
  if !p.accepts || p.fifo.closed then (.error .stopped, p, none)
  else if p.fifo.isFull then
    let p := { p with counts := { p.counts with overflows := p.counts.overflows + 1 } }
    (.error .bufferOverflow, p.halt .bufferOverflow)
  else (.ok (), { p with fifo := p.fifo.push batch }, none)

/-- How a submission that may wait stands. -/
inductive Submission where
  | pending (waiter : Waiter)
  | done (result : Except PublisherError Unit)

/-- Nothing is accepted, however long one waits. -/
def refuses (p : Publisher) : Bool := p.cancelled || p.finished || p.fifo.closed

/-- Takes a batch in, waiting for room. -/
def submitWait (p : Publisher) (batch : Batch) : Submission × Publisher :=
  if !p.accepts || p.refuses then (.done (.error .stopped), p)
  else if p.fifo.isFull then
    (.pending ⟨p.nextWaiter, batch⟩,
      { p with nextWaiter := p.nextWaiter + 1, fifo := p.fifo.enter p.nextWaiter })
  else (.done (.ok ()), { p with fifo := p.fifo.push batch })

/-- A waiter gives up its place. -/
def abandon (p : Publisher) (w : Waiter) : Publisher := { p with fifo := p.fifo.leave w.id }

/-- A waiter looks whether it holds a slot by now. -/
def resume (p : Publisher) (w : Waiter) : Submission × Publisher :=
  if p.refuses then (.done (.error .stopped), p.abandon w)
  else if w.id ∈ p.fifo.granted then
    if p.accepts then (.done (.ok ()), { p with fifo := p.fifo.fill w.id w.batch })
    else (.done (.error .stopped), p.abandon w)
  else (.pending w, p)

/-- A waiter has something to look at. -/
def rouses (p : Publisher) (w : Waiter) : Bool := p.refuses || w.id ∈ p.fifo.granted

/-- How many slots of the queue are in use. -/
def depth (p : Publisher) : Nat := p.fifo.used

end Publisher

end BlockFeed
