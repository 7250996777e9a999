import BlockFeed.Block
import BlockFeed.Feed.Capacity
import BlockFeed.Feed.Error

/-! The bus: every registered subscription has a bounded queue and gets every block in the same
order. A queue that is full when a block comes is ended rather than skipped, so its reader never
sees a gap. A terminal error ends all queues and is remembered for those that come later. -/

namespace BlockFeed

inductive FeedMessage where
  | block (block : Block)
  | terminal (error : FeedError)
  deriving DecidableEq

/-- What a reader of a subscription gets. -/
inductive Received where
  | pending
  | block (block : Block)
  | terminal (error : FeedError)
  | ended
  deriving DecidableEq

/-- Why a queue ended. -/
inductive CloseReason where
  | slowConsumer
  | shutdown
  deriving Repr, DecidableEq

structure Subscription where
  /-- What has been queued and not yet read. -/
  queue : List FeedMessage
  /-- The bus still queues for it. -/
  registered : Bool
  /-- Its reader still holds it. -/
  held : Bool
  evicted : Bool
  seenTerminal : Bool
  deriving DecidableEq

namespace Subscription

def fresh : Subscription := ⟨[], true, true, false, false⟩

/-- The subscription of one who comes after the feed has halted. -/
def halted (e : FeedError) : Subscription := ⟨[.terminal e], false, true, false, false⟩

def isFull (capacity : Nat) (s : Subscription) : Bool := capacity ≤ s.queue.length

/-- Whether a block that is offered now evicts the subscription. -/
def evictable (capacity : Nat) (s : Subscription) : Bool :=
  s.registered && s.held && s.isFull capacity

/-- Offers a block to the subscription. -/
def offer (capacity : Nat) (b : Block) (s : Subscription) : Subscription :=
  if !s.registered then s
  else if !s.held then { s with registered := false }
  else if s.isFull capacity then { s with registered := false, evicted := true }
  else { s with queue := s.queue ++ [.block b] }

/-- Ends the queue with an error, if there is room for it. -/
def halt (capacity : Nat) (e : FeedError) (s : Subscription) : Subscription :=
  if !s.registered then s
  else if s.held && !s.isFull capacity then
    { s with registered := false, queue := s.queue ++ [.terminal e] }
  else { s with registered := false }

/-- Ends the queue where it is. -/
def release (s : Subscription) : Subscription := { s with registered := false }

/-- Takes the next message. A queue that ended unread yields the terminal error of the feed once,
unless it was evicted. -/
def recv (terminal : Option FeedError) (s : Subscription) : Received × Subscription :=
  match s.queue with
  | .block b :: rest => (.block b, { s with queue := rest })
  | .terminal e :: rest => (.terminal e, { s with queue := rest, seenTerminal := true })
  | [] =>
    if s.registered then (.pending, s)
    else if s.seenTerminal || s.evicted then (.ended, s)
    else match terminal with
      | some e => (.terminal e, { s with seenTerminal := true })
      | none => (.ended, s)

/-- There is a message, or none will come. -/
def isReady (s : Subscription) : Bool := !s.queue.isEmpty || !s.registered

def closeReason (s : Subscription) : CloseReason :=
  if s.evicted then .slowConsumer else .shutdown

end Subscription

/-- What the bus has counted: subscriptions registered, once that has been said, and subscriptions
ended, by reason. -/
structure Bus.Counts where
  active : Option Nat
  slowConsumer : Nat
  shutdown : Nat
  terminal : Nat
  deriving Repr, DecidableEq

/-- A subscription is known by its place in the list, which only grows. -/
structure Bus where
  /-- The length of each queue. -/
  capacity : Nat
  capacity_pos : 0 < capacity
  subscriptions : List Subscription
  terminal : Option FeedError
  closed : Bool
  counts : Bus.Counts

namespace Bus

/-- The bus has been closed. -/
inductive SubscribeError where
  | closed
  deriving Repr, DecidableEq

def SubscribeError.message : SubscribeError → String
  | .closed => "subscription bus is closed"

def defaultCapacity : Nat := 1024

def new (capacity : Nat) : Bus where
  capacity := capacityFor capacity
  capacity_pos := capacityFor_pos capacity
  subscriptions := []
  terminal := none
  closed := false
  counts := ⟨none, 0, 0, 0⟩

def registered (b : Bus) : Nat := b.subscriptions.countP (·.registered)

/-- Says how many subscriptions are registered. -/
def report (b : Bus) : Bus := { b with counts := { b.counts with active := some b.registered } }

def subscribe (b : Bus) : Except SubscribeError (Nat × Bus) :=
  if b.closed then .error .closed
  else
    let id := b.subscriptions.length
    match b.terminal with
    | some e => .ok (id, { b with subscriptions := b.subscriptions ++ [.halted e] })
    | none => .ok (id, report { b with subscriptions := b.subscriptions ++ [.fresh] })

def isRegistered (b : Bus) (id : Nat) : Bool := b.subscriptions[id]?.any (·.registered)

/-- Takes a subscription off the register; its reader may keep it. -/
def unsubscribe (b : Bus) (id : Nat) : Bus :=
  if b.isRegistered id then
    report { b with subscriptions := b.subscriptions.modify id Subscription.release }
  else b

/-- The reader lets go of a subscription. -/
def drop (b : Bus) (id : Nat) : Bus :=
  let b := b.unsubscribe id
  { b with subscriptions := b.subscriptions.modify id fun s => { s with held := false } }

/-- Ends every queue for good. What is queued stays readable. -/
def close (b : Bus) : Bus :=
  if b.closed then b
  else
    { b with
      closed := true
      subscriptions := b.subscriptions.map Subscription.release
      counts := { b.counts with active := some 0, shutdown := b.counts.shutdown + b.registered } }

/-- Offers a block to everyone, and tells how many subscriptions are left. -/
def publish (b : Bus) (block : Block) : Nat × Bus :=
  if b.closed || b.terminal.isSome then (0, b)
  else
    let evicted := b.subscriptions.countP (·.evictable b.capacity)
    let b := { b with
      subscriptions := b.subscriptions.map (·.offer b.capacity block)
      counts := { b.counts with slowConsumer := b.counts.slowConsumer + evicted } }
    (b.registered, if evicted = 0 then b else b.report)

/-- Ends the feed with an error, and tells how many subscriptions will hear of it. Only the first
error counts. -/
def fail (b : Bus) (e : FeedError) : Nat × Bus :=
  if b.terminal.isSome then (0, b)
  else
    (b.subscriptions.countP fun s => s.registered && s.held,
      { b with
        terminal := some e
        subscriptions := b.subscriptions.map (·.halt b.capacity e)
        counts := { b.counts with active := some 0, terminal := b.counts.terminal + b.registered } })

def recv (b : Bus) (id : Nat) : Received × Bus :=
  match b.subscriptions[id]? with
  | some s =>
    let (r, s) := s.recv b.terminal
    (r, { b with subscriptions := b.subscriptions.set id s })
  | none => (.ended, b)

def isReady (b : Bus) (id : Nat) : Bool := b.subscriptions[id]?.all (·.isReady)

def closeReason (b : Bus) (id : Nat) : CloseReason :=
  (b.subscriptions[id]?.map Subscription.closeReason).getD .shutdown

end Bus

end BlockFeed
