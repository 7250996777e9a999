import BlockFeed.Feed.Capacity

/-! A bounded queue with waiters. A slot that comes free goes to the one who has waited longest and
counts as used until that one fills it or gives it back. -/

namespace BlockFeed

structure Fifo (α : Type) where
  capacity : Nat
  capacity_pos : 0 < capacity
  queue : List α
  /-- Waiters that hold a slot. -/
  granted : List Nat
  /-- Waiters that hold none, the one that came first in front. -/
  waiting : List Nat
  /-- No slot is given out any more. -/
  closed : Bool
  deriving DecidableEq

namespace Fifo

variable {α : Type}

def new (capacity : Nat) : Fifo α where
  capacity := capacityFor capacity
  capacity_pos := capacityFor_pos capacity
  queue := []
  granted := []
  waiting := []
  closed := false

/-- How many slots are in use. -/
def used (f : Fifo α) : Nat := f.queue.length + f.granted.length

def isFull (f : Fifo α) : Bool := f.capacity ≤ f.used

def push (f : Fifo α) (a : α) : Fifo α := { f with queue := f.queue ++ [a] }

def enter (f : Fifo α) (waiter : Nat) : Fifo α := { f with waiting := f.waiting ++ [waiter] }

/-- Gives a free slot to the first waiter, if there is one. -/
def grant (f : Fifo α) : Fifo α :=
  match f.waiting with
  | waiter :: rest => { f with granted := f.granted ++ [waiter], waiting := rest }
  | [] => f

def pop? (f : Fifo α) : Option (α × Fifo α) :=
  match f.queue with
  | a :: rest => some (a, { f with queue := rest }.grant)
  | [] => none

/-- Fills the slot that a waiter holds. -/
def fill (f : Fifo α) (waiter : Nat) (a : α) : Fifo α :=
  { f with granted := f.granted.erase waiter, queue := f.queue ++ [a] }

/-- A waiter leaves; the slot it may hold goes to the next one. -/
def leave (f : Fifo α) (waiter : Nat) : Fifo α :=
  if waiter ∈ f.granted then { f with granted := f.granted.erase waiter }.grant
  else { f with waiting := f.waiting.erase waiter }

/-- Those who hold no slot wait in vain. -/
def close (f : Fifo α) : Fifo α := { f with closed := true, waiting := [] }

/-- The reader goes away and with it all that is queued. -/
def discard (f : Fifo α) : Fifo α := { f.close with queue := [] }

end Fifo

end BlockFeed
