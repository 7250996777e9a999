import BlockFeed.Feed.Publisher
import BlockFeed.Source

/-! The pump moves batches from a source into the publisher, waiting for room, until the source ends,
something fails, or it is cancelled. -/

namespace BlockFeed

/-- Gives one batch or error a call, and nothing at the end. -/
class BatchSource (σ : Type) where
  next : σ → Option (Except SourceError Batch) × σ

instance : BatchSource Source := ⟨Source.next⟩

instance : BatchSource (List (Except SourceError Batch)) := ⟨fun items => (items.head?, items.tail)⟩

inductive Pump.Outcome where
  | submitted (count : Nat)
  | unreadable (error : SourceError)
  | refused (height : UInt64) (error : PublisherError)
  deriving Repr, DecidableEq

/-- The message of an outcome that is a failure. -/
def Pump.Outcome.message : Pump.Outcome → String
  | .submitted _ => ""
  | .unreadable e => e.message
  | .refused height e => s!"publisher rejected batch at height {height}: {e.message}"

inductive Pump.Phase where
  | reading
  /-- Pausing before a batch. -/
  | pausing (batch : Batch)
  | waiting (waiter : Waiter)
  | done (outcome : Pump.Outcome)
  deriving Repr, DecidableEq

structure Pump (σ : Type) where
  source : σ
  /-- A pause comes before every batch but the first. -/
  paced : Bool
  cancelled : Bool
  submitted : Nat
  phase : Pump.Phase
  deriving Repr, DecidableEq

namespace Pump

variable {σ : Type}

def new (source : σ) (paced cancelled : Bool) : Pump σ :=
  ⟨source, paced, cancelled, 0, .reading⟩

def finish (pump : Pump σ) (outcome : Outcome) : Pump σ := { pump with phase := .done outcome }

def outcome? (pump : Pump σ) : Option Outcome :=
  match pump.phase with
  | .done outcome => some outcome
  | _ => none

/-- The end of a submission. -/
def conclude (pump : Pump σ) (height : UInt64) : Except PublisherError Unit → Pump σ
  | .ok () => { pump with submitted := pump.submitted + 1, phase := .reading }
  | .error e => pump.finish (.refused height e)

/-- Hands a batch over, or waits for room. -/
def offer (pump : Pump σ) (batch : Batch) (p : Publisher) : Pump σ × Publisher :=
  match p.submitWait batch with
  | (.pending w, p) => ({ pump with phase := .waiting w }, p)
  | (.done result, p) => (pump.conclude batch.height result, p)

/-- Looks whether there is room by now. -/
def retry (pump : Pump σ) (w : Waiter) (p : Publisher) : Pump σ × Publisher :=
  match p.resume w with
  | (.pending _, p) => (pump, p)
  | (.done result, p) => (pump.conclude w.batch.height result, p)

/-- The pump does one thing, or nothing if it has to wait. -/
def step [BatchSource σ] (pump : Pump σ) (p : Publisher) : Pump σ × Publisher :=
  match pump.phase with
  | .done _ => (pump, p)
  | .pausing _ => if pump.cancelled then (pump.finish (.submitted pump.submitted), p) else (pump, p)
  | .waiting w =>
    if pump.cancelled then (pump.finish (.submitted pump.submitted), p.abandon w)
    else pump.retry w p
  | .reading =>
    if pump.cancelled then (pump.finish (.submitted pump.submitted), p)
    else match BatchSource.next pump.source with
      | (none, source) => ({ pump with source }.finish (.submitted pump.submitted), p)
      | (some (.error e), source) => ({ pump with source }.finish (.unreadable e), p)
      | (some (.ok batch), source) =>
        let pump := { pump with source }
        if pump.paced && 0 < pump.submitted then ({ pump with phase := .pausing batch }, p)
        else pump.offer batch p

/-- The pause before a batch is over. -/
def elapse (pump : Pump σ) (p : Publisher) : Pump σ × Publisher :=
  match pump.phase with
  | .pausing batch =>
    if pump.cancelled then (pump.finish (.submitted pump.submitted), p) else pump.offer batch p
  | _ => (pump, p)

def cancel (pump : Pump σ) : Pump σ := { pump with cancelled := true }

/-- The pump need not wait. -/
def canStep (pump : Pump σ) (p : Publisher) : Bool :=
  match pump.phase with
  | .reading => true
  | .pausing _ => pump.cancelled
  | .waiting w => pump.cancelled || p.rouses w
  | .done _ => false

end Pump

end BlockFeed
