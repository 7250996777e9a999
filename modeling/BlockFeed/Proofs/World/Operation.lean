import BlockFeed.Feed.World
import BlockFeed.Proofs.Bus.Operation
import BlockFeed.Proofs.Pump.Operation
import BlockFeed.Proofs.Service.Turn

/-! Operations on the whole feed, tasks included, in any order whatsoever. Each of them comes down to
operations on the publisher and on the bus. The publisher alone writes to the bus, and the
subscription of a session is nobody else's. -/

namespace BlockFeed

def BusCall.op : BusCall → Bus.Op
  | .publish block => .publish block
  | .fail e => .fail e

namespace World

/-- Something that is done with the feed, or a step of one of its tasks. -/
inductive Op where
  | run
  | stop
  | submit (batch : Batch)
  | submitWait (batch : Batch)
  | resume (w : Waiter)
  | abandon (w : Waiter)
  | startPump (source : Source) (paced cancelled : Bool)
  | cancelPump (id : Nat)
  | subscribe
  | recv (id : Nat)
  | unsubscribe (id : Nat)
  | drop (id : Nat)
  | close
  /-- The service stops, as far as nobody has to wait for it. -/
  | shutDown
  | accept (r : Request)
  | read (client : Nat)
  | hangUp (client : Nat)
  | serve (taken : Bool)
  | startHealthServer (contested : Bool)
  | cancelHealthServer (id : Nat)
  | task (t : Task)
  /-- The next task in line does one thing, or leaves the line. -/
  | tick

def Op.closes : Op → Bool
  | .close => true
  | .shutDown => true
  | _ => false

/-- The subscription belongs to a session. -/
def attended (w : World) (id : Nat) : Bool := w.service.sessions.any (·.subscription = id)

def step (w : World) : Op → World
  | .run => match w.run with
    | .ok w => w
    | .error _ => w
  | .stop => w.stop
  | .submit batch => (w.submit batch).2
  | .submitWait batch => (w.submitWait batch).2
  | .resume waiter => (w.resume waiter).2
  | .abandon waiter => w.abandon waiter
  | .startPump source paced cancelled => (w.startPump source paced cancelled).2
  | .cancelPump id => w.cancelPump id
  | .subscribe => match w.subscribe with
    | .ok (_, w) => w
    | .error _ => w
  | .recv id => if w.attended id then w else (w.recv id).2
  | .unsubscribe id => w.unsubscribe id
  | .drop id => if w.attended id then w else w.drop id
  | .close => w.close
  | .shutDown =>
    { w with bus := w.bus.close, endpoint := { w.endpoint with stopped := true } }.rouse
  | .accept r => match w.accept r with
    | .ok (_, w) => w
    | .error _ => w
  | .read client => (w.read client).2
  | .hangUp client => w.hangUp client
  | .serve taken => match w.serve taken with
    | .ok w => w
    | .error _ => w
  | .startHealthServer contested => (w.startHealthServer contested).2
  | .cancelHealthServer id => w.cancelHealthServer id
  | .task t => w.advance t
  | .tick => w.tick?.getD w

abbrev after (w : World) (ops : List Op) : World := Run.after step w ops

/-- The task that an operation lets do one thing. -/
def turn (w : World) : Op → Option Task
  | .task t => some t
  | .tick => w.ready.head?.filter w.canRun
  | _ => none

def taskPublisherOps (w : World) : Task → List Publisher.Op
  | .delivery => [.deliver]
  | .pump id => (w.pumps[id]?.map Pump.stepOps).getD []
  | _ => []

/-- What an operation comes down to on the publisher. -/
def publisherOps (w : World) (op : Op) : List Publisher.Op :=
  match op with
  | .run => [.run]
  | .stop => [.stop]
  | .submit batch => [.submit batch]
  | .submitWait batch => [.submitWait batch]
  | .resume waiter => [.resume waiter]
  | .abandon waiter => [.abandon waiter]
  | op => ((w.turn op).map w.taskPublisherOps).getD []

def taskReaderOps (w : World) : Task → List Bus.Op
  | .session id => w.service.busOps id
  | _ => []

/-- What an operation comes down to on the bus, the calls of the publisher apart. -/
def readerOps (w : World) (op : Op) : List Bus.Op :=
  match op with
  | .subscribe => [.subscribe]
  | .recv id => if w.attended id then [] else [.recv id]
  | .unsubscribe id => [.unsubscribe id]
  | .drop id => if w.attended id then [] else [.drop id]
  | .close | .shutDown => [.close]
  | .accept r => match StreamFilter.ofRequest r.markets r.subaccounts with
    | .ok _ => [.subscribe]
    | .error _ => []
  | op => ((w.turn op).map w.taskReaderOps).getD []

/-- Who reads does one of a few things, and nobody but the task of a session touches its subscription
unless he takes it off the register. -/
theorem mem_readerOps {w : World} {op : Op} {o : Bus.Op} (h : o ∈ w.readerOps op) :
    o = .subscribe ∨ o = .close ∧ op.closes = true ∨
      (∃ id, w.attended id = false ∧ (o = .recv id ∨ o = .drop id)) ∨
      (∃ id, op = .unsubscribe id ∧ o = .unsubscribe id) ∨
      ∃ t, w.turn op = some t ∧ o ∈ w.taskReaderOps t := by
  cases op with
  | subscribe => exact Or.inl (List.mem_singleton.mp h)
  | unsubscribe id =>
    exact Or.inr (Or.inr (Or.inr (Or.inl ⟨id, rfl, List.mem_singleton.mp h⟩)))
  | close => exact Or.inr (Or.inl ⟨List.mem_singleton.mp h, rfl⟩)
  | shutDown => exact Or.inr (Or.inl ⟨List.mem_singleton.mp h, rfl⟩)
  | task t => exact Or.inr (Or.inr (Or.inr (Or.inr ⟨t, rfl, h⟩)))
  | tick =>
    simp only [readerOps] at h
    cases ht : w.turn .tick with
    | none =>
      rw [ht] at h
      cases h
    | some t =>
      rw [ht] at h
      exact Or.inr (Or.inr (Or.inr (Or.inr ⟨t, rfl, h⟩)))
  | recv id =>
    simp only [readerOps] at h
    split at h
    · cases h
    · rename_i ha
      rw [Bool.not_eq_true] at ha
      exact Or.inr (Or.inr (Or.inl ⟨id, ha, Or.inl (List.mem_singleton.mp h)⟩))
  | drop id =>
    simp only [readerOps] at h
    split at h
    · cases h
    · rename_i ha
      rw [Bool.not_eq_true] at ha
      exact Or.inr (Or.inr (Or.inl ⟨id, ha, Or.inr (List.mem_singleton.mp h)⟩))
  | accept r =>
    simp only [readerOps] at h
    split at h
    · exact Or.inl (List.mem_singleton.mp h)
    · cases h
  | _ => cases h

/-- What an operation comes down to on the bus. -/
def busOps (w : World) (op : Op) : List Bus.Op :=
  (w.publisher.calls (w.publisherOps op)).map BusCall.op ++ w.readerOps op

@[simp] theorem publisher_call (w : World) (call : Option BusCall) :
    (w.call call).publisher = w.publisher := by
  rcases call with _ | (block | e) <;> rfl

@[simp] theorem service_call (w : World) (call : Option BusCall) :
    (w.call call).service = w.service := by
  rcases call with _ | (block | e) <;> rfl

@[simp] theorem bus_call (w : World) (call : Option BusCall) :
    (w.call call).bus = w.bus.after (call.toList.map BusCall.op) := by
  rcases call with _ | (block | e) <;> rfl

theorem publisher_advance (w : World) (t : Task) :
    (w.advance t).publisher = w.publisher.after (w.taskPublisherOps t) := by
  cases t with
  | delivery => simp [advance, taskPublisherOps, Publisher.step]
  | pump id =>
    simp only [advance, taskPublisherOps]
    cases w.pumps[id]? with
    | none => rfl
    | some pump => exact pump.step_publisher w.publisher
  | _ => rfl

theorem bus_advance (w : World) (t : Task) :
    (w.advance t).bus = w.bus.after
      ((w.publisher.calls (w.taskPublisherOps t)).map BusCall.op ++ w.taskReaderOps t) := by
  cases t with
  | delivery => simp [advance, taskPublisherOps, taskReaderOps, Publisher.called]
  | pump id =>
    simp only [advance, taskPublisherOps, taskReaderOps]
    cases w.pumps[id]? with
    | none => rfl
    | some pump => simp [(Publisher.waited_after pump.waits_stepOps w.publisher).2]
  | session id => exact w.service.step_bus w.bus id
  | _ => rfl

theorem step_turn {w : World} {op : Op} {t : Task} (h : w.turn op = some t) :
    ∃ ready, w.step op = { w.advance t with ready } := by
  cases op with
  | task t' =>
    cases h
    exact ⟨(w.advance t).ready, rfl⟩
  | tick =>
    simp only [turn, Option.filter_eq_some_iff] at h
    obtain ⟨hh, hr⟩ := h
    obtain ⟨rest, hq⟩ := List.head?_eq_some_iff.mp hh
    refine ⟨(w.advance t).rouse.ready, ?_⟩
    simp only [step, tick?, hq, hr, if_true]
    rfl
  | _ => cases h

theorem busOps_of_turn {w : World} {op : Op} {t : Task} (h : w.turn op = some t) :
    w.busOps op =
      (w.publisher.calls (w.taskPublisherOps t)).map BusCall.op ++ w.taskReaderOps t := by
  cases op with
  | task t' =>
    cases h
    rfl
  | tick => simp [busOps, publisherOps, readerOps, h]
  | _ => cases h

theorem step_tick_of_idle {w : World} (h : w.turn .tick = none) :
    ∃ ready, w.step .tick = { w with ready } := by
  simp only [step, tick?]
  cases hq : w.ready with
  | nil => exact ⟨w.ready, rfl⟩
  | cons t rest =>
    have hr : w.canRun t = false := by simpa [turn, hq] using h
    exact ⟨rest, by simp [hr]⟩

theorem publisher_step (w : World) (op : Op) :
    (w.step op).publisher = w.publisher.after (w.publisherOps op) := by
  cases op with
  | run =>
    simp only [step, World.run, publisherOps]
    show _ = w.publisher.step .run
    simp only [Publisher.step]
    cases w.publisher.run <;> rfl
  | submit batch =>
    show (World.rouse (World.call _ _)).publisher = _
    exact publisher_call _ _
  | task t => exact publisher_advance w t
  | tick =>
    cases ht : w.turn .tick with
    | none =>
      obtain ⟨ready, hs⟩ := step_tick_of_idle ht
      simp [hs, publisherOps, ht]
    | some t =>
      obtain ⟨ready, hs⟩ := step_turn ht
      simp [hs, publisherOps, ht, publisher_advance]
  | subscribe =>
    simp only [step]
    rw [World.subscribe]
    cases w.bus.subscribe <;> rfl
  | recv id =>
    simp only [step]
    split <;> rfl
  | drop id =>
    simp only [step]
    split <;> rfl
  | accept r =>
    simp only [step]
    rw [World.accept]
    cases w.service.accept w.bus r <;> rfl
  | serve taken =>
    simp only [step]
    rw [World.serve]
    cases w.endpoint.serve taken <;> rfl
  | _ => rfl

theorem bus_step (w : World) (op : Op) :
    (w.step op).bus = w.bus.after (w.busOps op) := by
  cases op with
  | run =>
    simp only [step, World.run]
    cases w.publisher.run <;> rfl
  | submit batch =>
    have hb : w.busOps (.submit batch) = (w.publisher.submit batch).2.2.toList.map BusCall.op := by
      simp [busOps, readerOps, publisherOps, Publisher.called, turn]
    rw [hb]
    exact bus_call { w with publisher := (w.publisher.submit batch).2.1 } _
  | task t => exact bus_advance w t
  | tick =>
    cases ht : w.turn .tick with
    | none =>
      obtain ⟨ready, hs⟩ := step_tick_of_idle ht
      simp [hs, busOps, publisherOps, readerOps, ht]
    | some t =>
      obtain ⟨ready, hs⟩ := step_turn ht
      simp [hs, busOps, publisherOps, readerOps, ht, bus_advance]
  | subscribe =>
    show _ = w.bus.step .subscribe
    simp only [step, Bus.step]
    rw [World.subscribe]
    cases w.bus.subscribe <;> rfl
  | recv id =>
    simp only [step, busOps, publisherOps, readerOps]
    split <;> rfl
  | drop id =>
    simp only [step, busOps, publisherOps, readerOps]
    split <;> rfl
  | accept r =>
    simp only [step, busOps, publisherOps, readerOps]
    rw [World.accept]
    rw [Service.accept]
    cases StreamFilter.ofRequest r.markets r.subaccounts with
    | error e => rfl
    | ok filter =>
      show _ = w.bus.step .subscribe
      simp only [Bus.step]
      cases w.bus.subscribe <;> rfl
  | serve taken =>
    simp only [step]
    rw [World.serve]
    cases w.endpoint.serve taken <;> rfl
  | _ => rfl

theorem service_advance (w : World) (t : Task) : (w.advance t).service =
    match t with
    | .session client => (w.service.step w.bus client).1
    | _ => w.service := by
  cases t with
  | delivery => exact service_call _ _
  | pump id =>
    simp only [advance]
    cases w.pumps[id]? <;> rfl
  | _ => rfl

def serviceAfter (w : World) (op : Op) : Service :=
  match op with
  | .accept r => match w.service.accept w.bus r with
    | .ok (_, service, _) => service
    | .error _ => w.service
  | .read client => (w.service.read client).2
  | .hangUp client => w.service.hangUp client
  | op => match w.turn op with
    | some (.session client) => (w.service.step w.bus client).1
    | _ => w.service

theorem service_step (w : World) (op : Op) : (w.step op).service = w.serviceAfter op := by
  cases op with
  | run =>
    simp only [step, World.run]
    cases w.publisher.run <;> rfl
  | submit batch => exact service_call _ _
  | task t =>
    show (w.advance t).service = _
    rw [service_advance]
    cases t <;> rfl
  | tick =>
    cases ht : w.turn .tick with
    | none =>
      obtain ⟨ready, hs⟩ := step_tick_of_idle ht
      simp [hs, serviceAfter, ht]
    | some t =>
      obtain ⟨ready, hs⟩ := step_turn ht
      simp only [hs, serviceAfter, ht, service_advance]
      cases t <;> rfl
  | subscribe =>
    simp only [step]
    rw [World.subscribe]
    cases w.bus.subscribe <;> rfl
  | recv id =>
    simp only [step]
    split <;> rfl
  | drop id =>
    simp only [step]
    split <;> rfl
  | accept r =>
    simp only [step, serviceAfter]
    rw [World.accept]
    cases w.service.accept w.bus r <;> rfl
  | serve taken =>
    simp only [step]
    rw [World.serve]
    cases w.endpoint.serve taken <;> rfl
  | _ => rfl

theorem ticks_eq (fuel : Nat) (w : World) : ticks fuel w = w.after (List.replicate fuel .tick) := by
  induction fuel generalizing w with
  | zero => rfl
  | succ fuel ih =>
    rw [ticks, List.replicate_succ, after, Run.after_cons, step]
    cases ht : w.tick? with
    | some w' => exact ih w'
    | none =>
      have hidle : ∀ n, w.after (List.replicate n .tick) = w := by
        intro n
        induction n with
        | zero => rfl
        | succ n hn =>
          rw [List.replicate_succ, after, Run.after_cons, step, ht]
          exact hn
      exact (hidle fuel).symm

/-- To let all tasks run is a run of ticks. -/
theorem settle_eq (w : World) : w.settle = w.after (List.replicate w.work .tick) := ticks_eq w.work w

/-- The service stops: the bus is closed and the endpoint let go. -/
theorem stopService_eq (w : World) :
    ∃ n, w.stopService = w.after (.shutDown :: List.replicate n .tick) := by
  have hs : w.stopService =
      if w.endpoint.listening then (w.step .shutDown).settle else w.step .shutDown := rfl
  rw [hs]
  by_cases hl : w.endpoint.listening = true
  · rw [if_pos hl, settle_eq]
    exact ⟨(w.step .shutDown).work, rfl⟩
  · rw [if_neg hl]
    exact ⟨0, rfl⟩

end World

end BlockFeed
