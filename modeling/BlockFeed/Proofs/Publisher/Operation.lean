import BlockFeed.Feed.Publisher
import BlockFeed.Proofs.Run

/-! Operations on the publisher, the batches they let in and the calls they make on the bus. All that
an operation can do is one of a few moves. -/

namespace BlockFeed

namespace Fifo

variable {α : Type}

@[simp] theorem queue_grant (f : Fifo α) : f.grant.queue = f.queue := by
  rw [grant]
  split <;> rfl

@[simp] theorem queue_leave (f : Fifo α) (waiter : Nat) : (f.leave waiter).queue = f.queue := by
  rw [leave]
  split <;> simp

theorem pop?_eq_none {f : Fifo α} (h : f.pop? = none) : f.queue = [] := by
  rw [pop?] at h
  split at h
  · cases h
  · assumption

theorem queue_of_pop? {f g : Fifo α} {a : α} (h : f.pop? = some (a, g)) :
    f.queue = a :: g.queue := by
  rw [pop?] at h
  split at h
  · rename_i a' rest hq
    simp only [Option.some.injEq, Prod.mk.injEq] at h
    obtain ⟨rfl, rfl⟩ := h
    simp [hq]
  · cases h

end Fifo

namespace Publisher

/-- Something that is done with the publisher, or a step of its delivery task. -/
inductive Op where
  | run
  | stop
  | submit (batch : Batch)
  | submitWait (batch : Batch)
  | resume (w : Waiter)
  | abandon (w : Waiter)
  | deliver
  deriving DecidableEq

def step (p : Publisher) : Op → Publisher
  | .run => match p.run with
    | .ok p => p
    | .error _ => p
  | .stop => p.stop
  | .submit batch => (p.submit batch).2.1
  | .submitWait batch => (p.submitWait batch).2
  | .resume w => (p.resume w).2
  | .abandon w => p.abandon w
  | .deliver => p.deliver.1

/-- The batch that an operation is told is accepted. -/
def admitted (p : Publisher) : Op → List Batch
  | .submit batch => match (p.submit batch).1 with
    | .ok () => [batch]
    | .error _ => []
  | .submitWait batch => match (p.submitWait batch).1 with
    | .done (.ok ()) => [batch]
    | _ => []
  | .resume w => match (p.resume w).1 with
    | .done (.ok ()) => [w.batch]
    | _ => []
  | _ => []

def called (p : Publisher) : Op → List BusCall
  | .submit batch => (p.submit batch).2.2.toList
  | .deliver => p.deliver.2.toList
  | _ => []

abbrev after (p : Publisher) (ops : List Op) : Publisher := Run.after step p ops

abbrev accepted (p : Publisher) (ops : List Op) : List Batch := Run.output step admitted p ops

abbrev calls (p : Publisher) (ops : List Op) : List BusCall := Run.output step called p ops

@[simp] theorem accepted_nil (p : Publisher) : p.accepted [] = [] := rfl

@[simp] theorem accepted_singleton (p : Publisher) (op : Op) : p.accepted [op] = p.admitted op :=
  List.append_nil _

@[simp] theorem calls_singleton (p : Publisher) (op : Op) : p.calls [op] = p.called op :=
  List.append_nil _

/-- The delivery task takes batches from the queue. -/
def Delivering (p : Publisher) : Prop :=
  (p.delivery = .looping ∧ p.cancelled = false) ∨ (p.delivery = .draining ∧ p.state ≠ .stopped)

/-- What an operation can do, with the batches it lets in and the calls it makes. -/
inductive Move (p : Publisher) : Publisher → List Batch → List BusCall → Prop where
  | accept (fifo : Fifo Batch) (waiter : Nat) (batches : List Batch)
      (hq : fifo.queue = p.fifo.queue ++ batches) (ha : batches ≠ [] → p.accepts = true) :
      Move p { p with fifo, nextWaiter := waiter } batches []
  | overflow (counts : Publisher.Counts) (ha : p.accepts = true) (hf : p.fifo.isFull = true) :
      Move p (halt { p with counts } .bufferOverflow).1 []
        (halt { p with counts } .bufferOverflow).2.toList
  | run (h : p.state = .idle) (hr : p.receiver = true) :
      Move p { p with state := .running, receiver := false, delivery := .looping } [] []
  | retire (h : p.state = .idle) : Move p { p with state := .stopped, finished := true } [] []
  | cancel (h : p.state = .running) : Move p { p with state := .stopping, cancelled := true } [] []
  | leave (hd : p.delivery = .looping) (hc : p.cancelled = true) (hs : p.state ≠ .stopped) :
      Move p { p with delivery := .draining, fifo := p.fifo.close } [] []
  | finish (h : (p.delivery = .looping ∨ p.delivery = .draining) ∧ p.state = .stopped ∨
      p.delivery = .draining ∧ p.fifo.queue = []) : Move p p.finish [] []
  | strand (hd : p.delivery = .draining) : Move p { p with delivery := .stranded } [] []
  | deliver (batch : Batch) (fifo : Fifo Batch) (counts : Publisher.Counts) (hd : p.Delivering)
      (hq : p.fifo.queue = batch :: fifo.queue) :
      Move p (process { p with fifo, counts } batch).1 []
        (process { p with fifo, counts } batch).2.toList

theorem Move.refl (p : Publisher) : Move p p [] [] :=
  .accept p.fifo p.nextWaiter [] (List.append_nil _).symm fun h => absurd rfl h

theorem Move.push {p : Publisher} (h : p.accepts = true) (batch : Batch) :
    Move p { p with fifo := p.fifo.push batch } [batch] [] :=
  .accept (p.fifo.push batch) p.nextWaiter [batch] rfl fun _ => h

theorem Move.abandon (p : Publisher) (w : Waiter) : Move p (p.abandon w) [] [] :=
  .accept (p.fifo.leave w.id) p.nextWaiter [] (by simp) fun h => absurd rfl h

theorem halt_of_not_stopped {p : Publisher} (h : p.state ≠ .stopped) (e : FeedError) :
    p.halt e =
      ({ p with state := .stopped, lastError := some e, cancelled := true,
                finished := p.finished || p.state = .idle }, some (.fail e)) :=
  if_neg h

theorem not_stopped_of_accepts {p : Publisher} (h : p.accepts = true) : p.state ≠ .stopped := by
  intro hs
  simp [accepts, hs] at h

theorem run_cases (p : Publisher) : (∃ e, p.run = .error e) ∨
    p.state = .idle ∧ p.receiver = true ∧
      p.run = .ok { p with state := .running, receiver := false, delivery := .looping } := by
  rw [run]
  cases hs : p.state with
  | idle =>
    cases hr : p.receiver with
    | true => exact .inr ⟨rfl, rfl, rfl⟩
    | false => exact .inl ⟨_, rfl⟩
  | running => exact .inl ⟨_, rfl⟩
  | stopping => exact .inl ⟨_, rfl⟩
  | stopped => exact .inl ⟨_, rfl⟩

theorem move_submit (p : Publisher) (batch : Batch) :
    Move p (p.step (.submit batch)) (p.admitted (.submit batch)) (p.called (.submit batch)) := by
  simp only [step, admitted, called]
  rw [submit]
  by_cases hr : (!p.accepts || p.fifo.closed) = true
  · simp only [hr, if_true]
    exact .refl p
  · have ha : p.accepts = true := by
      cases hp : p.accepts <;> simp_all
    by_cases hf : p.fifo.isFull = true
    · have hm := Move.overflow { p.counts with overflows := p.counts.overflows + 1 } ha hf
      simpa [hr, hf] using hm
    · simpa [hr, hf] using Move.push ha batch

theorem move_submitWait (p : Publisher) (batch : Batch) :
    Move p (p.step (.submitWait batch)) (p.admitted (.submitWait batch)) [] := by
  simp only [step, admitted]
  rw [submitWait]
  by_cases hr : (!p.accepts || p.refuses) = true
  · simp only [hr, if_true]
    exact .refl p
  · have ha : p.accepts = true := by
      cases hp : p.accepts <;> simp_all
    by_cases hf : p.fifo.isFull = true
    · simpa [hr, hf] using Move.accept (p.fifo.enter p.nextWaiter) (p.nextWaiter + 1) []
        (by simp [Fifo.enter]) fun h => absurd rfl h
    · simpa [hr, hf] using Move.push ha batch

theorem move_resume (p : Publisher) (w : Waiter) :
    Move p (p.step (.resume w)) (p.admitted (.resume w)) [] := by
  simp only [step, admitted]
  rw [resume]
  by_cases hr : p.refuses = true
  · simpa [hr] using Move.abandon p w
  · by_cases hg : w.id ∈ p.fifo.granted
    · by_cases ha : p.accepts = true
      · simpa [hr, hg, ha] using Move.accept (p.fifo.fill w.id w.batch) p.nextWaiter [w.batch]
          rfl fun _ => ha
      · simpa [hr, hg, ha] using Move.abandon p w
    · simpa [hr, hg] using Move.refl p

theorem move_deliver (p : Publisher) : Move p p.deliver.1 [] p.deliver.2.toList := by
  rw [deliver]
  cases hd : p.delivery with
  | looping =>
    by_cases hc : p.cancelled = true
    · by_cases hs : p.state = .stopped
      · simpa [hc, hs] using Move.finish (Or.inl ⟨Or.inl hd, hs⟩)
      · simpa [hc, hs] using Move.leave hd hc hs
    · rw [Bool.not_eq_true] at hc
      cases hp : p.fifo.pop? with
      | none => simpa [hc] using Move.refl p
      | some popped =>
        obtain ⟨batch, fifo⟩ := popped
        simpa [hd, hc] using Move.deliver batch fifo
          { p.counts with depth := some fifo.queue.length } (Or.inl ⟨hd, hc⟩) (Fifo.queue_of_pop? hp)
  | draining =>
    by_cases hs : p.state = .stopped
    · simpa [hs] using Move.finish (Or.inl ⟨Or.inr hd, hs⟩)
    · cases hp : p.fifo.pop? with
      | none =>
        by_cases hg : p.fifo.granted.isEmpty = true
        · simpa [hs, hg] using Move.finish (Or.inr ⟨hd, Fifo.pop?_eq_none hp⟩)
        · simpa [hs, hg] using Move.strand hd
      | some popped =>
        obtain ⟨batch, fifo⟩ := popped
        simpa [hd, hs] using Move.deliver batch fifo p.counts (Or.inr ⟨hd, hs⟩) (Fifo.queue_of_pop? hp)
  | notStarted => exact Move.refl p
  | stranded => exact Move.refl p
  | finished => exact Move.refl p

theorem move_step (p : Publisher) (op : Op) :
    Move p (p.step op) (p.admitted op) (p.called op) := by
  cases op with
  | run =>
    simp only [step, admitted, called]
    rcases p.run_cases with ⟨e, h⟩ | ⟨hs, hr, h⟩
    · rw [h]
      exact .refl p
    · rw [h]
      exact .run hs hr
  | stop =>
    simp only [step, Publisher.stop, admitted, called]
    cases hs : p.state with
    | idle => exact .retire hs
    | running => exact .cancel hs
    | stopping => exact .refl p
    | stopped => exact .refl p
  | submit batch => exact move_submit p batch
  | submitWait batch => exact move_submitWait p batch
  | resume w => exact move_resume p w
  | abandon w => exact .abandon p w
  | deliver => exact move_deliver p

end Publisher

end BlockFeed
