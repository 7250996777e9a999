import BlockFeed.Proofs.Publisher.Protocol
import BlockFeed.Proofs.Publisher.Queue

/-! Batches that are submitted without waiting for room. The answer tells what has become of the batch: it
stands last in the queue, or it is nowhere and never goes to the bus. -/

namespace BlockFeed.Publisher

theorem accepts_iff {p : Publisher} : p.accepts = true ↔ p.state = .idle ∨ p.state = .running := by
  simp [accepts]

theorem not_accepts_iff {p : Publisher} :
    p.accepts = false ↔ p.state = .stopping ∨ p.state = .stopped := by
  rw [accepts]
  cases p.state <;> decide

section Stopping

variable {p : Publisher}

theorem not_accepts_halt (p : Publisher) (e : FeedError) : (p.halt e).1.accepts = false := by
  rw [halt]
  split
  · exact not_accepts_iff.mpr (.inr ‹_›)
  · rfl

theorem not_accepts_process (h : p.accepts = false) (batch : Batch) :
    (p.process batch).1.accepts = false := by
  simp only [process]
  cases Block.ofBatch batch with
  | ok block =>
    simp only [publish]
    split <;> exact h
  | error source => exact not_accepts_halt _ _

/-- A publisher that accepts nothing never does again. -/
theorem Move.not_accepts {p' : Publisher} {batches : List Batch} {calls : List BusCall}
    (hm : Move p p' batches calls) (h : p.accepts = false) : p'.accepts = false ∧ batches = [] := by
  have hstate := not_accepts_iff.mp h
  cases hm with
  | accept fifo waiter _ hq ha =>
    refine ⟨h, ?_⟩
    by_contra hne
    simp [h] at ha
    exact hne ha
  | overflow counts ha hf => simp [h] at ha
  | run hs => simp [hs] at hstate
  | retire hs => exact ⟨rfl, rfl⟩
  | cancel hs => exact ⟨rfl, rfl⟩
  | leave hd hc hs => exact ⟨h, rfl⟩
  | finish hf => exact ⟨rfl, rfl⟩
  | strand hd => exact ⟨h, rfl⟩
  | deliver batch fifo counts hd hq =>
    exact ⟨not_accepts_process (p := { p with fifo, counts }) h batch, rfl⟩

theorem not_accepts_after (h : p.accepts = false) (ops : List Op) :
    (p.after ops).accepts = false ∧ p.accepted ops = [] := by
  induction ops generalizing p with
  | nil => exact ⟨h, rfl⟩
  | cons op ops ih =>
    obtain ⟨hstep, hnone⟩ := (move_step p op).not_accepts h
    obtain ⟨hend, hrest⟩ := ih hstep
    refine ⟨hend, ?_⟩
    rw [accepted, Run.output_cons, hnone]
    exact hrest

theorem not_accepts_stop (p : Publisher) : p.stop.accepts = false := by
  simp only [stop]
  cases hs : p.state with
  | idle => rfl
  | running => rfl
  | stopping => exact not_accepts_iff.mpr (.inl hs)
  | stopped => exact not_accepts_iff.mpr (.inr hs)

/-- `stop` may have been entered at any time. -/
theorem not_accepts_of_mem_stop {ops : List Op} (h : .stop ∈ ops) : (p.after ops).accepts = false := by
  obtain ⟨before, rest, rfl⟩ := List.append_of_mem h
  rw [after, Run.after_append, Run.after_cons]
  exact (not_accepts_after (not_accepts_stop _) rest).1

theorem Coherent.refuses (h : p.Coherent) (ha : p.accepts = false) : p.refuses = true := by
  rw [Coherent] at h
  rw [Publisher.refuses]
  cases hs : p.state <;> cases hd : p.delivery <;> simp_all [accepts]

end Stopping

section Open

/-- While batches are accepted, the queue is open. -/
def Open (p : Publisher) : Prop := p.accepts = true → p.fifo.closed = false

variable {p : Publisher}

theorem closed_step {op : Op} (hop : op ≠ .deliver) : (p.step op).fifo.closed = p.fifo.closed := by
  cases op with
  | run =>
    simp only [step]
    rcases p.run_cases with ⟨e, h⟩ | ⟨-, -, h⟩
    · rw [h]
    · rw [h]
  | stop =>
    simp only [step, Publisher.stop]
    split <;> rfl
  | submit batch =>
    simp only [step, submit]
    split
    · rfl
    · split
      · simp
      · rfl
  | submitWait batch =>
    simp only [step, submitWait]
    split
    · rfl
    · split <;> rfl
  | resume w =>
    simp only [step, resume]
    split
    · exact Fifo.closed_leave _ _
    · split
      · split
        · rfl
        · exact Fifo.closed_leave _ _
      · rfl
  | abandon w => exact Fifo.closed_leave _ _
  | deliver => exact absurd rfl hop

/-- The delivery task closes the queue only where nothing is accepted any more. -/
theorem closed_deliver (hc : p.Coherent) (ha : p.accepts = true) :
    p.deliver.1.fifo.closed = p.fifo.closed := by
  have hs := accepts_iff.mp ha
  rw [Coherent] at hc
  rw [deliver]
  cases hd : p.delivery with
  | looping =>
    have hcancel : p.cancelled = false := by
      rw [hd] at hc
      rcases hs with hs | hs <;> simp_all
    simp only [hcancel]
    cases hpop : p.fifo.pop? with
    | none => rfl
    | some popped =>
      obtain ⟨rest, -, hfifo⟩ := Fifo.pop?_eq_some hpop
      simp [hfifo]
  | draining =>
    rw [hd] at hc
    rcases hs with hs | hs <;> simp [hs] at hc
  | notStarted => rfl
  | stranded => rfl
  | finished => rfl

theorem Open.move (hc : p.Coherent) (ho : p.Open) (op : Op) : (p.step op).Open := by
  intro ha
  have hp : p.accepts = true := by
    by_contra hp
    rw [Bool.not_eq_true] at hp
    simp [((move_step p op).not_accepts hp).1] at ha
  by_cases hop : op = .deliver
  · subst hop
    exact (closed_deliver hc hp).trans (ho hp)
  · exact (closed_step hop).trans (ho hp)

/-- What holds of a publisher between any two operations. -/
structure Steady (p : Publisher) : Prop where
  coherent : p.Coherent
  isOpen : p.Open
  sound : p.Sound

theorem steady_new (capacity : Nat) : (new capacity).Steady :=
  ⟨coherent_new capacity, fun _ => rfl, sound_new capacity⟩

theorem Steady.move (h : p.Steady) (op : Op) : (p.step op).Steady :=
  ⟨h.coherent.move (move_step p op), h.isOpen.move h.coherent op, h.sound.step (fifo_step p op)⟩

theorem steady_after (capacity : Nat) (ops : List Op) : ((new capacity).after ops).Steady :=
  Run.after_induction (fun _ op hq => hq.move op) (steady_new capacity) ops

end Open

/-- The blocks of the first of these batches go to the bus, in order, then the error if there is one, and
nothing else. -/
def Conveys (batches : List Batch) (calls : List BusCall) (error : Option FeedError) : Prop :=
  ∃ blocks : List Block, blocks.map .ok = (batches.take blocks.length).map Block.ofBatch ∧
    calls = blocks.map .publish ++ error.toList.map .fail

theorem conveys_after (capacity : Nat) (ops : List Op) :
    Conveys ((new capacity).accepted ops) ((new capacity).calls ops)
      ((new capacity).after ops).lastError := by
  obtain ⟨blocks, done, rest, h⟩ := exists_account capacity ops
  exact ⟨blocks, by rw [← h.done_eq, h.published], h.called⟩

section Submitting

/-- What `submit` answers, and what it does besides. A slot is in use if a batch stands in it or a waiter
holds it. -/
structure Answers (p : Publisher) (batch : Batch) : Prop where
  stopped_iff : (p.submit batch).1 = .error .stopped ↔ p.state = .stopping ∨ p.state = .stopped
  stopped : (p.submit batch).1 = .error .stopped → (p.submit batch).2 = (p, none)
  overflow_iff : (p.submit batch).1 = .error .bufferOverflow ↔
    (p.state = .idle ∨ p.state = .running) ∧
      p.fifo.queue.length + p.fifo.granted.length = p.fifo.capacity
  overflow : (p.submit batch).1 = .error .bufferOverflow →
    ∃ q, (p.submit batch).2 = (q, some (.fail .bufferOverflow)) ∧ q.state = .stopped ∧
      q.lastError = some .bufferOverflow
  ok_iff : (p.submit batch).1 = .ok () ↔ (p.state = .idle ∨ p.state = .running) ∧
    p.fifo.queue.length + p.fifo.granted.length < p.fifo.capacity
  ok : (p.submit batch).1 = .ok () →
    (p.submit batch).2 = ({ p with fifo := { p.fifo with queue := p.fifo.queue ++ [batch] } }, none)

variable {p : Publisher}

theorem submit_of_not_accepts (h : p.accepts = false) (batch : Batch) :
    p.submit batch = (.error .stopped, p, none) := by
  simp [submit, h]

theorem submit_of_full (ha : p.accepts = true) (hopen : p.fifo.closed = false)
    (hf : p.fifo.isFull = true) (batch : Batch) :
    ∃ q, p.submit batch = (.error .bufferOverflow, q, some (.fail .bufferOverflow)) ∧
      q.state = .stopped ∧ q.lastError = some .bufferOverflow := by
  have hns := not_stopped_of_accepts ha
  simp only [submit, ha, hopen, hf, halt, if_neg hns]
  exact ⟨_, rfl, rfl, rfl⟩

theorem submit_of_room (ha : p.accepts = true) (hopen : p.fifo.closed = false)
    (hf : p.fifo.isFull = false) (batch : Batch) :
    p.submit batch = (.ok (), { p with fifo := p.fifo.push batch }, none) := by
  simp [submit, ha, hopen, hf]

theorem Steady.answers (h : p.Steady) (batch : Batch) : p.Answers batch := by
  have hroom : p.fifo.queue.length + p.fifo.granted.length ≤ p.fifo.capacity := h.sound.room
  cases ha : p.accepts with
  | false =>
    have hstate := not_accepts_iff.mp ha
    have hnot : ¬ (p.state = .idle ∨ p.state = .running) := by
      rw [← accepts_iff, ha]
      exact Bool.noConfusion
    have hsubmit := submit_of_not_accepts ha batch
    constructor <;> simp [hsubmit, hstate, hnot]
  | true =>
    have hstate := accepts_iff.mp ha
    have hnot : ¬ (p.state = .stopping ∨ p.state = .stopped) := by
      rw [← not_accepts_iff, ha]
      exact Bool.noConfusion
    cases hf : p.fifo.isFull with
    | true =>
      have hfull : p.fifo.queue.length + p.fifo.granted.length = p.fifo.capacity :=
        Nat.le_antisymm hroom (of_decide_eq_true hf)
      obtain ⟨q, hsubmit, hq⟩ := submit_of_full ha (h.isOpen ha) hf batch
      constructor <;> simp [hsubmit, hstate, hnot, hfull, hq]
    | false =>
      have hless : p.fifo.queue.length + p.fifo.granted.length < p.fifo.capacity :=
        Nat.lt_of_not_le (of_decide_eq_false hf)
      have hsubmit := submit_of_room ha (h.isOpen ha) hf batch
      constructor <;> simp [hsubmit, hstate, hnot, hless, Nat.ne_of_lt hless, Fifo.push]

/-- The batch that finds no room. -/
def overflowing (p : Publisher) : Op → List Batch
  | .submit batch => match (p.submit batch).1 with
    | .error .bufferOverflow => [batch]
    | _ => []
  | _ => []

abbrev overflowings (p : Publisher) (ops : List Op) : List Batch := Run.output step overflowing p ops

theorem overflowing_cases (p : Publisher) (op : Op) : p.overflowing op = [] ∨
    ∃ batch, op = .submit batch ∧ p.overflowing op = [batch] ∧
      (p.submit batch).1 = .error .bufferOverflow := by
  cases op with
  | submit batch =>
    simp only [overflowing]
    split
    · exact .inr ⟨batch, rfl, rfl, ‹_›⟩
    · exact .inl rfl
  | _ => exact .inl rfl

theorem overflowings_of_not_accepts (h : p.accepts = false) (ops : List Op) :
    p.overflowings ops = [] := by
  induction ops generalizing p with
  | nil => rfl
  | cons op ops ih =>
    have hrest := ih ((move_step p op).not_accepts h).1
    have hnone : p.overflowing op = [] := by
      rcases p.overflowing_cases op with hnone | ⟨batch, -, -, hover⟩
      · exact hnone
      · rw [submit_of_not_accepts h batch] at hover
        cases hover
    rw [overflowings, Run.output_cons, hnone]
    exact hrest

theorem Steady.overflow_once (h : p.Steady) (ops : List Op) : (p.overflowings ops).length ≤ 1 := by
  induction ops generalizing p with
  | nil => exact Nat.zero_le 1
  | cons op ops ih =>
    rw [overflowings, Run.output_cons]
    rcases p.overflowing_cases op with hnone | ⟨batch, rfl, hone, hover⟩
    · rw [hnone]
      exact ih (h.move op)
    · obtain ⟨q, hq, hstopped, -⟩ := (h.answers batch).overflow hover
      have hstep : p.step (.submit batch) = q := congrArg Prod.fst hq
      have hend : (p.step (.submit batch)).accepts = false :=
        not_accepts_iff.mpr (.inr (hstep ▸ hstopped))
      have hrest : Run.output step overflowing (p.step (.submit batch)) ops = [] :=
        overflowings_of_not_accepts hend ops
      rw [hone, hrest]
      exact Nat.le_refl 1

/-- What is refused is not let in. -/
theorem admitted_of_refused {batch : Batch} {e : PublisherError} (h : (p.submit batch).1 = .error e) :
    p.admitted (.submit batch) = [] := by
  simp only [admitted, h]

/-- A submitted batch is queued as the last one where there is a slot for it, ends the feed where there is
none, and changes nothing once the publisher stops. It goes to the bus only if it was accepted. -/
theorem submit_outcome (capacity : Nat) (ops : List Op) :
    let p := (new capacity).after ops
    p.fifo.queue.length + p.fifo.granted.length ≤ p.fifo.capacity ∧
    p.fifo.capacity = capacityFor capacity ∧
    (∀ batch, p.Answers batch) ∧
    (∀ batch e, (p.submit batch).1 = .error e → ∀ rest,
      let after := p.step (.submit batch)
      Conveys ((new capacity).accepted ops ++ after.accepted rest)
        ((new capacity).calls (ops ++ .submit batch :: rest)) (after.after rest).lastError) ∧
    (∀ batch, (p.submit batch).1 = .error .bufferOverflow → ∀ rest,
      Conveys ((new capacity).accepted ops) ((new capacity).calls (ops ++ .submit batch :: rest))
        (some .bufferOverflow)) ∧
    ((new capacity).overflowings ops).length ≤ 1 := by
  intro p
  have hsteady : p.Steady := steady_after capacity ops
  have hrefused : ∀ batch e, (p.submit batch).1 = .error e → ∀ rest,
      Conveys ((new capacity).accepted ops ++ (p.step (.submit batch)).accepted rest)
        ((new capacity).calls (ops ++ .submit batch :: rest))
        ((p.step (.submit batch)).after rest).lastError := by
    intro batch e he rest
    have hall := conveys_after capacity (ops ++ .submit batch :: rest)
    rwa [accepted, Run.output_append, Run.output_cons, admitted_of_refused he, List.nil_append, after,
      Run.after_append, Run.after_cons] at hall
  refine ⟨hsteady.sound.room, capacity_after _ ops, hsteady.answers, hrefused, ?_,
    (steady_new capacity).overflow_once ops⟩
  intro batch hover rest
  obtain ⟨q, hq, hstopped, herror⟩ := (hsteady.answers batch).overflow hover
  obtain rfl : p.step (.submit batch) = q := congrArg Prod.fst hq
  have hquiet := ((hsteady.move _).coherent.quiet hstopped rest).2.2
  have hnow : Conveys ((new capacity).accepted ops ++ []) ((new capacity).calls (ops ++ [.submit batch]))
      (p.step (.submit batch)).lastError := hrefused batch _ hover []
  rw [List.append_nil, herror] at hnow
  have hcalls : (new capacity).calls (ops ++ .submit batch :: rest) =
      (new capacity).calls (ops ++ [.submit batch]) := by
    rw [calls, calls, Run.output_append, Run.output_append, Run.output_cons, Run.output_cons]
    exact congrArg (fun later => _ ++ (_ ++ later)) hquiet
  rwa [hcalls]

/-- One batch in a queue of two, and a waiter that holds the other slot. -/
example :
    let ops : List Op := [.submit ⟨1, []⟩, .submit ⟨2, []⟩, .submitWait ⟨3, []⟩, .run, .deliver]
    let p := (new 2).after ops
    p.fifo.queue = [⟨2, []⟩] ∧ p.fifo.granted = [0] ∧
      (p.submit ⟨4, []⟩).1 = .error .bufferOverflow ∧
      (new 2).calls (ops ++ [.submit ⟨4, []⟩, .deliver]) =
        [.publish (.empty 1), .fail .bufferOverflow] := by
  decide +kernel

end Submitting

end BlockFeed.Publisher
