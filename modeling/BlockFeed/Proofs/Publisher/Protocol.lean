import BlockFeed.Proofs.Publisher.Account

/-! What the publisher asks of the bus: the blocks of the batches it accepted, in order, and at most
one error at the end. -/

namespace BlockFeed.Publisher

/-- A batch comes in, finds no free slot and is refused. -/
def Overflows (p : Publisher) (batch : Batch) : Prop :=
  p.fifo.capacity ≤ p.fifo.used ∧ (p.submit batch).1 = .error .bufferOverflow

theorem overflow_not_mem_process (p : Publisher) (batch : Batch) :
    .fail .bufferOverflow ∉ (p.process batch).2.toList := by
  rw [process]
  cases Block.ofBatch batch with
  | ok block =>
    simp only [publish]
    split <;> simp
  | error source =>
    simp only [halt]
    split <;> simp

theorem overflow_not_mem_deliver (p : Publisher) :
    .fail .bufferOverflow ∉ p.called .deliver := by
  simp only [called]
  rw [deliver]
  split
  · split
    · split <;> simp
    · split
      · exact overflow_not_mem_process _ _
      · simp
  · split
    · simp
    · split
      · exact overflow_not_mem_process _ _
      · split <;> simp
  · simp

theorem overflows_of_call {p : Publisher} {op : Op} (h : .fail .bufferOverflow ∈ p.called op) :
    ∃ batch, op = .submit batch ∧ p.Overflows batch := by
  cases op with
  | submit batch =>
    refine ⟨batch, rfl, ?_⟩
    simp only [called, Overflows] at h ⊢
    rw [submit] at h ⊢
    by_cases hr : (!p.accepts || p.fifo.closed) = true
    · simp [hr] at h
    · by_cases hf : p.fifo.isFull = true
      · simp only [hr, hf, if_true, Bool.false_eq_true, if_false, and_true]
        simpa [Fifo.isFull] using hf
      · simp [hr, hf] at h
  | deliver => exact absurd h (overflow_not_mem_deliver p)
  | _ => cases h

/-- The blocks of the first accepted batches go to the bus in order, then at most one error, then
nothing. `stop` returns once the publisher is `finished`. -/
theorem bus_protocol (capacity : Nat) (ops : List Op) :
    let p := (new capacity).after ops
    let accepted := (new capacity).accepted ops
    ∃ blocks : List Block,
      blocks.map .ok = (accepted.take blocks.length).map Block.ofBatch ∧
      (new capacity).calls ops = blocks.map .publish ++ p.lastError.toList.map .fail ∧
      p.latestHeight = (blocks.getLast?.map Block.height).getD 0 ∧
      (∀ e, p.lastError = some e → p.state = .stopped ∧
        ((∃ batch source, accepted[blocks.length]? = some batch ∧
            e = .decode batch.height source ∧ batch.FirstFault source) ∨
          (e = .bufferOverflow ∧ ∃ before batch rest, ops = before ++ .submit batch :: rest ∧
            ((new capacity).after before).Overflows batch))) ∧
      ((new capacity).Ran ops → p.finished = true → p.lastError = none →
        blocks.length = accepted.length) := by
  intro p accepted
  obtain ⟨blocks, done, rest, h⟩ := exists_account capacity ops
  have hc : p.Coherent := (coherent_new capacity).after ops
  refine ⟨blocks, ?_, h.called, h.height, ?_, ?_⟩
  · rw [← h.done_eq, h.published]
  · intro e he
    have hs : p.state = .stopped := hc.stopped_of_error (by simp [he])
    refine ⟨hs, ?_⟩
    cases e with
    | decode height source =>
      obtain ⟨batch, hb, rfl, hfault⟩ := h.fault height source he
      exact Or.inl ⟨batch, source, h.fault_eq ▸ hb, rfl, hfault⟩
    | bufferOverflow =>
      have hcall : BusCall.fail .bufferOverflow ∈ (new capacity).calls ops := by
        rw [h.called, show p.lastError = _ from he]
        simp
      obtain ⟨before, op, rest, hops, hmem⟩ := Run.mem_output hcall
      obtain ⟨batch, rfl, hover⟩ := overflows_of_call hmem
      exact Or.inr ⟨rfl, before, batch, rest, hops, hover⟩
  · intro hran hf hn
    have hl := congrArg List.length h.published
    simp only [List.length_map] at hl
    rw [← hl, show accepted = done ++ rest from h.split,
      h.rest_eq_nil hc hran.started hf hn, List.append_nil]

/-- A batch is queued before the publisher runs, and another one while it is asked to stop. -/
example :
    let ops : List Op := [.submit ⟨1, []⟩, .run, .submitWait ⟨2, []⟩, .stop, .submit ⟨3, []⟩, .deliver,
      .deliver, .deliver, .deliver]
    ((new 2).after ops).finished = true ∧ (new 2).accepted ops = [⟨1, []⟩, ⟨2, []⟩] ∧
      (new 2).calls ops = [.publish (.empty 1), .publish (.empty 2)] := by
  decide +kernel

end BlockFeed.Publisher
