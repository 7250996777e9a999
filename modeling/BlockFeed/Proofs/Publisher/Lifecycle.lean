import BlockFeed.Proofs.Publisher.Submission
import BlockFeed.Proofs.Publisher.Unstarted

/-! The life of a publisher. Its state only moves forward, it is started at most once, and the error it
halts with stands for good. -/

namespace BlockFeed

/-- The state may change so. -/
inductive PublisherState.Edge : PublisherState → PublisherState → Prop where
  | start : Edge .idle .running
  | unstarted : Edge .idle .stopped
  | drain : Edge .running .stopping
  | drained : Edge .stopping .stopped
  | halt : Edge .running .stopped

namespace Publisher

variable {p p' : Publisher} {batches : List Batch} {calls : List BusCall}

@[simp] theorem finished_process (p : Publisher) (batch : Batch) (h : p.finished = true) :
    (p.process batch).1.finished = true := by
  rw [process]
  cases Block.ofBatch batch with
  | ok block =>
    simp only [publish]
    split <;> exact h
  | error source =>
    simp only [halt]
    split
    · exact h
    · simp [h]

@[simp] theorem receiver_process (p : Publisher) (batch : Batch) :
    (p.process batch).1.receiver = p.receiver := by
  rw [process]
  cases Block.ofBatch batch with
  | ok block =>
    simp only [publish]
    split <;> rfl
  | error source =>
    simp only [halt]
    split <;> rfl

/-- What a move does to the last error: nothing, and the bus is not told of one, or the publisher halts
with an error that it tells the bus, the first one. -/
inductive Erring (p : Publisher) : Publisher → List BusCall → Prop where
  | keep {q : Publisher} {told : List BusCall} (he : q.lastError = p.lastError)
      (hc : ∀ e, .fail e ∉ told) : Erring p q told
  | halt {q : Publisher} (e : FeedError) (hn : p.lastError = none) (he : q.lastError = some e) :
      Erring p q [.fail e]

theorem Erring.stands (h : Erring p p' calls) {e : FeedError} (he : p.lastError = some e) :
    p'.lastError = some e := by
  cases h with
  | keep hsame => rw [hsame, he]
  | halt e' hnone => simp [he] at hnone

theorem Coherent.erring (h : p.Coherent) (hm : Move p p' batches calls) : Erring p p' calls := by
  cases hm with
  | overflow counts ha hf =>
    rw [halt_of_not_stopped (p := { p with counts }) (not_stopped_of_accepts ha)]
    exact .halt _ (h.accepting ha) rfl
  | deliver batch fifo counts hd hq =>
    obtain ⟨hs, hn⟩ := h.delivering hd
    rcases process_cases (p := { p with fifo, counts }) hs batch with
      ⟨block, counts', -, hp⟩ | ⟨source, counts', -, hp⟩
    · rw [hp]
      exact .keep rfl (by simp)
    · rw [hp]
      exact .halt _ hn rfl
  | _ => exact .keep rfl (by simp)

theorem Coherent.edge (h : p.Coherent) (hm : Move p p' batches calls) :
    p'.state = p.state ∨ p.state.Edge p'.state := by
  cases hm with
  | accept => exact .inl rfl
  | overflow counts ha hf =>
    rw [halt_of_not_stopped (p := { p with counts }) (not_stopped_of_accepts ha)]
    rcases accepts_iff.mp ha with hs | hs
    · exact .inr (hs ▸ .unstarted)
    · exact .inr (hs ▸ .halt)
  | run hs hr => exact .inr (hs ▸ .start)
  | retire hs => exact .inr (hs ▸ .unstarted)
  | cancel hs => exact .inr (hs ▸ .drain)
  | leave => exact .inl rfl
  | finish hf =>
    rcases hf with ⟨-, hs⟩ | ⟨hd, -⟩
    · exact .inl hs.symm
    · rw [Coherent, hd] at h
      cases hs : p.state with
      | stopping => exact .inr .drained
      | stopped => exact .inl rfl
      | _ => simp [hs] at h
  | strand => exact .inl rfl
  | deliver batch fifo counts hd hq =>
    obtain ⟨hs, -⟩ := h.delivering hd
    rcases process_cases (p := { p with fifo, counts }) hs batch with
      ⟨block, counts', -, hp⟩ | ⟨source, counts', -, hp⟩
    · rw [hp]
      exact .inl rfl
    · rw [hp]
      rcases hs with hs | hs
      · exact .inr (hs ▸ .halt)
      · exact .inr (hs ▸ .drained)

theorem Move.finished (hm : Move p p' batches calls) (h : p.finished = true) : p'.finished = true := by
  cases hm with
  | overflow counts ha hf =>
    rw [halt_of_not_stopped (p := { p with counts }) (not_stopped_of_accepts ha)]
    simp [h]
  | deliver batch fifo counts hd hq => exact finished_process _ batch h
  | retire => rfl
  | finish => rfl
  | _ => exact h

/-- A publisher that has finished delivers nothing any more. -/
theorem Coherent.deliver_of_finished (h : p.Coherent) (hf : p.finished = true) :
    p.deliver = (p, none) := by
  have hs := h.stopped_of_finished hf
  rw [Coherent, hs] at h
  rw [deliver]
  cases hd : p.delivery <;> simp_all

/-- Until it is started, a publisher has the reading end of its queue. -/
def Equipped (p : Publisher) : Prop := p.state = .idle → p.receiver = true

theorem Equipped.move (h : p.Equipped) (hm : Move p p' batches calls) : p'.Equipped := by
  intro hidle
  have hp : p.state = .idle := by
    by_contra hne
    exact hm.not_idle hne hidle
  cases hm with
  | overflow counts ha hf =>
    rw [halt_of_not_stopped (p := { p with counts }) (not_stopped_of_accepts ha)] at hidle
    cases hidle
  | run => cases hidle
  | deliver batch fifo counts hd hq => exact (receiver_process _ batch).trans (h hp)
  | _ => exact h hp

end Publisher

end BlockFeed
