import BlockFeed.Feed.Pump
import BlockFeed.Proofs.Publisher.Waiting

/-! What a pump does comes down to operations on the publisher, those of one who waits for room. -/

namespace BlockFeed.Pump

variable {σ : Type}

/-- What a step of the pump comes down to on the publisher. -/
def stepOps [BatchSource σ] (pump : Pump σ) : List Publisher.Op :=
  match pump.phase with
  | .waiting w => if pump.cancelled then [.abandon w] else [.resume w]
  | .reading =>
    if pump.cancelled then []
    else match BatchSource.next pump.source with
      | (some (.ok batch), _) =>
        if pump.paced && 0 < pump.submitted then [] else [.submitWait batch]
      | _ => []
  | _ => []

/-- What the end of a pause comes down to on the publisher. -/
def elapseOps (pump : Pump σ) : List Publisher.Op :=
  match pump.phase with
  | .pausing batch => if pump.cancelled then [] else [.submitWait batch]
  | _ => []

theorem offer_publisher (pump : Pump σ) (batch : Batch) (p : Publisher) :
    (pump.offer batch p).2 = p.step (.submitWait batch) := by
  show _ = (p.submitWait batch).2
  rw [offer]
  cases p.submitWait batch with
  | mk result p' => cases result <;> rfl

theorem retry_publisher (pump : Pump σ) (w : Waiter) (p : Publisher) :
    (pump.retry w p).2 = p.step (.resume w) := by
  show _ = (p.resume w).2
  rw [retry]
  cases p.resume w with
  | mk result p' => cases result <;> rfl

theorem step_publisher [BatchSource σ] (pump : Pump σ) (p : Publisher) :
    (pump.step p).2 = p.after pump.stepOps := by
  simp only [step, stepOps]
  cases pump.phase with
  | done outcome => rfl
  | pausing batch =>
    simp only
    split <;> rfl
  | waiting w =>
    simp only
    split
    · rfl
    · exact pump.retry_publisher w p
  | reading =>
    simp only
    split
    · rfl
    · cases BatchSource.next pump.source with
      | mk item source =>
        rcases item with _ | (e | batch)
        · rfl
        · rfl
        · simp only
          split
          · rfl
          · exact offer_publisher _ batch p

theorem elapse_publisher (pump : Pump σ) (p : Publisher) :
    (pump.elapse p).2 = p.after pump.elapseOps := by
  simp only [elapse, elapseOps]
  cases pump.phase with
  | pausing batch =>
    simp only
    split
    · rfl
    · exact offer_publisher pump batch p
  | _ => rfl

theorem stepOps_cases [BatchSource σ] (pump : Pump σ) :
    pump.stepOps = [] ∨ ∃ op, pump.stepOps = [op] ∧ op.waits = true := by
  rw [stepOps]
  cases pump.phase with
  | waiting w => cases pump.cancelled <;> simp [Publisher.Op.waits]
  | reading =>
    cases pump.cancelled with
    | true => exact .inl rfl
    | false =>
      rcases BatchSource.next pump.source with ⟨_ | (e | batch), rest⟩
      · exact .inl rfl
      · exact .inl rfl
      · cases pump.paced && decide (0 < pump.submitted) <;> simp [Publisher.Op.waits]
  | _ => exact .inl rfl

theorem waits_stepOps [BatchSource σ] (pump : Pump σ) : ∀ op ∈ pump.stepOps, op.waits = true := by
  rcases pump.stepOps_cases with h | ⟨op, h, hop⟩
  · simp [h]
  · simp [h, hop]

theorem waits_elapseOps (pump : Pump σ) : ∀ op ∈ pump.elapseOps, op.waits = true := by
  rw [elapseOps]
  cases pump.phase with
  | pausing batch => cases pump.cancelled <;> simp [Publisher.Op.waits]
  | _ => simp

end BlockFeed.Pump
