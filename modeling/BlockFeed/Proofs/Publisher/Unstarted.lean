import BlockFeed.Proofs.Publisher.Account

/-! Batches that come in before the publisher runs. They are kept in the queue and published once it
runs, but a publisher that is stopped without having run keeps them for good. -/

namespace BlockFeed.Publisher

def early (p : Publisher) (op : Op) : List Batch := if p.state = .idle then p.admitted op else []

/-- The batches that are accepted before the publisher runs or stops. -/
abbrev acceptedEarly (p : Publisher) (ops : List Op) : List Batch := Run.output step early p ops

/-- The blocks of some batches are the first that go to the bus. -/
def Handed (batches : List Batch) (calls : List BusCall) : Prop :=
  ∃ blocks : List Block, batches.map Block.ofBatch = blocks.map .ok ∧ blocks.map .publish <+: calls

theorem Move.not_idle {p p' : Publisher} {batches : List Batch} {calls : List BusCall}
    (hm : Move p p' batches calls) (h : p.state ≠ .idle) : p'.state ≠ .idle := by
  cases hm with
  | accept fifo waiter _ hq ha => exact h
  | overflow counts ha hf =>
    rw [halt_of_not_stopped (p := { p with counts }) (not_stopped_of_accepts ha)]
    exact PublisherState.noConfusion
  | run hs => exact absurd hs h
  | retire hs => exact absurd hs h
  | cancel hs => exact PublisherState.noConfusion
  | leave hd hc hs => exact h
  | finish hf => exact PublisherState.noConfusion
  | strand hd => exact h
  | deliver batch fifo counts hd hq =>
    simp only [process]
    cases Block.ofBatch batch with
    | ok block =>
      simp only [publish]
      split <;> exact h
    | error source =>
      simp only [halt]
      split
      · exact h
      · exact PublisherState.noConfusion

theorem acceptedEarly_of_not_idle {p : Publisher} (h : p.state ≠ .idle) (ops : List Op) :
    p.acceptedEarly ops = [] := by
  induction ops generalizing p with
  | nil => rfl
  | cons op ops ih =>
    have hrest := ih ((move_step p op).not_idle h)
    rw [acceptedEarly, Run.output_cons, early, if_neg h]
    exact hrest

theorem acceptedEarly_prefix (p : Publisher) (ops : List Op) :
    p.acceptedEarly ops <+: p.accepted ops := by
  induction ops generalizing p with
  | nil => exact List.prefix_rfl
  | cons op ops ih =>
    by_cases h : p.state = .idle
    · rw [acceptedEarly, accepted, Run.output_cons, Run.output_cons, early, if_pos h]
      exact (List.prefix_append_right_inj _).mpr (ih (p.step op))
    · rw [acceptedEarly_of_not_idle h]
      exact List.nil_prefix

/-- Until it is started, the publisher keeps all that comes in and publishes nothing. -/
theorem Move.unstarted {p p' : Publisher} {batches : List Batch} {calls : List BusCall}
    (hm : Move p p' batches calls) (h : p.delivery = .notStarted) :
    p'.fifo.queue = p.fifo.queue ++ batches ∧ ∀ block, .publish block ∉ calls := by
  cases hm with
  | accept fifo waiter _ hq ha => exact ⟨hq, by simp⟩
  | overflow counts ha hf =>
    rw [halt_of_not_stopped (p := { p with counts }) (not_stopped_of_accepts ha)]
    exact ⟨(List.append_nil _).symm, by simp⟩
  | run hs => exact ⟨(List.append_nil _).symm, by simp⟩
  | retire hs => exact ⟨(List.append_nil _).symm, by simp⟩
  | cancel hs => exact ⟨(List.append_nil _).symm, by simp⟩
  | leave hd hc hs => simp [h] at hd
  | finish hf => simp [h] at hf
  | strand hd => simp [h] at hd
  | deliver batch fifo counts hd hq => simp [Delivering, h] at hd

theorem unstarted_after {p : Publisher} {ops : List Op}
    (h : (p.after ops).delivery = .notStarted) :
    (p.after ops).fifo.queue = p.fifo.queue ++ p.accepted ops ∧
      ∀ block, .publish block ∉ p.calls ops := by
  induction ops generalizing p with
  | nil => exact ⟨(List.append_nil _).symm, by simp⟩
  | cons op ops ih =>
    have hp : p.delivery = .notStarted := by
      by_contra hne
      exact started_after hne (op :: ops) h
    obtain ⟨hqueue, hcalls⟩ := (move_step p op).unstarted hp
    obtain ⟨hqueue', hcalls'⟩ := ih h
    have haccepted : p.accepted (op :: ops) = p.admitted op ++ (p.step op).accepted ops := rfl
    refine ⟨?_, fun block hmem => ?_⟩
    · rw [haccepted, ← List.append_assoc, ← hqueue]
      exact hqueue'
    · rw [calls, Run.output_cons, List.mem_append] at hmem
      rcases hmem with hmem | hmem
      · exact hcalls block hmem
      · exact hcalls' block hmem

theorem delivery_step {p : Publisher} {op : Op} (hop : op ≠ .run) (h : p.delivery = .notStarted) :
    (p.step op).delivery = .notStarted := by
  cases op with
  | run => exact absurd rfl hop
  | stop =>
    simp only [step, Publisher.stop]
    split <;> exact h
  | submit batch =>
    simp only [step, submit]
    split
    · exact h
    · split
      · simpa using h
      · exact h
  | submitWait batch =>
    simp only [step, submitWait]
    split
    · exact h
    · split <;> exact h
  | resume w =>
    simp only [step, resume]
    split
    · exact h
    · split
      · split <;> exact h
      · exact h
  | abandon w => exact h
  | deliver => simp [step, deliver, h]

theorem ran_of_started {p : Publisher} {ops : List Op} (h : p.delivery = .notStarted)
    (hend : (p.after ops).delivery ≠ .notStarted) : p.Ran ops := by
  induction ops generalizing p with
  | nil => exact absurd h hend
  | cons op ops ih =>
    by_cases hstep : (p.step op).delivery = .notStarted
    · obtain ⟨before, rest, q, rfl, hq⟩ := ih hstep hend
      exact ⟨op :: before, rest, q, rfl, hq⟩
    · have hop : op = .run := by
        by_contra hne
        exact hstep (delivery_step hne h)
      subst hop
      cases hq : p.run with
      | ok q => exact ⟨[], ops, q, rfl, hq⟩
      | error e =>
        simp only [step, hq] at hstep
        exact absurd h hstep

theorem Coherent.early_eq {p : Publisher} (h : p.Coherent) (hd : p.delivery = .notStarted) (op : Op) :
    p.early op = p.admitted op := by
  by_cases hs : p.state = .idle
  · rw [early, if_pos hs]
  · have hstopped : p.state = .stopped := by
      rw [Coherent] at h
      cases hp : p.state <;> simp_all
    have hquiet := (h.quiet_move hstopped (move_step p op)).2.1
    rw [early, if_neg hs, hquiet]

theorem Coherent.acceptedEarly_eq {p : Publisher} (h : p.Coherent) {ops : List Op}
    (hend : (p.after ops).delivery = .notStarted) : p.acceptedEarly ops = p.accepted ops := by
  induction ops generalizing p with
  | nil => rfl
  | cons op ops ih =>
    have hp : p.delivery = .notStarted := by
      by_contra hne
      exact started_after hne (op :: ops) hend
    have hrest := ih (h.move (move_step p op)) hend
    exact congrArg₂ (· ++ ·) (h.early_eq hp op) hrest

/-- When `stop` has returned without an error, the batches that came in before the publisher ran have been
published exactly if it did run; if not, they are all still queued and not one block was published. -/
theorem early_handed_iff_ran {capacity : Nat} {ops : List Op}
    (hf : ((new capacity).after ops).finished = true)
    (hn : ((new capacity).after ops).lastError = none) :
    (Handed ((new capacity).acceptedEarly ops) ((new capacity).calls ops) ↔
      (new capacity).Ran ops ∨ (new capacity).acceptedEarly ops = []) ∧
    (¬ (new capacity).Ran ops → (new capacity).calls ops = [] ∧
      ((new capacity).after ops).fifo.queue = (new capacity).acceptedEarly ops) := by
  obtain ⟨blocks, done, rest, h⟩ := exists_account capacity ops
  have hc : ((new capacity).after ops).Coherent := (coherent_new capacity).after ops
  have hcalls : (new capacity).calls ops = blocks.map .publish := by
    rw [h.called, hn]
    exact List.append_nil _
  have hunstarted : ¬ (new capacity).Ran ops →
      ((new capacity).after ops).delivery = .notStarted := by
    intro hran
    by_contra hne
    exact hran (ran_of_started rfl hne)
  have hkept : ¬ (new capacity).Ran ops → (new capacity).calls ops = [] ∧
      ((new capacity).after ops).fifo.queue = (new capacity).acceptedEarly ops := by
    intro hran
    have hd := hunstarted hran
    obtain ⟨hqueue, hnone⟩ := unstarted_after hd
    refine ⟨?_, ?_⟩
    · rw [hcalls, List.map_eq_nil_iff, List.eq_nil_iff_forall_not_mem]
      intro block hblock
      exact hnone block (hcalls ▸ List.mem_map_of_mem hblock)
    · rw [(coherent_new capacity).acceptedEarly_eq hd, hqueue]
      rfl
  refine ⟨⟨?_, ?_⟩, hkept⟩
  · rintro ⟨first, hfirst, hstart⟩
    by_cases hran : (new capacity).Ran ops
    · exact Or.inl hran
    · rw [(hkept hran).1, List.prefix_nil, List.map_eq_nil_iff] at hstart
      rw [hstart, List.map_nil, List.map_eq_nil_iff] at hfirst
      exact Or.inr hfirst
  · rintro (hran | hempty)
    · have hrest : rest = [] := h.rest_eq_nil hc hran.started hf hn
      have hall : (new capacity).accepted ops = done := by rw [h.split, hrest, List.append_nil]
      obtain ⟨later, hlater⟩ := acceptedEarly_prefix (new capacity) ops
      have hmap : ((new capacity).acceptedEarly ops).map Block.ofBatch ++ later.map Block.ofBatch =
          blocks.map .ok := by
        rw [← List.map_append, hlater, hall, h.published]
      obtain ⟨first, last, rfl, hfirst, -⟩ := List.map_eq_append_iff.mp hmap.symm
      refine ⟨first, hfirst.symm, ?_⟩
      rw [hcalls, List.map_append]
      exact List.prefix_append _ _
    · exact ⟨[], by rw [hempty]; rfl, List.nil_prefix⟩

/-- Batch 1 comes in early and batch 2 while the publisher runs, and both go out. -/
theorem early_handed_iff_ran_running :
    let ops : List Op := [.submit ⟨1, []⟩, .run, .submitWait ⟨2, []⟩, .stop, .deliver, .deliver, .deliver,
      .deliver]
    ((new 2).after ops).finished = true ∧ ((new 2).after ops).lastError = none ∧
      (new 2).acceptedEarly ops = [⟨1, []⟩] ∧ Handed [⟨1, []⟩] ((new 2).calls ops) := by
  intro ops
  have hf : ((new 2).after ops).finished = true := by decide +kernel
  have hn : ((new 2).after ops).lastError = none := by decide +kernel
  have hearly : (new 2).acceptedEarly ops = [⟨1, []⟩] := by decide +kernel
  have hran : (new 2).Ran ops := ⟨[.submit ⟨1, []⟩], _, _, rfl, rfl⟩
  have hhanded := (early_handed_iff_ran hf hn).1.mpr (Or.inl hran)
  rw [hearly] at hhanded
  exact ⟨hf, hn, hearly, hhanded⟩

/-- A publisher that is stopped without having run drops what it had accepted, and no error tells of
it. -/
theorem early_lost_without_error :
    let ops : List Op := [.submit ⟨7, []⟩, .stop]
    ((new 1).after ops).finished = true ∧ ((new 1).after ops).lastError = none ∧
      (new 1).acceptedEarly ops = [⟨7, []⟩] ∧ (new 1).calls ops = [] := by
  decide +kernel

end BlockFeed.Publisher
