import BlockFeed.Proofs.Pump.Operation

/-! The books of a pump. At any time the publisher has accepted the batches that the source gave first,
one after another, and the pump has at most one more in hand. -/

namespace BlockFeed

namespace BatchSource

variable {σ : Type} [BatchSource σ]

/-- Calls one after another give these batches and errors. -/
def Reads : σ → List (Except SourceError Batch) → σ → Prop
  | s, [], s' => s = s'
  | s, item :: items, s' => (next s).1 = some item ∧ Reads (next s).2 items s'

theorem reads_snoc {s s' : σ} {items : List (Except SourceError Batch)}
    {item : Except SourceError Batch} :
    Reads s (items ++ [item]) s' ↔ ∃ t, Reads s items t ∧ next t = (some item, s') := by
  induction items generalizing s with
  | nil =>
    constructor
    · rintro ⟨hitem, hend⟩
      exact ⟨s, rfl, Prod.ext hitem hend⟩
    · rintro ⟨t, rfl, hnext⟩
      exact ⟨congrArg Prod.fst hnext, congrArg Prod.snd hnext⟩
  | cons first items ih =>
    simp only [List.cons_append, Reads, ih]
    constructor
    · rintro ⟨hfirst, t, ht, hnext⟩
      exact ⟨t, ⟨hfirst, ht⟩, hnext⟩
    · rintro ⟨t, ⟨hfirst, ht⟩, hnext⟩
      exact ⟨hfirst, t, ht, hnext⟩

/-- The first calls give these batches and errors. -/
def Begins (s : σ) (items : List (Except SourceError Batch)) : Prop := ∃ s', Reads s items s'

theorem begins_list_iff {all items : List (Except SourceError Batch)} :
    Begins all items ↔ items <+: all := by
  induction items generalizing all with
  | nil => exact ⟨fun _ => List.nil_prefix, fun _ => ⟨all, rfl⟩⟩
  | cons item items ih =>
    cases all with
    | nil =>
      refine ⟨?_, fun h => by simp at h⟩
      rintro ⟨s', hitem, -⟩
      cases hitem
    | cons first rest =>
      rw [List.cons_prefix_cons, ← ih]
      constructor
      · rintro ⟨s', hitem, hrest⟩
        exact ⟨(Option.some.inj hitem).symm, s', hrest⟩
      · rintro ⟨rfl, s', hrest⟩
        exact ⟨s', rfl, hrest⟩

end BatchSource

namespace Pump

open BatchSource

/-- Something that happens to a pump, or to the publisher that it fills. -/
inductive Op where
  | step
  /-- The pause before a batch is over. -/
  | elapse
  | cancel
  /-- Somebody else does something with the publisher, or its delivery task a step. -/
  | publisher (op : Publisher.Op)

/-- The pump itself does it, or it is done to the pump. -/
def Op.own : Op → Bool
  | .publisher _ => false
  | _ => true

variable {σ : Type} [BatchSource σ]

def act (s : Pump σ × Publisher) : Op → Pump σ × Publisher
  | .step => s.1.step s.2
  | .elapse => s.1.elapse s.2
  | .cancel => (s.1.cancel, s.2)
  | .publisher op => (s.1, s.2.step op)

def publisherOps (s : Pump σ × Publisher) : Op → List Publisher.Op
  | .step => s.1.stepOps
  | .elapse => s.1.elapseOps
  | .cancel => []
  | .publisher op => [op]

/-- The batches that the publisher accepts from the pump. -/
def pumped (s : Pump σ × Publisher) (op : Op) : List Batch :=
  if op.own then s.2.accepted (publisherOps s op) else []

abbrev after (s : Pump σ × Publisher) (ops : List Op) : Pump σ × Publisher := Run.after act s ops

abbrev pumpedIn (s : Pump σ × Publisher) (ops : List Op) : List Batch := Run.output act pumped s ops

/-- The batches that the publisher accepts, from whomever they come. -/
abbrev acceptedIn (s : Pump σ × Publisher) (ops : List Op) : List Batch :=
  Run.output act (fun s op => s.2.accepted (publisherOps s op)) s ops

theorem act_publisher (s : Pump σ × Publisher) (op : Op) :
    (act s op).2 = s.2.after (publisherOps s op) := by
  cases op with
  | step => exact s.1.step_publisher s.2
  | elapse => exact s.1.elapse_publisher s.2
  | cancel => rfl
  | publisher op => rfl

/-- What the end of a pump tells of the source, against the batches that were accepted from it. -/
def Settles (source : σ) (taken : List Batch) : Outcome → Prop
  | .submitted n => n = taken.length ∧ Begins source (taken.map .ok)
  | .unreadable e => Begins source (taken.map .ok ++ [.error e])
  | .refused height e => e = .stopped ∧
    ∃ batch, batch.height = height ∧ Begins source (taken.map .ok ++ [.ok batch])

/-- All that the pump has read has been accepted, but for the batch in hand. -/
def Accounted (source : σ) (taken : List Batch) (pump : Pump σ) : Prop :=
  match pump.phase with
  | .reading => pump.submitted = taken.length ∧ Reads source (taken.map .ok) pump.source
  | .pausing batch =>
    pump.submitted = taken.length ∧ Reads source (taken.map .ok ++ [.ok batch]) pump.source
  | .waiting w =>
    pump.submitted = taken.length ∧ Reads source (taken.map .ok ++ [.ok w.batch]) pump.source
  | .done outcome => Settles source taken outcome

theorem accounted_new (source : σ) (paced cancelled : Bool) :
    Accounted source [] (new source paced cancelled) := ⟨rfl, rfl⟩

section Conclusion

variable {source : σ} {taken : List Batch} {pump : Pump σ} {batch : Batch}

theorem accounted_accept (hcount : pump.submitted = taken.length)
    (hreads : Reads source (taken.map .ok ++ [.ok batch]) pump.source) :
    Accounted source (taken ++ [batch]) (pump.conclude batch.height (.ok ())) := by
  refine ⟨?_, ?_⟩
  · rw [List.length_append, List.length_singleton, ← hcount]
    rfl
  · rw [List.map_append]
    exact hreads

theorem accounted_refuse (hreads : Reads source (taken.map .ok ++ [.ok batch]) pump.source) :
    Accounted source taken (pump.conclude batch.height (.error .stopped)) :=
  ⟨rfl, batch, rfl, pump.source, hreads⟩

/-- A pump that is cancelled gives up the batch in hand. -/
theorem accounted_give_up (hcount : pump.submitted = taken.length)
    (hreads : Reads source (taken.map .ok ++ [.ok batch]) pump.source) :
    Accounted source taken (pump.finish (.submitted pump.submitted)) := by
  obtain ⟨t, hbegins, -⟩ := reads_snoc.mp hreads
  exact ⟨hcount, t, hbegins⟩

theorem accounted_offer (p : Publisher) (hcount : pump.submitted = taken.length)
    (hreads : Reads source (taken.map .ok ++ [.ok batch]) pump.source) :
    Accounted source (taken ++ p.admitted (.submitWait batch)) (pump.offer batch p).1 := by
  rw [offer, Publisher.admitted]
  rcases p.submitWait_cases batch with h | h | h
  · rw [h, List.append_nil]
    exact accounted_refuse hreads
  · rw [h, List.append_nil]
    exact ⟨hcount, hreads⟩
  · rw [h]
    exact accounted_accept hcount hreads

theorem accounted_retry {w : Waiter} (p : Publisher) (hphase : pump.phase = .waiting w)
    (hcount : pump.submitted = taken.length)
    (hreads : Reads source (taken.map .ok ++ [.ok w.batch]) pump.source) :
    Accounted source (taken ++ p.admitted (.resume w)) (pump.retry w p).1 := by
  rw [retry, Publisher.admitted]
  rcases p.resume_cases w with h | h | ⟨-, h⟩
  · rw [h, List.append_nil]
    exact accounted_refuse hreads
  · rw [h, List.append_nil, Accounted, hphase]
    exact ⟨hcount, hreads⟩
  · rw [h]
    exact accounted_accept hcount hreads

end Conclusion

section Steps

variable {source : σ} {taken : List Batch} {pump : Pump σ}

theorem Accounted.step (h : Accounted source taken pump) (p : Publisher) :
    Accounted source (taken ++ p.accepted pump.stepOps) (pump.step p).1 := by
  cases hphase : pump.phase with
  | done outcome => simpa [Pump.step, stepOps, hphase] using h
  | pausing batch =>
    cases hc : pump.cancelled with
    | true =>
      rw [Accounted, hphase] at h
      simpa [Pump.step, stepOps, hphase, hc] using accounted_give_up h.1 h.2
    | false => simpa [Pump.step, stepOps, hphase, hc] using h
  | waiting w =>
    rw [Accounted, hphase] at h
    cases hc : pump.cancelled with
    | true =>
      simpa [Pump.step, stepOps, hphase, hc, Publisher.admitted] using accounted_give_up h.1 h.2
    | false => simpa [Pump.step, stepOps, hphase, hc] using accounted_retry p hphase h.1 h.2
  | reading =>
    rw [Accounted, hphase] at h
    obtain ⟨hcount, hreads⟩ := h
    cases hc : pump.cancelled with
    | true =>
      have hend : Accounted source taken (pump.finish (.submitted pump.submitted)) :=
        ⟨hcount, pump.source, hreads⟩
      simpa [Pump.step, stepOps, hphase, hc] using hend
    | false =>
      cases hnext : BatchSource.next pump.source with
      | mk item rest =>
        rcases item with _ | (e | batch)
        · have hend : Accounted source taken
              ({ pump with source := rest }.finish (.submitted pump.submitted)) :=
            ⟨hcount, pump.source, hreads⟩
          simpa [Pump.step, stepOps, hphase, hc, hnext] using hend
        · have hend : Accounted source taken ({ pump with source := rest }.finish (.unreadable e)) :=
            ⟨rest, reads_snoc.mpr ⟨pump.source, hreads, hnext⟩⟩
          simpa [Pump.step, stepOps, hphase, hc, hnext] using hend
        · have hread := reads_snoc.mpr ⟨pump.source, hreads, hnext⟩
          cases hpause : pump.paced && decide (0 < pump.submitted) with
          | true =>
            have hhold : Accounted source taken
                { pump with source := rest, phase := .pausing batch } := ⟨hcount, hread⟩
            simpa [Pump.step, stepOps, hphase, hc, hnext, hpause] using hhold
          | false =>
            have hoffer : Accounted source (taken ++ p.admitted (.submitWait batch))
                ({ pump with source := rest }.offer batch p).1 := accounted_offer p hcount hread
            simpa [Pump.step, stepOps, hphase, hc, hnext, hpause] using hoffer

theorem Accounted.elapse (h : Accounted source taken pump) (p : Publisher) :
    Accounted source (taken ++ p.accepted pump.elapseOps) (pump.elapse p).1 := by
  cases hphase : pump.phase with
  | pausing batch =>
    rw [Accounted, hphase] at h
    cases hc : pump.cancelled with
    | true => simpa [Pump.elapse, elapseOps, hphase, hc] using accounted_give_up h.1 h.2
    | false => simpa [Pump.elapse, elapseOps, hphase, hc] using accounted_offer p h.1 h.2
  | _ => simpa [Pump.elapse, elapseOps, hphase] using h

theorem Accounted.act {s : Pump σ × Publisher} (h : Accounted source taken s.1) (op : Op) :
    Accounted source (taken ++ pumped s op) (Pump.act s op).1 := by
  cases op with
  | step => exact h.step s.2
  | elapse => exact h.elapse s.2
  | cancel => exact (List.append_nil taken).symm ▸ h
  | publisher op => exact (List.append_nil taken).symm ▸ h

theorem Accounted.after {s : Pump σ × Publisher} (h : Accounted source taken s.1) (ops : List Op) :
    Accounted source (taken ++ pumpedIn s ops) (Pump.after s ops).1 := by
  induction ops generalizing s taken with
  | nil => exact (List.append_nil taken).symm ▸ h
  | cons op ops ih =>
    rw [pumpedIn, Run.output_cons, ← List.append_assoc]
    exact ih (h.act op)

end Steps

section Producers

/-- Somebody hands a batch in. -/
def Op.produces : Op → Bool
  | .publisher (.submit _) | .publisher (.submitWait _) | .publisher (.resume _) => true
  | _ => false

/-- A pump waits for room, whatever it does. -/
theorem waits_publisherOps (s : Pump σ × Publisher) {op : Op} (h : op.own = true) :
    ∀ o ∈ publisherOps s op, o.waits = true := by
  cases op with
  | step => exact s.1.waits_stepOps
  | elapse => exact s.1.waits_elapseOps
  | cancel => simp [publisherOps]
  | publisher op => cases h

theorem queue_act (s : Pump σ × Publisher) {op : Op} (h : op.own = true) :
    (act s op).2.fifo.queue = s.2.fifo.queue ++ pumped s op := by
  rw [act_publisher, pumped, if_pos h]
  exact (Publisher.waited_after (waits_publisherOps s h) s.2).1

theorem pumped_sublist (s : Pump σ × Publisher) (op : Op) :
    (pumped s op).Sublist (s.2.accepted (publisherOps s op)) := by
  rw [pumped]
  split
  · exact List.Sublist.refl _
  · exact List.nil_sublist _

theorem pumpedIn_sublist (s : Pump σ × Publisher) (ops : List Op) :
    (pumpedIn s ops).Sublist (acceptedIn s ops) := by
  induction ops generalizing s with
  | nil => exact List.Sublist.refl _
  | cons op ops ih => exact (pumped_sublist s op).append (ih (act s op))

theorem accepted_eq_pumped (s : Pump σ × Publisher) {op : Op} (h : op.produces = false) :
    s.2.accepted (publisherOps s op) = pumped s op := by
  cases op with
  | publisher op =>
    show s.2.accepted [op] = []
    rw [Publisher.accepted_singleton]
    cases op with
    | submit batch => cases h
    | submitWait batch => cases h
    | resume w => cases h
    | _ => rfl
  | _ => rfl

theorem acceptedIn_eq_pumpedIn (s : Pump σ × Publisher) {ops : List Op}
    (h : ∀ op ∈ ops, op.produces = false) : acceptedIn s ops = pumpedIn s ops := by
  induction ops generalizing s with
  | nil => rfl
  | cons op ops ih =>
    have hrest := ih (act s op) fun o ho => h o (List.mem_cons_of_mem op ho)
    exact congrArg₂ (· ++ ·) (accepted_eq_pumped s (h op List.mem_cons_self)) hrest

theorem publisher_after (s : Pump σ × Publisher) (ops : List Op) :
    (after s ops).2 = s.2.after (Run.output act publisherOps s ops) :=
  Run.part_after act_publisher s ops

/-- Where all others wait for room as well, there is always enough of it. -/
theorem no_overflow {pump : Pump σ} {capacity : Nat} {ops : List Op}
    (h : ∀ batch, .publisher (.submit batch) ∉ ops) :
    (after (pump, Publisher.new capacity) ops).2.lastError ≠ some .bufferOverflow := by
  intro herror
  rw [publisher_after] at herror
  obtain ⟨batch, hsubmit⟩ := Publisher.overflow_of_submit herror
  obtain ⟨before, op, rest, rfl, hop⟩ := Run.mem_output hsubmit
  cases hown : op.own with
  | true =>
    have hwaits := waits_publisherOps _ hown _ hop
    cases hwaits
  | false =>
    cases op with
    | publisher op =>
      obtain rfl := List.mem_singleton.mp hop
      exact h batch (List.mem_append_right _ List.mem_cons_self)
    | _ => cases hown

end Producers

/-- However a pump ends, the publisher has accepted the batches of its source up to the end that the pump
reports, each once and in their order, whatever was done meanwhile to the publisher and the pump. A pump that
is alone with the publisher never overruns its queue. -/
theorem outcome_accounts (source : σ) (paced cancelled : Bool) (capacity : Nat) (ops : List Op) :
    let start := (new source paced cancelled, Publisher.new capacity)
    let s := after start ops
    let taken := pumpedIn start ops
    (∀ outcome, s.1.outcome? = some outcome → Settles source taken outcome) ∧
    (∀ op, op.own = true → (act s op).2.fifo.queue = s.2.fifo.queue ++ pumped s op) ∧
    taken.Sublist (acceptedIn start ops) ∧
    ((∀ op ∈ ops, op.produces = false) →
      acceptedIn start ops = taken ∧ s.2.lastError ≠ some .bufferOverflow) := by
  intro start s taken
  have hnew : Accounted source [] start.1 := accounted_new source paced cancelled
  have hbooks : Accounted source taken s.1 := hnew.after ops
  refine ⟨?_, fun op hop => queue_act s hop, pumpedIn_sublist start ops, ?_⟩
  · intro outcome hout
    rw [Accounted] at hbooks
    rw [outcome?] at hout
    cases hphase : s.1.phase with
    | done o =>
      rw [hphase] at hbooks hout
      cases hout
      exact hbooks
    | _ => simp [hphase] at hout
  · intro hothers
    refine ⟨acceptedIn_eq_pumpedIn start hothers, no_overflow fun batch hmem => ?_⟩
    have hproduces := hothers _ hmem
    cases hproduces

/-- A queue of one: the pump waits for room with batch 2 in hand when it is cancelled. -/
example :
    let source : List (Except SourceError Batch) := [.ok ⟨1, []⟩, .ok ⟨2, []⟩, .ok ⟨3, []⟩]
    let start := (new source false false, Publisher.new 1)
    let ops : List Op := [.step, .step, .publisher .run, .cancel, .publisher .deliver, .step]
    (after start ops).1.outcome? = some (.submitted 1) ∧ pumpedIn start ops = [⟨1, []⟩] ∧
      (after start ops).2.fifo.used = 0 := by
  decide +kernel

end Pump

end BlockFeed
