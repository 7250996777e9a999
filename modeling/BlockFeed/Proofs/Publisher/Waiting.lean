import BlockFeed.Proofs.Publisher.Submission

/-! Batches whose submission may wait for room. A waiter is told once what has become of its batch, and
it is told the truth, whatever stops the publisher while it waits. -/

namespace BlockFeed.Publisher

variable {p : Publisher}

/-- What one who may wait does: it hands a batch over, looks again, or goes away. -/
def Op.waits : Op → Bool
  | .submitWait _ | .resume _ | .abandon _ => true
  | _ => false

/-- The number that one gets who has to wait. -/
def issued (p : Publisher) : Op → List Nat
  | .submitWait batch => match (p.submitWait batch).1 with
    | .pending w => [w.id]
    | _ => []
  | _ => []

/-- The number of one whose waiting ends with its batch accepted. -/
def served (p : Publisher) : Op → List Nat
  | .resume w => match (p.resume w).1 with
    | .done (.ok ()) => [w.id]
    | _ => []
  | _ => []

abbrev issuedIn (p : Publisher) (ops : List Op) : List Nat := Run.output step issued p ops

abbrev servedIn (p : Publisher) (ops : List Op) : List Nat := Run.output step served p ops

/-- Whoever waits adds its batch to the queue when it is told so, and does nothing else to the feed. -/
structure Waited (p : Publisher) (op : Op) : Prop where
  queue : (p.step op).fifo.queue = p.fifo.queue ++ p.admitted op
  state : (p.step op).state = p.state
  lastError : (p.step op).lastError = p.lastError
  called : p.called op = []

theorem submitWait_cases (p : Publisher) (batch : Batch) :
    p.submitWait batch = (.done (.error .stopped), p) ∨
    p.submitWait batch = (.pending ⟨p.nextWaiter, batch⟩,
      { p with nextWaiter := p.nextWaiter + 1, fifo := p.fifo.enter p.nextWaiter }) ∨
    p.submitWait batch = (.done (.ok ()), { p with fifo := p.fifo.push batch }) := by
  rw [submitWait]
  split
  · exact .inl rfl
  · split
    · exact .inr (.inl rfl)
    · exact .inr (.inr rfl)

theorem resume_cases (p : Publisher) (w : Waiter) :
    p.resume w = (.done (.error .stopped), p.abandon w) ∨ p.resume w = (.pending w, p) ∨
    w.id ∈ p.fifo.granted ∧
      p.resume w = (.done (.ok ()), { p with fifo := p.fifo.fill w.id w.batch }) := by
  rw [resume]
  split
  · exact .inl rfl
  · split
    · split
      · exact .inr (.inr ⟨‹_›, rfl⟩)
      · exact .inl rfl
    · exact .inr (.inl rfl)

theorem waited_abandon (p : Publisher) (w : Waiter) : p.Waited (.abandon w) :=
  ⟨by simp [step, abandon, admitted], rfl, rfl, rfl⟩

theorem waited_submitWait (p : Publisher) (batch : Batch) : p.Waited (.submitWait batch) := by
  rcases p.submitWait_cases batch with h | h | h
  · exact ⟨by simp [step, admitted, h], by simp [step, h], by simp [step, h], rfl⟩
  · exact ⟨by simp [step, admitted, h, Fifo.enter], by simp [step, h], by simp [step, h], rfl⟩
  · exact ⟨by simp [step, admitted, h, Fifo.push], by simp [step, h], by simp [step, h], rfl⟩

theorem waited_resume (p : Publisher) (w : Waiter) : p.Waited (.resume w) := by
  rcases p.resume_cases w with h | h | ⟨-, h⟩
  · exact ⟨by simp [step, admitted, h, abandon], by simp [step, h, abandon],
      by simp [step, h, abandon], rfl⟩
  · exact ⟨by simp [step, admitted, h], by simp [step, h], by simp [step, h], rfl⟩
  · exact ⟨by simp [step, admitted, h, Fifo.fill], by simp [step, h], by simp [step, h], rfl⟩

theorem waited {op : Op} (h : op.waits = true) (p : Publisher) : p.Waited op := by
  cases op with
  | submitWait batch => exact waited_submitWait p batch
  | resume w => exact waited_resume p w
  | abandon w => exact waited_abandon p w
  | _ => cases h

/-- All that those who wait do to the feed is to add their batches to the queue. -/
theorem waited_after {ops : List Op} (h : ∀ op ∈ ops, op.waits = true) (p : Publisher) :
    (p.after ops).fifo.queue = p.fifo.queue ++ p.accepted ops ∧ p.calls ops = [] := by
  induction ops generalizing p with
  | nil => exact ⟨(List.append_nil _).symm, rfl⟩
  | cons op ops ih =>
    have hop := waited (h op List.mem_cons_self) p
    obtain ⟨hqueue, hcalls⟩ := ih (fun o ho => h o (List.mem_cons_of_mem op ho)) (p.step op)
    refine ⟨?_, ?_⟩
    · rw [accepted, Run.output_cons, ← List.append_assoc, ← hop.queue]
      exact hqueue
    · rw [calls, Run.output_cons, hop.called]
      exact hcalls

theorem issued_cases (p : Publisher) (op : Op) : p.issued op = [] ∨
    p.issued op = [p.nextWaiter] ∧ (p.step op).nextWaiter = p.nextWaiter + 1 := by
  cases op with
  | submitWait batch =>
    rcases p.submitWait_cases batch with h | h | h
    · exact .inl (by simp [issued, h])
    · exact .inr ⟨by simp [issued, h], by simp [step, h]⟩
    · exact .inl (by simp [issued, h])
  | _ => exact .inl rfl

theorem nextWaiter_le_step (p : Publisher) (op : Op) : p.nextWaiter ≤ (p.step op).nextWaiter := by
  rcases (fifo_step p op).waiters with ⟨-, h⟩ | ⟨-, h⟩
  · exact Nat.le_of_eq h.symm
  · exact h ▸ Nat.le_succ _

/-- No two waiters have the same number. -/
theorem issuedIn_fresh (p : Publisher) (ops : List Op) :
    (p.issuedIn ops).Nodup ∧ ∀ id ∈ p.issuedIn ops, p.nextWaiter ≤ id := by
  induction ops generalizing p with
  | nil => exact ⟨List.nodup_nil, nofun⟩
  | cons op ops ih =>
    obtain ⟨hnodup, hlater⟩ := ih (p.step op)
    rw [issuedIn, Run.output_cons]
    rcases p.issued_cases op with hnone | ⟨hone, hnext⟩
    · rw [hnone]
      exact ⟨hnodup, fun id hid => Nat.le_trans (p.nextWaiter_le_step op) (hlater id hid)⟩
    · rw [hnext] at hlater
      rw [hone]
      refine ⟨List.nodup_cons.mpr ⟨fun hid => ?_, hnodup⟩, fun id hid => ?_⟩
      · exact Nat.not_succ_le_self _ (hlater _ hid)
      · rcases List.mem_cons.mp hid with rfl | hid
        · exact Nat.le_refl _
        · exact Nat.le_of_succ_le (hlater id hid)

theorem Steady.served_cases (h : p.Steady) (op : Op) : p.served op = [] ∨
    ∃ id, p.served op = [id] ∧ id ∈ p.fifo.granted ∧ (p.step op).Gone id := by
  cases op with
  | resume w =>
    rcases p.resume_cases w with hr | hr | ⟨hid, hr⟩
    · exact .inl (by simp [served, hr])
    · exact .inl (by simp [served, hr])
    · refine .inr ⟨w.id, by simp [served, hr], hid, ?_⟩
      have hgone := h.sound.gone_fill hid w.batch
      simpa [step, hr, Gone] using hgone
  | _ => exact .inl rfl

/-- Nobody's waiting ends twice with the batch accepted. -/
theorem Steady.served_once (h : p.Steady) (ops : List Op) :
    (p.servedIn ops).Nodup ∧ ∀ id ∈ p.servedIn ops, ¬ p.Gone id := by
  induction ops generalizing p with
  | nil => exact ⟨List.nodup_nil, nofun⟩
  | cons op ops ih =>
    obtain ⟨hnodup, hlater⟩ := ih (h.move op)
    rw [servedIn, Run.output_cons]
    rcases h.served_cases op with hnone | ⟨id, hone, hgranted, hgone⟩
    · rw [hnone]
      exact ⟨hnodup, fun id hid hg => hlater id hid (hg.step op)⟩
    · rw [hone]
      refine ⟨List.nodup_cons.mpr ⟨fun hid => hlater id hid hgone, hnodup⟩, fun id' hid hg => ?_⟩
      rcases List.mem_cons.mp hid with rfl | hid
      · exact hg.2 (List.mem_append_left _ hgranted)
      · exact hlater id' hid (hg.step op)

/-- Only one who does not wait for room finds none. -/
theorem overflow_of_submit {capacity : Nat} {ops : List Op}
    (h : ((new capacity).after ops).lastError = some .bufferOverflow) : ∃ batch, .submit batch ∈ ops := by
  obtain ⟨blocks, -, hcalls⟩ := conveys_after capacity ops
  have hcall : BusCall.fail .bufferOverflow ∈ (new capacity).calls ops := by
    rw [hcalls, h]
    simp
  obtain ⟨before, op, rest, rfl, hmem⟩ := Run.mem_output hcall
  obtain ⟨batch, rfl, -⟩ := overflows_of_call hmem
  exact ⟨batch, by simp⟩

/-- Once `stop` has been entered or the feed has ended with an error, whoever waits for room is refused, be
it that it holds a slot already, and nothing goes to the bus that had not been accepted before. Whoever is
told that its batch is accepted has added it to the queue once, and nobody who waits overruns it. -/
theorem nothing_behind_stop (capacity : Nat) (ops : List Op) :
    let p := (new capacity).after ops
    (.stop ∈ ops ∨ p.lastError ≠ none → ∀ rest, let q := p.after rest
      (∀ batch, q.submitWait batch = (.done (.error .stopped), q)) ∧
      (∀ w, q.resume w = (.done (.error .stopped), q.abandon w)) ∧
      (new capacity).accepted (ops ++ rest) = (new capacity).accepted ops ∧
      Conveys ((new capacity).accepted ops) ((new capacity).calls (ops ++ rest)) q.lastError) ∧
    (∀ op, op.waits = true → p.Waited op) ∧
    (∀ batch w, (p.submitWait batch).1 = .pending w → w = ⟨p.nextWaiter, batch⟩) ∧
    ((new capacity).issuedIn ops).Nodup ∧ ((new capacity).servedIn ops).Nodup ∧
    (p.lastError = some .bufferOverflow → ∃ batch, .submit batch ∈ ops) := by
  intro p
  have hsteady : p.Steady := steady_after capacity ops
  refine ⟨?_, fun op hop => waited hop p, ?_, (issuedIn_fresh _ ops).1,
    ((steady_new capacity).served_once ops).1, overflow_of_submit⟩
  · intro hend rest q
    have hp : p.accepts = false := by
      rcases hend with hstop | herror
      · exact not_accepts_of_mem_stop hstop
      · exact not_accepts_iff.mpr (.inr (hsteady.coherent.stopped_of_error herror))
    obtain ⟨hq, hnone⟩ := not_accepts_after hp rest
    have hrefuses : q.refuses = true := (hsteady.coherent.after rest).refuses hq
    have haccepted : (new capacity).accepted (ops ++ rest) = (new capacity).accepted ops := by
      rw [accepted, Run.output_append, show Run.output step admitted _ rest = [] from hnone,
        List.append_nil]
    refine ⟨?_, ?_, haccepted, ?_⟩
    · intro batch
      rw [submitWait, show q.accepts = false from hq]
      rfl
    · intro w
      rw [resume, if_pos hrefuses]
    · have hall := conveys_after capacity (ops ++ rest)
      rwa [haccepted, after, Run.after_append] at hall
  · intro batch w hw
    rcases p.submitWait_cases batch with h | h | h <;> simp_all

/-- A queue of one: the first waiter holds the slot that came free, the second one none. -/
example :
    let ops : List Op := [.submit ⟨1, []⟩, .run, .submitWait ⟨2, []⟩, .submitWait ⟨3, []⟩, .deliver, .stop]
    let p := (new 1).after ops
    p.fifo.granted = [0] ∧ p.fifo.waiting = [1] ∧
      (new 1).calls (ops ++ [.resume ⟨1, ⟨3, []⟩⟩, .resume ⟨0, ⟨2, []⟩⟩, .deliver, .deliver]) =
        [.publish (.empty 1)] := by
  decide +kernel

end BlockFeed.Publisher
