import BlockFeed.Proofs.Block
import BlockFeed.Proofs.Publisher.Operation

/-! The books of the publisher: at any time the batches accepted so far are those published so far,
in order, and then those still to come, of which nothing is lost as long as no error occurs. -/

namespace BlockFeed.Publisher

/-- How the fields of a publisher go together. -/
def Coherent (p : Publisher) : Prop :=
  match p.state, p.delivery with
  | .idle, .notStarted | .running, .looping =>
    p.cancelled = false ∧ p.finished = false ∧ p.lastError = none
  | .stopping, .looping | .stopping, .draining | .stopping, .stranded =>
    p.cancelled = true ∧ p.finished = false ∧ p.lastError = none
  | .stopped, .notStarted => p.finished = true
  | .stopped, .finished => p.finished = true ∧ p.fifo.queue = []
  | .stopped, _ => p.cancelled = true ∧ p.finished = false ∧ p.lastError.isSome = true
  | _, _ => False

theorem coherent_new (capacity : Nat) : (new capacity).Coherent := ⟨rfl, rfl, rfl⟩

theorem Coherent.delivering {p : Publisher} (h : p.Coherent) (hd : p.Delivering) :
    (p.state = .running ∨ p.state = .stopping) ∧ p.lastError = none := by
  rw [Coherent] at h
  rcases hd with ⟨hd, hc⟩ | ⟨hd, hs⟩
  · cases hp : p.state <;> simp_all
  · cases hp : p.state <;> simp_all

theorem Coherent.accepting {p : Publisher} (h : p.Coherent) (ha : p.accepts = true) :
    p.lastError = none := by
  rw [Coherent] at h
  cases hp : p.state <;> cases hd : p.delivery <;> simp_all [accepts]

theorem Coherent.stopped_of_error {p : Publisher} (h : p.Coherent) (he : p.lastError ≠ none) :
    p.state = .stopped := by
  rw [Coherent] at h
  cases hp : p.state <;> cases hd : p.delivery <;> simp_all

theorem Coherent.stopped_of_finished {p : Publisher} (h : p.Coherent) (hf : p.finished = true) :
    p.state = .stopped := by
  rw [Coherent] at h
  cases hp : p.state <;> cases hd : p.delivery <;> simp_all

/-- At work, the delivery task publishes the block of a batch, or it halts with what is wrong. -/
theorem process_cases {p : Publisher} (h : p.state = .running ∨ p.state = .stopping) (batch : Batch) :
    (∃ block counts, Block.ofBatch batch = .ok block ∧
      p.process batch = ({ p with latestHeight := block.height, counts }, some (.publish block))) ∨
    ∃ source counts, Block.ofBatch batch = .error source ∧ p.process batch =
      ({ p with state := .stopped, lastError := some (.decode batch.height source),
                cancelled := true, finished := p.finished || p.state = .idle, counts },
        some (.fail (.decode batch.height source))) := by
  cases hb : Block.ofBatch batch with
  | ok block =>
    have hs : (p.state = .running || p.state = .stopping : Bool) = true := by simpa using h
    simp only [process, hb, publish, hs, if_true]
    exact .inl ⟨block, _, rfl, rfl⟩
  | error source =>
    have hs : p.state ≠ .stopped := by rcases h with h | h <;> simp [h]
    simp only [process, hb, halt, if_neg hs]
    exact .inr ⟨source, _, rfl, rfl⟩

theorem Coherent.move {p p' : Publisher} {batches : List Batch} {calls : List BusCall}
    (h : p.Coherent) (hm : Move p p' batches calls) : p'.Coherent := by
  cases hm with
  | accept fifo waiter _ hq ha =>
    rw [Coherent] at h ⊢
    by_cases hb : batches = []
    · rw [hb, List.append_nil] at hq
      simpa only [hq] using h
    · have hs := not_stopped_of_accepts (ha hb)
      cases hp : p.state <;> cases hd : p.delivery <;> simp_all
  | overflow counts ha hf =>
    rw [halt_of_not_stopped (p := { p with counts }) (not_stopped_of_accepts ha)]
    rw [Coherent] at h ⊢
    cases hp : p.state <;> cases hd : p.delivery <;> simp_all [accepts]
  | run hs =>
    rw [Coherent] at h ⊢
    cases hd : p.delivery <;> simp_all
  | retire hs =>
    rw [Coherent] at h ⊢
    cases hd : p.delivery <;> simp_all
  | cancel hs =>
    rw [Coherent] at h ⊢
    cases hd : p.delivery <;> simp_all
  | leave hd hc hs =>
    rw [Coherent] at h ⊢
    cases hp : p.state <;> simp_all
  | finish hf => exact ⟨rfl, rfl⟩
  | strand hd =>
    rw [Coherent] at h ⊢
    cases hp : p.state <;> simp_all
  | deliver batch fifo counts hd hq =>
    obtain ⟨hs, he⟩ := h.delivering hd
    rw [Coherent] at h
    rcases process_cases (p := { p with fifo, counts }) hs batch with
      ⟨block, counts', -, hp⟩ | ⟨source, counts', -, hp⟩
    · rw [hp, Coherent]
      cases hd' : p.delivery <;> rcases hs with hs | hs <;> simp_all
    · rw [hp, Coherent]
      cases hd' : p.delivery <;> rcases hs with hs | hs <;> simp_all

theorem Coherent.after {p : Publisher} (h : p.Coherent) (ops : List Op) : (p.after ops).Coherent :=
  Run.after_induction (fun _ op hp => hp.move (move_step _ op)) h ops

/-- A publisher that has stopped lets nothing in and is not heard of any more. -/
theorem Coherent.quiet_move {p p' : Publisher} {batches : List Batch} {calls : List BusCall}
    (h : p.Coherent) (hs : p.state = .stopped) (hm : Move p p' batches calls) :
    p'.state = .stopped ∧ batches = [] ∧ calls = [] := by
  cases hm with
  | accept fifo waiter _ hq ha =>
    refine ⟨hs, ?_, rfl⟩
    cases batches with
    | nil => rfl
    | cons batch rest => exact absurd hs (not_stopped_of_accepts (ha (List.cons_ne_nil batch rest)))
  | overflow counts ha hf => exact absurd hs (not_stopped_of_accepts ha)
  | run hi => simp [hs] at hi
  | retire hi => simp [hs] at hi
  | cancel hr => simp [hs] at hr
  | leave hd hc hn => exact absurd hs hn
  | finish hf => exact ⟨rfl, rfl, rfl⟩
  | strand hd => exact ⟨hs, rfl, rfl⟩
  | deliver batch fifo counts hd hq =>
    obtain ⟨hr, _⟩ := h.delivering hd
    simp [hs] at hr

theorem Coherent.quiet {p : Publisher} (h : p.Coherent) (hs : p.state = .stopped) (ops : List Op) :
    (p.after ops).state = .stopped ∧ p.accepted ops = [] ∧ p.calls ops = [] := by
  induction ops generalizing p with
  | nil => exact ⟨hs, rfl, rfl⟩
  | cons op ops ih =>
    have hm := move_step p op
    obtain ⟨hs', hb, hc⟩ := h.quiet_move hs hm
    obtain ⟨hend, hbs, hcs⟩ := ih (h.move hm) hs'
    refine ⟨hend, ?_, ?_⟩
    · rw [accepted, Run.output_cons, hb]
      exact hbs
    · rw [calls, Run.output_cons, hc]
      exact hcs

/-- Accepted batches against calls: `done` has been published as `blocks`, `rest` has not. -/
structure Account (p : Publisher) (accepted : List Batch) (calls : List BusCall)
    (blocks : List Block) (done rest : List Batch) : Prop where
  split : accepted = done ++ rest
  published : done.map Block.ofBatch = blocks.map .ok
  called : calls = blocks.map .publish ++ p.lastError.toList.map .fail
  height : p.latestHeight = (blocks.getLast?.map Block.height).getD 0
  queued : p.lastError = none → p.fifo.queue = rest
  fault : ∀ height source, p.lastError = some (.decode height source) →
    ∃ batch, rest.head? = some batch ∧ batch.height = height ∧ batch.FirstFault source

theorem account_new (capacity : Nat) : (new capacity).Account [] [] [] [] [] :=
  ⟨rfl, rfl, rfl, rfl, fun _ => rfl, nofun⟩

/-- A move that neither lets a batch in nor calls the bus. -/
theorem Account.silent {p p' : Publisher} {accepted done rest : List Batch}
    {calls : List BusCall} {blocks : List Block} (h : p.Account accepted calls blocks done rest)
    (he : p'.lastError = p.lastError) (hl : p'.latestHeight = p.latestHeight)
    (hq : p.lastError = none → p'.fifo.queue = p.fifo.queue) :
    ∃ blocks' done' rest', p'.Account (accepted ++ []) (calls ++ []) blocks' done' rest' := by
  refine ⟨blocks, done, rest, ?_⟩
  rw [List.append_nil, List.append_nil]
  refine ⟨h.split, h.published, by rw [he, h.called], by rw [hl, h.height], ?_, ?_⟩
  · intro hn
    rw [he] at hn
    rw [hq hn, h.queued hn]
  · intro height source hs
    exact h.fault height source (he ▸ hs)

theorem Account.move {p p' : Publisher} {accepted batches done rest : List Batch}
    {calls calls' : List BusCall} {blocks : List Block} (hc : p.Coherent)
    (h : p.Account accepted calls blocks done rest) (hm : Move p p' batches calls') :
    ∃ blocks' done' rest', p'.Account (accepted ++ batches) (calls ++ calls') blocks' done' rest' := by
  cases hm with
  | accept fifo waiter _ hq ha =>
    refine ⟨blocks, done, rest ++ batches, ?_, h.published, by simpa using h.called, h.height, ?_, ?_⟩
    · rw [h.split, List.append_assoc]
    · intro he
      rw [hq, h.queued he]
    · intro height source he
      obtain ⟨batch, hb, hh⟩ := h.fault height source he
      exact ⟨batch, by simp [hb], hh⟩
  | overflow counts ha hf =>
    have hn := hc.accepting ha
    rw [halt_of_not_stopped (p := { p with counts }) (not_stopped_of_accepts ha)]
    refine ⟨blocks, done, rest, by simpa using h.split, h.published, ?_, h.height, nofun, nofun⟩
    simp [h.called, hn]
  | run hs => exact h.silent rfl rfl fun _ => rfl
  | retire hs => exact h.silent rfl rfl fun _ => rfl
  | cancel hs => exact h.silent rfl rfl fun _ => rfl
  | leave hd hcancel hs => exact h.silent rfl rfl fun _ => rfl
  | strand hd => exact h.silent rfl rfl fun _ => rfl
  | finish hf =>
    -- What is queued is thrown away, but without an error nothing is.
    refine h.silent rfl rfl fun hn => ?_
    rcases hf with ⟨hd, hs⟩ | ⟨hd, hq⟩
    · rw [Coherent] at hc
      rcases hd with hd | hd <;> simp [hd, hs, hn] at hc
    · exact hq.symm
  | deliver batch fifo counts hd hq =>
    obtain ⟨hs, hn⟩ := hc.delivering hd
    have hrest : rest = batch :: fifo.queue := (h.queued hn).symm.trans hq
    rcases process_cases (p := { p with fifo, counts }) hs batch with
      ⟨block, counts', hb, hp⟩ | ⟨source, counts', hb, hp⟩
    · rw [hp]
      refine ⟨blocks ++ [block], done ++ [batch], fifo.queue, ?_, ?_, ?_, ?_, fun _ => rfl, ?_⟩
      · simp [h.split, hrest]
      · simp [h.published, hb]
      · simp [h.called, hn]
      · simp
      · intro height source he
        simp [hn] at he
    · rw [hp]
      refine ⟨blocks, done, rest, by simpa using h.split, h.published, ?_, h.height, nofun, ?_⟩
      · simp [h.called, hn]
      · intro height source' he
        simp only [Option.some.injEq, FeedError.decode.injEq] at he
        obtain ⟨rfl, rfl⟩ := he
        exact ⟨batch, by simp [hrest], rfl, Block.ofBatch_error hb⟩

theorem Account.after {p : Publisher} {accepted done rest : List Batch} {calls : List BusCall}
    {blocks : List Block} (hc : p.Coherent) (h : p.Account accepted calls blocks done rest)
    (ops : List Op) :
    ∃ blocks' done' rest', (p.after ops).Account (accepted ++ p.accepted ops) (calls ++ p.calls ops)
      blocks' done' rest' := by
  induction ops generalizing p accepted done rest calls blocks with
  | nil => exact ⟨blocks, done, rest, by simpa using h⟩
  | cons op ops ih =>
    have hm := move_step p op
    obtain ⟨blocks', done', rest', h'⟩ := h.move hc hm
    simpa [List.append_assoc] using ih (hc.move hm) h'

theorem Account.done_eq {p : Publisher} {accepted done rest : List Batch} {calls : List BusCall}
    {blocks : List Block} (h : p.Account accepted calls blocks done rest) :
    done = accepted.take blocks.length := by
  have hl := congrArg List.length h.published
  simp only [List.length_map] at hl
  rw [h.split, ← hl, List.take_left]

theorem Account.fault_eq {p : Publisher} {accepted done rest : List Batch} {calls : List BusCall}
    {blocks : List Block} (h : p.Account accepted calls blocks done rest) :
    rest.head? = accepted[blocks.length]? := by
  have hl := congrArg List.length h.published
  simp only [List.length_map] at hl
  rw [h.split, ← hl, List.getElem?_append_right (Nat.le_refl _), Nat.sub_self, List.head?_eq_getElem?]

theorem exists_account (capacity : Nat) (ops : List Op) : ∃ blocks done rest,
    ((new capacity).after ops).Account ((new capacity).accepted ops) ((new capacity).calls ops)
      blocks done rest := by
  simpa using (account_new capacity).after (coherent_new capacity) ops

/-- The publisher was started in the course of the operations. -/
def Ran (p : Publisher) (ops : List Op) : Prop :=
  ∃ before rest q, ops = before ++ .run :: rest ∧ (p.after before).run = .ok q

@[simp] theorem delivery_halt (p : Publisher) (e : FeedError) :
    (p.halt e).1.delivery = p.delivery := by
  rw [halt]
  split <;> rfl

@[simp] theorem delivery_process (p : Publisher) (batch : Batch) :
    (p.process batch).1.delivery = p.delivery := by
  rw [process]
  cases Block.ofBatch batch with
  | ok block =>
    simp only [publish]
    split <;> rfl
  | error source => exact delivery_halt _ _

theorem Move.started {p p' : Publisher} {batches : List Batch} {calls : List BusCall}
    (hm : Move p p' batches calls) (h : p.delivery ≠ .notStarted) : p'.delivery ≠ .notStarted := by
  cases hm with
  | overflow counts ha hf => simpa using h
  | deliver batch fifo counts hd hq => simpa using h
  | accept => exact h
  | retire => exact h
  | cancel => exact h
  | _ => exact Delivery.noConfusion

theorem started_after {p : Publisher} (h : p.delivery ≠ .notStarted) (ops : List Op) :
    (p.after ops).delivery ≠ .notStarted :=
  Run.after_induction (P := fun q : Publisher => q.delivery ≠ .notStarted)
    (fun q op hd => (move_step q op).started hd) h ops

theorem Ran.started {p : Publisher} {ops : List Op} (h : p.Ran ops) :
    (p.after ops).delivery ≠ .notStarted := by
  obtain ⟨before, rest, q, rfl, hq⟩ := h
  have hstep : ((p.after before).step .run).delivery ≠ .notStarted := by
    simp only [step, hq]
    rcases (p.after before).run_cases with ⟨e, h⟩ | ⟨-, -, h⟩
    · rw [h] at hq
      cases hq
    · rw [h] at hq
      cases hq
      exact Delivery.noConfusion
  rw [after, Run.after_append, Run.after_cons]
  exact started_after hstep rest

/-- Once the delivery task has ended without an error, nothing is left to publish. -/
theorem Account.rest_eq_nil {p : Publisher} {accepted done rest : List Batch} {calls : List BusCall}
    {blocks : List Block} (h : p.Account accepted calls blocks done rest) (hc : p.Coherent)
    (hs : p.delivery ≠ .notStarted) (hf : p.finished = true) (hn : p.lastError = none) :
    rest = [] := by
  rw [← h.queued hn]
  rw [Coherent] at hc
  cases hp : p.state <;> cases hd : p.delivery <;> simp_all

end BlockFeed.Publisher
