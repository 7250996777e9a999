import BlockFeed.Proofs.Publisher.Lifecycle
import BlockFeed.Proofs.World.Log

/-! The life of the publisher of a feed. It is started at most once, its state moves forward to the end,
and the error that it halts with is the terminal error of the bus. -/

namespace BlockFeed.World

theorem taskPublisherOps_cases (w : World) (t : Task) :
    w.taskPublisherOps t = [] ∨ ∃ o, w.taskPublisherOps t = [o] := by
  cases t with
  | delivery => exact .inr ⟨_, rfl⟩
  | pump id =>
    simp only [taskPublisherOps]
    cases w.pumps[id]? with
    | none => exact .inl rfl
    | some pump =>
      rcases pump.stepOps_cases with h | ⟨o, h, -⟩
      · exact .inl h
      · exact .inr ⟨o, h⟩
  | _ => exact .inl rfl

theorem publisherOps_cases (w : World) (op : Op) :
    w.publisherOps op = [] ∨ ∃ o, w.publisherOps op = [o] := by
  cases op with
  | task t => exact w.taskPublisherOps_cases t
  | tick =>
    simp only [publisherOps]
    cases w.turn .tick with
    | none => exact .inl rfl
    | some t => exact w.taskPublisherOps_cases t
  | run => exact .inr ⟨_, rfl⟩
  | stop => exact .inr ⟨_, rfl⟩
  | submit batch => exact .inr ⟨_, rfl⟩
  | submitWait batch => exact .inr ⟨_, rfl⟩
  | resume waiter => exact .inr ⟨_, rfl⟩
  | abandon waiter => exact .inr ⟨_, rfl⟩
  | _ => exact .inl rfl

/-- Whatever is done with the feed is one move of the publisher. -/
theorem publisher_move (w : World) (op : Op) : w.publisher.Move (w.step op).publisher
    (w.publisher.accepted (w.publisherOps op)) (w.publisher.calls (w.publisherOps op)) := by
  rw [publisher_step]
  rcases w.publisherOps_cases op with h | ⟨o, h⟩
  · rw [h]
    exact .refl _
  · rw [h, Publisher.accepted_singleton, Publisher.calls_singleton]
    exact w.publisher.move_step o

/-- What holds of publisher and bus between any two operations. -/
structure Kept (w : World) : Prop where
  coherent : w.publisher.Coherent
  equipped : w.publisher.Equipped
  terminal : w.bus.terminal = w.publisher.lastError

theorem kept_new (capacity subscriberCapacity clientBuffer : Nat) :
    (new capacity subscriberCapacity clientBuffer).Kept :=
  ⟨Publisher.coherent_new capacity, fun _ => rfl, rfl⟩

theorem terminal_erring {w : World} {op : Op} (ht : w.bus.terminal = w.publisher.lastError)
    (h : w.publisher.Erring (w.step op).publisher (w.publisher.calls (w.publisherOps op))) :
    (w.step op).bus.terminal = (w.step op).publisher.lastError := by
  have hreaders : ∀ o ∈ w.readerOps op, o.error? = none := fun o ho => (readerOps_silent ho).2.1
  generalize hcalls : w.publisher.calls (w.publisherOps op) = calls at h
  rw [bus_step, busOps, hcalls]
  cases h with
  | keep he hc =>
    have hno : ∀ o ∈ calls.map BusCall.op ++ w.readerOps op, o.error? = none := by
      intro o ho
      rcases List.mem_append.mp ho with ho | ho
      · obtain ⟨call, hm, rfl⟩ := List.mem_map.mp ho
        cases call with
        | publish block => rfl
        | fail e => exact absurd hm (hc e)
      · exact hreaders o ho
    rw [Bus.terminal_after_of_no_fail _ hno, ht, he]
  | halt e hn he =>
    have hfail : (w.bus.step (.fail e)).terminal = some e := by
      simp [Bus.step, Bus.fail, ht, hn]
    show ((w.bus.step (.fail e)).after (w.readerOps op)).terminal = _
    rw [Bus.terminal_after_of_no_fail _ hreaders, hfail, he]

theorem Kept.step {w : World} (h : w.Kept) (op : Op) : (w.step op).Kept :=
  ⟨h.coherent.move (w.publisher_move op), h.equipped.move (w.publisher_move op),
    terminal_erring h.terminal (h.coherent.erring (w.publisher_move op))⟩

theorem Kept.after {w : World} (h : w.Kept) (ops : List Op) : (w.after ops).Kept :=
  Run.after_induction (fun _ op hw => hw.step op) h ops

/-- The publisher can be started as long as it is idle, and only then. -/
theorem Kept.run_iff {w : World} (h : w.Kept) : (∃ w', w.run = .ok w') ↔ w.publisher.state = .idle := by
  rw [World.run]
  rcases w.publisher.run_cases with ⟨e, he⟩ | ⟨hs, -, hq⟩
  · rw [he]
    refine ⟨by simp, fun hs => ?_⟩
    simp [Publisher.run, hs, h.equipped hs] at he
  · rw [hq]
    exact ⟨fun _ => hs, fun _ => ⟨_, rfl⟩⟩

/-- The state in which the publisher is started, if it is. -/
def startedFrom (w : World) : Op → List PublisherState
  | .run => match w.run with
    | .ok _ => [w.publisher.state]
    | .error _ => []
  | _ => []

abbrev starts (w : World) (ops : List Op) : List PublisherState := Run.output step startedFrom w ops

theorem Kept.startedFrom_cases {w : World} (h : w.Kept) (op : Op) : w.startedFrom op = [] ∨
    w.startedFrom op = [.idle] ∧ w.publisher.state = .idle ∧ (w.step op).publisher.state ≠ .idle := by
  cases op with
  | run =>
    rw [startedFrom]
    cases hr : w.run with
    | error e => exact .inl rfl
    | ok w' =>
      have hidle := h.run_iff.mp ⟨w', hr⟩
      refine .inr ⟨congrArg (fun s => [s]) hidle, hidle, ?_⟩
      have hstep : (w.step .run).publisher = w.publisher.step .run := publisher_step w .run
      simp [hstep, Publisher.step, Publisher.run, hidle, h.equipped hidle]
  | _ => exact .inl rfl

theorem starts_of_not_idle {w : World} (h : w.Kept) (hs : w.publisher.state ≠ .idle) (ops : List Op) :
    w.starts ops = [] := by
  induction ops generalizing w with
  | nil => rfl
  | cons op ops ih =>
    have hrest := ih (h.step op) ((w.publisher_move op).not_idle hs)
    rcases h.startedFrom_cases op with hnone | ⟨-, hidle, -⟩
    · rw [starts, Run.output_cons, hnone]
      exact hrest
    · exact absurd hidle hs

theorem Kept.starts_once {w : World} (h : w.Kept) (ops : List Op) :
    w.starts ops = [] ∨ w.starts ops = [.idle] := by
  induction ops generalizing w with
  | nil => exact .inl rfl
  | cons op ops ih =>
    rw [starts, Run.output_cons]
    rcases h.startedFrom_cases op with hnone | ⟨hone, -, hstarted⟩
    · rw [hnone]
      exact ih (h.step op)
    · have hrest : Run.output World.step startedFrom (w.step op) ops = [] :=
        starts_of_not_idle (h.step op) hstarted ops
      rw [hone, hrest]
      exact .inr rfl

theorem Kept.lastError_after {w : World} (h : w.Kept) {e : FeedError}
    (he : w.publisher.lastError = some e) (ops : List Op) :
    (w.after ops).publisher.lastError = some e := by
  induction ops generalizing w with
  | nil => exact he
  | cons op ops ih => exact ih (h.step op) ((h.coherent.erring (w.publisher_move op)).stands he)

theorem finished_after {w : World} (h : w.publisher.finished = true) (ops : List Op) :
    (w.after ops).publisher.finished = true :=
  Run.after_induction (P := fun w : World => w.publisher.finished = true)
    (fun w op hf => (w.publisher_move op).finished hf) h ops

/-- The state of the publisher only moves forward, whatever is done with the feed; it is started at most once,
when it is idle. It has an error exactly if it has told the bus of it; the error is that of the bus, stands
for good, and the publisher has stopped. A call of `stop` returns once the publisher has `finished`, and from
then on it stays stopped and its delivery task does nothing. -/
theorem lifecycle (capacity subscriberCapacity clientBuffer : Nat) (ops : List Op) :
    let start := new capacity subscriberCapacity clientBuffer
    let w := start.after ops
    let p := w.publisher
    (∀ op, (w.step op).publisher.state = p.state ∨ p.state.Edge (w.step op).publisher.state) ∧
    (start.starts ops = [] ∨ start.starts ops = [.idle]) ∧
    ((∃ w', w.run = .ok w') ↔ p.state = .idle) ∧ (p.state = .idle → p.receiver = true) ∧
    (∀ e, p.lastError = some e ↔ .fail e ∈ start.calls ops) ∧
    (∀ e, p.lastError = some e → p.state = .stopped ∧
      ∀ rest, (w.after rest).publisher.lastError = some e) ∧
    w.bus.terminal = p.lastError ∧
    (p.finished = true → ∀ rest, let q := (w.after rest).publisher
      q.state = .stopped ∧ q.finished = true ∧ q.deliver = (q, none)) := by
  intro start w p
  have hnew : start.Kept := kept_new capacity subscriberCapacity clientBuffer
  have hkept : w.Kept := hnew.after ops
  refine ⟨fun op => hkept.coherent.edge (w.publisher_move op), hnew.starts_once ops, hkept.run_iff,
    hkept.equipped, ?_, ?_, hkept.terminal, ?_⟩
  · intro e
    obtain ⟨done, rest, haccount⟩ := exists_account capacity subscriberCapacity clientBuffer ops
    rw [show start.calls ops = _ from haccount.called]
    simp [p, w, start]
  · intro e he
    have hne : p.lastError ≠ none := he ▸ Option.some_ne_none e
    exact ⟨hkept.coherent.stopped_of_error hne, fun rest => hkept.lastError_after he rest⟩
  · intro hf rest q
    have hq := (hkept.after rest).coherent
    have hfinished : q.finished = true := finished_after hf rest
    exact ⟨hq.stopped_of_finished hfinished, hfinished, hq.deliver_of_finished hfinished⟩

end BlockFeed.World
