import BlockFeed.Proofs.Bus.Operation

/-! Draining a subscription that has ended. Once nothing is queued for it any more and it is settled
whether an error comes last, what its reader gets depends on nothing but how often he reads. -/

namespace BlockFeed

def FeedMessage.received : FeedMessage → Received
  | .block b => .block b
  | .terminal e => .terminal e

/-- The first `n` readings of a queue that ends after `rest`. -/
def drained (rest : List Received) (n : Nat) : List Received :=
  (rest ++ List.replicate n Received.ended).take n

@[simp] theorem drained_zero (rest : List Received) : drained rest 0 = [] := by
  simp [drained]

theorem drained_succ (rest : List Received) (n : Nat) :
    drained rest (n + 1) = rest.headD .ended :: drained rest.tail n := by
  cases rest with
  | nil => simp [drained, List.replicate_succ]
  | cons r rest =>
    have hl : n ≤ (rest ++ List.replicate n Received.ended).length := by simp
    simp only [drained, List.cons_append, List.take_succ_cons, List.headD_cons, List.tail_cons]
    rw [List.replicate_succ', ← List.append_assoc, List.take_append_of_le_length hl]

namespace Subscription

/-- What an ended subscription still has for its reader, if the feed halted with `terminal`. -/
def remaining (terminal : Option FeedError) (s : Subscription) : List Received :=
  s.queue.map FeedMessage.received ++
    if s.seenTerminal || s.evicted || s.queue.any (·.block?.isNone) then []
    else (terminal.map Received.terminal).toList

theorem recv_of_ended {s : Subscription} (h : s.registered = false) (terminal : Option FeedError) :
    (s.recv terminal).1 = (s.remaining terminal).headD .ended ∧
      (s.recv terminal).2.remaining terminal = (s.remaining terminal).tail := by
  obtain ⟨queue, registered, held, evicted, seenTerminal⟩ := s
  simp only at h
  subst h
  cases queue with
  | cons m rest => cases m <;> simp [recv, remaining, FeedMessage.received, FeedMessage.block?]
  | nil =>
    by_cases hs : (seenTerminal || evicted) = true
    · simp [recv, remaining, hs]
    · cases terminal <;> simp_all [recv, remaining]

theorem Live.map_received {capacity : Nat} {s : Subscription} (h : s.Live capacity) :
    s.queue.map FeedMessage.received = s.backlog.map .block := by
  rw [h.blocks, List.map_map]
  rfl

theorem Live.no_terminal {capacity : Nat} {s : Subscription} (h : s.Live capacity) :
    s.queue.any (·.block?.isNone) = false := by
  rw [h.blocks, List.any_map, List.any_eq_false]
  simp [FeedMessage.block?]

/-- All that is queued comes before the error: either the error found room behind it, or the reader
asks for it after the last block. -/
theorem Live.remaining_halt {capacity : Nat} {s : Subscription} (h : s.Live capacity)
    (hr : s.registered = true) (e : FeedError) :
    (s.halt capacity e).remaining (some e) = s.backlog.map .block ++ [.terminal e] := by
  have hq := h.map_received
  have hn := h.no_terminal
  by_cases hf : s.isFull capacity = true
  · have he : s.halt capacity e = { s with registered := false } := by simp [halt, hr, h.held, hf]
    rw [he]
    simp [remaining, hq, hn, h.kept, h.unhalted]
  · have he : s.halt capacity e =
        { s with registered := false, queue := s.queue ++ [.terminal e] } := by
      simp [halt, hr, h.held, hf]
    rw [he]
    simp [remaining, hq, FeedMessage.received, FeedMessage.block?]

theorem Live.remaining_evict {capacity : Nat} {s : Subscription} (h : s.Live capacity)
    (terminal : Option FeedError) :
    { s with registered := false, evicted := true : Subscription }.remaining terminal =
      s.backlog.map .block := by
  simp [remaining, h.map_received]

end Subscription

namespace Bus

def tell (id : Nat) (b : Bus) : Op → List Received
  | .recv i => if i = id then [(b.recv id).1] else []
  | _ => []

/-- What the reader of a subscription gets in the course of some operations. -/
abbrev received (b : Bus) (id : Nat) (ops : List Op) : List Received :=
  Run.output step (tell id) b ops

/-- A subscription has ended, and it is known whether an error comes last. -/
structure Settled (b : Bus) (s : Subscription) : Prop where
  ended : s.registered = false
  known : b.terminal.isSome = true ∨ s.evicted = true

theorem ended_effect {s : Subscription} (hr : s.registered = false) (b : Bus) (id : Nat) (op : Op) :
    (b.effect id s op).registered = false ∧ (b.effect id s op).evicted = s.evicted := by
  cases op with
  | publish block => simp [effect, Subscription.offer_of_unregistered hr, hr]
  | fail e => simp [effect, Subscription.halt_of_unregistered hr, hr]
  | subscribe => simp [effect, hr]
  | recv i =>
    simp only [effect]
    split <;> simp [hr]
  | unsubscribe i => simp [effect, Subscription.release_of_unregistered hr, hr]
  | drop i =>
    simp only [effect, Subscription.release_of_unregistered hr]
    split <;> simp [hr]
  | close => simp [effect, Subscription.release_of_unregistered hr, hr]

theorem terminal_after_of_no_fail {b : Bus} (ops : List Op) (h : ∀ op ∈ ops, op.error? = none) :
    (b.after ops).terminal = b.terminal := by
  induction ops generalizing b with
  | nil => rfl
  | cons op ops ih =>
    rw [after, Run.after_cons, ih fun op' hop => h op' (List.mem_cons_of_mem _ hop), terminal_step,
      h op List.mem_cons_self, Option.or_none]

theorem closed_after_of_not_mem {b : Bus} {ops : List Op} (h : .close ∉ ops) :
    (b.after ops).closed = b.closed := by
  induction ops generalizing b with
  | nil => rfl
  | cons op ops ih =>
    rw [List.mem_cons, not_or] at h
    rw [after, Run.after_cons, ih h.2, closed_step]
    simp [Ne.symm h.1]

theorem closeReason_of_evicted {b : Bus} {id : Nat} {s : Subscription}
    (hs : b.subscriptions[id]? = some s) (hr : s.registered = false) (he : s.evicted = true)
    (ops : List Op) : (b.after ops).closeReason id = .slowConsumer := by
  induction ops generalizing b s with
  | nil => simp [closeReason_eq hs, Subscription.closeReason, he]
  | cons op ops ih =>
    obtain ⟨hr', he'⟩ := ended_effect hr b id op
    exact ih (getElem?_step hs op) hr' (he'.trans he)

/-- Only its reader takes something out of a subscription that has ended. -/
theorem remaining_effect {s : Subscription} (hr : s.registered = false) (b : Bus) {id : Nat} {op : Op}
    (hop : op ≠ .recv id) (terminal : Option FeedError) :
    (b.effect id s op).remaining terminal = s.remaining terminal := by
  cases op with
  | publish block => simp [effect, Subscription.offer_of_unregistered hr]
  | fail e => simp [effect, Subscription.halt_of_unregistered hr]
  | subscribe => rfl
  | recv i =>
    have hi : i ≠ id := fun he => hop (by rw [he])
    simp [effect, hi]
  | unsubscribe i => simp [effect, Subscription.release_of_unregistered hr]
  | drop i =>
    simp only [effect, Subscription.release_of_unregistered hr]
    split <;> rfl
  | close => simp [effect, Subscription.release_of_unregistered hr]

theorem Settled.remaining_step {b : Bus} {s : Subscription} (h : b.Settled s) (op : Op) :
    s.remaining (b.step op).terminal = s.remaining b.terminal := by
  rw [terminal_step]
  rcases h.known with ht | he
  · rw [Option.or_of_isSome ht]
  · simp [Subscription.remaining, he]

theorem Settled.step {b : Bus} {s : Subscription} (h : b.Settled s) (id : Nat) (op : Op) :
    (b.step op).Settled (b.effect id s op) := by
  obtain ⟨hr, he⟩ := ended_effect h.ended b id op
  refine ⟨hr, ?_⟩
  rw [he, terminal_step, Option.isSome_or]
  exact h.known.imp (fun ht => by simp [ht]) fun he => he

/-- A settled subscription gives its reader what remains, and then nothing for ever. -/
theorem received_of_settled {b : Bus} {id : Nat} {s : Subscription}
    (hs : b.subscriptions[id]? = some s) (h : b.Settled s) (ops : List Op) :
    b.received id ops = drained (s.remaining b.terminal) (ops.count (.recv id)) := by
  induction ops generalizing b s with
  | nil => simp
  | cons op ops ih =>
    have hh := ih (getElem?_step hs op) (h.step id op)
    by_cases hop : op = .recv id
    · subst hop
      obtain ⟨hf, hr⟩ := Subscription.recv_of_ended h.ended b.terminal
      have ht : (b.step (.recv id)).terminal = b.terminal := by simp [Op.error?]
      simp only [received, Run.output_cons, List.count_cons_self, drained_succ] at hh ⊢
      rw [hh, ht]
      simp [tell, recv_fst hs, hf, Bus.effect, hr]
    · have htell : tell id b op = [] := by
        cases op with
        | recv i =>
          have hi : i ≠ id := fun he => hop (by rw [he])
          simp [tell, hi]
        | _ => rfl
      rw [remaining_effect h.ended b hop, h.remaining_step] at hh
      rw [List.count_cons_of_ne hop]
      simpa [htell] using hh

end Bus

end BlockFeed
