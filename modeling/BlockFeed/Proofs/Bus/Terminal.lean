import BlockFeed.Proofs.Bus.Drain

/-! The terminal error. It comes after every block, to everybody who is still registered when the
feed halts and to everybody who comes later, and it comes once. -/

namespace BlockFeed.Bus

theorem step_fail_of_halted {b : Bus} (h : b.terminal.isSome = true) (e : FeedError) :
    b.step (.fail e) = b := by
  simp [step, fail, h]

theorem terminal_after_of_halted {b : Bus} {e : FeedError} (h : b.terminal = some e)
    (ops : List Op) : (b.after ops).terminal = some e :=
  Run.after_induction (P := fun c : Bus => c.terminal = some e) (fun c op hc => by simp [hc]) h ops

theorem received_filter_of_halted {b : Bus} (h : b.terminal.isSome = true) (id : Nat)
    (ops : List Op) :
    b.received id (ops.filter (·.error?.isNone)) = b.received id ops := by
  induction ops generalizing b with
  | nil => rfl
  | cons op ops ih =>
    have hh : (b.step op).terminal.isSome = true := by simp [h]
    cases hop : op.error? with
    | none => simp [received, hop, ih hh]
    | some e =>
      cases op with
      | fail e' =>
        rw [step_fail_of_halted h] at hh
        simpa [received, hop, tell, step_fail_of_halted h] using ih hh
      | _ => simp [Op.error?] at hop

theorem subscribe_of_halted {b later : Bus} {e : FeedError} {id : Nat}
    (ht : b.terminal = some e) (h : b.subscribe = .ok (id, later)) :
    later.subscriptions[id]? = some (.halted e) ∧ later.terminal = some e := by
  rw [subscribe] at h
  split at h
  · cases h
  · simp only [ht, Except.ok.injEq, Prod.mk.injEq] at h
    obtain ⟨rfl, rfl⟩ := h
    simp

/-- The blocks queued when the feed halts and then the error, once, whatever else is done with the
bus meanwhile. Whoever subscribes later gets the error alone, no later error is heard of, and a
queue that was full when a block came ends without any. -/
theorem terminal_once_after_blocks (capacity : Nat) (before after : List Op) (e : FeedError)
    (hfirst : ∀ op ∈ before, op.error? = none) :
    let b := (new capacity).after before
    let halted := b.step (.fail e)
    (∀ id s, b.subscriptions[id]? = some s → s.registered = true →
      halted.received id after =
        drained (s.backlog.map .block ++ [.terminal e]) (after.count (.recv id))) ∧
    (∀ mid rest id later, after = mid ++ .subscribe :: rest →
      (halted.after mid).subscribe = .ok (id, later) →
      later.received id rest = drained [.terminal e] (rest.count (.recv id))) ∧
    (∀ id, halted.received id (after.filter (·.error?.isNone)) = halted.received id after) ∧
    (∀ mid block rest id s, ((new capacity).after mid).subscriptions[id]? = some s →
      s.registered = true → s.isFull (capacityFor capacity) = true →
      let evicted := ((new capacity).after mid).step (.publish block)
      evicted.received id rest = drained (s.backlog.map .block) (rest.count (.recv id)) ∧
        (evicted.after rest).closeReason id = .slowConsumer) := by
  intro b halted
  have hb : b.Sound := (sound_new capacity).after before
  have hnone : b.terminal = none := terminal_after_of_no_fail before hfirst
  have hhalt : halted.terminal = some e := by simp [halted, hnone, Op.error?]
  refine ⟨?_, ?_, ?_, ?_⟩
  · intro id s hs hr
    have hl := (hb id s hs hr).1
    have he : b.effect id s (.fail e) = s.halt b.capacity e := by simp [effect, hnone]
    have hset : halted.Settled (s.halt b.capacity e) :=
      ⟨Subscription.registered_halt _ _ _, Or.inl (by simp [hhalt])⟩
    have hh := getElem?_step hs (.fail e)
    rw [he] at hh
    rw [received_of_settled hh hset, hhalt, hl.remaining_halt hr]
  · intro mid rest id later _ hsub
    have ht := terminal_after_of_halted hhalt mid
    obtain ⟨hs, hlater⟩ := subscribe_of_halted ht hsub
    have hset : later.Settled (.halted e) := ⟨rfl, Or.inl (by simp [hlater])⟩
    rw [received_of_settled hs hset, hlater]
    rfl
  · intro id
    exact received_filter_of_halted (by simp [hhalt]) id after
  · intro mid block rest id s hs hr hf
    have hc : ((new capacity).after mid).Sound := (sound_new capacity).after mid
    obtain ⟨hl, ho⟩ := hc id s hs hr
    have hcap : ((new capacity).after mid).capacity = capacityFor capacity := capacity_after _ mid
    rw [hcap] at hl
    have he : ((new capacity).after mid).effect id s (.publish block) =
        { s with registered := false, evicted := true } := by
      simp only [effect, ho, hcap, Subscription.offer_of_live hl hr, hf, if_true]
      rfl
    have hh := getElem?_step hs (.publish block)
    rw [he] at hh
    refine ⟨?_, closeReason_of_evicted hh rfl rfl rest⟩
    rw [received_of_settled hh ⟨rfl, Or.inr rfl⟩, hl.remaining_evict]

/-- Behind queues of length one, the first subscription is evicted by the second block, the second
one is full when the feed halts, and the third one comes afterwards. -/
theorem terminal_once_after_blocks_full_queue :
    let first := Block.empty 1
    let second := Block.empty 2
    let before : List Op := [.subscribe, .subscribe, .publish first, .recv 1, .publish second]
    let rest : List Op := [.close, .recv 1, .recv 2, .fail (.decode 3 (.unexpectedTopic "")), .recv 1,
      .recv 0, .recv 2, .recv 1, .recv 0]
    let b := (new 1).after before
    let halted := b.step (.fail .bufferOverflow)
    (∀ op ∈ before, op.error? = none) ∧
      halted.received 1 (.subscribe :: rest) = [.block second, .terminal .bufferOverflow, .ended] ∧
      (halted.step .subscribe).received 2 rest = [.terminal .bufferOverflow, .ended] ∧
      b.received 0 (.fail .bufferOverflow :: .subscribe :: rest) = [.block first, .ended] := by
  intro first second before rest b halted
  have hfirst : ∀ op ∈ before, op.error? = none := by simp [before, Op.error?]
  obtain ⟨hqueued, hlate, _, hevicted⟩ :=
    terminal_once_after_blocks 1 before (.subscribe :: rest) .bufferOverflow hfirst
  refine ⟨hfirst, ?_, ?_, ?_⟩
  · exact hqueued 1 ⟨[.block second], true, true, false, false⟩ rfl rfl
  · exact hlate [] rest 2 (halted.step .subscribe) rfl rfl
  · exact (hevicted [.subscribe, .subscribe, .publish first, .recv 1] second
      (.fail .bufferOverflow :: .subscribe :: rest) 0 ⟨[.block first], true, true, false, false⟩
      rfl rfl rfl).1

end BlockFeed.Bus
