import BlockFeed.Proofs.Bus.Drain

/-! The end of a closed bus. A reader gets what was queued when the bus was closed. An error that
comes in later is still heard of by whoever has not come to the end of his queue. -/

namespace BlockFeed

theorem drained_append (blocks rest : List Received) (k n : Nat) :
    drained blocks k ++ drained (blocks.drop k ++ rest) n = drained blocks (k + n) ↔
      drained (blocks.drop k ++ rest) n = drained (blocks.drop k) n := by
  have hsplit : drained blocks (k + n) = drained blocks k ++ drained (blocks.drop k) n := by
    induction k generalizing blocks with
    | zero => simp
    | succ k ih =>
      have hk : k + 1 + n = k + n + 1 := by omega
      rw [hk, drained_succ, drained_succ, ih blocks.tail, List.drop_tail]
      rfl
  rw [hsplit, List.append_cancel_left_eq]

/-- What comes behind a queue is not heard of by one who reads no further than the queue. -/
theorem drained_append_error (blocks : List Received) (e : FeedError) (n : Nat) :
    drained (blocks ++ [.terminal e]) n = drained blocks n ↔ n ≤ blocks.length := by
  induction n generalizing blocks with
  | zero => simp
  | succ n ih =>
    rw [drained_succ, drained_succ]
    cases blocks with
    | nil => simp
    | cons r blocks =>
      have hh := ih blocks
      simp only [List.cons_append, List.headD_cons, List.tail_cons, List.cons.injEq, true_and,
        List.length_cons, hh]
      omega

namespace Subscription

/-- The queue has ended after some blocks, and no error has come yet. -/
structure Cut (s : Subscription) (blocks : List Block) : Prop where
  ended : s.registered = false
  kept : s.evicted = false
  unhalted : s.seenTerminal = false
  queued : s.queue = blocks.map .block

variable {s : Subscription} {blocks : List Block}

theorem Live.cut_release {capacity : Nat} (h : s.Live capacity) : s.release.Cut s.backlog :=
  ⟨rfl, h.kept, h.unhalted, h.blocks⟩

theorem Cut.recv (h : s.Cut blocks) :
    (s.recv none).1 = (blocks.map Received.block).headD .ended ∧
      (s.recv none).2.Cut blocks.tail := by
  cases blocks with
  | nil =>
    have hr : s.recv none = (.ended, s) := by simp [Subscription.recv, h.queued, h.ended]
    rw [hr]
    exact ⟨rfl, h⟩
  | cons b blocks =>
    have hr : s.recv none = (.block b, { s with queue := blocks.map .block }) := by
      simp [Subscription.recv, h.queued]
    rw [hr]
    exact ⟨rfl, h.ended, h.kept, h.unhalted, rfl⟩

theorem Cut.remaining (h : s.Cut blocks) (e : FeedError) :
    s.remaining (some e) = blocks.map Received.block ++ [.terminal e] := by
  have hblocks : s.queue.any (·.block?.isNone) = false := by
    simp [h.queued, FeedMessage.block?]
  have hreceived : s.queue.map FeedMessage.received = blocks.map Received.block := by
    rw [h.queued, List.map_map]
    rfl
  rw [Subscription.remaining, hreceived, hblocks, h.unhalted, h.kept]
  rfl

end Subscription

namespace Bus

theorem effect_cut {s : Subscription} {blocks : List Block} (h : s.Cut blocks) {b : Bus}
    (hb : b.terminal = none) (id : Nat) (op : Op) :
    (b.effect id s op).Cut (if op = .recv id then blocks.tail else blocks) := by
  cases op with
  | publish block => simpa [effect, Subscription.offer_of_unregistered h.ended] using h
  | fail e => simpa [effect, Subscription.halt_of_unregistered h.ended] using h
  | subscribe => exact h
  | close => simpa [effect, Subscription.release_of_unregistered h.ended] using h
  | unsubscribe i => simpa [effect, Subscription.release_of_unregistered h.ended] using h
  | drop i =>
    simp only [effect, Subscription.release_of_unregistered h.ended]
    split
    · exact { h with }
    · exact h
  | recv i =>
    by_cases hi : i = id
    · subst hi
      simpa [effect, hb] using h.recv.2
    · simpa [effect, hi] using h

/-- As long as no error comes, the reader gets the blocks one by one and then nothing. -/
theorem received_of_cut {b : Bus} {id : Nat} {s : Subscription} {blocks : List Block}
    (hs : b.subscriptions[id]? = some s) (h : s.Cut blocks) (hb : b.terminal = none)
    {ops : List Op} (hops : ∀ op ∈ ops, op.error? = none) :
    b.received id ops = drained (blocks.map .block) (ops.count (.recv id)) ∧
      ∃ t, (b.after ops).subscriptions[id]? = some t ∧
        t.Cut (blocks.drop (ops.count (.recv id))) := by
  induction ops generalizing b s blocks with
  | nil => exact ⟨by simp, s, hs, h⟩
  | cons op ops ih =>
    have hnone : op.error? = none := hops op List.mem_cons_self
    have hterm : (b.step op).terminal = none := by simp [hb, hnone]
    obtain ⟨hreceived, t, ht, hcut⟩ := ih (getElem?_step hs op) (effect_cut h hb id op) hterm
      fun op' hop => hops op' (List.mem_cons_of_mem _ hop)
    by_cases hop : op = .recv id
    · subst hop
      have htell : tell id b (.recv id) = [(blocks.map Received.block).headD .ended] := by
        simp [tell, recv_fst hs, hb, h.recv.1]
      rw [if_pos rfl] at hreceived hcut
      rw [List.map_tail] at hreceived
      rw [List.count_cons_self]
      refine ⟨?_, t, ht, ?_⟩
      · rw [drained_succ, received, Run.output_cons, htell, ← hreceived]
        rfl
      · rwa [List.drop_tail] at hcut
    · have htell : tell id b op = [] := by
        cases op with
        | recv i =>
          have hi : i ≠ id := fun he => hop (by rw [he])
          simp [tell, hi]
        | _ => rfl
      rw [if_neg hop] at hreceived hcut
      rw [List.count_cons_of_ne hop]
      refine ⟨?_, t, ht, hcut⟩
      rw [received, Run.output_cons, htell]
      exact hreceived

theorem received_of_cut_fail {b : Bus} {id : Nat} {s : Subscription} {blocks : List Block}
    (hs : b.subscriptions[id]? = some s) (h : s.Cut blocks) (hb : b.terminal = none)
    (e : FeedError) (ops : List Op) :
    b.received id (.fail e :: ops) =
      drained (blocks.map .block ++ [.terminal e]) (ops.count (.recv id)) := by
  have hfail : (b.step (.fail e)).terminal = some e := by simp [hb, Op.error?]
  have heffect : b.effect id s (.fail e) = s := by
    simp [effect, Subscription.halt_of_unregistered h.ended]
  have hs' := getElem?_step hs (.fail e)
  rw [heffect] at hs'
  have hset : (b.step (.fail e)).Settled s := ⟨h.ended, Or.inl (by rw [hfail]; rfl)⟩
  have hreceived := received_of_settled hs' hset ops
  rw [hfail, h.remaining] at hreceived
  rw [received, Run.output_cons]
  exact hreceived

theorem received_across_fail {b : Bus} {id : Nat} {s : Subscription} {blocks : List Block}
    (hs : b.subscriptions[id]? = some s) (h : s.Cut blocks) (hb : b.terminal = none)
    {mid : List Op} (hmid : ∀ op ∈ mid, op.error? = none) (e : FeedError) (rest : List Op) :
    b.received id (mid ++ .fail e :: rest) =
      drained (blocks.map .block) (mid.count (.recv id)) ++
        drained ((blocks.map .block).drop (mid.count (.recv id)) ++ [.terminal e])
          (rest.count (.recv id)) := by
  obtain ⟨hreceived, t, ht, hcut⟩ := received_of_cut hs h hb hmid
  have hterm : (b.after mid).terminal = none := by
    rw [terminal_after_of_no_fail mid hmid, hb]
  have hrest := received_of_cut_fail ht hcut hterm e rest
  rw [List.map_drop] at hrest
  rw [received, Run.output_append, ← hreceived, ← hrest]

theorem exists_first_fail (ops : List Op) : (∀ op ∈ ops, op.error? = none) ∨
    ∃ before e rest, ops = before ++ .fail e :: rest ∧ ∀ op ∈ before, op.error? = none := by
  induction ops with
  | nil => exact Or.inl nofun
  | cons op ops ih =>
    cases hop : op.error? with
    | some e =>
      cases op with
      | fail e' => exact Or.inr ⟨[], e', ops, rfl, nofun⟩
      | _ => cases hop
    | none =>
      rcases ih with hnone | ⟨before, e, rest, rfl, hbefore⟩
      · exact Or.inl (List.forall_mem_cons.mpr ⟨hop, hnone⟩)
      · exact Or.inr ⟨op :: before, e, rest, rfl, List.forall_mem_cons.mpr ⟨hop, hbefore⟩⟩

/-- After any other error no more is read than after the first. -/
theorem count_later_fail {before before' rest rest' : List Op} {e e' : FeedError}
    (h : before ++ .fail e :: rest = before' ++ .fail e' :: rest')
    (hbefore : ∀ op ∈ before, op.error? = none) (id : Nat) :
    ∃ n, before'.count (.recv id) = before.count (.recv id) + n ∧
      rest.count (.recv id) = n + rest'.count (.recv id) := by
  rcases List.append_eq_append_iff.mp h with ⟨between, rfl, hr⟩ | ⟨between, hb, hr⟩
  · have hcount := congrArg (List.count (Op.recv id)) hr
    refine ⟨between.count (.recv id), List.count_append, ?_⟩
    simpa [List.count_append] using hcount
  · cases between with
    | nil =>
      obtain ⟨-, rfl⟩ := List.cons.inj hr
      exact ⟨0, by simp [hb], (Nat.zero_add _).symm⟩
    | cons op between =>
      obtain ⟨rfl, _⟩ := List.cons.inj hr
      have hfail := hbefore (.fail e') (by simp [hb])
      cases hfail

theorem closeReason_of_kept {b : Bus} {id : Nat} {s : Subscription}
    (hs : b.subscriptions[id]? = some s) (hr : s.registered = false) (he : s.evicted = false)
    (ops : List Op) : (b.after ops).closeReason id = .shutdown := by
  induction ops generalizing b s with
  | nil => simp [closeReason_eq hs, Subscription.closeReason, he]
  | cons op ops ih =>
    obtain ⟨hr', he'⟩ := ended_effect hr b id op
    exact ih (getElem?_step hs op) hr' (he'.trans he)

/-- Who reads a closed bus gets what was queued and then nothing, exactly if after an error he reads no
further than his queue. Who does read on gets the error after the last block. -/
theorem closed_queue_drains {capacity : Nat} {before : List Op} {id : Nat} {s : Subscription}
    (hs : ((new capacity).after before).subscriptions[id]? = some s) (hr : s.registered = true)
    (after : List Op) :
    let closed := ((new capacity).after before).step .close
    let blocks := s.backlog.map Received.block
    (closed.after after).closeReason id = .shutdown ∧
    (closed.received id after = drained blocks (after.count (.recv id)) ↔
      ∀ mid e rest, after = mid ++ .fail e :: rest →
        rest.count (.recv id) ≤ blocks.length - mid.count (.recv id)) ∧
    (∀ mid e rest, after = mid ++ .fail e :: rest → (∀ op ∈ mid, op.error? = none) →
      closed.received id after = drained blocks (mid.count (.recv id)) ++
        drained (blocks.drop (mid.count (.recv id)) ++ [.terminal e]) (rest.count (.recv id))) := by
  intro closed blocks
  obtain ⟨hl, hover⟩ := (sound_new capacity).after before id s hs hr
  simp only [isOver, Bool.or_eq_false_iff, Option.isSome_eq_false_iff, Option.isNone_iff_eq_none]
    at hover
  obtain ⟨hopen, hunfailed⟩ := hover
  have hcut : s.release.Cut s.backlog := hl.cut_release
  have hclosed : closed.subscriptions[id]? = some s.release := by
    have he := getElem?_step hs .close
    simpa [effect, hopen] using he
  have hterm : closed.terminal = none := by simp [closed, hunfailed, Op.error?]
  have hfailed : ∀ mid e rest, after = mid ++ .fail e :: rest → (∀ op ∈ mid, op.error? = none) →
      closed.received id after = drained blocks (mid.count (.recv id)) ++
        drained (blocks.drop (mid.count (.recv id)) ++ [.terminal e]) (rest.count (.recv id)) := by
    rintro mid e rest rfl hmid
    exact received_across_fail hclosed hcut hterm hmid e rest
  refine ⟨closeReason_of_kept hclosed hcut.ended hcut.kept after, ?_, hfailed⟩
  rcases exists_first_fail after with hnone | ⟨mid, e, rest, hafter, hmid⟩
  · have hreceived := (received_of_cut hclosed hcut hterm hnone).1
    refine ⟨?_, fun _ => hreceived⟩
    rintro _ mid e rest rfl
    have hfail := hnone (.fail e) (by simp)
    cases hfail
  · rw [hfailed mid e rest hafter hmid]
    have hcount : after.count (.recv id) = mid.count (.recv id) + rest.count (.recv id) := by
      simp [hafter]
    rw [hcount, drained_append, drained_append_error, List.length_drop]
    refine ⟨?_, fun h => h mid e rest hafter⟩
    intro hfirst mid' e' rest' hafter'
    obtain ⟨n, hmid', hrest⟩ := count_later_fail (hafter.symm.trans hafter') hmid id
    omega

/-- Two errors come in after the closing, between two readings. -/
theorem closed_queue_drains_between_readings :
    let b := (new 1).after [.subscribe, .publish (.empty 7)]
    let s : Subscription := ⟨[.block (.empty 7)], true, true, false, false⟩
    let late : List Op := [.fail (.decode 8 (.unexpectedTopic "bogus")), .fail .bufferOverflow]
    b.subscriptions[0]? = some s ∧ s.registered = true ∧
      (b.step .close).received 0 ([.recv 0] ++ late ++ [.recv 0, .recv 0]) =
        [.block (.empty 7), .terminal (.decode 8 (.unexpectedTopic "bogus")), .ended] := by
  intro b s late
  have hs : b.subscriptions[0]? = some s := rfl
  have hr : s.registered = true := rfl
  obtain ⟨_, _, hfailed⟩ := closed_queue_drains hs hr ([.recv 0] ++ late ++ [.recv 0, .recv 0])
  exact ⟨hs, hr, hfailed [.recv 0] _ _ rfl (by simp [Op.error?])⟩

/-- The error of a block that failed after the closing reaches a reader whose queue had been closed. -/
theorem closed_queue_not_final :
    let b := (new 1).after [.subscribe, .publish (.empty 7)]
    b.subscriptions[0]? = some ⟨[.block (.empty 7)], true, true, false, false⟩ ∧
      (b.step .close).received 0
        [.fail (.decode 8 (.unexpectedTopic "bogus")), .recv 0, .recv 0, .recv 0] =
        [.block (.empty 7), .terminal (.decode 8 (.unexpectedTopic "bogus")), .ended] := by
  decide +kernel

end Bus

end BlockFeed
