import BlockFeed.Proofs.World.Ending

/-! The graceful shutdown. The publisher drains its queue, then the bus is closed: every client that
keeps up and stays gets all that was accepted since it came, and is told that the service is gone. -/

namespace BlockFeed

/-- The response to a batch, seen through a filter. -/
def StreamFilter.response? (f : StreamFilter) (batch : Batch) : Option Response :=
  match Block.ofBatch batch with
  | .error _ => none
  | .ok block => match block.select f with
    | .error _ => none
    | .ok selection => some (Response.ofSelection selection)

theorem exists_responses (f : StreamFilter) {batches : List Batch} {blocks : List Block}
    (h : batches.map Block.ofBatch = blocks.map .ok) :
    ∃ responses : List Response, responses.map some = batches.map f.response? ∧
      blocks.map (Session.itemFor f) = responses.map .ok ∧
      responses.map Response.height = blocks.map Block.height := by
  induction blocks generalizing batches with
  | nil =>
    have hnil : batches = [] := List.map_eq_nil_iff.mp h
    exact ⟨[], by simp [hnil], rfl, rfl⟩
  | cons block blocks ih =>
    cases batches with
    | nil => cases h
    | cons batch batches =>
      obtain ⟨hb, hrest⟩ := List.cons.inj h
      obtain ⟨responses, hsome, hitems, hheights⟩ := ih hrest
      obtain ⟨selection, hs, hheight⟩ := Block.select_ofBatch hb f
      refine ⟨Response.ofSelection selection :: responses, ?_, ?_, ?_⟩
      · simp [StreamFilter.response?, hb, hs, hsome]
      · simp [Session.itemFor, hs, hitems]
      · rw [List.map_cons, List.map_cons, hheights]
        exact congrArg (· :: _) hheight

namespace World

/-- The publisher was started in the course of the operations. -/
def Ran (w : World) (ops : List Op) : Prop :=
  ∃ before rest later, ops = before ++ .run :: rest ∧ (w.after before).run = .ok later

theorem Ran.publisher {w : World} {ops : List Op} (h : w.Ran ops) :
    w.publisher.Ran (Run.output step publisherOps w ops) := by
  obtain ⟨before, rest, later, rfl, hrun⟩ := h
  rw [Run.output_append, Run.output_cons]
  rw [World.run] at hrun
  rw [publisher_after] at hrun
  cases hp : (w.publisher.after (Run.output step publisherOps w before)).run with
  | ok q => exact ⟨_, _, q, rfl, hp⟩
  | error e =>
    rw [hp] at hrun
    cases hrun

/-- A client has opened a stream, and the publisher has been started and has stopped without an error
while the bus was open. The stream has kept up, and nobody else has taken it off the register. -/
structure Drained (w : World) (before : List Op) (r : Request) (client : Nat) (during : List Op) :
    Prop where
  opened : ∃ later, (w.after before).accept r = .ok (client, later)
  unclosed : ∀ op ∈ before ++ .accept r :: during, op.closes = false
  stays : ∀ op ∈ during,
    op ≠ .hangUp client ∧ op ≠ .unsubscribe (w.after before).bus.subscriptions.length
  kept : (w.after (before ++ .accept r :: during)).bus.closeReason
    (w.after before).bus.subscriptions.length = .shutdown
  ran : w.Ran (before ++ .accept r :: during)
  finished : (w.after (before ++ .accept r :: during)).publisher.finished = true
  unfailed : (w.after (before ++ .accept r :: during)).publisher.lastError = none

section

variable {capacity subscriberCapacity clientBuffer : Nat} {before during : List Op} {r : Request}
  {client : Nat}

theorem Drained.no_fail
    (h : (new capacity subscriberCapacity clientBuffer).Drained before r client during) (e : FeedError) :
    .fail e ∉ (new capacity subscriberCapacity clientBuffer).calls (before ++ .accept r :: during) := by
  obtain ⟨done, rest, ha⟩ := exists_account capacity subscriberCapacity clientBuffer
    (before ++ .accept r :: during)
  rw [ha.called, h.unfailed]
  simp

theorem Drained.not_over
    (h : (new capacity subscriberCapacity clientBuffer).Drained before r client during) :
    ((new capacity subscriberCapacity clientBuffer).after (before ++ .accept r :: during)).bus.isOver =
      false := by
  rw [Bus.isOver, closed_after h.unclosed, terminal_after h.no_fail]
  rfl

theorem Drained.streams
    (h : (new capacity subscriberCapacity clientBuffer).Drained before r client during) :
    let w := (new capacity subscriberCapacity clientBuffer).after before
    ∃ s t, StreamFilter.ofRequest r.markets r.subaccounts = .ok s.filter ∧
      s.subscription = w.bus.subscriptions.length ∧ (w.step (.accept r)).Streams client s t ∧
      t.registered = true ∧ s.outlook t = [] := by
  intro w
  obtain ⟨later, haccept⟩ := h.opened
  apply Streams.opened haccept
  have hcalls : ∀ e, .fail e ∉ (new capacity subscriberCapacity clientBuffer).calls before := by
    intro e hm
    apply h.no_fail e
    rw [calls, Run.output_append]
    exact List.mem_append_left _ hm
  exact terminal_after hcalls

theorem Drained.quiet
    (h : (new capacity subscriberCapacity clientBuffer).Drained before r client during) :
    ((new capacity subscriberCapacity clientBuffer).after (before ++ .accept r :: during)).Quiet := by
  have hc := (Publisher.coherent_new capacity).after
    (Run.output step publisherOps (new capacity subscriberCapacity clientBuffer)
      (before ++ .accept r :: during))
  have hp := publisher_after (new capacity subscriberCapacity clientBuffer)
    (before ++ .accept r :: during)
  refine ⟨?_, ?_, ?_⟩
  · rw [hp]
    exact hc
  · rw [hp]
    apply hc.stopped_of_finished
    have hf := h.finished
    rw [hp] at hf
    exact hf
  · exact terminal_after h.no_fail

/-- All that was accepted has been handed over. -/
theorem Drained.complete
    (h : (new capacity subscriberCapacity clientBuffer).Drained before r client during) :
    let w := new capacity subscriberCapacity clientBuffer
    (w.accepted (before ++ .accept r :: during)).map Block.ofBatch =
      (Bus.handedIn (w.log (before ++ .accept r :: during))).map .ok := by
  intro w
  obtain ⟨done, rest, ha⟩ := exists_account capacity subscriberCapacity clientBuffer
    (before ++ .accept r :: during)
  have hstarted := h.ran.publisher.started
  rw [← publisher_after] at hstarted
  have hrest := ha.rest_eq_nil h.quiet.coherent hstarted h.finished h.unfailed
  rw [← ha.published, ha.split, hrest, List.append_nil]

theorem handedIn_accept (w : World) (before : List Op) (r : Request) (during : List Op) :
    Bus.handedIn (w.log (before ++ .accept r :: during)) = Bus.handedIn (w.log before) ++
      Bus.handedIn (((w.after before).step (.accept r)).log during) := by
  have hnone : (w.after before).handed (.accept r) = [] := by
    rw [handed_eq]
    rfl
  rw [handed] at hnone
  rw [log, Run.output_append, Run.output_cons, Bus.handedIn_append, Bus.handedIn_append, hnone]
  rfl

/-- What had not been handed over when the stream was opened has been handed over since. -/
theorem Drained.unpublished
    (h : (new capacity subscriberCapacity clientBuffer).Drained before r client during) :
    let w := new capacity subscriberCapacity clientBuffer
    ((w.accepted (before ++ .accept r :: during)).drop
      (Bus.handedIn (w.log before)).length).map Block.ofBatch =
      (Bus.handedIn (((w.after before).step (.accept r)).log during)).map .ok := by
  intro w
  rw [List.map_drop, h.complete, handedIn_accept, List.map_append]
  exact List.drop_left' (List.length_map _)

/-- When the publisher has stopped, what the client has read and what lies ahead of it are all the
blocks that have been handed over since the stream was opened. -/
theorem Drained.caught_up
    (h : (new capacity subscriberCapacity clientBuffer).Drained before r client during) :
    let w := (new capacity subscriberCapacity clientBuffer).after before
    let opened := w.step (.accept r)
    ∃ s t, StreamFilter.ofRequest r.markets r.subaccounts = .ok s.filter ∧
      s.subscription = w.bus.subscriptions.length ∧ t.registered = true ∧
      (opened.after during).Streams client s t ∧
      opened.heard client during ++ (s.outlook t).map .item =
        ((Bus.handedIn (opened.log during)).map (Session.itemFor s.filter)).map .item := by
  intro w opened
  obtain ⟨s, t, hfilter, hsub, hstreams, hr, hout⟩ := h.streams
  have hw : opened.Separate :=
    ((separate_new capacity subscriberCapacity clientBuffer).after before).step (.accept r)
  have hb : opened.bus.Sound := by
    rw [bus_step, bus_after]
    exact ((Bus.sound_new subscriberCapacity).after _).after _
  have hend : (new capacity subscriberCapacity clientBuffer).after (before ++ .accept r :: during) =
      opened.after during := Run.after_append _ _ _ _
  have hover := h.not_over
  have hkept := h.kept
  rw [hend] at hover hkept
  rw [← hsub] at hkept
  have hstays : ∀ op ∈ during, op ≠ .hangUp client ∧ op ≠ .unsubscribe s.subscription := by
    rw [hsub]
    exact h.stays
  have hpaired : ∀ b ∈ Bus.handedIn (opened.log during), b.Paired := by
    intro b hm
    apply handedIn_paired capacity subscriberCapacity clientBuffer (before ++ .accept r :: during)
    rw [handedIn_accept]
    exact List.mem_append_right _ hm
  obtain ⟨s', t', hstreams', hr', hfilter', hsub', hacc⟩ :=
    hstreams.live_run hw hb hr hstays hover hkept hpaired
  rw [hout, List.nil_append, ← hfilter'] at hacc
  exact ⟨s', t', hfilter'.symm ▸ hfilter, hsub'.trans hsub, hr', hstreams', hacc⟩

end

/-- A client that keeps up and stays gets a response for every batch not yet published when it came,
one `unavailable`, and the end: never anything else, and all of it if it reads on for `n` rounds after
the bus has been closed, whatever is done in between. -/
theorem graceful_shutdown {capacity subscriberCapacity clientBuffer : Nat} {before during : List Op}
    {r : Request} {client : Nat} {closing : Op}
    (h : (new capacity subscriberCapacity clientBuffer).Drained before r client during)
    (hclosing : closing.closes = true) :
    let w := new capacity subscriberCapacity clientBuffer
    let subscription := (w.after before).bus.subscriptions.length
    let published := (Bus.handedIn (w.log before)).length
    ∃ (filter : StreamFilter) (n : Nat) (responses : List Response),
      StreamFilter.ofRequest r.markets r.subaccounts = .ok filter ∧
      ∀ after : List Op, (∀ op ∈ after, op ≠ .hangUp client ∧ op ≠ .unsubscribe subscription) →
        let ops := before ++ .accept r :: during ++ closing :: after
        let heard := ((w.after before).step (.accept r)).heard client (during ++ closing :: after)
        let items : List Item :=
          responses.map .ok ++ [.error (.new .unavailable Service.shutdownMessage)]
        responses.map some = ((w.accepted ops).drop published).map filter.response? ∧
        heard <+: items.map .item ++ List.replicate after.length .ended ∧
        ((rounds client n).Sublist after →
          ∃ k, heard = items.map .item ++ List.replicate (k + 1) .ended) ∧
        (∀ response, responses.getLast? = some response →
          response.height = (w.after ops).publisher.latestHeight) := by
  intro w subscription published
  obtain ⟨s, t, hfilter, hsub, hr, hstreams, hacc⟩ := h.caught_up
  obtain ⟨responses, hsome, hitems, hheights⟩ := exists_responses s.filter h.unpublished
  have hend : w.after (before ++ .accept r :: during) =
      ((w.after before).step (.accept r)).after during := Run.after_append _ _ _ _
  have hq : (((w.after before).step (.accept r)).after during).Quiet := hend ▸ h.quiet
  have hopen : (((w.after before).step (.accept r)).after during).bus.closed = false := by
    rw [← hend, closed_after h.unclosed]
    rfl
  have hsep : (((w.after before).step (.accept r)).after during).Separate :=
    (((separate_new capacity subscriberCapacity clientBuffer).after before).step _).after during
  refine ⟨s.filter, s.effort t.release + 1, responses, hfilter, ?_⟩
  intro after hafter ops heard items
  rw [show subscription = s.subscription from hsub.symm] at hafter
  obtain ⟨hlast, hended⟩ := hstreams.read_on hsep hq hr hopen hclosing hafter
  have hheard : heard = ((w.after before).step (.accept r)).heard client during ++
      (((w.after before).step (.accept r)).after during).heard client (closing :: after) :=
    Run.output_append _ _ _ _ _
  have hahead : ((w.after before).step (.accept r)).heard client during ++
      (s.outlook t ++ [Except.error (Service.endOf .shutdown)]).map .item = items.map .item := by
    rw [List.map_append, ← List.append_assoc, hacc, hitems, ← List.map_append]
    rfl
  have hprefix : heard <+: items.map .item ++ List.replicate after.length .ended := by
    rw [hheard, ← hahead, List.append_assoc, List.prefix_append_right_inj]
    exact hlast
  refine ⟨?_, hprefix, ?_, ?_⟩
  · rw [accepted_append, hend, (hq.silent (closing :: after)).1, List.append_nil]
    exact hsome
  · intro hrounds
    have hmem : .ended ∈ heard := by
      rw [hheard]
      exact List.mem_append_right _ (hended hrounds)
    exact eq_append_replicate hprefix hmem (by simp)
  · intro response hresponse
    obtain ⟨done, rest, ha⟩ := exists_account capacity subscriberCapacity clientBuffer ops
    have hhanded : Bus.handedIn (w.log ops) = Bus.handedIn (w.log before) ++
        Bus.handedIn (((w.after before).step (.accept r)).log during) := by
      rw [log_append, Bus.handedIn_append, hend, (hq.silent (closing :: after)).2, List.append_nil,
        handedIn_accept]
    have hmap := congrArg List.getLast? hheights
    rw [List.getLast?_map, List.getLast?_map, hresponse, Option.map_some] at hmap
    obtain ⟨block, hblock, hheight⟩ := Option.map_eq_some_iff.mp hmap.symm
    rw [ha.height, hhanded, List.getLast?_append, hblock]
    exact hheight.symm

/-- With room for one block in every queue, two blocks are on their way when the service stops. -/
theorem graceful_shutdown_full_queues :
    let w := new 2 1 1
    let during : List Op := [.submit ⟨1, []⟩, .submit ⟨2, []⟩, .stop, .task .delivery,
      .task .delivery, .task (.session 0), .task .delivery, .task .delivery]
    w.Drained [.run] ⟨[], []⟩ 0 during ∧
      ∃ n r r', r.height = 1 ∧ r'.height = 2 ∧ ∀ after : List Op,
        (∀ op ∈ after, op ≠ .hangUp 0 ∧ op ≠ .unsubscribe 0) → (rounds 0 n).Sublist after →
        ∃ k, ((w.after [.run]).step (.accept ⟨[], []⟩)).heard 0 (during ++ .shutDown :: after) =
          [.item (.ok r), .item (.ok r'),
            .item (.error (.new .unavailable Service.shutdownMessage))] ++
          List.replicate (k + 1) .ended := by
  intro w during
  have hdrained : w.Drained [.run] ⟨[], []⟩ 0 during :=
    { opened := ⟨_, rfl⟩
      unclosed := by decide
      stays := by simp [during]
      kept := by decide +kernel
      ran := ⟨[], _, _, rfl, rfl⟩
      finished := by decide +kernel
      unfailed := by decide +kernel }
  refine ⟨hdrained, ?_⟩
  obtain ⟨filter, n, responses, hfilter, hall⟩ :=
    graceful_shutdown hdrained (show Op.shutDown.closes = true from rfl)
  have hresponses := (hall [] nofun).1
  have hbatches : (w.accepted ([.run] ++ .accept ⟨[], []⟩ :: during ++ [.shutDown])).drop
      (Bus.handedIn (w.log [.run])).length = [⟨1, []⟩, ⟨2, []⟩] := by decide +kernel
  rw [hbatches] at hresponses
  have hall' : filter = .all := by cases hfilter; rfl
  subst hall'
  rcases responses with _ | ⟨r, _ | ⟨r', _ | ⟨r'', rest⟩⟩⟩
  · cases hresponses
  · cases hresponses
  · simp only [List.map_cons, List.map_nil, List.cons.injEq, and_true] at hresponses
    obtain ⟨hr, hr'⟩ := hresponses
    refine ⟨n, r, r', ?_, ?_, ?_⟩
    · cases hr
      rfl
    · cases hr'
      rfl
    · intro after hafter hrounds
      exact (hall after hafter).2.2.1 hrounds
  · cases hresponses

end World

end BlockFeed
