import BlockFeed.Proofs.Service.Serving

/-! The stream of a client, from its request to its end: a response for every block its subscription
yields, then one status, then nothing. A client that reads on gets all of it. -/

namespace BlockFeed

open Grpc (Status)

/-- What a client is to be told of all that its subscription yields. -/
inductive Tells (filter : StreamFilter) (reason : CloseReason) : List Received → List Item → Prop where
  | start : Tells filter reason [] []
  | block {b : Block} {s : Selection} {received : List Received} {items : List Item}
      (h : b.select filter = .ok s) (hrest : Tells filter reason received items) :
      Tells filter reason (.block b :: received) (.ok (Response.ofSelection s) :: items)
  | terminal (e : FeedError) :
      Tells filter reason [.terminal e] [.error (.new .internal e.message)]
  | slowConsumer (h : reason = .slowConsumer) : Tells filter reason [.ended]
      [.error (.new .resourceExhausted Service.slowConsumerMessage)]
  | shutdown (h : reason = .shutdown) : Tells filter reason [.ended]
      [.error (.new .unavailable Service.shutdownMessage)]

namespace Session

theorem tells_ending (filter : StreamFilter) (reason : CloseReason) {ending : List Received}
    (h : ending = [] ∨ (∃ e, ending = [.terminal e]) ∨ ending = [.ended]) :
    Tells filter reason ending (ending.filterMap (itemOf filter reason)) := by
  rcases h with rfl | ⟨e, rfl⟩ | rfl
  · exact .start
  · exact .terminal e
  · cases reason with
    | slowConsumer => exact .slowConsumer rfl
    | shutdown => exact .shutdown rfl

theorem tells_blocks (filter : StreamFilter) (reason : CloseReason) {blocks : List Block}
    (hblocks : ∀ b ∈ blocks, b.Paired) {ending : List Received}
    (h : ending = [] ∨ (∃ e, ending = [.terminal e]) ∨ ending = [.ended]) :
    Tells filter reason (blocks.map Received.block ++ ending)
      ((blocks.map Received.block ++ ending).filterMap (itemOf filter reason)) := by
  induction blocks with
  | nil => exact tells_ending filter reason h
  | cons b blocks ih =>
    obtain ⟨selection, hs, -⟩ := (hblocks b List.mem_cons_self).select_ok filter
    have hitem : itemOf filter reason (.block b) = some (.ok (Response.ofSelection selection)) := by
      simp [itemOf, Service.phaseFor, hs, Phase.item?]
    rw [List.map_cons, List.cons_append, List.filterMap_cons_some hitem]
    exact .block hs (ih fun b' hb' => hblocks b' (List.mem_cons_of_mem _ hb'))

variable {s : Session} {t : Subscription} {received : List Received} {heard : List Service.Read}

theorem Told.tells (h : s.Told t received heard) :
    Tells s.filter t.closeReason received (received.filterMap (itemOf s.filter t.closeReason)) := by
  obtain ⟨blocks, hblocks, ⟨-, rfl⟩ | ⟨-, ⟨e, rfl⟩ | ⟨rfl, -⟩⟩⟩ := h.yielded
  · simpa using tells_blocks s.filter t.closeReason hblocks (Or.inl (Eq.refl []))
  · exact tells_blocks s.filter t.closeReason hblocks (Or.inr (Or.inl ⟨e, rfl⟩))
  · exact tells_blocks s.filter t.closeReason hblocks (Or.inr (Or.inr rfl))

/-- All that has been read is what the client is to be told, from the front; the end comes only after
a status. -/
theorem Told.heard_prefix (h : s.Told t received heard) :
    let items := received.filterMap (itemOf s.filter t.closeReason)
    heard <+: items.map .item ∨ (∃ status : Status, .error status ∈ items) ∧
      ∃ ends, heard = items.map .item ++ List.replicate ends .ended := by
  intro items
  obtain ⟨ends, heq, hends⟩ := h.heard
  by_cases hzero : ends = 0
  · left
    rw [hzero, List.replicate_zero, List.append_nil] at heq
    exact ⟨_, heq⟩
  · right
    obtain ⟨hd, hb⟩ := hends hzero
    have hnone : s.unread = [] := by simp [unread, hd, hb, Phase.item?]
    rw [hnone, List.map_nil, List.append_nil] at heq
    refine ⟨?_, ends, heq⟩
    obtain ⟨blocks, -, ⟨hg, -⟩ | ⟨-, ⟨e, rfl⟩ | ⟨rfl, -⟩⟩⟩ := h.yielded
    · rcases hg with hg | ⟨r, hg⟩ <;> rw [hd] at hg <;> cases hg
    · exact ⟨.new .internal e.message, List.mem_filterMap.mpr
        ⟨.terminal e, List.mem_append_right _ (List.mem_singleton.mpr rfl), rfl⟩⟩
    · exact ⟨Service.endOf t.closeReason, List.mem_filterMap.mpr
        ⟨.ended, List.mem_append_right _ (List.mem_singleton.mpr rfl), rfl⟩⟩

end Session

namespace Relay

theorem prefix_append {α : Type} {l heard unread heard' unread' : List α} (h : l <+: heard ++ unread)
    (h' : unread <+: heard' ++ unread') : l <+: (heard ++ heard') ++ unread' := by
  rw [List.append_assoc]
  exact h.trans ((List.prefix_append_right_inj heard).mpr h')

section Progress

variable {x : Relay} {op : Op} {client : Nat} {s s' : Session} {t t' : Subscription}
  {received : List Received} {heard : List Service.Read}

/-- What waits for the client is read from the front. -/
theorem Move.unread (h : x.Move op client s t s' t' received heard) :
    s.unread.map .item <+: heard ++ s'.unread.map .item := by
  cases h with
  | turn h hm =>
    cases hm with
    | receive hp => simp [Session.unread, hp, Session.Phase.item?]
    | send r hp hroom => simp [Session.unread, hp, Session.Phase.item?]
    | close status hp hroom => simp [Session.unread, hp, Session.Phase.item?]
    | wait hp hfull => exact List.prefix_rfl
  | read item rest h hb => simp [Session.unread, hb]
  | idle h hb =>
    by_cases hd : s.phase = .done
    · simp [Session.unread, hb, hd, Session.Phase.item?]
    · rw [if_neg hd]
      exact List.prefix_rfl
  | other => exact List.prefix_rfl

theorem Move.buffer (h : x.Move op client s t s' t' received heard) (hb : s.buffer ≠ []) :
    s'.buffer ≠ [] ∨ 0 < heard.length := by
  cases h with
  | turn h hm =>
    left
    cases hm with
    | receive hp => exact hb
    | send r hp hroom => simp
    | close status hp hroom => simp
    | wait hp hfull => exact hb
  | read item rest h hb' => exact Or.inr Nat.one_pos
  | idle h hb' => exact absurd hb' hb
  | other => exact Or.inl hb

theorem Move.effort (h : x.Move op client s t s' t' received heard) (hr : t.registered = false) :
    t'.registered = false ∧ (s'.effort t' < s.effort t ∨ s' = s ∧ t' = t) := by
  cases h with
  | turn h hm =>
    have heffort := hm.effort hr
    refine ⟨?_, heffort.imp_right fun hsame => ⟨hsame.1, hsame.2.1⟩⟩
    cases hm with
    | receive hp => rwa [Subscription.registered_recv]
    | send r hp hroom => exact hr
    | close status hp hroom => rfl
    | wait hp hfull => exact hr
  | read item rest h hb =>
    refine ⟨hr, Or.inl ?_⟩
    simp only [Session.effort, hb, List.length_cons]
    omega
  | idle h hb => exact ⟨hr, Or.inr ⟨rfl, rfl⟩⟩
  | other hturn hread hsame hpaired =>
    have ht := hsame hr
    exact ⟨ht ▸ hr, Or.inr ⟨rfl, ht⟩⟩

/-- Where a turn leaves the buffer empty, nothing was to be read before it. -/
theorem Move.unread_of_turn (h : x.Move (.turn client) client s t s' t' received heard)
    (hnil : s'.buffer = []) : s.unread = [] := by
  cases h with
  | turn h hm =>
    cases hm with
    | receive hp => simpa [Session.unread, hp, Session.Phase.item?] using hnil
    | send r hp hroom => simp at hnil
    | close status hp hroom => simp at hnil
    | wait hp hfull =>
      rcases hfull with hd | hfull
      · simp [Session.unread, hnil, hd, Session.Phase.item?]
      · have hpos := x.service.capacity_pos
        rw [hnil, List.length_nil] at hfull
        omega
  | read item rest h hb => cases h
  | idle h hb => cases h
  | other hturn => exact absurd rfl hturn

/-- After the subscription has ended, a turn has an effect unless the client has to read first. -/
theorem Move.effort_of_turn (h : x.Move (.turn client) client s t s' t' received heard)
    (hr : t.registered = false) :
    s'.effort t' < s.effort t ∨ s'.effort t' = 0 ∨ s'.effort t' = s.effort t ∧ s'.buffer ≠ [] := by
  cases h with
  | turn h hm =>
    rcases hm.effort hr with hdown | ⟨rfl, rfl, hstall⟩
    · exact Or.inl hdown
    · by_cases hnil : s'.buffer = []
      · right; left
        rcases hstall with hd | hfull
        · simp [Session.effort, hd, hnil]
        · have hpos := x.service.capacity_pos
          rw [hnil, List.length_nil] at hfull
          omega
      · exact Or.inr (Or.inr ⟨rfl, hnil⟩)
  | read item rest h hb => cases h
  | idle h hb => cases h
  | other hturn => exact absurd rfl hturn

/-- A client that reads gets an item, or finds its buffer empty. -/
theorem Move.of_read (h : x.Move (.read client) client s t s' t' received heard) :
    s'.effort t' < s.effort t ∧ heard.length = 1 ∨
      s.buffer = [] ∧ s' = s ∧ t' = t ∧ heard = if s.phase = .done then [.ended] else [] := by
  cases h with
  | read item rest h hb =>
    refine Or.inl ⟨?_, rfl⟩
    simp only [Session.effort, hb, List.length_cons]
    omega
  | idle h hb => exact Or.inr ⟨hb, rfl, rfl, rfl⟩
  | turn h hm => cases h
  | other hturn hread => exact absurd rfl hread

/-- The client is served, and has read as much as `bound` says. -/
def Along (client : Nat) (bound : Session → Subscription → List Service.Read → Prop) (x : Relay)
    (heard : List Service.Read) : Prop :=
  ∃ s t received, x.Serves client s t received heard ∧ bound s t heard

theorem Along.step {bound bound' : Session → Subscription → List Service.Read → Prop}
    (h : Along client bound x heard) (hop : op ≠ .hangUp client)
    (hbound : ∀ s t s' t' received' heard', x.Move op client s t s' t' received' heard' →
      bound s t heard → bound' s' t' (heard ++ heard')) :
    Along client bound' (x.step op) (heard ++ x.heardAt client op) := by
  obtain ⟨s, t, received, hs, hb⟩ := h
  obtain ⟨s', t', hs', -, -, hm⟩ := hs.step hop
  exact ⟨s', t', _, hs', hbound s t s' t' _ _ hm hb⟩

abbrev rounds (client n : Nat) : List Op := Run.rounds (.turn client) (.read client) n

/-- Every round lets the client read one more of the items that wait for it. -/
theorem paced_items (client : Nat) (items : List Item) :
    Run.Paced step (heardAt client) (· ≠ .hangUp client) (.turn client) (.read client)
      (fun x heard n => Along client (fun s _ heard =>
        items.map .item <+: heard ++ s.unread.map .item ∧ items.length ≤ heard.length + n) x heard)
      (fun x heard n => Along client (fun s _ heard =>
        items.map .item <+: heard ++ s.unread.map .item ∧ items.length ≤ heard.length + n + 1 ∧
          (items.length ≤ heard.length + n ∨ s.buffer ≠ [])) x heard) where
  first x heard n h := h.step nofun fun s t s' t' received' heard' hm hb => by
    refine ⟨prefix_append hb.1 hm.unread, by rw [List.length_append]; omega, ?_⟩
    by_cases hnil : s'.buffer = []
    · left
      have hlen := hb.1.length_le
      rw [hm.unread_of_turn hnil, List.map_nil, List.append_nil, List.length_map] at hlen
      rw [List.length_append]
      omega
    · exact Or.inr hnil
  second x heard n h := h.step nofun fun s t s' t' received' heard' hm hb => by
    refine ⟨prefix_append hb.1 hm.unread, ?_⟩
    rw [List.length_append]
    rcases hm.of_read with ⟨-, hone⟩ | ⟨hnil, -⟩
    · omega
    · rcases hb.2.2 with hle | hne
      · omega
      · exact absurd hnil hne
  left x heard n op hop h := h.step hop fun s t s' t' received' heard' hm hb => by
    refine ⟨prefix_append hb.1 hm.unread, ?_⟩
    rw [List.length_append]
    omega
  due x heard n op hop h := h.step hop fun s t s' t' received' heard' hm hb => by
    refine ⟨prefix_append hb.1 hm.unread, by rw [List.length_append]; omega, ?_⟩
    rw [List.length_append]
    rcases hb.2.2 with hle | hne
    · left
      omega
    · rcases hm.buffer hne with hne' | hpos
      · exact Or.inr hne'
      · left
        omega

/-- Once the subscription has ended, every round takes the client closer to the end. -/
theorem paced_end (client : Nat) :
    Run.Paced step (heardAt client) (· ≠ .hangUp client) (.turn client) (.read client)
      (fun x heard n => Along client (fun s t heard =>
        .ended ∈ heard ∨ t.registered = false ∧ s.effort t < n) x heard)
      (fun x heard n => Along client (fun s t heard =>
        .ended ∈ heard ∨ t.registered = false ∧
          (s.effort t < n ∨ s.effort t = 0 ∨ s.effort t ≤ n ∧ s.buffer ≠ [])) x heard) where
  first x heard n h := h.step nofun fun s t s' t' received' heard' hm hb => by
    rcases hb with hended | ⟨hr, hlt⟩
    · exact Or.inl (List.mem_append_left _ hended)
    · right
      refine ⟨(hm.effort hr).1, ?_⟩
      rcases hm.effort_of_turn hr with hdown | hzero | ⟨hsame, hne⟩
      · exact Or.inl (by omega)
      · exact Or.inr (Or.inl hzero)
      · exact Or.inr (Or.inr ⟨by omega, hne⟩)
  second x heard n h := h.step nofun fun s t s' t' received' heard' hm hb => by
    rcases hb with hended | ⟨hr, hb⟩
    · exact Or.inl (List.mem_append_left _ hended)
    · have hr' := (hm.effort hr).1
      rcases hm.of_read with ⟨hdown, -⟩ | ⟨hnil, rfl, rfl, rfl⟩
      · exact Or.inr ⟨hr', by omega⟩
      · by_cases hzero : s'.effort t' = 0
        · left
          rw [if_pos (Session.eq_nil_of_effort_eq_zero hzero).1]
          exact List.mem_append_right _ (List.mem_singleton.mpr rfl)
        · right
          refine ⟨hr, ?_⟩
          rcases hb with hlt | hzero' | ⟨-, hne⟩
          · exact hlt
          · exact absurd hzero' hzero
          · exact absurd hnil hne
  left x heard n op hop h := h.step hop fun s t s' t' received' heard' hm hb => by
    rcases hb with hended | ⟨hr, hlt⟩
    · exact Or.inl (List.mem_append_left _ hended)
    · obtain ⟨hr', hdown | ⟨rfl, rfl⟩⟩ := hm.effort hr
      · exact Or.inr ⟨hr', by omega⟩
      · exact Or.inr ⟨hr', hlt⟩
  due x heard n op hop h := h.step hop fun s t s' t' received' heard' hm hb => by
    rcases hb with hended | ⟨hr, hb⟩
    · exact Or.inl (List.mem_append_left _ hended)
    · obtain ⟨hr', hdown | ⟨rfl, rfl⟩⟩ := hm.effort hr
      · exact Or.inr ⟨hr', by omega⟩
      · exact Or.inr ⟨hr', hb⟩

/-- Rounds as many as there are items let the client read them all. -/
theorem Serves.items_heard {later : List Op} {items : List Item}
    (hs : x.Serves client s t received heard)
    (hitems : items.map .item <+: heard ++ s.unread.map .item)
    (hlater : .hangUp client ∉ later) (hrounds : (rounds client items.length).Sublist later) :
    items.map .item <+: heard ++ x.heard client later := by
  have hstart : Along client (fun s _ heard => items.map .item <+: heard ++ s.unread.map .item ∧
      items.length ≤ heard.length + items.length) x heard :=
    ⟨s, t, received, hs, hitems, Nat.le_add_left _ _⟩
  obtain ⟨_, _, _, -, hprefix, hlen⟩ := (paced_items client items).done
    (fun op hop he => hlater (he ▸ hop)) hstart hrounds
  exact List.prefix_of_prefix_length_le hprefix (List.prefix_append _ _) (by simpa using hlen)

theorem Serves.end_heard {later : List Op} (hs : x.Serves client s t received heard)
    (hr : t.registered = false) (hlater : .hangUp client ∉ later)
    (hrounds : (rounds client (s.effort t + 1)).Sublist later) :
    .ended ∈ heard ++ x.heard client later := by
  have hstart : Along client (fun s' t' heard => .ended ∈ heard ∨ t'.registered = false ∧
      s'.effort t' < s.effort t + 1) x heard :=
    ⟨s, t, received, hs, Or.inr ⟨hr, Nat.lt_succ_self _⟩⟩
  obtain ⟨_, _, _, -, hended | ⟨-, hlt⟩⟩ := (paced_end client).done
    (fun op hop he => hlater (he ▸ hop)) hstart hrounds
  · exact hended
  · exact absurd hlt (Nat.not_lt_zero _)

end Progress

theorem accept_of_invalid (x : Relay) {r : Request} {e : StreamFilterError}
    (he : StreamFilter.ofRequest r.markets r.subaccounts = .error e) :
    x.service.accept x.bus r = .error (Service.invalidFilter e) ∧ x.step (.accept r) = x := by
  have ha : x.service.accept x.bus r = .error (Service.invalidFilter e) := by
    simp only [Service.accept, he]
  exact ⟨ha, by simp only [step, ha]⟩

theorem accept_of_closed {x : Relay} {r : Request} {filter : StreamFilter}
    (hf : StreamFilter.ofRequest r.markets r.subaccounts = .ok filter) (hc : x.bus.closed = true) :
    x.service.accept x.bus r = .error (Service.endOf .shutdown) ∧ x.step (.accept r) = x := by
  have ha : x.service.accept x.bus r = .error (Service.endOf .shutdown) := by
    simp only [Service.accept, hf, Bus.subscribe, hc, if_true]
  exact ⟨ha, by simp only [step, ha]⟩

theorem accept_of_open {x : Relay} {r : Request} {filter : StreamFilter}
    (hf : StreamFilter.ofRequest r.markets r.subaccounts = .ok filter) (hc : x.bus.closed = false) :
    ∃ client opened, x.service.accept x.bus r = .ok (client, opened.service, opened.bus) ∧
      x.step (.accept r) = opened := by
  cases hb : x.bus.subscribe with
  | error e =>
    rw [Bus.subscribe] at hb
    simp only [hc, Bool.false_eq_true, if_false] at hb
    cases ht : x.bus.terminal <;> simp [ht] at hb
  | ok accepted =>
    obtain ⟨subscription, bus⟩ := accepted
    cases ha : x.service.accept x.bus r with
    | error status => simp [Service.accept, hf, hb] at ha
    | ok accepted =>
      obtain ⟨client, service, bus'⟩ := accepted
      exact ⟨client, ⟨bus', service⟩, rfl, by simp only [step, ha]⟩

theorem serves_opened {x : Relay} (hx : x.Separate) {r : Request} {client : Nat} {opened : Relay}
    (ha : x.service.accept x.bus r = .ok (client, opened.service, opened.bus))
    (hstep : x.step (.accept r) = opened) :
    ∃ s t, opened.Serves client s t [] [] ∧ s.subscription = x.bus.subscriptions.length ∧
      StreamFilter.ofRequest r.markets r.subaccounts = .ok s.filter := by
  obtain ⟨filter, hf, hc, hid, hs⟩ := Service.accept_ok ha
  have hbus : opened.bus = x.bus.step .subscribe := by
    rw [← hstep, bus_step]
    simp [busOps, hf]
  refine ⟨⟨filter, x.bus.subscriptions.length, [], true, .receiving⟩, x.bus.terminal.elim .fresh .halted,
    ⟨hstep ▸ hx.step _, ?_, ?_, ⟨rfl, ?_, ⟨[], by simp, Or.inl ⟨Or.inl rfl, rfl⟩⟩, 0, rfl, by simp⟩⟩,
    rfl, hf⟩
  · rw [hs, hid]
    simp
  · rw [hbus, Bus.subscriptions_step, Bus.newcomer, hc]
    simp
  · cases x.bus.terminal <;> exact fun b hb => absurd hb List.not_mem_nil

/-- A request is refused and nothing changes, or its client gets what its subscription yields, in
order, then one status, then the end. -/
theorem session (subscriberCapacity clientBuffer : Nat) (before : List Op) (r : Request) :
    let x := (new subscriberCapacity clientBuffer).after before
    let subscription := x.bus.subscriptions.length
    (∀ e, StreamFilter.ofRequest r.markets r.subaccounts = .error e →
      x.service.accept x.bus r = .error ⟨.invalidArgument, e.message, [⟨e.field, e.message⟩]⟩ ∧
      x.step (.accept r) = x) ∧
    ∀ filter, StreamFilter.ofRequest r.markets r.subaccounts = .ok filter →
      (x.bus.closed = true →
        x.service.accept x.bus r = .error (.new .unavailable Service.shutdownMessage) ∧
        x.step (.accept r) = x) ∧
      (x.bus.closed = false → ∃ client opened,
        x.service.accept x.bus r = .ok (client, opened.service, opened.bus) ∧
        x.step (.accept r) = opened ∧
        ∀ ops, .hangUp client ∉ ops → ∃ items,
          let heard := opened.heard client ops
          Tells filter ((opened.after ops).bus.closeReason subscription)
            (opened.received client ops) items ∧
          (heard <+: items.map .item ∨ (∃ status : Status, .error status ∈ items) ∧
            ∃ ends, heard = items.map .item ++ List.replicate ends .ended) ∧
          (∃ n, ∀ later, .hangUp client ∉ later → (rounds client n).Sublist later →
            items.map .item <+: opened.heard client (ops ++ later)) ∧
          ((opened.after ops).bus.isRegistered subscription = false →
            ∃ n, ∀ later, .hangUp client ∉ later → (rounds client n).Sublist later →
              .ended ∈ opened.heard client (ops ++ later))) := by
  intro x subscription
  have hx : x.Separate := (separate_new subscriberCapacity clientBuffer).after before
  refine ⟨fun e he => accept_of_invalid x he, ?_⟩
  intro filter hf
  refine ⟨accept_of_closed hf, ?_⟩
  intro hc
  obtain ⟨client, opened, ha, hstep⟩ := accept_of_open hf hc
  refine ⟨client, opened, ha, hstep, ?_⟩
  intro ops hops
  obtain ⟨s, t, hs, hsub, hf'⟩ := serves_opened hx ha hstep
  obtain ⟨s', t', hs', hsub', hfilter⟩ := hs.run hops
  rw [List.nil_append, List.nil_append] at hs'
  have hsame : s'.filter = filter := by
    rw [hfilter]
    exact Except.ok.inj (hf'.symm.trans hf)
  have hid : s'.subscription = subscription := hsub'.trans hsub
  have hsubscription := hs'.subscription
  rw [hid] at hsubscription
  have htells := hs'.told.tells
  have hprefix := hs'.told.heard_prefix
  obtain ⟨ends, heq, -⟩ := hs'.told.heard
  generalize (opened.received client ops).filterMap
    (Session.itemOf s'.filter t'.closeReason) = items at htells hprefix heq
  refine ⟨items, ?_, hprefix, ⟨items.length, fun later hlater hrounds => ?_⟩, fun hended => ?_⟩
  · rw [Bus.closeReason_eq hsubscription, ← hsame]
    exact htells
  · rw [heard, Run.output_append]
    exact hs'.items_heard (heq ▸ List.prefix_append _ _) hlater hrounds
  · have hr : t'.registered = false := by
      simpa [Bus.isRegistered, hsubscription] using hended
    refine ⟨s'.effort t' + 1, fun later hlater hrounds => ?_⟩
    rw [heard, Run.output_append]
    exact hs'.end_heard hr hlater hrounds

/-- With room for one block in its queue, a client is one block behind when the next one comes. -/
theorem session_slow_client :
    let opened := (new 1 1).step (.accept ⟨[], []⟩)
    let ops : List Op := [.publish 1 [], .publish 2 [], .turn 0, .turn 0, .turn 0]
    ∃ response n, ∀ later, .hangUp 0 ∉ later → (rounds 0 n).Sublist later →
      [.item (.ok response),
        .item (.error (.new .resourceExhausted Service.slowConsumerMessage))] <+:
        opened.heard 0 (ops ++ later) := by
  intro opened ops
  obtain ⟨-, hall⟩ := session 1 1 [] ⟨[], []⟩
  obtain ⟨client, opened', ha, hstep, hopen⟩ := (hall .all rfl).2 rfl
  obtain ⟨-, -, -, hclient, -⟩ := Service.accept_ok ha
  obtain rfl : client = 0 := hclient
  rw [← hstep] at hopen
  obtain ⟨items, htells, -, ⟨n, hread⟩, -⟩ := hopen ops (by simp [ops])
  have hreceived : opened.received 0 ops = [.block (.aggregate 1 []), .ended] := by decide +kernel
  have hreason : (opened.after ops).bus.closeReason 0 = .slowConsumer := by decide +kernel
  have htells' : Tells .all .slowConsumer [.block (.aggregate 1 []), .ended] items := by
    rw [← hreceived, ← hreason]
    exact htells
  cases htells' with
  | block h hrest =>
    cases hrest with
    | slowConsumer => exact ⟨_, n, hread⟩
    | shutdown h => cases h

end Relay

end BlockFeed
