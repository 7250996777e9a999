import BlockFeed.Proofs.World.Log
import BlockFeed.Proofs.World.Session

/-! The stream of one client. What the client has read and what lies ahead of it make up all that is
handed over while its subscription is registered; afterwards whoever reads on comes to the end. -/

namespace BlockFeed

namespace Subscription

/-- Nothing but blocks is queued. -/
def Plain (t : Subscription) : Prop := t.queue = t.backlog.map .block

theorem backlog_of_queue {t : Subscription} {blocks : List Block} (h : t.queue = blocks.map .block) :
    t.backlog = blocks := by
  rw [backlog, h, List.filterMap_map]
  exact List.filterMap_some

theorem Plain.recv_cons {t : Subscription} (h : t.Plain) {b : Block} {rest : List Block}
    (hb : t.backlog = b :: rest) (terminal : Option FeedError) :
    t.recv terminal = (.block b, { t with queue := rest.map .block }) := by
  rw [Plain] at h
  rw [hb, List.map_cons] at h
  simp [recv, h]

theorem Plain.recv_nil {t : Subscription} (h : t.Plain) (hb : t.backlog = []) :
    t.recv none = (if t.registered then .pending else .ended, t) := by
  rw [Plain] at h
  rw [hb, List.map_nil] at h
  rw [recv]
  rw [h]
  cases t.registered <;> simp

end Subscription

namespace Session

def itemFor (f : StreamFilter) (b : Block) : Item :=
  match b.select f with
  | .ok selection => .ok (Response.ofSelection selection)
  | .error e => .error (.new .internal e.message)

theorem itemFor_of_paired {b : Block} (h : b.Paired) (f : StreamFilter) :
    ∃ response, itemFor f b = .ok response ∧
      ∀ reason, Service.phaseFor f reason (.block b) = .sending response := by
  obtain ⟨selection, hs, _⟩ := h.select_ok f
  exact ⟨Response.ofSelection selection, by simp [itemFor, hs], by simp [Service.phaseFor, hs]⟩

/-- What lies ahead of a client if nothing more is handed over. -/
def outlook (s : Session) (t : Subscription) : List Item :=
  let ahead := t.backlog.map (itemFor s.filter) ++
    if t.registered then [] else [.error (Service.endOf .shutdown)]
  s.buffer ++ match s.phase with
    | .receiving => ahead
    | .sending r => .ok r :: ahead
    | .closing status => [.error status]
    | .done => []

/-- A stream in good order. -/
structure Flows (s : Session) (t : Subscription) : Prop where
  connected : s.connected = true
  kept : t.evicted = false
  plain : t.Plain
  paired : ∀ b ∈ t.backlog, b.Paired
  active : t.registered = true → s.phase = .receiving ∨ ∃ r, s.phase = .sending r

variable {capacity : Nat} {s s' : Session} {t t' : Subscription}

theorem Flows.closeReason (hf : s.Flows t) : t.closeReason = .shutdown := by
  simp [Subscription.closeReason, hf.kept]

/-- What a turn of the task comes to: the next block or the end of the queue is taken, something is
placed into the buffer, or there is no room. -/
theorem Flows.turn (hf : s.Flows t) (h : s.Turn capacity none t s' t') :
    s'.Flows t' ∧ t'.registered = t.registered ∧ s'.filter = s.filter ∧
      s'.subscription = s.subscription ∧ s'.outlook t' = s.outlook t := by
  cases h with
  | receive h =>
    cases hq : t.backlog with
    | nil =>
      rw [hf.plain.recv_nil hq, hf.closeReason]
      cases hr : t.registered with
      | true =>
        refine ⟨{ hf with active := fun _ => Or.inl rfl }, rfl, rfl, rfl, ?_⟩
        simp [outlook, h, Service.phaseFor]
      | false =>
        refine ⟨{ hf with active := fun ht => by simp [hr] at ht }, rfl, rfl, rfl, ?_⟩
        simp [outlook, h, hq, hr, Service.phaseFor]
    | cons b rest =>
      obtain ⟨response, hi, hph⟩ := itemFor_of_paired (hf.paired b (by simp [hq])) s.filter
      rw [hf.plain.recv_cons hq, hph]
      have hrest : { t with queue := rest.map .block : Subscription }.backlog = rest :=
        Subscription.backlog_of_queue rfl
      refine ⟨⟨hf.connected, hf.kept, ?_, ?_, fun _ => Or.inr ⟨response, rfl⟩⟩, rfl, rfl, rfl, ?_⟩
      · rw [Subscription.Plain, hrest]
      · intro b' hb'
        rw [hrest] at hb'
        exact hf.paired b' (by simp [hq, hb'])
      · simp [outlook, h, hq, hrest, hi]
  | send r h hroom =>
    refine ⟨{ hf with active := fun _ => Or.inl rfl }, rfl, rfl, rfl, ?_⟩
    simp [outlook, h]
  | close status h hroom =>
    have hr : t.registered = false := by
      cases hr : t.registered with
      | false => rfl
      | true => rcases hf.active hr with ha | ⟨r, ha⟩ <;> simp [h] at ha
    refine ⟨⟨hf.connected, hf.kept, hf.plain, hf.paired, fun ht => by cases ht⟩, hr.symm, rfl, rfl, ?_⟩
    simp [outlook, h]
  | wait h hfull => exact ⟨hf, rfl, rfl, rfl, rfl⟩

/-- What is handed over to a registered subscription lies ahead of the client. -/
theorem Flows.outlook_append (hf : s.Flows t) (hr : t.registered = true) (hr' : t'.registered = true)
    {handed : List Block} (hb : t'.backlog = t.backlog ++ handed) :
    s.outlook t' = s.outlook t ++ handed.map (itemFor s.filter) := by
  rcases hf.active hr with hph | ⟨r, hph⟩
  · simp [outlook, hph, hr, hr', hb]
  · simp [outlook, hph, hr, hr', hb]

theorem Flows.outlook_release (hf : s.Flows t) (hr : t.registered = true) :
    s.outlook t.release = s.outlook t ++ [.error (Service.endOf .shutdown)] := by
  rcases hf.active hr with hph | ⟨r, hph⟩
  · simp [outlook, hph, hr]
  · simp [outlook, hph, hr]

end Session

namespace World

/-- The stream of a client is open. -/
structure Streams (w : World) (client : Nat) (s : Session) (t : Subscription) : Prop where
  session : w.service.sessions[client]? = some s
  subscription : w.bus.subscriptions[s.subscription]? = some t
  flows : s.Flows t

theorem service_accept {w later : World} {r : Request} {client : Nat}
    (h : w.accept r = .ok (client, later)) :
    ∃ service bus, w.service.accept w.bus r = .ok (client, service, bus) := by
  rw [World.accept] at h
  cases ha : w.service.accept w.bus r with
  | error e =>
    rw [ha] at h
    cases h
  | ok accepted =>
    rw [ha] at h
    cases h
    exact ⟨_, _, rfl⟩

/-- When a stream has just been opened, nothing lies ahead of the client yet. -/
theorem Streams.opened {w later : World} {r : Request} {client : Nat}
    (h : w.accept r = .ok (client, later)) (ht : w.bus.terminal = none) :
    ∃ s t, StreamFilter.ofRequest r.markets r.subaccounts = .ok s.filter ∧
      s.subscription = w.bus.subscriptions.length ∧ (w.step (.accept r)).Streams client s t ∧
      t.registered = true ∧ s.outlook t = [] := by
  obtain ⟨service, bus, ha⟩ := service_accept h
  obtain ⟨filter, hf, hc, hid, hs⟩ := Service.accept_ok ha
  have hservice : (w.step (.accept r)).service = service := by
    rw [service_step]
    simp only [serviceAfter, ha]
  have hbus : (w.step (.accept r)).bus = w.bus.step .subscribe := by
    rw [bus_step]
    simp [busOps, publisherOps, readerOps, turn, hf]
  refine ⟨⟨filter, w.bus.subscriptions.length, [], true, .receiving⟩, .fresh, hf, rfl, ?_, rfl, rfl⟩
  refine ⟨?_, ?_, ⟨rfl, rfl, rfl, fun b hb => absurd hb List.not_mem_nil, fun _ => Or.inl rfl⟩⟩
  · rw [hservice, hs, hid]
    simp
  · rw [hbus, Bus.subscriptions_step, Bus.newcomer, hc, ht]
    simp

theorem handed_of_turn {w : World} {op : Op} {client : Nat}
    (h : w.turn op = some (.session client)) : w.handed op = [] := by
  have hb : w.busOps op = w.taskReaderOps (.session client) := busOps_of_turn h
  rw [handed, hb, Bus.handedIn_log, List.filterMap_eq_nil_iff]
  exact fun o ho => (taskReaderOps_silent ho).1

theorem Streams.live_step {w : World} (hw : w.Separate) (hb : w.bus.Sound) {client : Nat}
    {s : Session} {t : Subscription} (h : w.Streams client s t) (hr : t.registered = true) {op : Op}
    (hop : op ≠ .hangUp client) (hun : op ≠ .unsubscribe s.subscription)
    (ho : (w.step op).bus.isOver = false) (hpaired : ∀ b ∈ w.handed op, b.Paired) :
    (∃ t', (w.step op).bus.subscriptions[s.subscription]? = some t' ∧
      t'.registered = false ∧ t'.evicted = true) ∨
    ∃ s' t', (w.step op).Streams client s' t' ∧ t'.registered = true ∧ s'.filter = s.filter ∧
      s'.subscription = s.subscription ∧
      w.heardAt client op ++ (s'.outlook t').map .item =
        (s.outlook t ++ (w.handed op).map (Session.itemFor s.filter)).map .item := by
  have hf := h.flows
  have hterm : w.bus.terminal = none := by
    have hover := (hb _ t h.subscription hr).2
    simp only [Bus.isOver, Bool.or_eq_false_iff, Option.isSome_eq_false_iff] at hover
    simpa using hover.2
  obtain ⟨s', t', hs', ht', hm⟩ := move_step hw h.session h.subscription hf.connected hop hun
  generalize heardAt client w op = heard at hm
  cases hm with
  | turn hturn htm =>
    rw [hterm] at htm
    obtain ⟨hf', hr', hfilter, hsub, hout⟩ := hf.turn htm
    rw [← hsub] at ht'
    refine Or.inr ⟨s', t', ⟨hs', ht', hf'⟩, hr'.trans hr, hfilter, hsub, ?_⟩
    rw [handed_of_turn hturn, hout]
    simp
  | read item rest hread hbuf =>
    have hh : w.handed op = [] := by rw [hread]; rfl
    refine Or.inr ⟨_, t, ⟨hs', ht', { hf with }⟩, hr, rfl, rfl, ?_⟩
    rw [hh]
    simp [Session.outlook, hbuf]
  | idle hread hbuf =>
    have hh : w.handed op = [] := by rw [hread]; rfl
    have hnd : s.phase ≠ .done := by
      rcases hf.active hr with hph | ⟨r, hph⟩ <;> simp [hph]
    refine Or.inr ⟨s, t, ⟨hs', ht', hf⟩, hr, rfl, rfl, ?_⟩
    rw [hh, if_neg hnd]
    simp
  | other hread hturn hforeign =>
    rw [bus_step] at ho ht'
    rcases hb.kept_after h.subscription hr hforeign ho ht' with hr' | hev
    · have hl := ((hb.after (w.busOps op)) _ t' ht' hr').1
      have hy := Bus.yieldedIn_log_of_registered hb h.subscription ht' hr'
      rw [Bus.yieldedIn_log_of_foreign hforeign, List.nil_append] at hy
      have hf' : s.Flows t' := by
        refine ⟨hf.connected, hl.kept, hl.blocks, ?_, fun _ => hf.active hr⟩
        intro b hbm
        rw [hy, List.mem_append] at hbm
        rcases hbm with hbm | hbm
        · exact hf.paired b hbm
        · exact hpaired b hbm
      refine Or.inr ⟨s, t', ⟨hs', by rw [bus_step, ht'], hf'⟩, hr', rfl, rfl, ?_⟩
      rw [hf.outlook_append hr hr' hy, handed]
      rfl
    · exact Or.inl ⟨t', by rw [bus_step, ht'], hev⟩

theorem Streams.live_run {w : World} (hw : w.Separate) (hb : w.bus.Sound) {client : Nat}
    {s : Session} {t : Subscription} (h : w.Streams client s t) (hr : t.registered = true)
    {ops : List Op} (hops : ∀ op ∈ ops, op ≠ .hangUp client ∧ op ≠ .unsubscribe s.subscription)
    (ho : (w.after ops).bus.isOver = false)
    (hk : (w.after ops).bus.closeReason s.subscription = .shutdown)
    (hpaired : ∀ b ∈ Bus.handedIn (w.log ops), b.Paired) :
    ∃ s' t', (w.after ops).Streams client s' t' ∧ t'.registered = true ∧ s'.filter = s.filter ∧
      s'.subscription = s.subscription ∧
      w.heard client ops ++ (s'.outlook t').map .item =
        (s.outlook t ++ (Bus.handedIn (w.log ops)).map (Session.itemFor s.filter)).map .item := by
  induction ops generalizing w s t with
  | nil => exact ⟨s, t, h, hr, rfl, rfl, by simp [Bus.handedIn]⟩
  | cons op ops ih =>
    obtain ⟨hop, hun⟩ := hops op List.mem_cons_self
    have hlog : Bus.handedIn (w.log (op :: ops)) =
        w.handed op ++ Bus.handedIn ((w.step op).log ops) := Bus.handedIn_append _ _
    rw [hlog] at hpaired ⊢
    have hafter : (w.after (op :: ops)).bus =
        (w.step op).bus.after (Run.output step busOps (w.step op) ops) := bus_after (w.step op) ops
    have hover : (w.step op).bus.isOver = false := by
      rw [hafter] at ho
      exact Bus.isOver_of_after ho
    have hb' : (w.step op).bus.Sound := by
      rw [bus_step]
      exact hb.after _
    rcases h.live_step hw hb hr hop hun hover fun b hm => hpaired b (List.mem_append_left _ hm) with
      ⟨t', ht', hr', he'⟩ | ⟨s', t', h', hr', hfilter, hsub, hacc⟩
    -- Once evicted, always evicted: the last state rules it out.
    · rw [hafter, Bus.closeReason_of_evicted ht' hr' he'] at hk
      cases hk
    · rw [← hsub] at hops hk
      obtain ⟨s'', t'', h'', hr'', hfilter', hsub', hacc'⟩ := ih (hw.step op) hb' h' hr'
        (fun op' hm => hops op' (List.mem_cons_of_mem _ hm)) ho hk
        fun b hm => hpaired b (List.mem_append_right _ hm)
      refine ⟨s'', t'', h'', hr'', hfilter'.trans hfilter, hsub'.trans hsub, ?_⟩
      rw [heard, Run.output_cons, List.append_assoc, hacc', List.map_append, ← List.append_assoc, hacc,
        hfilter]
      simp only [List.map_append, List.append_assoc]

end World

end BlockFeed
