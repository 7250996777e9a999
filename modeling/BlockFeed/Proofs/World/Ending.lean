import BlockFeed.Proofs.World.Stream

/-! The end of a stream. Once the publisher has stopped and the bus is closed, a client gets what lies
ahead of it, then the status, then the end, and it comes to the end if it reads on. -/

namespace BlockFeed.World

/-- Nothing is handed over any more. -/
structure Quiet (w : World) : Prop where
  coherent : w.publisher.Coherent
  stopped : w.publisher.state = .stopped
  unfailed : w.bus.terminal = none

theorem Quiet.busOps_eq {w : World} (h : w.Quiet) (op : Op) : w.busOps op = w.readerOps op := by
  have hc := (h.coherent.quiet h.stopped (w.publisherOps op)).2.2
  rw [busOps, hc]
  rfl

theorem Quiet.step {w : World} (h : w.Quiet) (op : Op) : (w.step op).Quiet := by
  refine ⟨?_, ?_, ?_⟩
  · rw [publisher_step]
    exact h.coherent.after _
  · rw [publisher_step]
    exact (h.coherent.quiet h.stopped _).1
  · rw [bus_step, h.busOps_eq, Bus.terminal_after_of_no_fail _ fun o ho => (readerOps_silent ho).2.1]
    exact h.unfailed

theorem Quiet.silent {w : World} (h : w.Quiet) (ops : List Op) :
    w.accepted ops = [] ∧ Bus.handedIn (w.log ops) = [] := by
  obtain ⟨_, haccepted, hcalls⟩ := h.coherent.quiet h.stopped (Run.output World.step publisherOps w ops)
  rw [accepted_eq, handedIn_log, calls_eq, haccepted, hcalls]
  exact ⟨rfl, rfl⟩

/-- The stream of a client whose subscription has ended. -/
structure Ends (w : World) (client : Nat) (s : Session) (t : Subscription) : Prop
    extends Streams w client s t where
  quiet : w.Quiet
  ended : t.registered = false

theorem Ends.step {w : World} (hw : w.Separate) {client : Nat} {s : Session} {t : Subscription}
    (h : w.Ends client s t) {op : Op} (hop : op ≠ .hangUp client)
    (hun : op ≠ .unsubscribe s.subscription) :
    ∃ s' t', (w.step op).Ends client s' t' ∧ s'.subscription = s.subscription ∧
      (w.heardAt client op ++ (s'.outlook t').map .item = (s.outlook t).map .item ∨
        w.heardAt client op = [.ended] ∧ s'.outlook t' = [] ∧ s.outlook t = []) ∧
      (s'.effort t' < s.effort t ∨ s' = s ∧ t' = t ∧
        (op = .task (.session client) → s.phase = .done ∨ s.buffer ≠ []) ∧
        (op = .read client → s.buffer = [])) := by
  have hf := h.flows
  have hq := h.quiet.step op
  obtain ⟨s', t', hs', ht', hm⟩ := move_step hw h.session h.subscription hf.connected hop hun
  generalize heardAt client w op = heard at hm
  cases hm with
  | turn hturn htm =>
    rw [h.quiet.unfailed] at htm
    obtain ⟨hf', hr', _, hsub, hout⟩ := hf.turn htm
    have heffort := htm.effort h.ended
    rw [← hsub] at ht'
    refine ⟨s', t', ⟨⟨hs', ht', hf'⟩, hq, hr'.trans h.ended⟩, hsub, Or.inl (by rw [hout]; rfl), ?_⟩
    rcases heffort with hlt | ⟨rfl, rfl, hstall⟩
    · exact Or.inl hlt
    · refine Or.inr ⟨rfl, rfl, fun _ => ?_, ?_⟩
      · rcases hstall with hd | hfull
        · exact Or.inl hd
        · right
          intro hnil
          have hpos := w.service.capacity_pos
          rw [hnil, List.length_nil] at hfull
          omega
      · rintro rfl
        cases hturn
  | read item rest hread hbuf =>
    refine ⟨_, t, ⟨⟨hs', ht', { hf with }⟩, hq, h.ended⟩, rfl, Or.inl ?_, Or.inl ?_⟩
    · simp [Session.outlook, hbuf]
    · simp only [Session.effort, hbuf, List.length_cons]
      omega
  | idle hread hbuf =>
    refine ⟨s, t, ⟨⟨hs', ht', hf⟩, hq, h.ended⟩, rfl, ?_, Or.inr ⟨rfl, rfl, ?_, fun _ => hbuf⟩⟩
    · by_cases hd : s.phase = .done
      · have hout : s.outlook t = [] := by simp [Session.outlook, hbuf, hd]
        exact Or.inr ⟨if_pos hd, hout, hout⟩
      · rw [if_neg hd]
        exact Or.inl rfl
    · rintro rfl
      cases hread
  | other hread hturn hforeign =>
    have hsame := Bus.getElem?_after_of_foreign h.subscription h.ended hforeign
    rw [← bus_step, ht'] at hsame
    cases hsame
    refine ⟨s, t, ⟨⟨hs', ht', hf⟩, hq, h.ended⟩, rfl, Or.inl rfl, Or.inr ⟨rfl, rfl, ?_, ?_⟩⟩
    · rintro rfl
      exact absurd rfl hturn
    · exact fun he => absurd he hread

theorem Ends.heard_prefix {w : World} (hw : w.Separate) {client : Nat} {s : Session}
    {t : Subscription} (h : w.Ends client s t) {ops : List Op}
    (hops : ∀ op ∈ ops, op ≠ .hangUp client ∧ op ≠ .unsubscribe s.subscription) :
    w.heard client ops <+: (s.outlook t).map .item ++ List.replicate ops.length .ended := by
  induction ops generalizing w s t with
  | nil => exact List.nil_prefix
  | cons op ops ih =>
    obtain ⟨hop, hun⟩ := hops op List.mem_cons_self
    obtain ⟨s', t', h', hsub, hout, _⟩ := h.step hw hop hun
    rw [← hsub] at hops
    have hh := ih (hw.step op) h' fun op' hm => hops op' (List.mem_cons_of_mem _ hm)
    rw [heard, Run.output_cons, List.length_cons, List.replicate_succ']
    rcases hout with hout | ⟨hended, hnil', hnil⟩
    · rw [← hout, List.append_assoc, List.prefix_append_right_inj, ← List.append_assoc]
      exact hh.trans (List.prefix_append _ _)
    · rw [hnil', List.map_nil, List.nil_append] at hh
      rw [hended, hnil, List.map_nil, List.nil_append, ← List.replicate_succ', List.replicate_succ]
      exact (List.prefix_append_right_inj [Service.Read.ended]).mpr hh

/-- The task gets a turn and the client reads, over and over. -/
def rounds (client n : Nat) : List Op :=
  (List.replicate n [Op.task (.session client), Op.read client]).flatten

theorem heardAt_of_done {w : World} {client : Nat} {s : Session}
    (hs : w.service.sessions[client]? = some s) (hd : s.phase = .done) (hb : s.buffer = []) :
    w.heardAt client (.read client) = [.ended] := by
  simp [heardAt, World.read, Service.read, hs, hb, hd, Service.Read.news]

/-- The client has come to the end, or its stream ends and satisfies `bound`. -/
def Nearing (client id : Nat) (bound : Session → Subscription → Prop) (w : World)
    (log : List Service.Read) : Prop :=
  .ended ∈ log ∨ ∃ s t, w.Separate ∧ w.Ends client s t ∧ s.subscription = id ∧ bound s t

theorem Nearing.step {client id : Nat} {bound bound' : Session → Subscription → Prop} {w : World}
    {log : List Service.Read} (h : Nearing client id bound w log) {op : Op}
    (hop : op ≠ .hangUp client ∧ op ≠ .unsubscribe id)
    (hbound : ∀ s t s' t', bound s t → (s'.effort t' < s.effort t ∨ s' = s ∧ t' = t ∧
      (op = .task (.session client) → s.phase = .done ∨ s.buffer ≠ []) ∧
      (op = .read client → s.buffer = [])) →
      (s.phase = .done → s.buffer = [] → op ≠ .read client) → bound' s' t') :
    Nearing client id bound' (w.step op) (log ++ w.heardAt client op) := by
  rcases h with hended | ⟨s, t, hw, h, rfl, hb⟩
  · exact Or.inl (List.mem_append_left _ hended)
  · by_cases hlast : op = .read client ∧ s.phase = .done ∧ s.buffer = []
    · obtain ⟨rfl, hd, hbuf⟩ := hlast
      left
      rw [heardAt_of_done h.session hd hbuf]
      exact List.mem_append_right _ (List.mem_singleton.mpr rfl)
    · obtain ⟨s', t', h', hsub, _, heffort⟩ := h.step hw hop.1 hop.2
      refine Or.inr ⟨s', t', hw.step op, h', hsub, hbound s t s' t' hb heffort ?_⟩
      intro hd hbuf hread
      exact hlast ⟨hread, hd, hbuf⟩

/-- Every round takes the client closer to the end: either the turn does, or the buffer is full and
the reading does. -/
theorem paced_ends (client id : Nat) :
    Run.Paced step (heardAt client) (fun op => op ≠ .hangUp client ∧ op ≠ .unsubscribe id)
      (.task (.session client)) (.read client)
      (fun w log n => Nearing client id (fun s t => s.effort t < n) w log)
      (fun w log n => Nearing client id
        (fun s t => s.effort t < n ∨ s.effort t = 0 ∨ s.effort t ≤ n ∧ s.buffer ≠ []) w log) where
  first w log n h := h.step ⟨nofun, nofun⟩ fun s t s' t' hlt heffort _ => by
    rcases heffort with hdown | ⟨rfl, rfl, hstall, _⟩
    · exact Or.inl (by omega)
    -- The task was stuck, so it is done or there is something for the client to read.
    · by_cases hbuf : s'.buffer = []
      · have hd := (hstall rfl).resolve_right (fun hne => hne hbuf)
        exact Or.inr (Or.inl (by simp [Session.effort, hd, hbuf]))
      · exact Or.inr (Or.inr ⟨by omega, hbuf⟩)
  second w log n h := h.step ⟨nofun, nofun⟩ fun s t s' t' hb heffort hnot => by
    by_cases hzero : s.effort t = 0
    · obtain ⟨hd, hbuf⟩ := Session.eq_nil_of_effort_eq_zero hzero
      exact absurd rfl (hnot hd hbuf)
    · rcases heffort with hdown | ⟨rfl, rfl, _, hbuf⟩
      · omega
      · rcases hb with hb | hb | ⟨_, hne⟩
        · exact hb
        · exact absurd hb hzero
        · exact absurd (hbuf rfl) hne
  left w log n op hop h := h.step hop fun s t s' t' hlt heffort _ => by
    rcases heffort with hdown | ⟨rfl, rfl, _⟩
    · omega
    · exact hlt
  due w log n op hop h := h.step hop fun s t s' t' hb heffort _ => by
    rcases heffort with hdown | ⟨rfl, rfl, _⟩
    · omega
    · exact hb

theorem Ends.arrives {w : World} (hw : w.Separate) {client : Nat} {s : Session} {t : Subscription}
    (h : w.Ends client s t) {ops : List Op}
    (hops : ∀ op ∈ ops, op ≠ .hangUp client ∧ op ≠ .unsubscribe s.subscription) {n : Nat}
    (hrounds : (rounds client n).Sublist ops) (hlt : s.effort t < n) :
    .ended ∈ w.heard client ops := by
  have hstart : Nearing client s.subscription (fun s t => s.effort t < n) w [] :=
    Or.inr ⟨s, t, hw, h, rfl, hlt⟩
  rcases (paced_ends client s.subscription).done hops hstart hrounds with hended | ⟨_, _, _, _, _, hlt⟩
  · exact hended
  · exact absurd hlt (Nat.not_lt_zero _)

theorem eq_append_replicate {α : Type} {l items : List α} {a : α} {n : Nat}
    (h : l <+: items ++ List.replicate n a) (hl : a ∈ l) (hitems : a ∉ items) :
    ∃ k, l = items ++ List.replicate (k + 1) a := by
  rcases List.prefix_or_prefix_of_prefix h (List.prefix_append items _) with hp | ⟨tail, rfl⟩
  · exact absurd (hp.subset hl) hitems
  · have htail : tail <+: List.replicate n a := (List.prefix_append_right_inj items).mp h
    have hrep : tail = List.replicate tail.length a := by
      apply List.eq_replicate_of_mem
      intro b hb
      exact List.eq_of_mem_replicate (htail.subset hb)
    have hpos : tail ≠ [] := by
      rintro rfl
      rw [List.append_nil] at hl
      exact hitems hl
    refine ⟨tail.length - 1, ?_⟩
    rw [Nat.sub_add_cancel (List.length_pos_iff.mpr hpos), ← hrep]

theorem Streams.close {w : World} {client : Nat} {s : Session} {t : Subscription}
    (h : w.Streams client s t) (hq : w.Quiet) (hopen : w.bus.closed = false) {op : Op}
    (hop : op.closes = true) :
    (w.step op).Ends client s t.release ∧ w.heardAt client op = [] := by
  have hb : w.busOps op = [.close] := by
    rw [hq.busOps_eq]
    cases op with
    | close => rfl
    | shutDown => rfl
    | _ => cases hop
  have hs : (w.step op).service = w.service := by
    rw [service_step]
    cases op with
    | close => rfl
    | shutDown => rfl
    | _ => cases hop
  have ht : (w.step op).bus.subscriptions[s.subscription]? = some t.release := by
    rw [bus_step, hb]
    have he := Bus.getElem?_step h.subscription .close
    simpa [Bus.effect, hopen] using he
  have hf := h.flows
  refine ⟨⟨⟨by rw [hs, h.session], ht, ?_⟩, hq.step op, rfl⟩, ?_⟩
  · exact ⟨hf.connected, hf.kept, hf.plain, hf.paired, by simp⟩
  · cases op with
    | read c => cases hop
    | _ => rfl

/-- What a client reads once the bus is closed, and how long it takes at most. -/
theorem Streams.read_on {w : World} (hw : w.Separate) {client : Nat} {s : Session} {t : Subscription}
    (h : w.Streams client s t) (hq : w.Quiet) (hr : t.registered = true)
    (hopen : w.bus.closed = false) {closing : Op} (hclosing : closing.closes = true) {ops : List Op}
    (hops : ∀ op ∈ ops, op ≠ .hangUp client ∧ op ≠ .unsubscribe s.subscription) :
    w.heard client (closing :: ops) <+:
      (s.outlook t ++ [Except.error (Service.endOf .shutdown)]).map .item ++
        List.replicate ops.length .ended ∧
    ((rounds client (s.effort t.release + 1)).Sublist ops →
      .ended ∈ w.heard client (closing :: ops)) := by
  obtain ⟨hends, hnone⟩ := h.close hq hopen hclosing
  have hheard : w.heard client (closing :: ops) = (w.step closing).heard client ops := by
    rw [heard, Run.output_cons, hnone]
    rfl
  rw [hheard, ← h.flows.outlook_release hr]
  refine ⟨hends.heard_prefix (hw.step closing) hops, ?_⟩
  intro hrounds
  exact hends.arrives (hw.step closing) hops hrounds (Nat.lt_succ_self _)

end BlockFeed.World
