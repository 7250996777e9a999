import BlockFeed.Feed.Service
import BlockFeed.Proofs.Bus.Operation

/-! What the task of a session can do, and what it does with the bus: it reads its own subscription
and drops it at the end. -/

namespace BlockFeed

namespace Session

/-- What the task of a session can do while the client is there. -/
inductive Turn (capacity : Nat) (terminal : Option FeedError) (s : Session) (t : Subscription) :
    Session → Subscription → Prop where
  | receive (h : s.phase = .receiving) :
      Turn capacity terminal s t
        { s with phase := Service.phaseFor s.filter t.closeReason (t.recv terminal).1 }
        (t.recv terminal).2
  | send (r : Response) (h : s.phase = .sending r) (hroom : s.buffer.length < capacity) :
      Turn capacity terminal s t { s with buffer := s.buffer ++ [.ok r], phase := .receiving } t
  | close (status : Grpc.Status) (h : s.phase = .closing status) (hroom : s.buffer.length < capacity) :
      Turn capacity terminal s t { s with buffer := s.buffer ++ [.error status], phase := .done }
        { t.release with held := false }
  | wait (h : s.phase ≠ .receiving) (hfull : s.phase = .done ∨ capacity ≤ s.buffer.length) :
      Turn capacity terminal s t s t

/-- What waits for room in the buffer. -/
def Phase.item? : Phase → Option Item
  | .sending r => some (.ok r)
  | .closing status => some (.error status)
  | _ => none

/-- What the client has yet to read of all that its task has taken. -/
def unread (s : Session) : List Item := s.buffer ++ s.phase.item?.toList

/-- How much is left to do until the client has come to the end, if nothing more is queued. -/
def effort (s : Session) (t : Subscription) : Nat :=
  s.buffer.length + 2 * match s.phase with
    | .receiving => 2 * t.queue.length + 2
    | .sending _ => 2 * t.queue.length + 3
    | .closing _ => 1
    | .done => 0

theorem eq_nil_of_effort_eq_zero {s : Session} {t : Subscription} (h : s.effort t = 0) :
    s.phase = .done ∧ s.buffer = [] := by
  rw [effort] at h
  have hb : s.buffer = [] := List.length_eq_zero_iff.mp (by omega)
  refine ⟨?_, hb⟩
  cases hp : s.phase with
  | done => rfl
  | _ => simp [hp] at h

variable {capacity : Nat} {terminal : Option FeedError} {s s' : Session} {t t' : Subscription}

theorem Turn.connected (h : s.Turn capacity terminal t s' t') :
    s'.connected = s.connected ∧ s'.subscription = s.subscription ∧ s'.filter = s.filter := by
  cases h <;> exact ⟨rfl, rfl, rfl⟩

/-- Once the subscription has ended, every turn takes a client closer to the end, unless the client
has to read first. -/
theorem Turn.effort (hr : t.registered = false) (h : s.Turn capacity terminal t s' t') :
    s'.effort t' < s.effort t ∨
      s' = s ∧ t' = t ∧ (s.phase = .done ∨ capacity ≤ s.buffer.length) := by
  cases h with
  | receive h =>
    left
    have hlast : ∀ status, ({ s with phase := .closing status } : Session).effort t < s.effort t := by
      intro status
      simp only [Session.effort, h]
      omega
    cases hq : t.queue with
    | nil =>
      cases hover : t.seenTerminal || t.evicted with
      | true =>
        simp only [Subscription.recv, hq, hr, hover, Bool.false_eq_true, if_false, if_true]
        exact hlast _
      | false =>
        cases terminal with
        | none =>
          simp only [Subscription.recv, hq, hr, hover, Bool.false_eq_true, if_false]
          exact hlast _
        | some e =>
          simp only [Subscription.recv, hq, hr, hover, Bool.false_eq_true, if_false]
          exact hlast _
    | cons m rest =>
      cases m with
      | terminal e =>
        simp only [Subscription.recv, hq, Service.phaseFor, Session.effort, h, List.length_cons]
        omega
      | block b =>
        simp only [Subscription.recv, hq, Service.phaseFor]
        cases b.select s.filter with
        | ok selection =>
          simp only [Session.effort, h, hq, List.length_cons]
          omega
        | error e =>
          simp only [Session.effort, h, hq, List.length_cons]
          omega
  | send r h hroom =>
    left
    simp only [Session.effort, h, List.length_append, List.length_singleton]
    omega
  | close status h hroom =>
    left
    simp only [Session.effort, h, List.length_append, List.length_singleton]
    omega
  | wait h hfull => exact Or.inr ⟨rfl, rfl, hfull⟩

end Session

namespace Service

/-- What the task of a session does with the bus next. -/
def busOps (service : Service) (id : Nat) : List Bus.Op :=
  match service.sessions[id]? with
  | none => []
  | some s =>
    match s.phase with
    | .done => []
    | .receiving => if s.connected then [.recv s.subscription] else [.drop s.subscription]
    | .sending _ => if s.connected then [] else [.drop s.subscription]
    | .closing _ => if s.connected && !service.hasRoom s then [] else [.drop s.subscription]

theorem step_bus (service : Service) (bus : Bus) (id : Nat) :
    (service.step bus id).2 = bus.after (service.busOps id) := by
  simp only [step, busOps]
  cases service.sessions[id]? with
  | none => rfl
  | some s =>
    dsimp only
    cases s.phase with
    | done => rfl
    | receiving => cases hc : s.connected <;> simp [hc, finishGone, finish, Bus.step]
    | sending response =>
      cases hc : s.connected with
      | false => simp [hc, finishGone, finish, Bus.step]
      | true =>
        cases service.hasRoom s <;> simp
    | closing status =>
      cases hc : s.connected with
      | false => simp [hc, finish, Bus.step]
      | true =>
        cases service.hasRoom s <;> simp [finish, Bus.step]

theorem mem_busOps {service : Service} {id : Nat} {op : Bus.Op} (h : op ∈ service.busOps id) :
    ∃ s, service.sessions[id]? = some s ∧ (op = .recv s.subscription ∨ op = .drop s.subscription) := by
  rw [busOps] at h
  cases hs : service.sessions[id]? with
  | none => simp [hs] at h
  | some s =>
    refine ⟨s, rfl, ?_⟩
    simp only [hs] at h
    split at h
    · cases h
    · split at h
      · exact Or.inl (List.mem_singleton.mp h)
      · exact Or.inr (List.mem_singleton.mp h)
    · split at h
      · cases h
      · exact Or.inr (List.mem_singleton.mp h)
    · split at h
      · cases h
      · exact Or.inr (List.mem_singleton.mp h)

/-- At most one session has moved on, and it keeps its subscription. -/
def Touches (service service' : Service) (id : Nat) : Prop :=
  service'.sessions = service.sessions ∨
    ∃ s s' : Session, service.sessions[id]? = some s ∧
      service'.sessions = service.sessions.set id s' ∧ s'.subscription = s.subscription

theorem Touches.getElem?_of_ne {service service' : Service} {id : Nat}
    (h : service.Touches service' id) {client : Nat} (hne : client ≠ id) :
    service'.sessions[client]? = service.sessions[client]? := by
  rcases h with h | ⟨s, s', _, h, _⟩
  · rw [h]
  · rw [h, List.getElem?_set_ne (Ne.symm hne)]

theorem Touches.subscriptions {service service' : Service} {id : Nat}
    (h : service.Touches service' id) :
    service'.sessions.map Session.subscription = service.sessions.map Session.subscription := by
  rcases h with h | ⟨s, s', hs, h, he⟩
  · rw [h]
  · apply List.ext_getElem?
    intro i
    rw [h, List.getElem?_map, List.getElem?_map]
    by_cases hi : id = i
    · subst hi
      have hl := (List.getElem?_eq_some_iff.mp hs).1
      rw [List.getElem?_set_self hl, hs, Option.map_some, Option.map_some, he]
    · rw [List.getElem?_set_ne hi]

theorem touches_step (service : Service) (bus : Bus) (id : Nat) :
    service.Touches (service.step bus id).1 id := by
  rw [step]
  cases hs : service.sessions[id]? with
  | none => exact Or.inl rfl
  | some s =>
    dsimp only
    split
    · exact Or.inl rfl
    · split
      · exact Or.inr ⟨s, _, hs, rfl, rfl⟩
      · exact Or.inr ⟨s, _, hs, rfl, rfl⟩
    · split
      · exact Or.inr ⟨s, _, hs, rfl, rfl⟩
      · split
        · exact Or.inr ⟨s, _, hs, rfl, rfl⟩
        · exact Or.inl rfl
    · split
      · exact Or.inr ⟨s, _, hs, rfl, rfl⟩
      · split
        · exact Or.inr ⟨s, _, hs, rfl, rfl⟩
        · exact Or.inl rfl

theorem touches_read (service : Service) (id : Nat) : service.Touches (service.read id).2 id := by
  rw [read]
  cases hs : service.sessions[id]? with
  | none => exact Or.inl rfl
  | some s =>
    dsimp only
    split
    · exact Or.inr ⟨s, _, hs, rfl, rfl⟩
    · exact Or.inl rfl

theorem touches_hangUp (service : Service) (id : Nat) : service.Touches (service.hangUp id) id := by
  rw [hangUp]
  cases hs : service.sessions[id]? with
  | none => exact Or.inl rfl
  | some s => exact Or.inr ⟨s, _, hs, rfl, rfl⟩

/-- Every session has a subscription of its own. -/
structure Separate (service : Service) (bus : Bus) : Prop where
  distinct : (service.sessions.map Session.subscription).Nodup
  known : ∀ id ∈ service.sessions.map Session.subscription, id < bus.subscriptions.length

theorem Separate.touches {service service' : Service} {bus bus' : Bus} (h : service.Separate bus)
    {id : Nat} (ht : service.Touches service' id)
    (hlen : bus.subscriptions.length ≤ bus'.subscriptions.length) : service'.Separate bus' := by
  have hsame := ht.subscriptions
  refine ⟨hsame ▸ h.distinct, ?_⟩
  intro i hi
  rw [hsame] at hi
  exact Nat.lt_of_lt_of_le (h.known i hi) hlen

theorem Separate.append {service service' : Service} {bus bus' : Bus} (h : service.Separate bus)
    {s : Session} (he : service'.sessions = service.sessions ++ [s])
    (hs : s.subscription = bus.subscriptions.length)
    (hl : s.subscription < bus'.subscriptions.length) : service'.Separate bus' := by
  have hm : service'.sessions.map Session.subscription =
      service.sessions.map Session.subscription ++ [s.subscription] := by
    rw [he, List.map_append, List.map_singleton]
  refine ⟨?_, ?_⟩
  · rw [hm, List.nodup_append]
    refine ⟨h.distinct, by simp, ?_⟩
    intro a ha b hb
    have hlt := h.known a ha
    rw [List.mem_singleton] at hb
    omega
  · intro id hid
    rw [hm, List.mem_append, List.mem_singleton] at hid
    rcases hid with hid | rfl
    · have hlt := h.known id hid
      omega
    · exact hl

theorem Separate.client_eq {service : Service} {bus : Bus} (h : service.Separate bus) {i j : Nat}
    {s s' : Session} (hs : service.sessions[i]? = some s) (hs' : service.sessions[j]? = some s')
    (he : s.subscription = s'.subscription) : i = j := by
  have hl : i < (service.sessions.map Session.subscription).length := by
    rw [List.length_map]
    exact (List.getElem?_eq_some_iff.mp hs).1
  apply (List.getElem?_inj hl h.distinct).mp
  rw [List.getElem?_map, List.getElem?_map, hs, hs', Option.map_some, Option.map_some, he]

theorem accept_ok {service service' : Service} {bus bus' : Bus} {r : Request} {id : Nat}
    (h : service.accept bus r = .ok (id, service', bus')) :
    ∃ filter, StreamFilter.ofRequest r.markets r.subaccounts = .ok filter ∧ bus.closed = false ∧
      id = service.sessions.length ∧ service'.sessions =
        service.sessions ++ [⟨filter, bus.subscriptions.length, [], true, .receiving⟩] := by
  rw [accept] at h
  split at h
  · cases h
  · rename_i filter hf
    refine ⟨filter, hf, ?_⟩
    rw [Bus.subscribe] at h
    cases hc : bus.closed with
    | true =>
      simp only [hc, if_true] at h
      cases h
    | false =>
      cases ht : bus.terminal <;> simp only [hc, ht, Bool.false_eq_true, if_false] at h <;> cases h <;>
        exact ⟨rfl, rfl, rfl⟩

/-- An accepted request adds a session, which has the newest subscription. -/
theorem accept_session {service service' : Service} {bus bus' : Bus} {r : Request} {id : Nat}
    (h : service.accept bus r = .ok (id, service', bus')) :
    ∃ s : Session, service'.sessions = service.sessions ++ [s] ∧
      s.subscription = bus.subscriptions.length ∧
      s.subscription < (bus.step .subscribe).subscriptions.length := by
  obtain ⟨filter, -, hc, -, hs⟩ := accept_ok h
  have hlen := bus.length_step .subscribe
  simp only [Bus.newcomer, hc, Bool.false_eq_true, if_false, List.length_singleton] at hlen
  refine ⟨_, hs, rfl, ?_⟩
  rw [hlen]
  exact Nat.lt_succ_self _

/-- A session that is not the one touched stays as it is, also where another joins. -/
theorem getElem?_of_untouched {service service' : Service} {client : Nat} {s : Session}
    {p : Nat → Prop} {q : Session → Prop} (hs : service.sessions[client]? = some s)
    (h : (∃ id, service.Touches service' id ∧ p id) ∨ service'.sessions = service.sessions ∨
      ∃ s', service'.sessions = service.sessions ++ [s'] ∧ q s')
    (hp : ¬ p client) : service'.sessions[client]? = some s := by
  rcases h with ⟨id, ht, hid⟩ | he | ⟨s', he, -⟩
  · have hne : client ≠ id := by
      rintro rfl
      exact hp hid
    rw [ht.getElem?_of_ne hne, hs]
  · rw [he, hs]
  · have hl := (List.getElem?_eq_some_iff.mp hs).1
    rw [he, List.getElem?_append_left hl, hs]

theorem step_turn {service : Service} {bus : Bus} {id : Nat} {s : Session} {t : Subscription}
    (hs : service.sessions[id]? = some s) (ht : bus.subscriptions[s.subscription]? = some t)
    (hc : s.connected = true) :
    ∃ s' t', (service.step bus id).1.sessions[id]? = some s' ∧
      (service.step bus id).2.subscriptions[s.subscription]? = some t' ∧
      s.Turn service.capacity bus.terminal t s' t' := by
  have hl := (List.getElem?_eq_some_iff.mp hs).1
  rw [step]
  rw [hs]
  dsimp only
  cases hp : s.phase with
  | done => exact ⟨s, t, hs, ht, .wait (by simp [hp]) (Or.inl hp)⟩
  | receiving =>
    have hr := Bus.getElem?_step ht (.recv s.subscription)
    simp only [Bus.step, Bus.effect, if_true] at hr
    simp only [hc, Bool.not_true, Bool.false_eq_true, if_false]
    refine ⟨_, _, ?_, hr, .receive hp⟩
    rw [put, List.getElem?_set_self hl, Bus.closeReason_eq hr, Bus.recv_fst ht]
    simp [Subscription.closeReason, hc]
  | sending r =>
    simp only [hc, Bool.not_true, Bool.false_eq_true, if_false]
    by_cases hroom : service.hasRoom s = true
    · rw [if_pos hroom]
      refine ⟨_, t, ?_, ht, .send r hp (by simpa [hasRoom] using hroom)⟩
      simp [put, hl, hc]
    · rw [if_neg hroom]
      exact ⟨s, t, hs, ht, .wait (by simp [hp]) (Or.inr (by simpa [hasRoom] using hroom))⟩
  | closing status =>
    simp only [hc, Bool.not_true, Bool.false_eq_true, if_false]
    by_cases hroom : service.hasRoom s = true
    · have hd := Bus.getElem?_step ht (.drop s.subscription)
      simp only [Bus.step, Bus.effect, if_true] at hd
      rw [if_pos hroom]
      refine ⟨_, _, ?_, hd, .close status hp (by simpa [hasRoom] using hroom)⟩
      simp [finish, put, hl, hc]
    · rw [if_neg hroom]
      exact ⟨s, t, hs, ht, .wait (by simp [hp]) (Or.inr (by simpa [hasRoom] using hroom))⟩

/-- What is read, unless nothing was there yet. -/
def Read.news : Read → List Read
  | .pending => []
  | r => [r]

/-- A client reads the first item of its buffer; from an empty one it learns at most that this is the
end. -/
theorem read_session {service : Service} {id : Nat} {s : Session}
    (hs : service.sessions[id]? = some s) :
    (∃ item rest, s.buffer = item :: rest ∧ (service.read id).1.news = [.item item] ∧
      (service.read id).2.sessions[id]? = some { s with buffer := rest }) ∨
    s.buffer = [] ∧ (service.read id).1.news = (if s.phase = .done then [.ended] else []) ∧
      (service.read id).2.sessions[id]? = some s := by
  have hl := (List.getElem?_eq_some_iff.mp hs).1
  simp only [read, hs]
  cases hb : s.buffer with
  | nil =>
    refine Or.inr ⟨rfl, ?_, hs⟩
    by_cases hd : s.phase = .done <;> simp [hd, Read.news]
  | cons item rest =>
    refine Or.inl ⟨item, rest, rfl, rfl, ?_⟩
    simp [put, hl]

end Service

end BlockFeed
