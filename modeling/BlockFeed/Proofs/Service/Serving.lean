import BlockFeed.Proofs.Service.Account
import BlockFeed.Proofs.Service.Relay

/-! One client among all that goes on: its task takes a turn, it reads, or something happens that at
most queues for its subscription or ends it. -/

namespace BlockFeed

namespace Relay

/-- What the task of a session gets from its subscription. -/
def receivedAt (client : Nat) (x : Relay) : Op → List Received
  | .turn c =>
    if c = client then
      (x.service.busOps c).flatMap fun
        | .recv id => (x.bus.recv id).1.news
        | _ => []
    else []
  | _ => []

abbrev received (x : Relay) (client : Nat) (ops : List Op) : List Received :=
  Run.output step (receivedAt client) x ops

def heardAt (client : Nat) (x : Relay) : Op → List Service.Read
  | .read c => if c = client then (x.service.read c).1.news else []
  | _ => []

abbrev heard (x : Relay) (client : Nat) (ops : List Op) : List Service.Read :=
  Run.output step (heardAt client) x ops

/-- What an operation can do to the session of a client and its subscription. -/
inductive Move (x : Relay) (op : Op) (client : Nat) (s : Session) (t : Subscription) :
    Session → Subscription → List Received → List Service.Read → Prop where
  | turn {s' : Session} {t' : Subscription} (h : op = .turn client)
      (hm : s.Turn x.service.capacity x.bus.terminal t s' t') :
      Move x op client s t s' t'
        (if s.phase = .receiving then (t.recv x.bus.terminal).1.news else []) []
  | read (item : Item) (rest : List Item) (h : op = .read client) (hb : s.buffer = item :: rest) :
      Move x op client s t { s with buffer := rest } t [] [.item item]
  | idle (h : op = .read client) (hb : s.buffer = []) :
      Move x op client s t s t [] (if s.phase = .done then [.ended] else [])
  | other {t' : Subscription} (hturn : op ≠ .turn client) (hread : op ≠ .read client)
      (hsame : t.registered = false → t' = t)
      (hpaired : ∀ b ∈ t'.backlog, b ∈ t.backlog ∨ b.Paired) : Move x op client s t s t' [] []

theorem receivedAt_turn {x : Relay} {client : Nat} {s : Session} {t : Subscription}
    (hs : x.service.sessions[client]? = some s) (ht : x.bus.subscriptions[s.subscription]? = some t)
    (hc : s.connected = true) : x.receivedAt client (.turn client) =
      if s.phase = .receiving then (t.recv x.bus.terminal).1.news else [] := by
  simp only [receivedAt, if_true, Service.busOps, hs, hc]
  cases s.phase with
  | receiving => simp [Bus.recv_fst ht]
  | closing status => cases x.service.hasRoom s <;> simp
  | _ => simp

theorem paired_of_publish {x : Relay} {op : Op} {block : Block} (h : .publish block ∈ x.busOps op) :
    block.Paired := by
  cases op with
  | publish height records =>
    simp only [busOps, List.mem_singleton, Bus.Op.publish.injEq] at h
    rw [h]
    exact Block.paired_aggregate height records
  | turn c =>
    obtain ⟨s, -, hop | hop⟩ := Service.mem_busOps h <;> cases hop
  | accept r =>
    simp only [busOps] at h
    split at h <;> simp at h
  | recv id =>
    simp only [busOps] at h
    split at h <;> simp at h
  | drop id =>
    simp only [busOps] at h
    split at h <;> simp at h
  | _ => simp [busOps] at h

theorem move_step {x : Relay} (hx : x.Separate) {client : Nat} {s : Session} {t : Subscription}
    (hs : x.service.sessions[client]? = some s)
    (ht : x.bus.subscriptions[s.subscription]? = some t) (hc : s.connected = true) {op : Op}
    (hop : op ≠ .hangUp client) :
    ∃ s' t', (x.step op).service.sessions[client]? = some s' ∧
      (x.step op).bus.subscriptions[s.subscription]? = some t' ∧
      x.Move op client s t s' t' (x.receivedAt client op) (x.heardAt client op) := by
  by_cases hturn : op = .turn client
  · subst hturn
    obtain ⟨s', t', hs', ht', hm⟩ := Service.step_turn hs ht hc
    rw [receivedAt_turn hs ht hc]
    exact ⟨s', t', hs', ht', .turn rfl hm⟩
  by_cases hread : op = .read client
  · subst hread
    simp only [step, receivedAt, heardAt, if_true]
    rcases Service.read_session hs with ⟨item, rest, hb, hnews, hs'⟩ | ⟨hb, hnews, hs'⟩
    · rw [hnews]
      exact ⟨_, t, hs', ht, .read item rest rfl hb⟩
    · rw [hnews]
      exact ⟨s, t, hs', ht, .idle rfl hb⟩
  · obtain ⟨t', ht', hsame, hgain⟩ := Bus.after_of_unread ht (busOps_foreign hx hs hturn)
    have hs' := Service.getElem?_of_untouched hs (x.sessions_step op) (by simp [hread, hop, hturn])
    have hreceived : x.receivedAt client op = [] := by
      cases op with
      | turn c =>
        have hne : c ≠ client := fun he => hturn (by rw [he])
        simp [receivedAt, hne]
      | _ => rfl
    have hheard : x.heardAt client op = [] := by
      cases op with
      | read c =>
        have hne : c ≠ client := fun he => hread (by rw [he])
        simp [heardAt, hne]
      | _ => rfl
    rw [hreceived, hheard]
    refine ⟨s, t', hs', by rw [bus_step, ht'], .other hturn hread hsame ?_⟩
    intro b hb
    exact (hgain b hb).imp_right paired_of_publish

theorem Move.kept {x : Relay} {op : Op} {client : Nat} {s s' : Session} {t t' : Subscription}
    {received : List Received} {heard : List Service.Read}
    (h : x.Move op client s t s' t' received heard) :
    s'.subscription = s.subscription ∧ s'.filter = s.filter := by
  cases h with
  | turn h hm => exact hm.connected.2
  | _ => exact ⟨rfl, rfl⟩

theorem Move.told {x : Relay} {op : Op} {client : Nat} {s s' : Session} {t t' : Subscription}
    {received received' : List Received} {heard heard' : List Service.Read}
    (h : x.Move op client s t s' t' received' heard') (hs : s.Told t received heard) :
    s'.Told t' (received ++ received') (heard ++ heard') := by
  cases h with
  | turn h hm =>
    rw [List.append_nil]
    exact hs.turn hm
  | read item rest h hb =>
    rw [List.append_nil]
    exact hs.read hb
  | idle h hb =>
    rw [List.append_nil]
    exact hs.idle hb
  | other hturn hread hsame hpaired =>
    rw [List.append_nil, List.append_nil]
    exact hs.other hsame hpaired

/-- The stream of a client that has stayed. -/
structure Serves (x : Relay) (client : Nat) (s : Session) (t : Subscription)
    (received : List Received) (heard : List Service.Read) : Prop where
  separate : x.Separate
  session : x.service.sessions[client]? = some s
  subscription : x.bus.subscriptions[s.subscription]? = some t
  told : s.Told t received heard

theorem Serves.step {x : Relay} {client : Nat} {s : Session} {t : Subscription}
    {received : List Received} {heard : List Service.Read}
    (h : x.Serves client s t received heard) {op : Op} (hop : op ≠ .hangUp client) :
    ∃ s' t', (x.step op).Serves client s' t' (received ++ x.receivedAt client op)
        (heard ++ x.heardAt client op) ∧
      s'.subscription = s.subscription ∧ s'.filter = s.filter ∧
      x.Move op client s t s' t' (x.receivedAt client op) (x.heardAt client op) := by
  obtain ⟨s', t', hs', ht', hm⟩ :=
    move_step h.separate h.session h.subscription h.told.connected hop
  obtain ⟨hsub, hfilter⟩ := hm.kept
  rw [← hsub] at ht'
  exact ⟨s', t', ⟨h.separate.step op, hs', ht', hm.told h.told⟩, hsub, hfilter, hm⟩

theorem Serves.run {x : Relay} {client : Nat} {s : Session} {t : Subscription}
    {received : List Received} {heard : List Service.Read}
    (h : x.Serves client s t received heard) {ops : List Op} (hops : .hangUp client ∉ ops) :
    ∃ s' t', (x.after ops).Serves client s' t' (received ++ x.received client ops)
        (heard ++ x.heard client ops) ∧
      s'.subscription = s.subscription ∧ s'.filter = s.filter := by
  induction ops generalizing x s t received heard with
  | nil => exact ⟨s, t, by simpa using h, rfl, rfl⟩
  | cons op ops ih =>
    rw [List.mem_cons, not_or] at hops
    obtain ⟨s', t', h', hsub, hfilter, -⟩ := h.step (Ne.symm hops.1)
    obtain ⟨s'', t'', h'', hsub', hfilter'⟩ := ih h' hops.2
    rw [List.append_assoc, List.append_assoc] at h''
    exact ⟨s'', t'', h'', hsub'.trans hsub, hfilter'.trans hfilter⟩

end Relay

end BlockFeed
