import BlockFeed.Proofs.World.Operation

/-! Sessions side by side. Each has a subscription of its own, and no operation moves more than one of
them. All that can happen to one is a turn of its task, a reading of its client, or something that
leaves it alone and at most queues for it. -/

namespace BlockFeed

namespace World

/-- What an operation does to the sessions: it moves at most one, or adds one at the end. -/
theorem sessions_step (w : World) (op : Op) :
    (∃ id, w.service.Touches (w.step op).service id ∧
      (op = .read id ∨ op = .hangUp id ∨ w.turn op = some (.session id))) ∨
    (w.step op).service.sessions = w.service.sessions ∨
    ∃ s : Session, (w.step op).service.sessions = w.service.sessions ++ [s] ∧
      s.subscription = w.bus.subscriptions.length ∧
      s.subscription < (w.step op).bus.subscriptions.length := by
  have hturn : ∀ t, w.turn op = some t → (∃ id, w.service.Touches (w.step op).service id ∧
      (op = .read id ∨ op = .hangUp id ∨ w.turn op = some (.session id))) ∨
      (w.step op).service.sessions = w.service.sessions := by
    intro t ht
    obtain ⟨ready, hs⟩ := step_turn ht
    rw [hs]
    show (∃ id, w.service.Touches (w.advance t).service id ∧ _) ∨ (w.advance t).service.sessions = _
    rw [service_advance]
    cases t with
    | session id => exact Or.inl ⟨id, w.service.touches_step w.bus id, Or.inr (Or.inr ht)⟩
    | _ => exact Or.inr rfl
  cases op with
  | read id =>
    rw [service_step]
    exact Or.inl ⟨id, w.service.touches_read id, Or.inl rfl⟩
  | hangUp id =>
    rw [service_step]
    exact Or.inl ⟨id, w.service.touches_hangUp id, Or.inr (Or.inl rfl)⟩
  | task t => exact (hturn t rfl).imp_right Or.inl
  | tick =>
    cases ht : w.turn .tick with
    | none =>
      obtain ⟨ready, hs⟩ := step_tick_of_idle ht
      exact Or.inr (Or.inl (by rw [hs]))
    | some t =>
      rw [ht] at hturn
      exact (hturn t rfl).imp_right Or.inl
  | accept r =>
    right
    rw [service_step, bus_step]
    simp only [serviceAfter]
    cases ha : w.service.accept w.bus r with
    | error e => exact Or.inl rfl
    | ok accepted =>
      obtain ⟨id, service, bus⟩ := accepted
      obtain ⟨filter, hf, -⟩ := Service.accept_ok ha
      have hb : w.busOps (.accept r) = [.subscribe] := by
        simp [busOps, publisherOps, readerOps, turn, hf]
      rw [hb, Bus.after, Run.after_cons, Run.after_nil]
      exact Or.inr (Service.accept_session ha)
  | _ =>
    rw [service_step]
    exact Or.inr (Or.inl rfl)

abbrev Separate (w : World) : Prop := w.service.Separate w.bus

theorem separate_new (capacity subscriberCapacity clientBuffer : Nat) :
    (new capacity subscriberCapacity clientBuffer).Separate :=
  ⟨List.nodup_nil, nofun⟩

theorem Separate.step {w : World} (h : w.Separate) (op : Op) : (w.step op).Separate := by
  have hlen : w.bus.subscriptions.length ≤ (w.step op).bus.subscriptions.length := by
    rw [bus_step]
    exact w.bus.length_le_after _
  rcases w.sessions_step op with ⟨id, ht, _⟩ | he | ⟨s, he, hs, hl⟩
  · exact h.touches ht hlen
  · exact h.touches (Or.inl he : w.service.Touches _ 0) hlen
  · exact h.append he hs hl

theorem Separate.after {w : World} (h : w.Separate) (ops : List Op) : (w.after ops).Separate :=
  Run.after_induction (fun _ op hw => hw.step op) h ops

def heardAt (client : Nat) (w : World) : Op → List Service.Read
  | .read c => if c = client then (w.read c).1.news else []
  | _ => []

abbrev heard (w : World) (client : Nat) (ops : List Op) : List Service.Read :=
  Run.output step (heardAt client) w ops

/-- What an operation can do to the session of a client and its subscription, and what the client
reads. -/
inductive Move (w : World) (op : Op) (client : Nat) (s : Session) (t : Subscription) :
    Session → Subscription → List Service.Read → Prop where
  | turn {s' : Session} {t' : Subscription} (h : w.turn op = some (.session client))
      (hm : s.Turn w.service.capacity w.bus.terminal t s' t') : Move w op client s t s' t' []
  | read (item : Item) (rest : List Item) (h : op = .read client) (hb : s.buffer = item :: rest) :
      Move w op client s t { s with buffer := rest } t [.item item]
  | idle (h : op = .read client) (hb : s.buffer = []) :
      Move w op client s t s t (if s.phase = .done then [.ended] else [])
  | other {t' : Subscription} (hread : op ≠ .read client) (hturn : w.turn op ≠ some (.session client))
      (h : ∀ o ∈ w.busOps op, o.subject? ≠ some s.subscription) : Move w op client s t s t' []

theorem taskReaderOps_foreign {w : World} (hw : w.Separate) {client : Nat} {s : Session}
    (hs : w.service.sessions[client]? = some s) {t : Task} (ht : t ≠ .session client) :
    ∀ o ∈ w.taskReaderOps t, o.subject? ≠ some s.subscription := by
  intro o ho
  cases t with
  | session id =>
    obtain ⟨s', hs', ho'⟩ := Service.mem_busOps ho
    have hne : s'.subscription ≠ s.subscription := by
      intro he
      have hid := hw.client_eq hs' hs he
      exact ht (by rw [hid])
    rcases ho' with rfl | rfl
    · simpa [Bus.Op.subject?] using hne
    · simpa [Bus.Op.subject?] using hne
  | _ => cases ho

theorem busOps_foreign {w : World} (hw : w.Separate) {client : Nat} {s : Session}
    (hs : w.service.sessions[client]? = some s) {op : Op} (hun : op ≠ .unsubscribe s.subscription)
    (hturn : w.turn op ≠ some (.session client)) :
    ∀ o ∈ w.busOps op, o.subject? ≠ some s.subscription := by
  have hattended : w.attended s.subscription = true := by
    simp only [attended, List.any_eq_true]
    exact ⟨s, List.mem_of_getElem? hs, by simp⟩
  have hfree : ∀ id, w.attended id = false → id ≠ s.subscription := by
    rintro id ha rfl
    rw [hattended] at ha
    cases ha
  intro o ho
  rw [busOps, List.mem_append] at ho
  rcases ho with ho | ho
  · obtain ⟨call, _, rfl⟩ := List.mem_map.mp ho
    cases call <;> simp [BusCall.op, Bus.Op.subject?]
  · rcases mem_readerOps ho with rfl | ⟨rfl, _⟩ | ⟨id, ha, rfl | rfl⟩ | ⟨id, rfl, rfl⟩ | ⟨t, ht, hm⟩
    · exact (Option.some_ne_none _).symm
    · exact (Option.some_ne_none _).symm
    · exact fun he => hfree id ha (Option.some.inj he)
    · exact fun he => hfree id ha (Option.some.inj he)
    · exact fun he => hun (by rw [Option.some.inj he])
    · exact taskReaderOps_foreign hw hs (fun he => hturn (by rw [ht, he])) o hm

theorem move_step {w : World} (hw : w.Separate) {client : Nat} {s : Session} {t : Subscription}
    (hs : w.service.sessions[client]? = some s)
    (ht : w.bus.subscriptions[s.subscription]? = some t) (hc : s.connected = true) {op : Op}
    (hop : op ≠ .hangUp client) (hun : op ≠ .unsubscribe s.subscription) :
    ∃ s' t', (w.step op).service.sessions[client]? = some s' ∧
      (w.step op).bus.subscriptions[s.subscription]? = some t' ∧
      w.Move op client s t s' t' (w.heardAt client op) := by
  by_cases hread : op = .read client
  · subst hread
    have hb : (w.step (.read client)).bus = w.bus := bus_step w (.read client)
    rw [service_step, hb]
    simp only [serviceAfter, heardAt, World.read, if_true]
    rcases Service.read_session hs with ⟨item, rest, hbuf, hnews, hs'⟩ | ⟨hbuf, hnews, hs'⟩
    · rw [hnews]
      exact ⟨_, t, hs', ht, .read item rest rfl hbuf⟩
    · rw [hnews]
      exact ⟨s, t, hs', ht, .idle rfl hbuf⟩
  · by_cases hturn : w.turn op = some (.session client)
    · obtain ⟨ready, hstep⟩ := step_turn hturn
      obtain ⟨s', t', hs', ht', hm⟩ := Service.step_turn hs ht hc
      have hh : heardAt client w op = [] := by
        cases op with
        | read c => cases hturn
        | _ => rfl
      rw [hstep, hh]
      exact ⟨s', t', hs', ht', .turn hturn hm⟩
    · have hf := busOps_foreign hw hs hun hturn
      obtain ⟨t', ht'⟩ := Bus.getElem?_after ht (w.busOps op)
      have hs' := Service.getElem?_of_untouched hs (w.sessions_step op) (by simp [hread, hop, hturn])
      have hh : heardAt client w op = [] := by
        cases op with
        | read c =>
          have hne : c ≠ client := fun he => hread (by rw [he])
          simp [heardAt, hne]
        | _ => rfl
      rw [hh]
      exact ⟨s, t', hs', bus_step w op ▸ ht', .other hread hturn hf⟩

end World

end BlockFeed
