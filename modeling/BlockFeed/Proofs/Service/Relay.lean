import BlockFeed.Proofs.Service.Turn

/-! The bus and the service over it, with any interleaving of what others do with the bus, of the
tasks of the sessions and of their clients. A session's subscription is its own. -/

namespace BlockFeed

structure Relay where
  bus : Bus
  service : Service

namespace Relay

def new (subscriberCapacity clientBuffer : Nat) : Relay :=
  ⟨.new subscriberCapacity, .new clientBuffer⟩

inductive Op where
  | publish (height : UInt64) (records : List Record)
  | fail (e : FeedError)
  | subscribe
  | recv (id : Nat)
  | unsubscribe (id : Nat)
  | drop (id : Nat)
  | close
  | accept (r : Request)
  /-- The task of a session does one thing. -/
  | turn (client : Nat)
  | read (client : Nat)
  | hangUp (client : Nat)

/-- The subscription belongs to a session. -/
def attended (x : Relay) (id : Nat) : Bool := x.service.sessions.any (·.subscription = id)

def busOps (x : Relay) : Op → List Bus.Op
  | .publish height records => [.publish (.aggregate height records)]
  | .fail e => [.fail e]
  | .subscribe => [.subscribe]
  | .recv id => if x.attended id then [] else [.recv id]
  | .unsubscribe id => [.unsubscribe id]
  | .drop id => if x.attended id then [] else [.drop id]
  | .close => [.close]
  | .accept r => match StreamFilter.ofRequest r.markets r.subaccounts with
    | .ok _ => [.subscribe]
    | .error _ => []
  | .turn client => x.service.busOps client
  | .read _ | .hangUp _ => []

def step (x : Relay) : Op → Relay
  | .accept r => match x.service.accept x.bus r with
    | .ok (_, service, bus) => ⟨bus, service⟩
    | .error _ => x
  | .turn client => ⟨(x.service.step x.bus client).2, (x.service.step x.bus client).1⟩
  | .read client => { x with service := (x.service.read client).2 }
  | .hangUp client => { x with service := x.service.hangUp client }
  | op => { x with bus := x.bus.after (x.busOps op) }

abbrev after (x : Relay) (ops : List Op) : Relay := Run.after step x ops

theorem bus_step (x : Relay) (op : Op) : (x.step op).bus = x.bus.after (x.busOps op) := by
  cases op with
  | turn client => exact x.service.step_bus x.bus client
  | accept r =>
    simp only [step, busOps, Service.accept]
    cases StreamFilter.ofRequest r.markets r.subaccounts with
    | error e => rfl
    | ok filter =>
      cases hs : x.bus.subscribe with
      | error e => simp [Bus.step, hs]
      | ok accepted => simp [Bus.step, hs]
  | _ => rfl

/-- An operation moves at most one session, or adds one that has the newest subscription. -/
theorem sessions_step (x : Relay) (op : Op) :
    (∃ id, x.service.Touches (x.step op).service id ∧
      (op = .read id ∨ op = .hangUp id ∨ op = .turn id)) ∨
    (x.step op).service.sessions = x.service.sessions ∨
    ∃ s : Session, (x.step op).service.sessions = x.service.sessions ++ [s] ∧
      s.subscription = x.bus.subscriptions.length ∧
      s.subscription < (x.step op).bus.subscriptions.length := by
  cases op with
  | read id => exact Or.inl ⟨id, x.service.touches_read id, Or.inl rfl⟩
  | hangUp id => exact Or.inl ⟨id, x.service.touches_hangUp id, Or.inr (Or.inl rfl)⟩
  | turn id => exact Or.inl ⟨id, x.service.touches_step x.bus id, Or.inr (Or.inr rfl)⟩
  | accept r =>
    right
    rw [bus_step]
    simp only [step]
    cases ha : x.service.accept x.bus r with
    | error e => exact Or.inl rfl
    | ok accepted =>
      obtain ⟨id, service, bus⟩ := accepted
      obtain ⟨filter, hf, -⟩ := Service.accept_ok ha
      simp only [busOps, hf, Bus.after, Run.after_cons, Run.after_nil]
      exact Or.inr (Service.accept_session ha)
  | _ => exact Or.inr (Or.inl rfl)

abbrev Separate (x : Relay) : Prop := x.service.Separate x.bus

theorem separate_new (subscriberCapacity clientBuffer : Nat) :
    (new subscriberCapacity clientBuffer).Separate :=
  ⟨List.nodup_nil, nofun⟩

theorem Separate.step {x : Relay} (h : x.Separate) (op : Op) : (x.step op).Separate := by
  have hlen : x.bus.subscriptions.length ≤ (x.step op).bus.subscriptions.length := by
    rw [bus_step]
    exact x.bus.length_le_after _
  rcases x.sessions_step op with ⟨id, ht, _⟩ | he | ⟨s, he, hs, hl⟩
  · exact h.touches ht hlen
  · exact h.touches (Or.inl he : x.service.Touches _ 0) hlen
  · exact h.append he hs hl

theorem Separate.after {x : Relay} (h : x.Separate) (ops : List Op) : (x.after ops).Separate :=
  Run.after_induction (fun _ op hx => hx.step op) h ops

/-- Nobody else reads the subscription of a session or lets go of it. -/
theorem busOps_foreign {x : Relay} (hx : x.Separate) {client : Nat} {s : Session}
    (hs : x.service.sessions[client]? = some s) {op : Op} (hturn : op ≠ .turn client) :
    ∀ o ∈ x.busOps op, o ≠ .recv s.subscription ∧ o ≠ .drop s.subscription := by
  have hattended : x.attended s.subscription = true := by
    simp only [attended, List.any_eq_true]
    exact ⟨s, List.mem_of_getElem? hs, by simp⟩
  have hfree : ∀ id, x.attended id = false → id ≠ s.subscription := by
    rintro id ha rfl
    rw [hattended] at ha
    cases ha
  intro o ho
  cases op with
  | recv id =>
    cases ha : x.attended id with
    | true => simp [busOps, ha] at ho
    | false =>
      simp only [busOps, ha, Bool.false_eq_true, if_false, List.mem_singleton] at ho
      subst ho
      exact ⟨fun he => hfree id ha (Bus.Op.recv.inj he), Bus.Op.noConfusion⟩
  | drop id =>
    cases ha : x.attended id with
    | true => simp [busOps, ha] at ho
    | false =>
      simp only [busOps, ha, Bool.false_eq_true, if_false, List.mem_singleton] at ho
      subst ho
      exact ⟨Bus.Op.noConfusion, fun he => hfree id ha (Bus.Op.drop.inj he)⟩
  | turn id =>
    obtain ⟨s', hs', ho'⟩ := Service.mem_busOps ho
    have hne : s'.subscription ≠ s.subscription := by
      intro he
      have hid := hx.client_eq hs' hs he
      exact hturn (by rw [hid])
    rcases ho' with rfl | rfl
    · exact ⟨fun he => hne (Bus.Op.recv.inj he), Bus.Op.noConfusion⟩
    · exact ⟨Bus.Op.noConfusion, fun he => hne (Bus.Op.drop.inj he)⟩
  | accept r =>
    simp only [busOps] at ho
    split at ho
    · rw [List.mem_singleton] at ho
      subst ho
      exact ⟨Bus.Op.noConfusion, Bus.Op.noConfusion⟩
    · cases ho
  | read id => cases ho
  | hangUp id => cases ho
  | _ =>
    rw [busOps, List.mem_singleton] at ho
    subst ho
    exact ⟨Bus.Op.noConfusion, Bus.Op.noConfusion⟩

end Relay

end BlockFeed
