import BlockFeed.Proofs.Bus.Exit
import BlockFeed.Proofs.Service.Account
import BlockFeed.Proofs.Service.Census

/-! How the tasks of sessions end, and what any operation can do with a session on the way there. A
task whose client has gone may still come to what is waiting for it first. -/

namespace BlockFeed

namespace Session

/-- The task ends with a status for its client, or without one because the client is gone. -/
inductive Ending where
  | told
  | gone
  deriving Repr, DecidableEq

def Ending.reason? : Ending → Option DropReason
  | .told => none
  | .gone => some .clientGone

/-- What it is to end in this phase. -/
def Phase.ending : Phase → Ending
  | .closing _ => .told
  | _ => .gone

/-- Where a session stands: its subscription and its phase. -/
def stand (s : Session) : Nat × Phase := (s.subscription, s.phase)

/-- How the task has ended, if it had not in a former state. -/
def ending (s : Session) (former : Option Session) : List (Nat × Ending) :=
  match former with
  | some f => if f.unfinished && !s.unfinished then [(s.subscription, f.phase.ending)] else []
  | none => []

theorem ending_of_phase_eq {s f : Session} (h : s.phase = f.phase) : s.ending (some f) = [] := by
  simp [ending, unfinished, h]

theorem ending_of_unfinished {s : Session} (h : s.phase ≠ .done) (former : Option Session) :
    s.ending former = [] := by
  cases former <;> simp [ending, unfinished, h]

theorem ending_of_finished {s f : Session} (h : f.phase ≠ .done) (h' : s.phase = .done) :
    s.ending (some f) = [(s.subscription, f.phase.ending)] := by
  simp [ending, unfinished, h, h']

end Session

namespace Service

/-- The tasks that have ended since a former state, known by their subscriptions. -/
def endings (former service : Service) : List (Nat × Session.Ending) :=
  (service.sessions.mapIdx fun id s => s.ending former.sessions[id]?).flatten

/-- The task of a session takes what is waiting for it, whether its client is there or not. -/
def overlook (service : Service) (bus : Bus) (id : Nat) : Service × Bus :=
  match service.sessions[id]? with
  | none => (service, bus)
  | some s =>
    if s.phase = .receiving ∧ bus.isReady s.subscription = true then
      let (received, bus) := bus.recv s.subscription
      let phase := phaseFor s.filter (bus.closeReason s.subscription) received
      (service.put id { s with phase }, bus)
    else (service, bus)

/-- What that does with the bus. -/
def overlookOps (service : Service) (bus : Bus) (id : Nat) : List Bus.Op :=
  match service.sessions[id]? with
  | none => []
  | some s =>
    if s.phase = .receiving ∧ bus.isReady s.subscription = true then [.recv s.subscription] else []

/-- What an operation can do with the sessions on the way to their ends; the last argument is what it
does with the bus. -/
inductive Stage (service : Service) (bus : Bus) (service' : Service) : List Bus.Op → Prop where
  | aside (ops : List Bus.Op)
      (hsessions : service'.sessions.map Session.stand = service.sessions.map Session.stand)
      (hgone : service'.clientsGone = service.clientsGone)
      (hops : ∀ s ∈ service.sessions, .drop s.subscription ∉ ops) : Stage service bus service' ops
  | join (s : Session) (hjoin : service'.sessions = service.sessions ++ [s])
      (hgone : service'.clientsGone = service.clientsGone) (hphase : s.phase = .receiving)
      (hsub : s.subscription = bus.subscriptions.length) (hopen : bus.closed = false) :
      Stage service bus service' [.subscribe]
  | take (id : Nat) (s s' : Session) (hs : service.sessions[id]? = some s)
      (hset : service'.sessions = service.sessions.set id s')
      (hgone : service'.clientsGone = service.clientsGone)
      (hsub : s'.subscription = s.subscription) (hphase : s.phase = .receiving)
      (reason : CloseReason) (hnext : s'.phase = phaseFor s.filter reason (bus.recv s.subscription).1) :
      Stage service bus service' [.recv s.subscription]
  | send (id : Nat) (s s' : Session) (hs : service.sessions[id]? = some s)
      (hset : service'.sessions = service.sessions.set id s')
      (hgone : service'.clientsGone = service.clientsGone)
      (hsub : s'.subscription = s.subscription) (r : Response) (hphase : s.phase = .sending r)
      (hnext : s'.phase = .receiving) : Stage service bus service' []
  | finish (id : Nat) (s s' : Session) (hs : service.sessions[id]? = some s)
      (hset : service'.sessions = service.sessions.set id s')
      (hgone : service'.clientsGone =
        service.clientsGone + if s.phase.ending = .gone then 1 else 0)
      (hsub : s'.subscription = s.subscription) (hphase : s.phase ≠ .done)
      (hnext : s'.phase = .done) : Stage service bus service' [.drop s.subscription]

variable {service service' : Service} {bus : Bus}

section Endings

theorem endings_of_stand
    (h : service'.sessions.map Session.stand = service.sessions.map Session.stand) :
    service.endings service' = [] := by
  refine List.flatten_eq_nil_iff.mpr fun xs hxs => ?_
  obtain ⟨id, hid, rfl⟩ := List.mem_mapIdx.mp hxs
  have hstand : some service'.sessions[id].stand = service.sessions[id]?.map Session.stand := by
    rw [← List.getElem?_map, ← h, List.getElem?_map, List.getElem?_eq_getElem hid, Option.map_some]
  cases hs : service.sessions[id]? with
  | none => rfl
  | some s =>
    rw [hs, Option.map_some, Option.some.injEq] at hstand
    exact Session.ending_of_phase_eq (congrArg Prod.snd hstand)

theorem endings_set {id : Nat} {s s' : Session} (hs : service.sessions[id]? = some s)
    (hset : service'.sessions = service.sessions.set id s') :
    service.endings service' = s'.ending (some s) :=
  flatten_set (fun _ => Session.ending_of_phase_eq rfl) hs hset

theorem endings_join {s : Session} (hjoin : service'.sessions = service.sessions ++ [s]) :
    service.endings service' = [] :=
  flatten_concat (f := Session.ending) (fun _ => Session.ending_of_phase_eq rfl) hjoin

end Endings

theorem Stage.same (service : Service) (bus : Bus) : service.Stage bus service [] :=
  .aside [] rfl rfl fun _ _ => List.not_mem_nil

theorem Stage.keep {id : Nat} {s s' : Session} (hs : service.sessions[id]? = some s)
    (hstand : s'.stand = s.stand) : service.Stage bus (service.put id s') [] := by
  refine .aside [] ?_ rfl fun _ _ => List.not_mem_nil
  obtain ⟨hlt, hget⟩ := List.getElem?_eq_some_iff.mp hs
  rw [put, List.map_set, hstand, ← List.map_set, ← hget, List.set_getElem_self]

theorem stage_read (service : Service) (bus : Bus) (id : Nat) :
    service.Stage bus (service.read id).2 [] := by
  rw [read]
  cases hs : service.sessions[id]? with
  | none => exact .same service bus
  | some s =>
    dsimp only
    split
    case h_1 item rest hb => exact .keep hs rfl
    case h_2 => exact .same service bus

theorem stage_hangUp (service : Service) (bus : Bus) (id : Nat) :
    service.Stage bus (service.hangUp id) [] := by
  rw [hangUp]
  cases hs : service.sessions[id]? with
  | none => exact .same service bus
  | some s => exact .keep hs rfl

theorem stage_accept {bus' : Bus} {r : Request} {id : Nat}
    (h : service.accept bus r = .ok (id, service', bus')) : service.Stage bus service' [.subscribe] := by
  obtain ⟨filter, -, hopen, -, hs⟩ := accept_ok h
  have hgone : service'.clientsGone = service.clientsGone := by
    rw [accept] at h
    split at h
    · cases h
    · split at h
      · cases h
      · cases h
        rfl
  exact .join _ hs hgone rfl rfl hopen

theorem overlook_bus (service : Service) (bus : Bus) (id : Nat) :
    (service.overlook bus id).2 = bus.after (service.overlookOps bus id) := by
  rw [overlook, overlookOps]
  cases service.sessions[id]? with
  | none => rfl
  | some s =>
    dsimp only
    split <;> rfl

theorem stage_overlook (service : Service) (bus : Bus) (id : Nat) :
    service.Stage bus (service.overlook bus id).1 (service.overlookOps bus id) := by
  rw [overlook, overlookOps]
  cases hs : service.sessions[id]? with
  | none => exact .same service bus
  | some s =>
    dsimp only
    split
    case isTrue h => exact .take id s _ hs rfl rfl rfl h.1 _ rfl
    case isFalse => exact .same service bus

theorem stage_finish {id : Nat} {s s' : Session} (hs : service.sessions[id]? = some s)
    (hsub : s'.subscription = s.subscription) {status : Grpc.Status} (hphase : s.phase = .closing status) :
    service.Stage bus (service.finish id s' bus).1 [.drop s.subscription] := by
  refine .finish id s { s' with phase := .done } hs rfl ?_ hsub (by simp [hphase]) rfl
  rw [hphase]
  rfl

theorem stage_finishGone {id : Nat} {s : Session} (hs : service.sessions[id]? = some s)
    (hphase : s.Going) : service.Stage bus (service.finishGone id s bus).1 [.drop s.subscription] := by
  refine .finish id s { s with phase := .done } hs rfl ?_ rfl ?_ rfl
  · rcases hphase with h | ⟨r, h⟩ <;> rw [h] <;> rfl
  · rcases hphase with h | ⟨r, h⟩ <;> simp [h]

theorem stage_step (service : Service) (bus : Bus) (id : Nat) :
    service.Stage bus (service.step bus id).1 (service.busOps id) := by
  rw [step, busOps]
  cases hs : service.sessions[id]? with
  | none => exact .same service bus
  | some s =>
    dsimp only
    cases hp : s.phase with
    | done => exact .same service bus
    | receiving =>
      cases hc : s.connected with
      | true => exact .take id s _ hs rfl rfl rfl hp _ rfl
      | false => exact stage_finishGone hs (.inl hp)
    | sending r =>
      cases hc : s.connected with
      | false => exact stage_finishGone hs (.inr ⟨r, hp⟩)
      | true =>
        cases hroom : service.hasRoom s with
        | true => exact .send id s _ hs rfl rfl rfl r hp rfl
        | false => exact .same service bus
    | closing status =>
      cases hc : s.connected with
      | false => exact stage_finish hs rfl hp
      | true =>
        cases hroom : service.hasRoom s with
        | true => exact stage_finish hs rfl hp
        | false => exact .same service bus

end Service

end BlockFeed
