import BlockFeed.Proofs.Service.Turn

/-! What the service counts, against what it has: sessions whose task is not done, and responses that
have been placed into buffers. -/

namespace BlockFeed

namespace Session

/-- The task is not done. -/
def unfinished (s : Session) : Bool := s.phase ≠ .done

/-- The responses at the end of the buffer that have come since a former state, or since there was
none. -/
def added (s : Session) (former : Option Session) : List Response :=
  (s.buffer.drop (former.elim 0 (·.buffer.length))).filterMap Except.toOption

theorem added_of_length_le {s s' : Session} (h : s'.buffer.length ≤ s.buffer.length) :
    s'.added (some s) = [] := by
  rw [added, Option.elim_some, List.drop_eq_nil_of_le h]
  rfl

theorem added_self (s : Session) : s.added (some s) = [] :=
  added_of_length_le (Nat.le_refl _)

theorem added_of_concat {s s' : Session} {item : Item} (h : s'.buffer = s.buffer ++ [item]) :
    s'.added (some s) = item.toOption.toList := by
  rw [added, Option.elim_some, h, List.drop_left]
  cases item <;> rfl

end Session

namespace Service

/-- How many sessions have a task that is not done. -/
def unfinished (service : Service) : Nat := service.sessions.countP (·.unfinished)

/-- The responses in buffers that were not there in a former state, client by client. -/
def placed (former service : Service) : List Response :=
  (service.sessions.mapIdx fun id s => s.added former.sessions[id]?).flatten

/-- What an operation can do with the sessions and with what is counted of them; the last argument is
how many sessions it adds. -/
inductive Change (service : Service) : Service → Nat → Prop where
  | same : Change service service 0
  | join (s : Session) (hphase : s.phase = .receiving) (hbuffer : s.buffer = []) :
      Change service { service with
        sessions := service.sessions ++ [s]
        active := service.active + 1
        reported := some (service.active + 1) } 1
  | go (id : Nat) (s s' : Session) (sent : Nat) (hs : service.sessions[id]? = some s)
      (hphase : s'.unfinished = s.unfinished) (hsent : sent = service.sent + (s'.added (some s)).length) :
      Change service { service with sessions := service.sessions.set id s', sent } 0
  | finish (id : Nat) (s s' : Session) (clientsGone : Nat) (hs : service.sessions[id]? = some s)
      (hphase : s.unfinished = true) (hdone : s'.phase = .done) (hsent : s'.added (some s) = []) :
      Change service { service with
        sessions := service.sessions.set id s'
        active := service.active - 1
        reported := some (service.active - 1)
        clientsGone } 0

variable {service service' : Service}

/-- A session that goes on and takes nothing new into its buffer. -/
theorem Change.keep {id : Nat} {s s' : Session} (hs : service.sessions[id]? = some s)
    (hphase : s'.unfinished = s.unfinished) (hle : s'.buffer.length ≤ s.buffer.length) :
    service.Change (service.put id s') 0 :=
  .go id s s' service.sent hs hphase (by rw [Session.added_of_length_le hle]; rfl)

section Former

/-! What is said of each session against its former state, client by client. -/

variable {β : Type} {f : Session → Option Session → List β} (hself : ∀ s, f s (some s) = [])
include hself

theorem former_eq_nil (service : Service) :
    ∀ xs ∈ service.sessions.mapIdx fun id s => f s service.sessions[id]?, xs = [] := by
  intro xs hxs
  obtain ⟨id, hid, rfl⟩ := List.mem_mapIdx.mp hxs
  rw [List.getElem?_eq_getElem hid]
  exact hself _

theorem flatten_former (service : Service) :
    (service.sessions.mapIdx fun id s => f s service.sessions[id]?).flatten = [] :=
  List.flatten_eq_nil_iff.mpr (former_eq_nil hself service)

theorem flatten_set {id : Nat} {s s' : Session} (hs : service.sessions[id]? = some s)
    (hset : service'.sessions = service.sessions.set id s') :
    (service'.sessions.mapIdx fun id s => f s service.sessions[id]?).flatten = f s' (some s) := by
  have hlt : id < (service.sessions.mapIdx fun id s => f s service.sessions[id]?).length := by
    rw [List.length_mapIdx]
    exact (List.getElem?_eq_some_iff.mp hs).1
  have hbefore := List.flatten_eq_nil_iff.mpr fun xs hxs =>
    former_eq_nil hself service xs (List.mem_of_mem_take (i := id) hxs)
  have hbehind := List.flatten_eq_nil_iff.mpr fun xs hxs =>
    former_eq_nil hself service xs (List.mem_of_mem_drop (i := id + 1) hxs)
  rw [hset, List.mapIdx_set, List.set_eq_take_append_cons_drop, if_pos hlt, List.flatten_append,
    List.flatten_cons, hbefore, hbehind, hs, List.nil_append, List.append_nil]

theorem flatten_concat {s : Session} (hjoin : service'.sessions = service.sessions ++ [s]) :
    (service'.sessions.mapIdx fun id s => f s service.sessions[id]?).flatten = f s none := by
  have hnone : service.sessions[service.sessions.length]? = none := List.getElem?_eq_none (Nat.le_refl _)
  rw [hjoin, List.mapIdx_concat, List.flatten_append, flatten_former hself, hnone, List.nil_append,
    List.flatten_singleton]

end Former

section Operations

theorem change_accept {bus bus' : Bus} {r : Request} {id : Nat}
    (h : service.accept bus r = .ok (id, service', bus')) : service.Change service' 1 := by
  rw [accept] at h
  split at h
  · cases h
  · split at h
    · cases h
    · cases h
      exact .join _ rfl rfl

theorem unfinished_phaseFor (s : Session) (reason : CloseReason) (r : Received) :
    ({ s with phase := phaseFor s.filter reason r } : Session).unfinished = true := by
  cases r with
  | block b =>
    simp only [phaseFor]
    cases b.select s.filter <;> rfl
  | _ => rfl

theorem change_finish {id : Nat} {s s' : Session} (hs : service.sessions[id]? = some s)
    (hphase : s.unfinished = true) (hadded : s'.added (some s) = []) (bus : Bus) :
    service.Change (service.finish id s' bus).1 0 :=
  .finish id s { s' with phase := .done } service.clientsGone hs hphase rfl hadded

theorem change_finishGone {id : Nat} {s : Session} (hs : service.sessions[id]? = some s)
    (hphase : s.unfinished = true) (bus : Bus) : service.Change (service.finishGone id s bus).1 0 :=
  .finish id s { s with phase := .done } (service.clientsGone + 1) hs hphase rfl
    (Session.added_of_length_le (Nat.le_refl _))

variable (service)

theorem change_step (bus : Bus) (id : Nat) : service.Change (service.step bus id).1 0 := by
  rw [step]
  cases hs : service.sessions[id]? with
  | none => exact .same
  | some s =>
    have hgoing : s.phase ≠ .done → s.unfinished = true := fun h => decide_eq_true h
    dsimp only
    cases hp : s.phase with
    | done => exact .same
    | receiving =>
      dsimp only
      split
      · exact change_finishGone hs (hgoing (by simp [hp])) bus
      · refine .keep hs ?_ (Nat.le_refl _)
        rw [hgoing (by simp [hp])]
        exact unfinished_phaseFor s _ _
    | sending r =>
      dsimp only
      split
      · exact change_finishGone hs (hgoing (by simp [hp])) bus
      · split
        · refine .go id s { s with buffer := s.buffer ++ [.ok r], phase := .receiving }
            (service.sent + 1) hs ?_ ?_
          · rw [hgoing (by simp [hp])]
            rfl
          · rw [Session.added_of_concat rfl]
            rfl
        · exact .same
    | closing status =>
      dsimp only
      split
      · exact change_finish hs (hgoing (by simp [hp])) (Session.added_of_length_le (Nat.le_refl _)) bus
      · split
        · refine change_finish hs (hgoing (by simp [hp])) ?_ bus
          rw [Session.added_of_concat rfl]
          rfl
        · exact .same

theorem change_read (id : Nat) : service.Change (service.read id).2 0 := by
  rw [read]
  cases hs : service.sessions[id]? with
  | none => exact .same
  | some s =>
    dsimp only
    split
    case h_1 item rest hb => exact .keep hs rfl (by simp [hb])
    case h_2 => exact .same

theorem change_hangUp (id : Nat) : service.Change (service.hangUp id) 0 := by
  rw [hangUp]
  cases hs : service.sessions[id]? with
  | none => exact .same
  | some s => exact .keep hs rfl (Nat.zero_le _)

end Operations

section Counts

/-- The number of active sessions is that of the sessions whose task is not done, and it has been said
unless there never was one. -/
structure Counted (service : Service) : Prop where
  reported : service.reported.getD 0 = service.active
  active : service.active = service.unfinished

theorem counted_new (capacity : Nat) : (new capacity).Counted := ⟨rfl, rfl⟩

variable {joined : Nat}

theorem unfinished_set {id : Nat} {s : Session} (hs : service.sessions[id]? = some s) (s' : Session) :
    (service.sessions.set id s').countP (·.unfinished) + (if s.unfinished then 1 else 0) =
      service.unfinished + (if s'.unfinished then 1 else 0) := by
  obtain ⟨hlt, hget⟩ := List.getElem?_eq_some_iff.mp hs
  have hpos : s.unfinished = true → 0 < service.sessions.countP (·.unfinished) := fun h =>
    List.countP_pos_iff.mpr ⟨s, List.mem_of_getElem? hs, h⟩
  rw [List.countP_set hlt, hget, unfinished]
  by_cases hgoing : s.unfinished = true
  · have hone := hpos hgoing
    rw [if_pos hgoing]
    omega
  · rw [if_neg hgoing]
    omega

theorem Counted.change (h : service.Counted) (hc : service.Change service' joined) :
    service'.Counted := by
  cases hc with
  | same => exact h
  | join s hphase hbuffer =>
    have hgoing : s.unfinished = true := by simp [Session.unfinished, hphase]
    refine ⟨rfl, ?_⟩
    rw [unfinished, List.countP_append, List.countP_singleton, if_pos hgoing, h.active]
    rfl
  | go id s s' sent hs hphase hsent =>
    have hset := unfinished_set hs s'
    rw [hphase] at hset
    exact ⟨h.reported, h.active.trans (Nat.add_right_cancel hset).symm⟩
  | finish id s s' clientsGone hs hphase hdone hsent =>
    have hset := unfinished_set hs s'
    have hended : s'.unfinished = false := by simp [Session.unfinished, hdone]
    rw [hphase, hended] at hset
    refine ⟨rfl, ?_⟩
    have hactive := h.active
    simp only [if_true, Bool.false_eq_true, if_false] at hset
    show service.active - 1 = (service.sessions.set id s').countP (·.unfinished)
    omega

/-- While a task is not done, there is an active session to take away. -/
theorem Counted.active_pos (h : service.Counted) {s : Session} (hs : s ∈ service.sessions)
    (hphase : s.phase ≠ .done) : 0 < service.active := by
  rw [h.active, unfinished, List.countP_pos_iff]
  exact ⟨s, hs, decide_eq_true hphase⟩

theorem Change.length (hc : service.Change service' joined) :
    service'.sessions.length = service.sessions.length + joined := by
  cases hc with
  | same => rfl
  | join s hphase hbuffer => exact List.length_append
  | go id s s' sent hs hphase hsent => exact List.length_set
  | finish id s s' clientsGone hs hphase hdone hsent => exact List.length_set

theorem placed_self : service.placed service = [] :=
  flatten_former Session.added_self service

theorem placed_set {id : Nat} {s s' : Session} (hs : service.sessions[id]? = some s)
    (hset : service'.sessions = service.sessions.set id s') :
    service.placed service' = s'.added (some s) :=
  flatten_set Session.added_self hs hset

theorem placed_concat {s : Session} (hbuffer : s.buffer = [])
    (hjoin : service'.sessions = service.sessions ++ [s]) : service.placed service' = [] := by
  refine (flatten_concat Session.added_self hjoin).trans ?_
  rw [Session.added, hbuffer]
  rfl

theorem Change.sent (hc : service.Change service' joined) :
    service'.sent = service.sent + (service.placed service').length := by
  cases hc with
  | same => rw [placed_self, List.length_nil, Nat.add_zero]
  | join s hphase hbuffer =>
    rw [placed_concat hbuffer rfl]
    rfl
  | go id s s' sent hs hphase hsent => rw [placed_set hs rfl, hsent]
  | finish id s s' clientsGone hs hphase hdone hsent =>
    rw [placed_set hs rfl, hsent, List.length_nil, Nat.add_zero]

end Counts

end Service

end BlockFeed
