import BlockFeed.Proofs.Service.Course
import BlockFeed.Proofs.World.Gauges

/-! All that can happen to the feed, the use of the bus by others included, as stages that sessions go
through. Nothing that is queued on the way is refused by a filter. -/

namespace BlockFeed

namespace Publisher

variable {p : Publisher} {block : Block}

theorem paired_halt {e : FeedError} (h : some (.publish block) = (p.halt e).2) : block.Paired := by
  rw [halt] at h
  split at h <;> cases h

theorem paired_process {batch : Batch} (h : some (.publish block) = (p.process batch).2) :
    block.Paired := by
  simp only [process] at h
  split at h
  case h_1 block' hblock =>
    rw [publish] at h
    split at h
    · cases h
      obtain ⟨records, rfl⟩ := Block.ofBatch_ok hblock
      exact Block.paired_aggregate batch.height records
    · cases h
  case h_2 => exact paired_halt h

/-- No filter is refused on what the publisher hands over. -/
theorem paired_called {op : Op} (h : .publish block ∈ p.called op) : block.Paired := by
  have hmove := move_step p op
  generalize p.called op = calls at h hmove
  generalize p.step op = next, p.admitted op = batches at hmove
  cases hmove with
  | overflow counts ha hf => exact paired_halt (Option.mem_toList.mp h).symm
  | deliver batch fifo counts hd hq => exact paired_process (Option.mem_toList.mp h).symm
  | _ => cases h

theorem paired_calls {ops : List Op} (h : .publish block ∈ p.calls ops) : block.Paired := by
  obtain ⟨before, op, rest, -, hcalled⟩ := Run.mem_output h
  exact paired_called hcalled

end Publisher

namespace World

/-- An operation on the feed; something that somebody else does with the bus that only the publisher
does within the feed; or a task that comes to what is waiting for it before it finds its client
gone. -/
inductive Incident where
  | op (op : Op)
  | publish (height : UInt64) (records : List Record)
  | fail (e : FeedError)
  | overlook (client : Nat)

def occur (w : World) : Incident → World
  | .op op => w.step op
  | .publish height records => (w.publish (.aggregate height records)).2
  | .fail e => (w.fail e).2
  | .overlook client =>
    let (service, bus) := w.service.overlook w.bus client
    { w with service, bus }

/-- What an incident comes down to on the bus. -/
def occurOps (w : World) : Incident → List Bus.Op
  | .op op => w.busOps op
  | .publish height records => [.publish (.aggregate height records)]
  | .fail e => [.fail e]
  | .overlook client => w.service.overlookOps w.bus client

/-- The request that is accepted. -/
def welcomed (w : World) : Incident → List Request
  | .op op => w.opened (.op op)
  | _ => []

/-- What is noted of subscriptions. -/
def marks (w : World) (i : Incident) : List (Nat × Mark) :=
  w.service.marks w.bus (w.occur i).service (w.occurOps i)

theorem bus_occur (w : World) (i : Incident) : (w.occur i).bus = w.bus.after (w.occurOps i) := by
  cases i with
  | op op => exact w.bus_step op
  | publish height records => rfl
  | fail e => rfl
  | overlook client => exact w.service.overlook_bus w.bus client

theorem length_occur (w : World) (i : Incident) :
    (w.occur i).service.sessions.length = w.service.sessions.length + (w.welcomed i).length := by
  cases i with
  | op op => exact (w.change_act (.op op)).length
  | publish height records => rfl
  | fail e => rfl
  | overlook client =>
    show (w.service.overlook w.bus client).1.sessions.length = _
    rw [Service.overlook]
    split
    · rfl
    · dsimp only
      split
      · exact List.length_set
      · rfl

/-- The task of a session alone lets go of its subscription. -/
theorem drop_not_mem_busOps {w : World} {op : Op} (hturn : ∀ client, w.turn op ≠ some (.session client)) :
    ∀ s ∈ w.service.sessions, .drop s.subscription ∉ w.busOps op := by
  intro s hs hmem
  rw [busOps, List.mem_append] at hmem
  rcases hmem with hcall | hreader
  · obtain ⟨call, -, hcall⟩ := List.mem_map.mp hcall
    cases call <;> cases hcall
  · rcases mem_readerOps hreader with h | ⟨h, -⟩ | ⟨id, hfree, h | h⟩ | ⟨id, -, h⟩ | ⟨t, ht, hm⟩
    · cases h
    · cases h
    · cases h
    · cases h
      have hattended : w.attended s.subscription = true := List.any_eq_true.mpr ⟨s, hs, by simp⟩
      rw [hattended] at hfree
      cases hfree
    · cases h
    · cases t with
      | session client => exact hturn client ht
      | _ => cases hm

theorem stage_turn {w : World} {op : Op} (hservice : (w.step op).service = match w.turn op with
    | some (.session client) => (w.service.step w.bus client).1
    | _ => w.service) : w.service.Stage w.bus (w.step op).service (w.busOps op) := by
  by_cases hturn : ∃ client, w.turn op = some (.session client)
  · obtain ⟨client, hclient⟩ := hturn
    have hops : w.busOps op = w.service.busOps client := busOps_of_turn hclient
    rw [hservice, hclient, hops]
    exact w.service.stage_step w.bus client
  · have hnone : ∀ client, w.turn op ≠ some (.session client) := fun client h => hturn ⟨client, h⟩
    have hsame : (w.step op).service = w.service := by
      rw [hservice]
      split
      case h_1 client hclient => exact absurd hclient (hnone client)
      case h_2 => rfl
    rw [hsame]
    exact .aside _ rfl rfl (drop_not_mem_busOps hnone)

theorem stage_op (w : World) (op : Op) : w.service.Stage w.bus (w.step op).service (w.busOps op) := by
  have hservice := w.service_step op
  cases op with
  | accept r =>
    cases haccept : w.service.accept w.bus r with
    | error status =>
      rw [hservice, serviceAfter, haccept]
      exact .aside _ rfl rfl (drop_not_mem_busOps fun _ => by simp [turn])
    | ok accepted =>
      obtain ⟨client, service, bus⟩ := accepted
      obtain ⟨filter, hfilter, -⟩ := Service.accept_ok haccept
      have hops : w.busOps (.accept r) = [.subscribe] := by
        simp [busOps, publisherOps, readerOps, turn, hfilter]
      rw [hservice, serviceAfter, haccept, hops]
      exact Service.stage_accept haccept
  | read client =>
    rw [hservice]
    exact w.service.stage_read w.bus client
  | hangUp client =>
    rw [hservice]
    exact w.service.stage_hangUp w.bus client
  | _ => exact stage_turn hservice

theorem stage_occur (w : World) (i : Incident) :
    w.service.Stage w.bus (w.occur i).service (w.occurOps i) := by
  cases i with
  | op op => exact w.stage_op op
  | publish height records => exact .aside _ rfl rfl fun _ _ => by simp [occurOps]
  | fail e => exact .aside _ rfl rfl fun _ _ => by simp [occurOps]
  | overlook client => exact w.service.stage_overlook w.bus client

theorem paired_occur {w : World} {i : Incident} {block : Block} (h : .publish block ∈ w.occurOps i) :
    block.Paired := by
  cases i with
  | op op =>
    rw [occurOps, busOps, List.mem_append] at h
    rcases h with hcall | hreader
    · obtain ⟨call, hmem, hcall⟩ := List.mem_map.mp hcall
      cases call with
      | publish block' =>
        cases hcall
        exact Publisher.paired_calls hmem
      | fail e => cases hcall
    · cases (readerOps_silent hreader).1
  | publish height records =>
    cases List.mem_singleton.mp h
    exact Block.paired_aggregate height records
  | fail e => cases List.mem_singleton.mp h
  | overlook client =>
    rw [occurOps, Service.overlookOps] at h
    split at h
    · cases h
    · split at h
      · cases List.mem_singleton.mp h
      · cases h

end World

end BlockFeed
