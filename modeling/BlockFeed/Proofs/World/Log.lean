import BlockFeed.Proofs.Bus.Drain
import BlockFeed.Proofs.Bus.Log
import BlockFeed.Proofs.Publisher.Account
import BlockFeed.Proofs.World.Operation

/-! What can be seen of a run of the whole feed: batches accepted, calls on the bus, and what happens
on the bus. The publisher alone hands blocks over. -/

namespace BlockFeed

def BusCall.block? : BusCall → Option Block
  | .publish block => some block
  | .fail _ => none

@[simp] theorem BusCall.block?_op (call : BusCall) : call.op.block? = call.block? := by
  cases call <;> rfl

namespace World

theorem taskReaderOps_silent {w : World} {t : Task} {o : Bus.Op} (h : o ∈ w.taskReaderOps t) :
    o.block? = none ∧ o.error? = none ∧ o ≠ .close := by
  cases t with
  | session id =>
    obtain ⟨s, _, ho⟩ := Service.mem_busOps h
    rcases ho with rfl | rfl
    · exact ⟨rfl, rfl, Bus.Op.noConfusion⟩
    · exact ⟨rfl, rfl, Bus.Op.noConfusion⟩
  | _ => cases h

/-- The publisher alone has blocks to hand over, and errors. -/
theorem readerOps_silent {w : World} {op : Op} {o : Bus.Op} (h : o ∈ w.readerOps op) :
    o.block? = none ∧ o.error? = none ∧ (o = .close → op.closes = true) := by
  rcases mem_readerOps h with rfl | ⟨rfl, hc⟩ | ⟨id, _, rfl | rfl⟩ | ⟨id, _, rfl⟩ | ⟨t, _, hm⟩
  · exact ⟨rfl, rfl, nofun⟩
  · exact ⟨rfl, rfl, fun _ => hc⟩
  · exact ⟨rfl, rfl, nofun⟩
  · exact ⟨rfl, rfl, nofun⟩
  · exact ⟨rfl, rfl, nofun⟩
  · obtain ⟨hblock, herror, hne⟩ := taskReaderOps_silent hm
    exact ⟨hblock, herror, fun he => absurd he hne⟩

def handed (w : World) (op : Op) : List Block := Bus.handedIn (w.bus.log (w.busOps op))

theorem handed_eq (w : World) (op : Op) :
    w.handed op = (w.publisher.calls (w.publisherOps op)).filterMap BusCall.block? := by
  have hreaders : (w.readerOps op).filterMap Bus.Op.block? = [] := by
    rw [List.filterMap_eq_nil_iff]
    exact fun o ho => (readerOps_silent ho).1
  rw [handed, Bus.handedIn_log, busOps, List.filterMap_append, hreaders, List.append_nil,
    List.filterMap_map]
  simp

abbrev log (w : World) (ops : List Op) : List Bus.Event :=
  Run.output step (fun w op => w.bus.log (w.busOps op)) w ops

/-- The batches accepted, from whomever they came. -/
abbrev accepted (w : World) (ops : List Op) : List Batch :=
  Run.output step (fun w op => w.publisher.accepted (w.publisherOps op)) w ops

abbrev calls (w : World) (ops : List Op) : List BusCall :=
  Run.output step (fun w op => w.publisher.calls (w.publisherOps op)) w ops

theorem log_append (w : World) (ops ops' : List Op) :
    w.log (ops ++ ops') = w.log ops ++ (w.after ops).log ops' :=
  Run.output_append _ _ _ _ _

theorem accepted_append (w : World) (ops ops' : List Op) :
    w.accepted (ops ++ ops') = w.accepted ops ++ (w.after ops).accepted ops' :=
  Run.output_append _ _ _ _ _

theorem publisher_after (w : World) (ops : List Op) :
    (w.after ops).publisher = w.publisher.after (Run.output step publisherOps w ops) :=
  Run.part_after publisher_step w ops

theorem bus_after (w : World) (ops : List Op) :
    (w.after ops).bus = w.bus.after (Run.output step busOps w ops) :=
  Run.part_after bus_step w ops

theorem log_eq (w : World) (ops : List Op) :
    w.log ops = w.bus.log (Run.output step busOps w ops) :=
  Run.part_output bus_step Bus.observe w ops

theorem accepted_eq (w : World) (ops : List Op) :
    w.accepted ops = w.publisher.accepted (Run.output step publisherOps w ops) :=
  Run.part_output publisher_step Publisher.admitted w ops

theorem calls_eq (w : World) (ops : List Op) :
    w.calls ops = w.publisher.calls (Run.output step publisherOps w ops) :=
  Run.part_output publisher_step Publisher.called w ops

theorem handedIn_log (w : World) (ops : List Op) :
    Bus.handedIn (w.log ops) = (w.calls ops).filterMap BusCall.block? := by
  induction ops generalizing w with
  | nil => rfl
  | cons op ops ih =>
    have hh := w.handed_eq op
    rw [handed] at hh
    rw [log, Run.output_cons, Bus.handedIn_append, hh, calls, Run.output_cons, List.filterMap_append]
    exact congrArg _ (ih (w.step op))

theorem exists_account (capacity subscriberCapacity clientBuffer : Nat) (ops : List Op) :
    let w := new capacity subscriberCapacity clientBuffer
    ∃ done rest, (w.after ops).publisher.Account (w.accepted ops) (w.calls ops)
      (Bus.handedIn (w.log ops)) done rest := by
  intro w
  obtain ⟨blocks, done, rest, h⟩ :=
    Publisher.exists_account capacity (Run.output step publisherOps w ops)
  have hh : Bus.handedIn (w.log ops) = blocks := by
    rw [handedIn_log, calls_eq, show w.publisher.calls _ = _ from h.called]
    simp [List.filterMap_append, List.filterMap_map, Function.comp_def, BusCall.block?]
  rw [hh, accepted_eq, calls_eq, publisher_after]
  exact ⟨done, rest, h⟩

theorem handedIn_paired (capacity subscriberCapacity clientBuffer : Nat) (ops : List Op) :
    ∀ b ∈ Bus.handedIn ((new capacity subscriberCapacity clientBuffer).log ops), b.Paired := by
  intro b hb
  obtain ⟨done, rest, h⟩ := exists_account capacity subscriberCapacity clientBuffer ops
  have hm : Except.ok b ∈ done.map Block.ofBatch := by
    rw [h.published]
    exact List.mem_map.mpr ⟨b, hb, rfl⟩
  obtain ⟨batch, _, hbatch⟩ := List.mem_map.mp hm
  obtain ⟨records, rfl⟩ := Block.ofBatch_ok hbatch
  exact Block.paired_aggregate batch.height records

theorem terminal_after {w : World} {ops : List Op} (h : ∀ e, .fail e ∉ w.calls ops) :
    (w.after ops).bus.terminal = w.bus.terminal := by
  induction ops generalizing w with
  | nil => rfl
  | cons op ops ih =>
    have hstep : ∀ e, .fail e ∉ w.publisher.calls (w.publisherOps op) := fun e hm =>
      h e (List.mem_append_left _ hm)
    have hrest : ∀ e, .fail e ∉ (w.step op).calls ops := fun e hm =>
      h e (List.mem_append_right _ hm)
    have hno : ∀ o ∈ w.busOps op, o.error? = none := by
      intro o ho
      rw [busOps, List.mem_append] at ho
      rcases ho with ho | ho
      · obtain ⟨call, hm, rfl⟩ := List.mem_map.mp ho
        cases call with
        | publish block => rfl
        | fail e => exact absurd hm (hstep e)
      · exact (readerOps_silent ho).2.1
    rw [after, Run.after_cons, ih hrest, bus_step, Bus.terminal_after_of_no_fail _ hno]

theorem closed_after {w : World} {ops : List Op} (h : ∀ op ∈ ops, op.closes = false) :
    (w.after ops).bus.closed = w.bus.closed := by
  induction ops generalizing w with
  | nil => rfl
  | cons op ops ih =>
    have hno : .close ∉ w.busOps op := by
      intro hm
      rw [busOps, List.mem_append] at hm
      rcases hm with hm | hm
      · obtain ⟨call, _, hcall⟩ := List.mem_map.mp hm
        cases call <;> cases hcall
      · have hc := h op List.mem_cons_self
        rw [(readerOps_silent hm).2.2 rfl] at hc
        cases hc
    rw [after, Run.after_cons, ih fun op' hm => h op' (List.mem_cons_of_mem _ hm), bus_step,
      Bus.closed_after_of_not_mem hno]

end World

end BlockFeed
