import BlockFeed.Proofs.World.Incident

/-! How the ends of streams are counted. The bus counts those whose queues it ends, and a task counts
itself when it ends because its client is gone, whether the bus has counted its subscription or not. So
a stream may be counted twice; and one that nobody ends, since it came too late to be on the register,
is not counted at all. -/

namespace BlockFeed

@[simp] theorem World.total_nil : World.total [] = 0 := rfl

@[simp] theorem World.total_cons (n : Nat) (ns : List Nat) : World.total (n :: ns) = n + World.total ns := rfl

namespace DropReason

def all : List DropReason := [.slowConsumer, .clientGone, .shutdown, .terminal]

def label : DropReason → String
  | .slowConsumer => "slow_consumer"
  | .clientGone => "client_gone"
  | .shutdown => "shutdown"
  | .terminal => "terminal"

theorem length_eq_total_count (l : List DropReason) : l.length = World.total (all.map l.count) := by
  induction l with
  | nil => rfl
  | cons r l ih =>
    simp only [all, List.map_cons, List.map_nil, World.total_cons, World.total_nil] at ih ⊢
    cases r <;> simp <;> omega

end DropReason

namespace Mark

/-- The reasons under which something is counted. -/
def reasons (log : List (Nat × Mark)) : List DropReason := log.filterMap (·.2.reason?)

variable {log : List (Nat × Mark)}

@[simp] theorem reasons_append (log' : List (Nat × Mark)) :
    reasons (log ++ log') = reasons log ++ reasons log' :=
  List.filterMap_append

/-- What is noted of one subscription, and of the others. -/
theorem length_reasons (id : Nat) (log : List (Nat × Mark)) : (reasons log).length =
    ((about id log).filterMap reason?).length + (reasons (log.filter (·.1 ≠ id))).length := by
  induction log with
  | nil => rfl
  | cons e log ih =>
    rw [reasons] at ih ⊢
    by_cases hid : e.1 = id
    · cases hr : e.2.reason? <;> simp [about, hid, hr, reasons] at ih ⊢ <;> omega
    · cases hr : e.2.reason? <;> simp [about, hid, hr, reasons] at ih ⊢ <;> omega

theorem about_filter_ne {id id' : Nat} (h : id' ≠ id) :
    about id' (log.filter (·.1 ≠ id)) = about id' log := by
  rw [about, List.filterMap_filter, about]
  refine List.filterMap_congr fun e he => ?_
  by_cases hid : e.1 = id' <;> simp [hid, h]

/-- What is noted of some subscriptions, one after the other, and of the others. -/
theorem length_reasons_of_nodup {ids : List Nat} (h : ids.Nodup) (log : List (Nat × Mark)) :
    (reasons log).length = World.total (ids.map fun id => ((about id log).filterMap reason?).length) +
      (reasons (log.filter (·.1 ∉ ids))).length := by
  induction ids generalizing log with
  | nil => simp
  | cons id ids ih =>
    obtain ⟨hnew, hrest⟩ := List.nodup_cons.mp h
    have hothers : ids.map (fun i => ((about i (log.filter (·.1 ≠ id))).filterMap reason?).length) =
        ids.map fun i => ((about i log).filterMap reason?).length :=
      List.map_congr_left fun i hi => by rw [about_filter_ne (by rintro rfl; exact hnew hi)]
    have hboth : (log.filter (·.1 ≠ id)).filter (·.1 ∉ ids) = log.filter (·.1 ∉ id :: ids) := by
      rw [List.filter_filter]
      exact List.filter_congr fun e he => by simp [Bool.and_comm]
    rw [length_reasons id, ih hrest, hothers, hboth, List.map_cons, World.total_cons, Nat.add_assoc]

end Mark

namespace Session

/-- The reasons under which a stream has been counted. -/
def reasons (s : Session) (log : List (Nat × Mark)) : List DropReason :=
  (about s.subscription log).filterMap Mark.reason?

def countedTwice (log : List (Nat × Mark)) (s : Session) : Bool := (s.reasons log).length = 2

def leftOut (log : List (Nat × Mark)) (s : Session) : Bool := (s.reasons log).isEmpty

variable {s : Session} {t : Subscription} {log : List (Nat × Mark)}

theorem Course.length_reasons (h : s.Course t (about s.subscription log)) :
    (s.reasons log).length ≤ 2 := by
  refine Nat.le_trans (List.length_filterMap_le _ _) ?_
  generalize about s.subscription log = marks at h
  cases h <;> simp

/-- The course of a stream whose task has ended. -/
theorem Course.ended (h : s.Course t (about s.subscription log)) (hdone : s.phase = .done) :
    ∃ x e, about s.subscription log = [.exit x, .ending e] ∧ (x = .dropped → e = .gone) := by
  generalize about s.subscription log = marks at h
  cases h with
  | going hr hs => exact absurd hdone hs.ne_done
  | cut x hx hr hs => exact absurd hdone hs
  | done x e hx hr hs => exact ⟨x, e, rfl, hx⟩

/-- Streams that are counted twice are too many, and those left out are too few. -/
theorem total_length_reasons {sessions : List Session} (h : ∀ s ∈ sessions, (s.reasons log).length ≤ 2) :
    World.total (sessions.map fun s => (s.reasons log).length) + sessions.countP (leftOut log) =
      sessions.length + sessions.countP (countedTwice log) := by
  induction sessions with
  | nil => rfl
  | cons s sessions ih =>
    have hrest := ih fun s' hs' => h s' (List.mem_cons_of_mem _ hs')
    have hle := h s List.mem_cons_self
    rw [List.map_cons, World.total_cons, List.countP_cons, List.countP_cons, List.length_cons]
    have hone : (s.reasons log).length + (if leftOut log s = true then 1 else 0) =
        1 + if countedTwice log s = true then 1 else 0 := by
      rw [leftOut, countedTwice]
      match hr : s.reasons log with
      | [] => rfl
      | [a] => rfl
      | [a, b] => rfl
      | _ :: _ :: _ :: _ => simp [hr] at hle
    omega

end Session

namespace Service

variable {service service' : Service} {bus : Bus} {ops : List Bus.Op}

theorem count_endings {r : DropReason} (hr : r ≠ .clientGone) (log : List (Nat × Session.Ending)) :
    (log.filterMap (·.2.reason?)).count r = 0 := by
  refine List.count_eq_zero.mpr fun hmem => ?_
  obtain ⟨⟨id, e⟩, -, he⟩ := List.mem_filterMap.mp hmem
  cases e with
  | told => cases he
  | gone => exact hr (Option.some.inj he).symm

theorem count_reasons_marks (r : DropReason) : (Mark.reasons (service.marks bus service' ops)).count r =
    (Bus.reasons (Run.output Bus.step Bus.exits bus ops)).count r +
      ((service.endings service').filterMap (·.2.reason?)).count r := by
  rw [marks, Mark.reasons_append, List.count_append, Mark.reasons, Mark.reasons, List.filterMap_map,
    List.filterMap_map]
  rfl

end Service

namespace World

/-- What is counted as dropped, by the bus and by the tasks of sessions. -/
def dropped (w : World) (r : DropReason) : Nat :=
  w.bus.counts.of r + if r = .clientGone then w.service.clientsGone else 0

def droppedTotal (w : World) : Nat := total (DropReason.all.map w.dropped)

variable {w : World}

theorem dropped_occur (h : w.bus.Sound) (i : Incident) (r : DropReason) :
    (w.occur i).dropped r = w.dropped r + (Mark.reasons (w.marks i)).count r := by
  have hbus := h.counts_after (w.occurOps i) r
  have hgone := (w.stage_occur i).clientsGone
  rw [dropped, dropped, bus_occur, hbus, marks, Service.count_reasons_marks]
  by_cases hr : r = .clientGone
  · rw [if_pos hr, if_pos hr, hgone, hr]
    omega
  · rw [if_neg hr, if_neg hr, Service.count_endings hr]
    omega

/-- What has been noted, and what is counted of it. -/
structure Recorded (w : World) (log : List (Nat × Mark)) : Prop where
  noted : w.service.Noted w.bus log
  counted : ∀ r, w.dropped r = (Mark.reasons log).count r

theorem recorded_new (capacity subscriberCapacity clientBuffer : Nat) :
    (new capacity subscriberCapacity clientBuffer).Recorded [] :=
  ⟨Service.noted_new _ _, fun r => by cases r <;> rfl⟩

variable {log : List (Nat × Mark)}

theorem Recorded.occur (h : w.Recorded log) (i : Incident) :
    (w.occur i).Recorded (log ++ w.marks i) where
  noted := by
    rw [bus_occur]
    exact h.noted.stage (w.stage_occur i) fun block => paired_occur
  counted r := by
    rw [dropped_occur h.noted.sound, h.counted, Mark.reasons_append, List.count_append]

theorem Recorded.after (h : w.Recorded log) (incidents : List Incident) :
    (Run.after World.occur w incidents).Recorded (log ++ Run.output World.occur marks w incidents) := by
  induction incidents generalizing w log with
  | nil => simpa using h
  | cons i incidents ih =>
    rw [Run.after_cons, Run.output_cons, ← List.append_assoc]
    exact ih (h.occur i)

theorem Recorded.course (h : w.Recorded log) {s : Session} (hs : s ∈ w.service.sessions) :
    ∃ t, s.Course t (about s.subscription log) := by
  obtain ⟨client, hclient⟩ := List.getElem?_of_mem hs
  obtain ⟨t, -, hcourse⟩ := h.noted.course client s hclient
  exact ⟨t, hcourse⟩

theorem attended_eq (w : World) (id : Nat) :
    w.attended id = decide (id ∈ w.service.sessions.map Session.subscription) :=
  Bool.eq_iff_iff.mpr (by simp [attended])

/-- What is counted of subscriptions that no session has. -/
def elsewhere (w : World) (log : List (Nat × Mark)) : List DropReason :=
  Mark.reasons (log.filter fun e => !w.attended e.1)

theorem Recorded.droppedTotal (h : w.Recorded log) :
    w.droppedTotal + w.service.sessions.countP (Session.leftOut log) =
      w.service.sessions.length + w.service.sessions.countP (Session.countedTwice log) +
        (w.elsewhere log).length := by
  have hcounted : w.dropped = (Mark.reasons log).count := funext h.counted
  have hsplit := Mark.length_reasons_of_nodup h.noted.separate.distinct log
  have hfree : log.filter (·.1 ∉ w.service.sessions.map Session.subscription) =
      log.filter fun e => !w.attended e.1 :=
    List.filter_congr fun e he => by rw [attended_eq, decide_not]
  have hcourses : ∀ s ∈ w.service.sessions, (s.reasons log).length ≤ 2 := fun s hs => by
    obtain ⟨t, hcourse⟩ := h.course hs
    exact hcourse.length_reasons
  have hsum := Session.total_length_reasons hcourses
  rw [List.map_map, hfree] at hsplit
  rw [World.droppedTotal, hcounted, ← DropReason.length_eq_total_count, hsplit, Nat.add_right_comm]
  exact congrArg (· + _) hsum

section Shown

theorem toList_series (name label value : String) : (series name label value).toList =
    "chain_stream_".toList ++ (name.toList ++ ("\x7b".toList ++ (label.toList ++
      ("=".toList ++ (value.toList ++ "\x7d".toList))))) := by
  have happend : series name label value =
      "chain_stream_" ++ name ++ "\x7b" ++ label ++ "=" ++ value ++ "\x7d" := rfl
  simp only [happend, String.toList_append, List.append_assoc]

theorem series_inj {name label value value' : String} :
    series name label value = series name label value' ↔ value = value' := by
  refine ⟨fun h => ?_, fun h => by rw [h]⟩
  have hchars := congrArg String.toList h
  rw [toList_series, toList_series] at hchars
  simpa [String.toList_inj] using hchars

theorem series_ne_of_head {name name' : String} {c c' : Char} {rest rest' : List Char}
    (hname : name.toList = c :: rest) (hname' : name'.toList = c' :: rest') (hne : c ≠ c')
    (label label' value value' : String) : series name label value ≠ series name' label' value' := by
  intro h
  have hchars := congrArg String.toList h
  rw [toList_series, toList_series, hname, hname'] at hchars
  simp [hne] at hchars

theorem label_inj {r r' : DropReason} : r.label = r'.label ↔ r = r' := by
  cases r <;> cases r' <;> decide

theorem shown_dropped (w : World) (r : DropReason) :
    w.shown (series "subscriptions_dropped_total" "reason" r.label) = countText (w.dropped r) := by
  -- The key is none of the plain names, no series of topics, and that of one reason alone.
  have hplain : ∀ name ∈ ["chain_stream_blocks_published_total", "chain_stream_latest_height",
      "chain_stream_buffer_overflows_total", "chain_stream_queue_depth",
      "chain_stream_block_processing_seconds", "chain_stream_messages_sent_total",
      "chain_stream_subscriptions_active", "chain_stream_grpc_streams"],
      series "subscriptions_dropped_total" "reason" r.label ≠ name := fun name hname =>
    (series_ne (by revert name; decide) _ _ _).symm
  have htopics : ∀ (name : String) (c : Char) (rest : List Char), name.toList = c :: rest → 's' ≠ c →
      ∀ t, (tally name t).lookup (series "subscriptions_dropped_total" "reason" r.label) = none :=
    fun _ _ _ hname hne t => lookup_tally_of_ne (fun _ => series_ne_of_head rfl hname hne _ _ _ _) t
  have hdecoded := htopics "events_decoded_total" 'e' _ rfl (by decide) w.publisher.counts.decoded
  have hfailed := htopics "decode_errors_total" 'd' _ rfl (by decide) w.publisher.counts.failed
  have hkey : ∀ r' : DropReason, series "subscriptions_dropped_total" "reason" r.label =
      series "subscriptions_dropped_total" "reason" r'.label ↔ r = r' := fun r' =>
    series_inj.trans label_inj
  rw [shown]
  generalize series "subscriptions_dropped_total" "reason" r.label = key at *
  have hslow : key = series _ _ "slow_consumer" ↔ _ := hkey .slowConsumer
  have hgone : key = series _ _ "client_gone" ↔ _ := hkey .clientGone
  have hshutdown : key = series _ _ "shutdown" ↔ _ := hkey .shutdown
  have hterminal : key = series _ _ "terminal" ↔ _ := hkey .terminal
  simp only [List.forall_mem_cons, List.not_mem_nil, false_implies, implies_true, and_true] at hplain
  simp only [metrics, lookup_texts, List.lookup_append, lookup_counter, lookup_gauge, hdecoded,
    hfailed, hplain, hslow, hgone, hshutdown, hterminal]
  cases r <;> simp [dropped, Bus.Counts.of]

end Shown

/-- How the ends of streams are counted, against the requests that were accepted and what was noted of
subscriptions: what is counted is what was noted, each stream that is over was taken off the register
once and ended once, and the total is off by the streams that are counted twice or left out. -/
structure Tallied (w : World) (opened : List Request) (log : List (Nat × Mark)) : Prop where
  counted : ∀ r, w.dropped r = (Mark.reasons log).count r
  shown : ∀ r, w.shown (series "subscriptions_dropped_total" "reason" r.label) =
    countText ((Mark.reasons log).count r)
  accepted : w.service.sessions.length = opened.length
  ended : ∀ s ∈ w.service.sessions, s.phase = .done → ∃ x e,
    about s.subscription log = [.exit x, .ending e] ∧ (x = .dropped → e = .gone) ∧
      (Session.countedTwice log s = true ↔ x.reason?.isSome = true ∧ e = .gone) ∧
      (Session.leftOut log s = true ↔ (x = .late ∨ x = .unsubscribed) ∧ e = .told)
  total : w.droppedTotal + w.service.sessions.countP (Session.leftOut log) =
    opened.length + w.service.sessions.countP (Session.countedTwice log) + (w.elsewhere log).length
  once : (∀ s ∈ w.service.sessions, Session.leftOut log s = false ∧ Session.countedTwice log s = false) →
    w.elsewhere log = [] → w.droppedTotal = opened.length

theorem Recorded.tallied (h : w.Recorded log) {opened : List Request}
    (haccepted : w.service.sessions.length = opened.length) : w.Tallied opened log where
  counted := h.counted
  shown r := by rw [shown_dropped, h.counted]
  accepted := haccepted
  ended s hs hdone := by
    obtain ⟨t, hcourse⟩ := h.course hs
    obtain ⟨x, e, hmarks, hx⟩ := hcourse.ended hdone
    refine ⟨x, e, hmarks, hx, ?_⟩
    rw [Session.countedTwice, Session.leftOut, Session.reasons, hmarks]
    cases x <;> cases e <;> first | exact ⟨by decide, by decide⟩ | exact absurd (hx rfl) nofun
  total := by rw [h.droppedTotal, haccepted]
  once hnone helse := by
    have htotal := h.droppedTotal
    have hleft : w.service.sessions.countP (Session.leftOut log) = 0 :=
      List.countP_eq_zero.mpr fun s hs => by simp [(hnone s hs).1]
    have htwice : w.service.sessions.countP (Session.countedTwice log) = 0 :=
      List.countP_eq_zero.mpr fun s hs => by simp [(hnone s hs).2]
    rw [hleft, htwice, helse] at htotal
    rw [← haccepted]
    simpa using htotal

theorem ends_tallied (capacity subscriberCapacity clientBuffer : Nat) (incidents : List Incident) :
    let w := new capacity subscriberCapacity clientBuffer
    (Run.after occur w incidents).Tallied (Run.output occur welcomed w incidents)
      (Run.output occur marks w incidents) := by
  intro w
  have hrecorded := (recorded_new capacity subscriberCapacity clientBuffer).after incidents
  have hlength := Run.count_after (·.service.sessions.length) length_occur w incidents
  have hzero : w.service.sessions.length = 0 := rfl
  rw [hzero, Nat.zero_add] at hlength
  rw [List.nil_append] at hrecorded
  exact hrecorded.tallied hlength

/-- Two blocks are published, and the one client reads neither. The bus is closed and counts the
subscription; then the client goes away, and its task, which still holds the second block, counts it
again. -/
def goneBehindClose : List Incident :=
  let turn := .op (.task (.session 0))
  [.op (.accept ⟨[], []⟩), .publish 1 [], .publish 2 [], turn, turn, turn, .op .close, .op (.hangUp 0), turn]

theorem ends_counted_twice :
    let w := Run.after occur (new 1 2 1) goneBehindClose
    (Run.output occur welcomed (new 1 2 1) goneBehindClose).length = 1 ∧
      (∀ s ∈ w.service.sessions, s.phase = .done) ∧
      w.dropped .shutdown = 1 ∧ w.dropped .clientGone = 1 ∧ w.droppedTotal = 2 := by
  decide +kernel

/-- A client that comes after the feed has halted is told so, and is not counted at all. -/
example :
    let turn := .op (.task (.session 0))
    let w := Run.after occur (new 1 1 1) [.fail .bufferOverflow, .op (.accept ⟨[], []⟩), turn, turn]
    w.service.sessions.length = 1 ∧ (∀ s ∈ w.service.sessions, s.phase = .done) ∧ w.droppedTotal = 0 := by
  decide +kernel

end World

end BlockFeed
