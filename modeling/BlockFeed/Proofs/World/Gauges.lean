import BlockFeed.Feed.Metrics
import BlockFeed.Proofs.Bus.Gauge
import BlockFeed.Proofs.Service.Census
import BlockFeed.Proofs.World.Log

/-! What the feed says of itself. Its gauges and counters are set in many places; after any run they
are what they claim to be, whoever else has used the bus. -/

namespace BlockFeed

namespace Publisher

theorem published_events (c : Counts) (es : List Event) : (c.events es).published = c.published := by
  induction es generalizing c with
  | nil => rfl
  | cons e es ih =>
    rw [Counts.events]
    split
    · rw [ih]
    · rfl

/-- Blocks among the calls of one operation. -/
def handed (call : Option BusCall) : List Block := call.toList.filterMap BusCall.block?

theorem published_halt (p : Publisher) (e : FeedError) : (p.halt e).1.counts.published =
    p.counts.published + (handed (p.halt e).2).length := by
  rw [halt]
  split <;> rfl

theorem published_publish (p : Publisher) (block : Block) : (p.publish block).1.counts.published =
    p.counts.published + (handed (p.publish block).2).length := by
  rw [publish]
  split <;> rfl

theorem published_process (p : Publisher) (batch : Batch) : (p.process batch).1.counts.published =
    p.counts.published + (handed (p.process batch).2).length := by
  have hsame := published_events p.counts batch.events
  simp only [process]
  split
  · rw [published_publish]
    simp [hsame]
  · rw [published_halt]
    simp [hsame]

theorem published_deliver (p : Publisher) : p.deliver.1.counts.published =
    p.counts.published + (handed p.deliver.2).length := by
  rw [deliver]
  split
  · split
    · split <;> rfl
    · split
      · exact published_process _ _
      · rfl
  · split
    · rfl
    · split
      · exact published_process _ _
      · split <;> rfl
  · rfl

theorem published_submit (p : Publisher) (batch : Batch) : (p.submit batch).2.1.counts.published =
    p.counts.published + (handed (p.submit batch).2.2).length := by
  rw [submit]
  split
  · rfl
  · split
    · exact published_halt _ _
    · rfl

theorem published_step (p : Publisher) (op : Op) : (p.step op).counts.published =
    p.counts.published + ((p.called op).filterMap BusCall.block?).length := by
  cases op with
  | run =>
    simp only [step, run]
    cases p.state with
    | idle => cases p.receiver <;> rfl
    | _ => rfl
  | stop =>
    simp only [step, stop]
    split <;> rfl
  | submit batch => exact published_submit p batch
  | submitWait batch =>
    simp only [step, submitWait]
    split
    · rfl
    · split <;> rfl
  | resume waiter =>
    simp only [step, resume]
    split
    · rfl
    · split
      · split <;> rfl
      · rfl
  | abandon waiter => rfl
  | deliver => exact published_deliver p

theorem published_after (p : Publisher) (ops : List Op) : (p.after ops).counts.published =
    p.counts.published + ((p.calls ops).filterMap BusCall.block?).length := by
  induction ops generalizing p with
  | nil => rfl
  | cons op ops ih =>
    have hcalls : p.calls (op :: ops) = p.called op ++ (p.step op).calls ops := rfl
    rw [after, Run.after_cons, ih, published_step, hcalls, List.filterMap_append, List.length_append,
      Nat.add_assoc]

end Publisher

namespace World

/-- An operation on the feed, or something that somebody else does with the bus that only the publisher
does within the feed. -/
inductive Deed where
  | op (op : Op)
  | publish (block : Block)
  | fail (e : FeedError)

def act (w : World) : Deed → World
  | .op op => w.step op
  | .publish block => (w.publish block).2
  | .fail e => (w.fail e).2

/-- The blocks that the publisher hands to the bus. -/
def handedOver (w : World) : Deed → List Block
  | .op op => w.handed op
  | _ => []

/-- The request that is accepted. -/
def opened (w : World) : Deed → List Request
  | .op (.accept r) => match w.service.accept w.bus r with
    | .ok _ => [r]
    | .error _ => []
  | _ => []

/-- The responses that are placed into the buffers of clients. -/
def placed (w : World) (d : Deed) : List Response := w.service.placed (w.act d).service

theorem bus_act (w : World) (d : Deed) : ∃ ops, (w.act d).bus = w.bus.after ops := by
  cases d with
  | op op => exact ⟨_, w.bus_step op⟩
  | publish block => exact ⟨[.publish block], rfl⟩
  | fail e => exact ⟨[.fail e], rfl⟩

theorem published_act (w : World) (d : Deed) : (w.act d).publisher.counts.published =
    w.publisher.counts.published + (w.handedOver d).length := by
  cases d with
  | op op =>
    show (w.step op).publisher.counts.published = _
    rw [publisher_step, Publisher.published_after, handedOver, handed_eq]
  | publish block => rfl
  | fail e => rfl

theorem change_turn (w : World) (t? : Option Task) : w.service.Change (match t? with
    | some (.session client) => (w.service.step w.bus client).1
    | _ => w.service) 0 := by
  split
  · exact w.service.change_step w.bus _
  · exact .same

theorem change_act (w : World) (d : Deed) : w.service.Change (w.act d).service (w.opened d).length := by
  cases d with
  | op op =>
    show w.service.Change (w.step op).service _
    rw [service_step]
    cases op with
    | accept r =>
      simp only [serviceAfter, opened]
      cases haccept : w.service.accept w.bus r with
      | error status => exact .same
      | ok accepted => exact Service.change_accept haccept
    | read client => exact w.service.change_read client
    | hangUp client => exact w.service.change_hangUp client
    | task t => exact w.change_turn (some t)
    | tick => exact w.change_turn (w.turn .tick)
    | _ => exact .same
  | publish block => exact .same
  | fail e => exact .same

theorem sent_act (w : World) (d : Deed) :
    (w.act d).service.sent = w.service.sent + (w.placed d).length :=
  (w.change_act d).sent

section Series

@[simp] theorem lookup_counter (name key : String) (n : Nat) :
    (counter name n).lookup key = if key = name ∧ n ≠ 0 then some n else none := by
  rw [counter]
  by_cases hn : n = 0
  · simp [hn]
  · by_cases hk : key = name
    · simp [hn, hk]
    · have hne : (key == name) = false := beq_false_of_ne hk
      simp [hn, hk, List.lookup_cons, hne]

@[simp] theorem lookup_gauge (name key : String) (n : Option Nat) :
    (gauge name n).lookup key = if key = name then n else none := by
  cases n with
  | none => simp [gauge]
  | some n =>
    by_cases hk : key = name
    · simp [gauge, hk]
    · have hne : (key == name) = false := beq_false_of_ne hk
      simp [gauge, hk, List.lookup_cons, hne]

theorem series_toList (name label value : String) :
    ∃ front, (series name label value).toList = front ++ ['\x7d'] := by
  have hbrace : "\x7d".toList = ['\x7d'] := by decide
  have happend : series name label value =
      "chain_stream_" ++ name ++ "\x7b" ++ label ++ "=" ++ value ++ "\x7d" := rfl
  rw [happend, String.toList_append, hbrace]
  exact ⟨_, rfl⟩

/-- A series with a label ends in a brace. -/
theorem series_ne {key : String} (hkey : key.toList.getLast? ≠ some '\x7d') (name label value : String) :
    key ≠ series name label value := by
  rintro rfl
  obtain ⟨front, hfront⟩ := series_toList name label value
  apply hkey
  rw [hfront, List.getLast?_concat]

theorem lookup_tally_of_ne {key name : String} (h : ∀ value, key ≠ series name "topic" value)
    (t : Tally (Option Topic)) : (tally name t).lookup key = none := by
  rw [tally]
  induction t with
  | nil => rfl
  | cons e t ih =>
    have hne : (key == series name "topic" ((e.1.map Topic.label).getD "unknown")) = false :=
      beq_false_of_ne (h _)
    rw [List.map_cons, List.lookup_cons, hne]
    exact ih

theorem lookup_tally {key : String} (hkey : key.toList.getLast? ≠ some '\x7d') (name : String)
    (t : Tally (Option Topic)) : (tally name t).lookup key = none :=
  lookup_tally_of_ne (fun _ => series_ne hkey _ _ _) t

@[simp] theorem lookup_texts (key : String) (counts : List (String × Nat)) :
    (counts.map fun (name, n) => (name, countText n)).lookup key = (counts.lookup key).map countText := by
  induction counts with
  | nil => rfl
  | cons e counts ih =>
    rw [List.map_cons, List.lookup_cons, List.lookup_cons, ih]
    cases key == e.1 <;> rfl

/-- The value that a series shows; before it appears, that of nothing. -/
def shown (w : World) (name : String) : String := (w.metrics.lookup name).getD (countText 0)

@[simp] theorem getD_map_count (n : Option Nat) :
    (n.map countText).getD (countText 0) = countText (n.getD 0) := by
  cases n <;> rfl

@[simp] theorem getD_ite_pos (n : Nat) : (if n = 0 then none else some n).getD 0 = n := by
  by_cases hn : n = 0
  · rw [if_pos hn, hn]
    rfl
  · rw [if_neg hn]
    rfl

variable (w : World)

theorem shown_subscriptions : w.shown "chain_stream_subscriptions_active" =
    countText (w.bus.counts.active.getD 0) := by
  have hkey : "chain_stream_subscriptions_active".toList.getLast? ≠ some '\x7d' := by decide
  simp [shown, metrics, List.lookup_append, lookup_tally hkey, series_ne hkey]

theorem shown_streams : w.shown "chain_stream_grpc_streams" = countText (w.service.reported.getD 0) := by
  have hkey : "chain_stream_grpc_streams".toList.getLast? ≠ some '\x7d' := by decide
  simp [shown, metrics, List.lookup_append, lookup_tally hkey, series_ne hkey]

theorem shown_published : w.shown "chain_stream_blocks_published_total" =
    countText w.publisher.counts.published := by
  have hkey : "chain_stream_blocks_published_total".toList.getLast? ≠ some '\x7d' := by decide
  simp [shown, metrics, List.lookup_append, lookup_tally hkey, series_ne hkey]

theorem shown_sent : w.shown "chain_stream_messages_sent_total" = countText w.service.sent := by
  have hkey : "chain_stream_messages_sent_total".toList.getLast? ≠ some '\x7d' := by decide
  simp [shown, metrics, List.lookup_append, lookup_tally hkey, series_ne hkey]

end Series

/-- What no deed undoes: the register, the sessions and what is said of them agree. -/
structure Honest (w : World) : Prop where
  sound : w.bus.Sound
  reported : w.bus.Reported
  counted : w.service.Counted

theorem honest_new (capacity subscriberCapacity clientBuffer : Nat) :
    (new capacity subscriberCapacity clientBuffer).Honest :=
  ⟨Bus.sound_new _, Bus.reported_new _, Service.counted_new _⟩

theorem Honest.act {w : World} (h : w.Honest) (d : Deed) : (w.act d).Honest := by
  obtain ⟨ops, hbus⟩ := w.bus_act d
  obtain ⟨hsound, hreported⟩ := h.reported.after h.sound ops
  exact ⟨hbus ▸ hsound, hbus ▸ hreported, h.counted.change (w.change_act d)⟩

/-- The gauges and counters, against the requests that were accepted, the blocks that the publisher
handed over and the responses that were placed: as numbers, and as they are shown. -/
structure Truthful (w : World) (opened : List Request) (handed : List Block)
    (placed : List Response) : Prop where
  subscriptions : w.bus.counts.active.getD 0 = w.bus.registered
  accepted : w.service.sessions.length = opened.length
  streams : w.service.reported.getD 0 = w.service.unfinished
  active : w.service.active = w.service.unfinished
  active_pos : ∀ s ∈ w.service.sessions, s.phase ≠ .done → 0 < w.service.active
  published : w.publisher.counts.published = handed.length
  sent : w.service.sent = placed.length
  shown_subscriptions : w.shown "chain_stream_subscriptions_active" = countText w.bus.registered
  shown_streams : w.shown "chain_stream_grpc_streams" = countText w.service.unfinished
  shown_published : w.shown "chain_stream_blocks_published_total" = countText handed.length
  shown_sent : w.shown "chain_stream_messages_sent_total" = countText placed.length

theorem gauges_truthful (capacity subscriberCapacity clientBuffer : Nat) (deeds : List Deed) :
    let w := new capacity subscriberCapacity clientBuffer
    (Run.after act w deeds).Truthful (Run.output act opened w deeds)
      (Run.output act handedOver w deeds) (Run.output act placed w deeds) := by
  intro w
  have hhonest : (Run.after act w deeds).Honest :=
    Run.after_induction (fun _ d h => h.act d) (honest_new _ _ _) deeds
  have haccepted := Run.count_after (·.service.sessions.length)
    (fun w d => (w.change_act d).length) w deeds
  have hpublished := Run.count_after (·.publisher.counts.published) published_act w deeds
  have hsent := Run.count_after (·.service.sent) sent_act w deeds
  -- A new feed has no session, and has counted nothing.
  have hzero : w.service.sessions.length = 0 ∧ w.publisher.counts.published = 0 ∧ w.service.sent = 0 :=
    ⟨rfl, rfl, rfl⟩
  rw [hzero.1, Nat.zero_add] at haccepted
  rw [hzero.2.1, Nat.zero_add] at hpublished
  rw [hzero.2.2, Nat.zero_add] at hsent
  have hstreams := hhonest.counted.reported.trans hhonest.counted.active
  exact {
    subscriptions := hhonest.reported
    accepted := haccepted
    streams := hstreams
    active := hhonest.counted.active
    active_pos := fun s hs => hhonest.counted.active_pos hs
    published := hpublished
    sent := hsent
    shown_subscriptions := by rw [shown_subscriptions, hhonest.reported]
    shown_streams := by rw [shown_streams, hstreams]
    shown_published := by rw [shown_published, hpublished]
    shown_sent := by rw [shown_sent, hsent] }

end World

end BlockFeed
