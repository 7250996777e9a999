import BlockFeed.Feed.World
import BlockFeed.Number.Shortest

/-! What the parts of the feed have counted, as named series with their values. A series appears
once something has been recorded in it. -/

namespace BlockFeed.World

/-- The text of a count, which is kept as a binary fraction. -/
def countText (n : Nat) : String :=
  match Binary64.ofNat? n with
  | some x => String.ofList x.shortest.plain
  | none => "inf"

def series (name label value : String) : String := s!"chain_stream_{name}\x7b{label}={value}\x7d"

/-- A counter, which is nothing before it counts. -/
def counter (name : String) (n : Nat) : List (String × Nat) := if n = 0 then [] else [(name, n)]

def gauge (name : String) (n : Option Nat) : List (String × Nat) := (n.map fun n => (name, n)).toList

def tally (name : String) (t : Tally (Option Topic)) : List (String × Nat) :=
  t.map fun (topic, n) => (series name "topic" ((topic.map Topic.label).getD "unknown"), n)

def metrics (w : World) : List (String × String) :=
  let p := w.publisher.counts
  let b := w.bus.counts
  let s := w.service
  let dropped (reason : String) (n : Nat) := counter (series "subscriptions_dropped_total" "reason" reason) n
  let all :=
    counter "chain_stream_blocks_published_total" p.published ++
    gauge "chain_stream_latest_height" (p.height.map UInt64.toNat) ++
    tally "events_decoded_total" p.decoded ++
    tally "decode_errors_total" p.failed ++
    counter "chain_stream_buffer_overflows_total" p.overflows ++
    gauge "chain_stream_queue_depth" p.depth ++
    counter "chain_stream_block_processing_seconds" p.processed ++
    counter "chain_stream_messages_sent_total" s.sent ++
    dropped "slow_consumer" b.slowConsumer ++ dropped "client_gone" s.clientsGone ++
    dropped "shutdown" b.shutdown ++ dropped "terminal" b.terminal ++
    gauge "chain_stream_subscriptions_active" b.active ++
    gauge "chain_stream_grpc_streams" s.reported
  all.map fun (name, n) => (name, countText n)

end BlockFeed.World
