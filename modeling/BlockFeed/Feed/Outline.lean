import BlockFeed.Feed.World

/-! One line that outlines each part of the feed, for those who look into a running one. -/

namespace BlockFeed.World

/-- A name with fields in braces. More fields than those told are two dots. -/
def outline (name : String) (fields : List (String × String)) (more : Bool) : String :=
  let told := fields.map fun (key, value) => key ++ ": " ++ value
  name ++ " \x7b " ++ ", ".intercalate (told ++ if more then [".."] else []) ++ " \x7d"

def publisherOutline (w : World) : String :=
  outline "EventPublisher" [
    ("state", w.publisher.state.name.capitalize),
    ("capacity", toString w.publisher.fifo.capacity),
    ("latest_height", toString w.publisher.latestHeight)] true

def submitterOutline : String := outline "BatchSubmitter" [] true

def busOutline (w : World) : String :=
  let capacity := ("subscriber_capacity", toString w.bus.capacity)
  outline "SubscriptionBus" [
    ("config", outline "BusConfig" [capacity] false),
    ("stats", outline "BusStats" [
      ("subscribers", toString w.bus.registered),
      capacity,
      ("halted", toString w.bus.terminal.isSome),
      ("closed", toString w.bus.closed)] false)] false

/-- The address is told by whether there is one. -/
def serverOutline (w : World) : String :=
  outline "ChainStreamServer" [
    ("local_addr", if w.endpoint.bound then "Some(..)" else "None"),
    ("active_streams", toString w.service.active)] true

/-- The outline of a subscription under a name of the caller's choice. -/
def subscriptionOutline (w : World) (name : String) (id : Nat) : String :=
  outline "Subscription" [
    ("id", name),
    ("evicted", toString (w.bus.subscriptions[id]?.any Subscription.evicted))] true

end BlockFeed.World
