import BlockFeed.Decode

/-! The errors that end the feed for everybody. -/

namespace BlockFeed

inductive FeedError where
  /-- The publisher's queue was full when a batch came in. -/
  | bufferOverflow
  | decode (height : UInt64) (source : DecodeError)
  deriving Repr, DecidableEq

def FeedError.message : FeedError → String
  | .bufferOverflow => "chain stream event buffer overflow"
  | .decode height source => s!"block {height}: {source.message}"

end BlockFeed
