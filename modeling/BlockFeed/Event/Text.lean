import BlockFeed.Event
import BlockFeed.Json.Record

/-! Batches as JSON text. -/

namespace BlockFeed

open Json.RecordReader

def Attribute.reader : Json.Reader Attribute :=
  (Attribute.mk <$> required "key" Json.Reader.string <*> required "value" Json.Reader.string <*>
    defaulted "index" Json.Reader.bool false).reader "EventAttribute"

def Event.reader : Json.Reader Event :=
  (Event.mk <$> required "type" Json.Reader.string <*>
    defaulted "attributes" (Json.Reader.list Attribute.reader) []).reader "RawEvent"

def Batch.reader : Json.Reader Batch :=
  (Batch.mk <$> required "height" Json.Reader.word <*>
    defaulted "events" (Json.Reader.list Event.reader) []).reader "RawEventBatch"

def Batch.ofText? (text : String) : Except Json.Fault Batch := Batch.reader.run text

def Attribute.toJson (a : Attribute) : Json.Value :=
  .object [("key", .string a.key), ("value", .string a.value), ("index", .bool a.index)]

def Event.toJson (e : Event) : Json.Value :=
  .object [("type", .string e.tag), ("attributes", .list (e.attributes.map Attribute.toJson))]

def Batch.toJson (b : Batch) : Json.Value :=
  .object [("height", .number (.natural b.height.toNat)), ("events", .list (b.events.map Event.toJson))]

def Batch.text (b : Batch) : String := b.toJson.text

end BlockFeed
