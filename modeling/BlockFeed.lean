import BlockFeed.Block
import BlockFeed.Block.Index
import BlockFeed.Block.Keyed
import BlockFeed.Decimal
import BlockFeed.Decode
import BlockFeed.Event
import BlockFeed.Event.Text
import BlockFeed.Feed.Bus
import BlockFeed.Feed.Capacity
import BlockFeed.Feed.Endpoint
import BlockFeed.Feed.Error
import BlockFeed.Feed.Fifo
import BlockFeed.Feed.Health
import BlockFeed.Feed.Metrics
import BlockFeed.Feed.Outline
import BlockFeed.Feed.Publisher
import BlockFeed.Feed.Pump
import BlockFeed.Feed.Service
import BlockFeed.Feed.World
import BlockFeed.Filter
import BlockFeed.Grpc.Body
import BlockFeed.Grpc.Call
import BlockFeed.Grpc.Framing
import BlockFeed.Grpc.Request
import BlockFeed.Grpc.Status
import BlockFeed.Json.Fault
import BlockFeed.Json.Node
import BlockFeed.Json.Numeral
import BlockFeed.Json.Reader
import BlockFeed.Json.Record
import BlockFeed.Json.Token
import BlockFeed.Json.Value
import BlockFeed.Net.Address
import BlockFeed.Net.Uri
import BlockFeed.Number.Binary64
import BlockFeed.Number.Shortest
import BlockFeed.Payload.Order
import BlockFeed.Payload.Scalar
import BlockFeed.Payload.Trade
import BlockFeed.Proofs.Block
import BlockFeed.Proofs.Block.Entitlement
import BlockFeed.Proofs.Block.Filing
import BlockFeed.Proofs.Block.Index
import BlockFeed.Proofs.Block.Intersection
import BlockFeed.Proofs.Block.Keyed
import BlockFeed.Proofs.Block.Market
import BlockFeed.Proofs.Block.Numbering
import BlockFeed.Proofs.Bus.Closing
import BlockFeed.Proofs.Bus.Drain
import BlockFeed.Proofs.Bus.Exit
import BlockFeed.Proofs.Bus.Isolation
import BlockFeed.Proofs.Bus.Log
import BlockFeed.Proofs.Bus.Operation
import BlockFeed.Proofs.Bus.Register
import BlockFeed.Proofs.Bus.Terminal
import BlockFeed.Proofs.Decimal
import BlockFeed.Proofs.Decimal.Exact
import BlockFeed.Proofs.Decimal.Grammar
import BlockFeed.Proofs.Decode.Attribute
import BlockFeed.Proofs.Decode.Demand
import BlockFeed.Proofs.Decode.Deposits
import BlockFeed.Proofs.Decode.Entry
import BlockFeed.Proofs.Decode.Fidelity
import BlockFeed.Proofs.Decode.Format
import BlockFeed.Proofs.Decode.Funding
import BlockFeed.Proofs.Decode.Rearranged
import BlockFeed.Proofs.Deposit
import BlockFeed.Proofs.Event.Text
import BlockFeed.Proofs.Filter
import BlockFeed.Proofs.Filter.Canonical
import BlockFeed.Proofs.Filter.Entry
import BlockFeed.Proofs.Json.Gathering
import BlockFeed.Proofs.Json.Kind
import BlockFeed.Proofs.Json.Printing
import BlockFeed.Proofs.Json.Reading
import BlockFeed.Proofs.Json.Rounding
import BlockFeed.Proofs.Json.Slot
import BlockFeed.Proofs.Json.Spelling
import BlockFeed.Proofs.Json.Tree
import BlockFeed.Proofs.Number.Binary64
import BlockFeed.Proofs.Number.Shortest
import BlockFeed.Proofs.Payload.Format
import BlockFeed.Proofs.Payload.Identifier
import BlockFeed.Proofs.Payload.Kind
import BlockFeed.Proofs.Payload.Reading
import BlockFeed.Proofs.Publisher.Account
import BlockFeed.Proofs.Publisher.Lifecycle
import BlockFeed.Proofs.Publisher.Operation
import BlockFeed.Proofs.Publisher.Protocol
import BlockFeed.Proofs.Publisher.Queue
import BlockFeed.Proofs.Publisher.Submission
import BlockFeed.Proofs.Publisher.Unstarted
import BlockFeed.Proofs.Publisher.Waiting
import BlockFeed.Proofs.Pump.Account
import BlockFeed.Proofs.Pump.Operation
import BlockFeed.Proofs.Run
import BlockFeed.Proofs.Service.Account
import BlockFeed.Proofs.Service.Course
import BlockFeed.Proofs.Service.Ending
import BlockFeed.Proofs.Service.Relay
import BlockFeed.Proofs.Service.Serving
import BlockFeed.Proofs.Service.Stream
import BlockFeed.Proofs.Service.Turn
import BlockFeed.Proofs.Source
import BlockFeed.Proofs.Source.Lines
import BlockFeed.Proofs.Source.Numbering
import BlockFeed.Proofs.Subaccount
import BlockFeed.Proofs.Text.Base64
import BlockFeed.Proofs.Text.Canonical
import BlockFeed.Proofs.Text.Decoded
import BlockFeed.Proofs.Text.Hex
import BlockFeed.Proofs.Text.Utf8
import BlockFeed.Proofs.World.Dropped
import BlockFeed.Proofs.World.Ending
import BlockFeed.Proofs.World.GapFree
import BlockFeed.Proofs.World.Incident
import BlockFeed.Proofs.World.Lifecycle
import BlockFeed.Proofs.World.Log
import BlockFeed.Proofs.World.Operation
import BlockFeed.Proofs.World.Session
import BlockFeed.Proofs.World.Shutdown
import BlockFeed.Proofs.World.Stream
import BlockFeed.Protobuf.Message
import BlockFeed.Protobuf.Varint
import BlockFeed.Protobuf.Wire
import BlockFeed.Record
import BlockFeed.Response
import BlockFeed.Response.Schema
import BlockFeed.Settings
import BlockFeed.Settings.LogFilter
import BlockFeed.Settings.Telemetry
import BlockFeed.Source
import BlockFeed.Subaccount
import BlockFeed.Text.Base64
import BlockFeed.Text.Bech32
import BlockFeed.Text.Blank
import BlockFeed.Text.Hex
import BlockFeed.Text.Hidden
import BlockFeed.Text.Percent
import BlockFeed.Text.Quoted
import BlockFeed.Text.Utf8
import BlockFeed.Proofs.Payload.Rendering
import BlockFeed.Proofs.Response
import BlockFeed.Proofs.Block.Order
import BlockFeed.Proofs.Bus.Gauge
import BlockFeed.Proofs.Service.Census
import BlockFeed.Proofs.World.Gauges
