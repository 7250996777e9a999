import BlockFeed.Net.Uri
import BlockFeed.Settings

/-! What is logged and whether spans are exported. -/

namespace BlockFeed

structure Telemetry where
  enabled : Bool
  endpoint : String
  serviceName : String
  deriving Repr, DecidableEq

namespace Telemetry

def default : Telemetry := ⟨true, "http://localhost:4318", "chain-stream"⟩

/-- Only the word `false`, in any letter case, turns the export off. -/
def ofLookup (lookup : String → Option String) : Telemetry where
  enabled := ((lookup "OTEL_ENABLED").map fun v => v.map Char.toLower != "false").getD default.enabled
  endpoint := (lookup "OTEL_EXPORTER_OTLP_ENDPOINT").getD default.endpoint
  serviceName := (lookup "OTEL_SERVICE_NAME").getD default.serviceName

/-- Spans go to the endpoint, if it is a URI. -/
def reachesEndpoint (t : Telemetry) : Bool := (Net.Uri.ofText? t.endpoint).isSome

def exporting (t : Telemetry) : Bool := t.enabled && t.reachesEndpoint

/-- The export was asked for and cannot be had. -/
def fellBack (t : Telemetry) : Bool := t.enabled && !t.reachesEndpoint

end Telemetry

end BlockFeed
