import BlockFeed.Net.Address
import BlockFeed.Text.Blank
import BlockFeed.Text.Quoted

/-! The settings of the service, read from named variables. A number that cannot be read counts as
absent; an address or a path that cannot be used is an error. -/

namespace BlockFeed

inductive Network where
  | mainnet
  | testnet
  | devnet
  deriving Repr, DecidableEq

namespace Network

def name : Network → String
  | mainnet => "mainnet"
  | testnet => "testnet"
  | devnet => "devnet"

/-- Letter case is ignored, and no character outside ASCII has one of these letters as its lower
case. Any other name stands for the main network. -/
def ofName (s : String) : Network :=
  match s.map Char.toLower with
  | "testnet" => testnet
  | "devnet" => devnet
  | _ => mainnet

end Network

structure Settings where
  network : Network
  bindAddress : Net.Address
  grpcPort : UInt16
  healthPort : UInt16
  /-- How many responses wait for one client at most. -/
  clientBuffer : UInt64
  shutdownSeconds : UInt64
  bufferCapacity : UInt64
  subscriberBuffer : UInt64
  source : String
  /-- The pause between two batches, in milliseconds. -/
  interval : UInt64
  deriving Repr, DecidableEq

inductive SettingsError where
  | invalidValue (key value : String)
  | emptyValue (key : String)
  deriving Repr, DecidableEq

def SettingsError.message : SettingsError → String
  | .invalidValue key value => s!"invalid value for {key}: {Text.quoted value}"
  | .emptyValue key => s!"environment variable {key} cannot be empty"

/-- A natural number below `bound`: ASCII digits, perhaps after a plus sign. -/
def Text.natBelow? (bound : Nat) (cs : List Char) : Option Nat :=
  let digits := match cs with
    | '+' :: rest => rest
    | _ => cs
  if digits.isEmpty || !digits.all Char.isDigit then none
  else
    let n := digits.foldl (fun n c => 10 * n + (c.toNat - '0'.toNat)) 0
    if n < bound then some n else none

namespace Settings

/-- The path that stands for the standard input. -/
def standardInput : String := "-"

def default : Settings where
  network := .mainnet
  bindAddress := .v4 0 0 0 0
  grpcPort := 9999
  healthPort := 8082
  clientBuffer := 64
  shutdownSeconds := 30
  bufferCapacity := 100
  subscriberBuffer := 1024
  source := standardInput
  interval := 0

/-- A number below `bound` from a variable, blanks around it aside. -/
def number (lookup : String → Option String) (bound : Nat) (key : String) : Option Nat :=
  (lookup key).bind fun value => Text.natBelow? bound (Text.trimChars value.toList)

def address (lookup : String → Option String) : Except SettingsError Net.Address :=
  match lookup "CHAIN_STREAM_BIND_ADDRESS" with
  | none => .ok default.bindAddress
  | some value => match Net.Address.ofText? (Text.trim value) with
    | some a => .ok a
    | none => .error (.invalidValue "CHAIN_STREAM_BIND_ADDRESS" value)

def path (lookup : String → Option String) : Except SettingsError String :=
  match (lookup "CHAIN_STREAM_SOURCE").map Text.trim with
  | none => .ok default.source
  | some "" => .error (.emptyValue "CHAIN_STREAM_SOURCE")
  | some path => .ok path

def ofLookup (lookup : String → Option String) : Except SettingsError Settings := do
  let port (key : String) (absent : UInt16) : UInt16 :=
    ((number lookup UInt16.size key).map UInt16.ofNat).getD absent
  let word (key : String) (absent : UInt64) : UInt64 :=
    ((number lookup UInt64.size key).map UInt64.ofNat).getD absent
  let bindAddress ← address lookup
  let source ← path lookup
  return {
    network := ((lookup "CHAIN_STREAM_NETWORK").map Network.ofName).getD default.network
    bindAddress
    grpcPort := port "CHAIN_STREAM_GRPC_PORT" default.grpcPort
    healthPort := port "CHAIN_STREAM_HEALTH_PORT" default.healthPort
    clientBuffer := word "CHAIN_STREAM_CLIENT_BUFFER" default.clientBuffer
    shutdownSeconds := word "CHAIN_STREAM_SHUTDOWN_TIMEOUT_SECS" default.shutdownSeconds
    bufferCapacity := word "CHAIN_STREAM_BUFFER_CAPACITY" default.bufferCapacity
    subscriberBuffer := word "CHAIN_STREAM_SUBSCRIBER_BUFFER" default.subscriberBuffer
    source
    interval := word "CHAIN_STREAM_REPLAY_INTERVAL_MS" default.interval }

def grpcAddress (s : Settings) : String := s.bindAddress.withPort s.grpcPort

def healthAddress (s : Settings) : String := s.bindAddress.withPort s.healthPort

def readsStandardInput (s : Settings) : Bool := s.source = standardInput

/-- The steps of a path. Empty steps do not count, nor does a point that is not the first step. -/
def pathSteps (path : String) : List String :=
  match path.splitOn "/" with
  | [] => []
  | first :: rest => first :: rest.filter fun step => step != "" && step != "."

/-- The same settings; a path may be spelled in several ways. -/
def same (a b : Settings) : Bool :=
  pathSteps a.source == pathSteps b.source && decide ({ a with source := b.source } = b)

end Settings

end BlockFeed
