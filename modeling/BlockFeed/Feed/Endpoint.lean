/-! Where connections come in. The service listens on one address until it is stopped; each health
server listens on an address of its own until it is cancelled. -/

namespace BlockFeed

inductive ServeError where
  | stopped
  | alreadyServing
  /-- Somebody else listens on the address. -/
  | addressTaken
  deriving Repr, DecidableEq

def ServeError.message : ServeError → String
  | .stopped => "gRPC server has been stopped"
  | .alreadyServing => "gRPC server is already serving"
  | .addressTaken => "failed to bind gRPC listener"

/-- The endpoint of the service. -/
structure Endpoint where
  /-- It has listened at some time. -/
  bound : Bool
  listening : Bool
  stopped : Bool
  deriving Repr, DecidableEq

namespace Endpoint

def new : Endpoint := ⟨false, false, false⟩

def serve (e : Endpoint) (taken : Bool) : Except ServeError Endpoint :=
  if e.stopped then .error .stopped
  else if e.bound then .error .alreadyServing
  else if taken then .error .addressTaken
  else .ok { e with bound := true, listening := true }

/-- Whether the task of the endpoint need not wait. -/
def canStep (e : Endpoint) : Bool := e.listening && e.stopped

/-- The task of the endpoint lets go of the address once it is stopped. -/
def step (e : Endpoint) : Endpoint := { e with listening := e.listening && !e.stopped }

end Endpoint

inductive HealthServer.Phase where
  | starting
  | listening
  /-- Somebody else listens on its address. -/
  | refused
  | stopped
  deriving Repr, DecidableEq

structure HealthServer where
  /-- It wants the address of the service. -/
  contested : Bool
  cancelled : Bool
  phase : HealthServer.Phase
  deriving Repr, DecidableEq

namespace HealthServer

def new (contested : Bool) : HealthServer := ⟨contested, false, .starting⟩

def canStep (h : HealthServer) : Bool := h.phase = .starting || (h.phase = .listening && h.cancelled)

/-- The task of a health server does one thing, or nothing if it has to wait. -/
def step (h : HealthServer) (e : Endpoint) : HealthServer :=
  match h.phase with
  | .starting => { h with phase := if h.contested && e.listening then .refused else .listening }
  | .listening => if h.cancelled then { h with phase := .stopped } else h
  | _ => h

end HealthServer

end BlockFeed
