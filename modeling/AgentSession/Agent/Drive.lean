import AgentSession.Agent.Run
import AgentSession.Request.Wire
/-!
# Driving a run to its end

A run may be driven over pieces that the caller has, or over those that a transport delivers. In
both cases it ends in one of three ways: it is finished, it fails, or a stage suppresses its
failure.

Whenever a run waits, for the transport or for the next piece, it may find that it has been
cancelled. A number of waits tells when that is; it is `none` for a run that is never cancelled.
-/

namespace AgentSession

variable {σ : Type}

/-- A piece of an answer, or the failure of the stream. -/
abbrev Arrival := Except Failure Bytes

structure TransportRequest where
  url : String
  headers : Dict String
  /-- How long it may take, in milliseconds. -/
  timeoutMs : Nat
  body : Json
deriving DecidableEq, Repr

/-- A transport whose memory is part of `σ`: it gives the stream of an answer or fails. -/
abbrev Transport (σ : Type) := TransportRequest → σ → Except Failure (List Arrival) × σ

/-- How a run ends. -/
inductive Outcome where
  | finished (result : RunResult)
  /-- With a failure that a stage has suppressed. -/
  | suppressed
  | failed (failure : Failure)
deriving DecidableEq, Repr

namespace Running

/-- Why a run that is cancelled while it waits is cancelled. -/
def cancelReason : String := "run cancelled"

/-- Takes pieces up to the first failure, and gives that. -/
def consume (r : Running σ) : Option Nat → List Arrival → Option Failure × Running σ
  | some 0, _ => (some (.cancelled cancelReason), r)
  | _, [] => (none, r)
  | _, .error failure :: _ => (some failure, r)
  | waits, .ok piece :: arrivals =>
    match r.feed piece with
    | (some failure, r) => (some failure, r)
    | (none, r) => r.consume (waits.map (· - 1)) arrivals

def giveUp (r : Running σ) (failure : Failure) : Outcome × Agent σ :=
  match r.fail failure with
  | (some failure, r) => (.failed failure, r.agent)
  | (none, r) => (.suppressed, r.agent)

def drive (r : Running σ) (waits : Option Nat) (arrivals : List Arrival) : Outcome × Agent σ :=
  match r.consume waits arrivals with
  | (some failure, r) => r.giveUp failure
  | (none, r) =>
    match r.finish with
    | (.ok result, r) => (.finished result, r.agent)
    | (.error failure, r) => r.giveUp failure

end Running

namespace Agent

def transportRequest (a : Agent σ) (input : RunInput) : TransportRequest :=
  { url := a.endpoint.url
    headers := a.endpoint.headers
    timeoutMs := a.endpoint.timeoutMs
    body := input.toJson }

/-- Drives a run over pieces that the caller has. -/
def runStream (a : Agent σ) (params : RunParams) (waits : Option Nat) (arrivals : List Arrival) :
    Outcome × Agent σ :=
  match a.prepare params with
  | (.error failure, a) => (.failed failure, a)
  | (.ok request, a) => (a.begin request).drive waits arrivals

/-- Drives a run over what a transport delivers. The first wait is for the transport. -/
def run (a : Agent σ) (params : RunParams) (waits : Option Nat) (transport : Transport σ) :
    Outcome × Agent σ :=
  match a.prepare params with
  | (.error failure, a) => (.failed failure, a)
  | (.ok request, a) =>
    let r := a.begin request
    match waits with
    | some 0 => r.giveUp (.cancelled Running.cancelReason)
    | _ =>
      let (opened, memory) := transport (a.transportRequest request.input) r.agent.memory
      let r := { r with agent := { r.agent with memory } }
      match opened with
      | .error failure => r.giveUp failure
      | .ok arrivals => r.drive (waits.map (· - 1)) arrivals

end Agent

end AgentSession
