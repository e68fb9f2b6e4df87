import ChatLoad.Client.Error
import ChatLoad.Stats.Basic

/-! What happens to a client. Counters, latency samples and log lines all follow from incidents. -/

namespace ChatLoad

inductive Incident
  | connecting
  | connected
  | connectFailed (cause : ClientError)
  | authenticated
  | authFailed (cause : ClientError)
  /-- not connected, so nothing was tried -/
  | authSkipped
  | started
  | startSkipped
  | chatSent (request : UInt64)
  | chatFailed (request : UInt64) (cause : IoError)
  /-- not authenticated, so nothing was tried -/
  | chatRefused
  | heartbeatSent
  | heartbeatFailed (cause : IoError)
  | heartbeatSkipped
  | stopped
  | heartbeatReceived
  /-- a response, with its latency if its request was pending -/
  | responded (latency : Option Duration)
  | serverError (request : UInt64) (reason : String)
  | closedByServer
  | receiveFailed (fault : WireError)
  deriving Repr, DecidableEq

namespace Incident

def counters : Incident → List Counter
  | connecting => [.connectionsAttempted]
  | connected => [.connectionsSucceeded]
  | connectFailed _ => [.connectionsFailed, .errors]
  | authenticated => [.authSucceeded]
  | authFailed _ => [.authFailed, .errors]
  | chatSent _ => [.messagesSent]
  | chatFailed _ _ => [.errors]
  | heartbeatSent => [.heartbeatsSent]
  | heartbeatFailed _ => [.errors]
  | heartbeatReceived => [.heartbeatsReceived]
  | responded _ => [.messagesReceived]
  | serverError _ _ => [.errors]
  | receiveFailed _ => [.errors]
  | authSkipped | started | startSkipped | chatRefused | heartbeatSkipped | stopped
  | closedByServer => []

def sample? : Incident → Option UInt64
  | responded (some latency) => some (Duration.toSecs latency * 1000.0).toBits
  | _ => none

def updates (incident : Incident) : List StatsUpdate :=
  incident.counters.map (.increase · 1) ++ (incident.sample?.map .latency).toList

def line? (id : UInt64) : Incident → Option LogLine
  | connectFailed cause => warn cause.message
  | authFailed cause => warn s!"Authentication failed: {cause.message}"
  | chatFailed _ cause => warn (ClientError.send cause).message
  | serverError request reason => warn s!"Server error for request {request.toNat}: {reason}"
  | receiveFailed fault => warn s!"Receive failed: {fault.message}"
  | closedByServer => some ⟨.info, s!"[client {id.toNat}] Connection closed by server"⟩
  | _ => none
where
  warn (text : String) : Option LogLine := some ⟨.warn, s!"[client {id.toNat}] {text}"⟩

end Incident

end ChatLoad
