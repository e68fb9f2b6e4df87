/-! The ten counters of a run. They only ever grow. -/

namespace ChatLoad

inductive Counter
  | connectionsAttempted
  | connectionsSucceeded
  | connectionsFailed
  | authSucceeded
  | authFailed
  | messagesSent
  | messagesReceived
  | heartbeatsSent
  | heartbeatsReceived
  | errors
  deriving Repr, DecidableEq

namespace Counter

/-- All counters in the order of reports. -/
def all : List Counter :=
  [connectionsAttempted, connectionsSucceeded, connectionsFailed, authSucceeded, authFailed,
    messagesSent, messagesReceived, heartbeatsSent, heartbeatsReceived, errors]

def name : Counter → String
  | connectionsAttempted => "connections_attempted"
  | connectionsSucceeded => "connections_succeeded"
  | connectionsFailed => "connections_failed"
  | authSucceeded => "auth_succeeded"
  | authFailed => "auth_failed"
  | messagesSent => "messages_sent"
  | messagesReceived => "messages_received"
  | heartbeatsSent => "heartbeats_sent"
  | heartbeatsReceived => "heartbeats_received"
  | errors => "errors"

def ofName? (name : String) : Option Counter :=
  all.find? (·.name == name)

end Counter

structure Counters where
  connectionsAttempted : Nat := 0
  connectionsSucceeded : Nat := 0
  connectionsFailed : Nat := 0
  authSucceeded : Nat := 0
  authFailed : Nat := 0
  messagesSent : Nat := 0
  messagesReceived : Nat := 0
  heartbeatsSent : Nat := 0
  heartbeatsReceived : Nat := 0
  errors : Nat := 0
  deriving Repr, DecidableEq

namespace Counters

def get (counters : Counters) : Counter → Nat
  | .connectionsAttempted => counters.connectionsAttempted
  | .connectionsSucceeded => counters.connectionsSucceeded
  | .connectionsFailed => counters.connectionsFailed
  | .authSucceeded => counters.authSucceeded
  | .authFailed => counters.authFailed
  | .messagesSent => counters.messagesSent
  | .messagesReceived => counters.messagesReceived
  | .heartbeatsSent => counters.heartbeatsSent
  | .heartbeatsReceived => counters.heartbeatsReceived
  | .errors => counters.errors

def add (counters : Counters) (counter : Counter) (delta : Nat) : Counters :=
  match counter with
  | .connectionsAttempted =>
      { counters with connectionsAttempted := counters.connectionsAttempted + delta }
  | .connectionsSucceeded =>
      { counters with connectionsSucceeded := counters.connectionsSucceeded + delta }
  | .connectionsFailed => { counters with connectionsFailed := counters.connectionsFailed + delta }
  | .authSucceeded => { counters with authSucceeded := counters.authSucceeded + delta }
  | .authFailed => { counters with authFailed := counters.authFailed + delta }
  | .messagesSent => { counters with messagesSent := counters.messagesSent + delta }
  | .messagesReceived => { counters with messagesReceived := counters.messagesReceived + delta }
  | .heartbeatsSent => { counters with heartbeatsSent := counters.heartbeatsSent + delta }
  | .heartbeatsReceived =>
      { counters with heartbeatsReceived := counters.heartbeatsReceived + delta }
  | .errors => { counters with errors := counters.errors + delta }

def toList (counters : Counters) : List Nat :=
  Counter.all.map counters.get

theorem get_add (counters : Counters) (c d : Counter) (delta : Nat) :
    (counters.add c delta).get d = counters.get d + if c = d then delta else 0 := by
  cases c <;> cases d <;> simp [add, get]

theorem ext_get {a b : Counters} (h : ∀ c, a.get c = b.get c) : a = b := by
  obtain ⟨_, _, _, _, _, _, _, _, _, _⟩ := a
  obtain ⟨_, _, _, _, _, _, _, _, _, _⟩ := b
  simp only [Counters.mk.injEq]
  exact ⟨h .connectionsAttempted, h .connectionsSucceeded, h .connectionsFailed,
    h .authSucceeded, h .authFailed, h .messagesSent, h .messagesReceived, h .heartbeatsSent,
    h .heartbeatsReceived, h .errors⟩

end Counters

end ChatLoad
