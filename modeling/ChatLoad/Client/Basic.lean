import ChatLoad.Client.Incident
import ChatLoad.Settings.Basic
import ChatLoad.Wire.Auth
import ChatLoad.Wire.Chat

/-! One simulated user. A client owns the two halves of its connection, a table of requests in
flight, and the loops that run since it was started. Starting hands the reading half to a receive
loop; both loops of a session end when the session they belong to does. -/

namespace ChatLoad

inductive ClientState
  | disconnected
  | connected
  | authenticated
  | running
  | stopped
  deriving Repr, DecidableEq

/-- The reading half of a connection, with what was read and is no whole item yet. -/
structure Reader where
  conn : ConnId
  buffer : Bytes := []
  deriving Repr, DecidableEq

/-- Sends a heartbeat whenever it is due, as long as the client is running. -/
structure HeartbeatLoop where
  session : Nat
  conn : ConnId
  interval : Duration
  due : Duration
  deriving Repr, DecidableEq

/-- Handles inbound frames; when a read takes too long, it just starts over. -/
structure ReceiveLoop where
  session : Nat
  reader : Reader
  due : Duration
  deriving Repr, DecidableEq

/-- Requests in flight and the moments at which they were handed over. -/
abbrev Pending := List (UInt64 × Duration)

namespace Pending

def insert (pending : Pending) (request : UInt64) (sentAt : Duration) : Pending :=
  (request, sentAt) :: pending.filter (·.1 != request)

def sentAt? (pending : Pending) (request : UInt64) : Option Duration :=
  pending.lookup request

def erase (pending : Pending) (request : UInt64) : Pending :=
  pending.filter (·.1 != request)

end Pending

structure Client where
  id : UInt64
  settings : Settings := {}
  state : ClientState := .disconnected
  pending : Pending := []
  /-- how many request ids were drawn, modulo `2 ^ 32` -/
  drawn : UInt32 := 0
  writer : Option ConnId := none
  reader : Option Reader := none
  /-- the session that is ended by stopping or by the next start -/
  session : Option Nat := none
  sessions : Nat := 0
  heartbeats : List HeartbeatLoop := []
  receivers : List ReceiveLoop := []
  deriving Repr, DecidableEq

namespace Client

/-- From authentication until it stops. -/
def isAuthenticated (client : Client) : Bool :=
  client.state = .authenticated || client.state = .running

/-- The client in the upper half, in the lower half a number that is never zero. -/
def requestId (id : UInt64) (drawn : UInt32) : UInt64 :=
  (id <<< 32) ||| (drawn.toUInt64 % 0xFFFFFFFF + 1)

def drawId (client : Client) : UInt64 × Client :=
  (requestId client.id client.drawn, { client with drawn := client.drawn + 1 })

/-- The connections whose writing half is in use. -/
def held (client : Client) : List ConnId :=
  client.writer.toList ++ client.heartbeats.map (·.conn)

def endSession (client : Client) (session : Nat) : Client :=
  { client with
    heartbeats := client.heartbeats.filter (·.session != session)
    receivers := client.receivers.filter (·.session != session) }

def endCurrentSession (client : Client) : Client :=
  match client.session with
  | some session => { client.endSession session with session := none }
  | none => client

/-- Takes over a new connection. Loops of an earlier one go on. -/
def connectedTo (client : Client) (conn : ConnId) : Client :=
  { client with reader := some { conn }, writer := some conn, state := .connected }

def stopped (client : Client) : Client :=
  { client.endCurrentSession with reader := none, writer := none, state := .stopped }

/-- An interval of nothing is taken as the smallest step of the clock. -/
def nextBeat (now interval : Duration) : Duration :=
  now + max interval 1

/-- Starts a session on the connection at hand. The session before it ends. -/
def startedOn (client : Client) (now interval : Duration) (conn : ConnId) (reader : Reader) :
    Client :=
  let client := client.endCurrentSession
  let session := client.sessions
  { client with
    state := .running
    reader := none
    session := some session
    sessions := session + 1
    heartbeats := client.heartbeats ++ [⟨session, conn, interval, nextBeat now interval⟩]
    receivers :=
      client.receivers ++ [⟨session, reader, nextBeat now client.settings.receiveTimeout⟩] }

/-! ### Single loops -/

def heartbeat? (client : Client) (session : Nat) : Option HeartbeatLoop :=
  client.heartbeats.find? (·.session == session)

def putHeartbeat (client : Client) (loop : HeartbeatLoop) : Client :=
  { client with
    heartbeats := client.heartbeats.map fun other =>
      if other.session = loop.session then loop else other }

def endHeartbeat (client : Client) (session : Nat) : Client :=
  { client with heartbeats := client.heartbeats.filter (·.session != session) }

def receiver? (client : Client) (session : Nat) : Option ReceiveLoop :=
  client.receivers.find? (·.session == session)

def putReceiver (client : Client) (loop : ReceiveLoop) : Client :=
  { client with
    receivers := client.receivers.map fun other =>
      if other.session = loop.session then loop else other }

/-- The receive loop of a session has come to its end, and so has the client. -/
def haltedBy (client : Client) (session : Nat) : Client :=
  { client with
    state := .stopped
    receivers := client.receivers.filter (·.session != session) }

/-! ### Inbound frames -/

/-- Takes note of one inbound frame. Of frames that are no heartbeat, response or error nothing is
noted. -/
def handle (client : Client) (now : Duration) (frame : Frame) : Client × List Incident :=
  if frame.kind = .heartbeat then (client, [.heartbeatReceived])
  else if frame.kind.isChatResponse then
    match client.pending.sentAt? frame.requestId with
    | some sentAt =>
        ({ client with pending := client.pending.erase frame.requestId },
          [.responded (some (now - sentAt))])
    | none => (client, [.responded none])
  else if frame.kind = .error then
    let reason := match Chat.decode frame.body with
      | .ok chat => chat.content
      | .error _ => ""
    (client, [.serverError frame.requestId reason])
  else (client, [])

/-- Takes note of items in order; bad headers are skipped. -/
def handleAll (client : Client) (now : Duration) : List Item → Client × List Incident
  | [] => (client, [])
  | .badHeader _ :: items => client.handleAll now items
  | .frame frame :: items =>
      let (client, first) := client.handle now frame
      let (client, later) := client.handleAll now items
      (client, first ++ later)

end Client

end ChatLoad
