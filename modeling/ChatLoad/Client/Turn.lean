import ChatLoad.Client.Basic
import ChatLoad.Net.Basic

/-! A client's turn to act on the network, with what happened in it so far. -/

namespace ChatLoad

/-- Nothing that could be taken for an answer is there, and the client gives the peer no time for one. -/
def Client.hasty {σ : Type} (client : Client) (net : Net σ) : Bool :=
  (client.reader.any fun reader =>
    (Inbound.poll reader.buffer (net.incoming reader.conn)).1 = .pending) &&
    client.settings.authTimeout = 0

structure Turn (σ : Type) where
  client : Client
  net : Net σ
  incidents : List Incident := []

namespace Turn

variable {σ : Type}

def emit (turn : Turn σ) (incident : Incident) : Turn σ :=
  { turn with incidents := turn.incidents ++ [incident] }

/-- Puts a new client in place of the old. A connection whose writing half is no longer in use
gets closed. -/
def become (turn : Turn σ) (client : Client) : Turn σ :=
  let dropped := turn.client.held.filter fun conn => !client.held.contains conn
  { turn with client, net := dropped.foldl Net.close turn.net }

/-! ### Connecting -/

def connectFailed (turn : Turn σ) (cause : ClientError) : Turn σ :=
  turn.emit (.connectFailed cause)

def connected (turn : Turn σ) (now : Duration) : Turn σ :=
  let (conn, net) := turn.net.openLink now
  { turn with net }.become (turn.client.connectedTo conn) |>.emit .connected

/-- Tries to connect. A timeout of nothing expires at once, after the peer has seen the connection
come and go; a failure that is known at once comes first. Nothing is returned as long as there is
no answer. -/
def connect (turn : Turn σ) (now limit : Duration) : Turn σ × Option Bool :=
  let (reach, net) := turn.net.attempt
  let turn := { turn with net }.emit .connecting
  let timedOut : ClientError := .timeout "connect" limit
  let failed (cause : IoError) := ClientError.connect turn.client.settings.address cause
  match reach with
  | .unreachable => (turn.connectFailed (failed .unreachable), some false)
  | .accepts =>
      if limit = 0 then
        let (conn, net) := turn.net.openLink now
        ({ turn with net := net.close conn }.connectFailed timedOut, some false)
      else (turn.connected now, some true)
  | .refuses =>
      (turn.connectFailed (if limit = 0 then timedOut else failed .refused), some false)
  | .silent =>
      if limit = 0 then (turn.connectFailed timedOut, some false) else (turn, none)

/-! ### Authenticating -/

def authFailed (turn : Turn σ) (cause : ClientError) : Turn σ :=
  turn.emit (.authFailed cause)

def sendAuth (turn : Turn σ) (now : Duration) : Turn σ × Except ClientError Unit :=
  let (request, client) := turn.client.drawId
  let turn := { turn with client }
  match client.writer with
  | none => (turn, .error .notConnected)
  | some conn =>
      let frame := Frame.encode .auth request (Auth.ofClient client.id).encode
      match turn.net.write now conn frame with
      | (.ok (), net) => ({ turn with net }, .ok ())
      | (.error cause, net) => ({ turn with net }, .error (.send cause))

/-- Looks for the answer to an AUTH: any well-formed frame will do. Nothing is returned as long as
there is none and `deadline` is to come. -/
def pollAuth (turn : Turn σ) (now deadline : Duration) : Turn σ × Option Bool :=
  match turn.client.reader with
  | none => (turn.authFailed .notConnected, some false)
  | some reader =>
      let (answer, buffer, incoming) :=
        Inbound.poll reader.buffer (turn.net.incoming reader.conn)
      let client := { turn.client with reader := some { reader with buffer } }
      let turn := { turn with client, net := turn.net.leave reader.conn incoming }
      match answer with
      | .item (.frame _) =>
          ({ turn with client := { client with state := .authenticated } }.emit .authenticated,
            some true)
      | .item (.badHeader fault) => (turn.authFailed (.frame fault), some false)
      | .closed => (turn.authFailed (.auth "connection closed before response"), some false)
      | .fault text => (turn.authFailed (.frame (.io text)), some false)
      | .pending =>
          if deadline ≤ now then
            (turn.authFailed (.timeout "auth response" client.settings.authTimeout), some false)
          else (turn, none)

/-- Authenticates a connected client. A timeout of nothing leaves time for one look, which finds what
has arrived before the AUTH is sent; the peer answers the AUTH itself too late. -/
def authenticate (turn : Turn σ) (now : Duration) : Turn σ × Option Bool :=
  if turn.client.state ≠ .connected then (turn.emit .authSkipped, some false)
  else
    let hasty := turn.client.hasty turn.net
    match turn.sendAuth now with
    | (turn, .error cause) => (turn.authFailed cause, some false)
    | (turn, .ok ()) =>
        let limit := turn.client.settings.authTimeout
        if hasty then (turn.authFailed (.timeout "auth response" limit), some false)
        else turn.pollAuth now (now + limit)

/-! ### Sending -/

/-- Sends a message made for the current time. The request is pending before it is written, so that
a fast response always finds it. -/
def sendChat (turn : Turn σ) (now : Duration) (message : Int64 → Chat) : Turn σ :=
  match turn.client.isAuthenticated, turn.client.writer with
  | true, some conn =>
      let (request, client) := turn.client.drawId
      let chat := message (turn.net.wallMillis now)
      let frame := Frame.encode chat.command request (chat.encode (turn.net.wallMillis now))
      let turn := { turn with client := { client with pending := client.pending.insert request now } }
      match turn.net.write now conn frame with
      | (.ok (), net) => { turn with net }.emit (.chatSent request)
      | (.error cause, net) => { turn with net }.emit (.chatFailed request cause)
  | _, _ => turn.emit .chatRefused

def single (turn : Turn σ) (now : Duration) (target : Int64) (content : String) : Turn σ :=
  turn.sendChat now fun clock => Chat.single clock turn.client.id.toInt64 target content

def group (turn : Turn σ) (now : Duration) (session : Int64) (content : String) : Turn σ :=
  turn.sendChat now fun clock => Chat.group clock turn.client.id.toInt64 session content

def beat (turn : Turn σ) (now : Duration) (conn : ConnId) : Turn σ :=
  match turn.net.write now conn (Frame.encode .heartbeat (turn.net.clockId now) []) with
  | (.ok (), net) => { turn with net }.emit .heartbeatSent
  | (.error cause, net) => { turn with net }.emit (.heartbeatFailed cause)

/-- A heartbeat on request; without a connection nothing is tried. -/
def heartbeat (turn : Turn σ) (now : Duration) : Turn σ :=
  match turn.client.writer with
  | some conn => turn.beat now conn
  | none => turn.emit .heartbeatSkipped

/-! ### Starting and stopping -/

def start (turn : Turn σ) (now interval : Duration) : Turn σ :=
  match turn.client.state, turn.client.writer, turn.client.reader with
  | .authenticated, some conn, some reader =>
      turn.become (turn.client.startedOn now interval conn reader) |>.emit .started
  | _, _, _ => turn.emit .startSkipped

def stop (turn : Turn σ) : Turn σ :=
  turn.become turn.client.stopped |>.emit .stopped

/-! ### The loops -/

/-- One look of a heartbeat loop at the clock. A loop that ends drops its hold on the connection. -/
def runHeartbeat (turn : Turn σ) (now : Duration) (session : Nat) : Turn σ :=
  match turn.client.heartbeat? session with
  | none => turn
  | some loop =>
      if now < loop.due then turn
      else
        let turn := turn.beat now loop.conn
        if turn.client.state = .running then
          { turn with
            client := turn.client.putHeartbeat { loop with due := Client.nextBeat now loop.interval } }
        else turn.become (turn.client.endHeartbeat session)

def runHeartbeats (turn : Turn σ) (now : Duration) : Turn σ :=
  (turn.client.heartbeats.map (·.session)).foldl (·.runHeartbeat now ·) turn

/-- Handles what has arrived for a receive loop. At the end of the stream, or when it fails, the
loop ends and the client with it. -/
def runReceiver (turn : Turn σ) (now : Duration) (session : Nat) : Turn σ :=
  match turn.client.receiver? session with
  | none => turn
  | some loop =>
      let (items, last, buffer, incoming) :=
        Inbound.drain loop.reader.buffer (turn.net.incoming loop.reader.conn)
      let (client, incidents) := turn.client.handleAll now items
      let turn := { turn with
        client
        net := turn.net.leave loop.reader.conn incoming
        incidents := turn.incidents ++ incidents }
      let halted := { turn with client := client.haltedBy session }
      match last with
      | .closed => halted.emit .closedByServer
      | .fault text => halted.emit (.receiveFailed (.io text))
      | _ =>
          let due :=
            if !items.isEmpty || loop.due ≤ now then
              Client.nextBeat now client.settings.receiveTimeout
            else loop.due
          { turn with
            client := client.putReceiver { loop with reader := { loop.reader with buffer }, due } }

def runReceivers (turn : Turn σ) (now : Duration) : Turn σ :=
  (turn.client.receivers.map (·.session)).foldl (·.runReceiver now ·) turn

def runLoops (turn : Turn σ) (now : Duration) : Turn σ :=
  (turn.runHeartbeats now).runReceivers now

end Turn

end ChatLoad
