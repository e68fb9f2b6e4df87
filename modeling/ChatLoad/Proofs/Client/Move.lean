import ChatLoad.Client.Routine
import ChatLoad.Proofs.Wire.Stream

/-! The moves of a client, one act or one look of one loop at a time, and what each makes of the client
and of the network. -/

namespace ChatLoad

inductive Move
  | begin (act : Act)
  | resume
  | beat (session : Nat)
  | receive (session : Nat)

/-- Whether a call is under way; a routine may also just pause. -/
def Wait.inCall : Wait → Bool
  | connection _ _ => true
  | auth _ => true
  | _ => false

def Progress.wait : Progress → Wait
  | done _ => .nothing
  | waits wait => wait

def Item.frame? : Item → Option Frame
  | .frame found => some found
  | .badHeader _ => none

namespace Net

variable {σ : Type}

def writable (net : Net σ) (conn : ConnId) : Bool :=
  match net.link? conn with
  | some link => !(link.broken || link.closed)
  | none => false

/-- A connection is opened and given up before anybody writes to it. -/
def touch (net : Net σ) (now : Duration) : Net σ :=
  (net.openLink now).2.close (net.openLink now).1

/-- Closes the connections that one client held and the other does not. -/
def drop (net : Net σ) (before after : Client) : Net σ :=
  (before.held.filter fun conn => !after.held.contains conn).foldl close net

end Net

namespace Turn

variable {σ : Type}

def move (turn : Turn σ) (now : Duration) (wait : Wait) : Move → Turn σ × Wait
  | .begin act =>
      if wait = .nothing then
        let (turn, progress) := turn.begin now act
        (turn, progress.wait)
      else (turn, wait)
  | .resume =>
      let (turn, progress) := turn.resume now wait
      (turn, progress.wait)
  | .beat session => (turn.runHeartbeat now session, wait)
  | .receive session => (turn.runReceiver now session, wait)

end Turn

namespace Client

def message? (client : Client) : Act → Option (Int64 → Chat)
  | .single target content =>
      some fun clock => Chat.single clock client.id.toInt64 target content
  | .group session content =>
      some fun clock => Chat.group clock client.id.toInt64 session content
  | _ => none

section

variable {σ : Type} (client : Client) (net : Net σ) (now : Duration)

def beatFrame : Bytes :=
  Frame.encode .heartbeat (net.clockId now) []

def authFrame : Bytes :=
  Frame.encode .auth client.drawId.1 (Auth.ofClient client.id).encode

def chatFrame (message : Int64 → Chat) : Bytes :=
  let chat := message (net.wallMillis now)
  Frame.encode chat.command client.drawId.1 (chat.encode (net.wallMillis now))

/-- The frame that an act is to send, if the state of the client admits the act. -/
def frame? : Act → Option Bytes
  | .authenticate => if client.state = .connected then some client.authFrame else none
  | .heartbeat => some (beatFrame net now)
  | act =>
      if client.isAuthenticated then (client.message? act).map (client.chatFrame net now) else none

def writes? (wait : Wait) : Move → Option (ConnId × Bytes)
  | .begin act =>
      if wait = .nothing then
        client.writer.bind fun conn => (client.frame? net now act).map (conn, ·)
      else none
  | .beat session =>
      (client.heartbeat? session).bind fun loop =>
        if loop.due ≤ now then some (loop.conn, beatFrame net now) else none
  | _ => none

/-- What a receive loop finds when it looks: the items, and what comes after them. -/
def finds (session : Nat) : List Item × Polled × Bytes × List Delivery :=
  match client.receiver? session with
  | some loop => Inbound.drain loop.reader.buffer (net.incoming loop.reader.conn)
  | none => ([], .pending, [], [])

end

section

variable {σ : Type}

def read (client : Client) (reader : Reader) (buffer : Bytes) : Client :=
  { client with reader := some { reader with buffer } }

inductive Looked (now deadline : Duration) (client : Client) (net : Net σ) :
    Client → Net σ → Wait → List Incident → Prop
  | noReader : client.reader = none →
      Looked now deadline client net client net .nothing [.authFailed .notConnected]
  | answered {reader : Reader} {frame : Frame} {buffer : Bytes} {incoming : List Delivery} :
      client.reader = some reader →
      Inbound.poll reader.buffer (net.incoming reader.conn) =
        (.item (.frame frame), buffer, incoming) →
      Looked now deadline client net { client.read reader buffer with state := .authenticated }
        (net.leave reader.conn incoming) .nothing [.authenticated]
  | failed {reader : Reader} {answer : Polled} {buffer : Bytes} {incoming : List Delivery}
      {cause : ClientError} :
      client.reader = some reader →
      Inbound.poll reader.buffer (net.incoming reader.conn) = (answer, buffer, incoming) →
      (∀ frame, answer ≠ .item (.frame frame)) →
      (answer = .pending → deadline ≤ now) →
      (∀ text, answer = .fault text → cause = .frame (.io text)) →
      Looked now deadline client net (client.read reader buffer) (net.leave reader.conn incoming)
        .nothing [.authFailed cause]
  | waits {reader : Reader} {buffer : Bytes} {incoming : List Delivery} :
      client.reader = some reader →
      Inbound.poll reader.buffer (net.incoming reader.conn) = (.pending, buffer, incoming) →
      now < deadline →
      Looked now deadline client net (client.read reader buffer) (net.leave reader.conn incoming)
        (.auth deadline) []

/-- The move opens no connection and looks at none. -/
def Overlooks (client : Client) (wait : Wait) : Move → Prop
  | .begin (.connect _) => wait ≠ .nothing
  | .resume => ∀ deadline, wait ≠ .auth deadline
  | .receive session => client.receiver? session = none
  | _ => True

/-- What a move makes of a client, of the network and of its wait, and what there is to note. -/
inductive Moved (now : Duration) (client : Client) (net : Net σ) :
    Wait → Move → Client → Net σ → Wait → List Incident → Prop
  | still {wait wait' : Wait} {move : Move} {incidents : List Incident} :
      client.writes? net now wait move = none →
      (wait' = wait ∨ wait.inCall = false ∧ wait'.inCall = false) →
      client.Overlooks wait move →
      incidents ⊆ [.authSkipped, .startSkipped, .chatRefused, .heartbeatSkipped] →
      Moved now client net wait move client net wait' incidents
  | refused {limit : Duration} {cause : ClientError} :
      net.attempt.1 ≠ .accepts →
      Moved now client net .nothing (.begin (.connect limit)) client net.attempt.2 .nothing
        [.connecting, .connectFailed cause]
  | late {limit : Duration} {cause : ClientError} :
      net.attempt.1 = .accepts →
      Moved now client net .nothing (.begin (.connect limit)) client (net.attempt.2.touch now)
        .nothing [.connecting, .connectFailed cause]
  | connecting {limit : Duration} :
      net.attempt.1 ≠ .accepts →
      Moved now client net .nothing (.begin (.connect limit)) client net.attempt.2
        (.connection (now + limit) limit) [.connecting]
  | connected {limit : Duration} {conn : ConnId} {net' : Net σ} :
      net.attempt.1 = .accepts → net.attempt.2.openLink now = (conn, net') →
      Moved now client net .nothing (.begin (.connect limit)) (client.connectedTo conn)
        (net'.drop client (client.connectedTo conn)) .nothing [.connecting, .connected]
  | expired {deadline limit : Duration} {cause : ClientError} :
      Moved now client net (.connection deadline limit) .resume client net .nothing
        [.connectFailed cause]
  | unsendable : client.state = .connected → client.writer = none →
      Moved now client net .nothing (.begin .authenticate) client.drawId.2 net .nothing
        [.authFailed .notConnected]
  | unsent {conn : ConnId} {bytes : Bytes} {net' : Net σ} {cause : IoError} :
      client.state = .connected →
      client.writes? net now .nothing (.begin .authenticate) = some (conn, bytes) →
      net.write now conn bytes = (.error cause, net') →
      Moved now client net .nothing (.begin .authenticate) client.drawId.2 net' .nothing
        [.authFailed (.send cause)]
  | hasty {conn : ConnId} {bytes : Bytes} {net' : Net σ} {cause : ClientError} :
      client.state = .connected →
      client.writes? net now .nothing (.begin .authenticate) = some (conn, bytes) →
      net.write now conn bytes = (.ok (), net') → client.hasty net = true →
      Moved now client net .nothing (.begin .authenticate) client.drawId.2 net' .nothing
        [.authFailed cause]
  | sent {conn : ConnId} {bytes : Bytes} {net' net'' : Net σ}
      {client' : Client} {wait' : Wait} {incidents : List Incident} :
      client.state = .connected →
      client.writes? net now .nothing (.begin .authenticate) = some (conn, bytes) →
      net.write now conn bytes = (.ok (), net') → client.hasty net = false →
      Looked now (now + client.settings.authTimeout) client.drawId.2 net' client' net'' wait' incidents →
      Moved now client net .nothing (.begin .authenticate) client' net'' wait' incidents
  | resumed {deadline : Duration} {client' : Client} {net' : Net σ} {wait' : Wait}
      {incidents : List Incident} :
      Looked now deadline client net client' net' wait' incidents →
      Moved now client net (.auth deadline) .resume client' net' wait' incidents
  | chat {act : Act} {message : Int64 → Chat} {conn : ConnId} {bytes : Bytes}
      {result : Except IoError Unit} {net' : Net σ} :
      client.message? act = some message → client.isAuthenticated = true →
      client.writes? net now .nothing (.begin act) = some (conn, bytes) →
      net.write now conn bytes = (result, net') →
      Moved now client net .nothing (.begin act)
        { client.drawId.2 with pending := client.pending.insert client.drawId.1 now } net' .nothing
        [match result with
          | .ok () => .chatSent client.drawId.1
          | .error cause => .chatFailed client.drawId.1 cause]
  | heartbeat {conn : ConnId} {bytes : Bytes} {result : Except IoError Unit} {net' : Net σ} :
      client.writes? net now .nothing (.begin .heartbeat) = some (conn, bytes) →
      net.write now conn bytes = (result, net') →
      Moved now client net .nothing (.begin .heartbeat) client net' .nothing
        [match result with
          | .ok () => .heartbeatSent
          | .error cause => .heartbeatFailed cause]
  | started {interval : Duration} {conn : ConnId} {reader : Reader} :
      client.state = .authenticated → client.writer = some conn → client.reader = some reader →
      Moved now client net .nothing (.begin (.start interval))
        (client.startedOn now interval conn reader)
        (net.drop client (client.startedOn now interval conn reader)) .nothing [.started]
  | stopped :
      Moved now client net .nothing (.begin .stop) client.stopped (net.drop client client.stopped)
        .nothing [.stopped]
  | beat {wait : Wait} {session : Nat} {loop : HeartbeatLoop} {conn : ConnId} {bytes : Bytes}
      {result : Except IoError Unit} {net' : Net σ} :
      client.heartbeat? session = some loop → loop.due ≤ now →
      client.writes? net now wait (.beat session) = some (conn, bytes) →
      net.write now conn bytes = (result, net') → client.state = .running →
      Moved now client net wait (.beat session)
        (client.putHeartbeat { loop with due := nextBeat now loop.interval }) net' wait
        [match result with
          | .ok () => .heartbeatSent
          | .error cause => .heartbeatFailed cause]
  | lastBeat {wait : Wait} {session : Nat} {loop : HeartbeatLoop} {conn : ConnId} {bytes : Bytes}
      {result : Except IoError Unit} {net' : Net σ} :
      client.heartbeat? session = some loop → loop.due ≤ now →
      client.writes? net now wait (.beat session) = some (conn, bytes) →
      net.write now conn bytes = (result, net') → client.state ≠ .running →
      Moved now client net wait (.beat session) (client.endHeartbeat session)
        (net'.drop client (client.endHeartbeat session)) wait
        [match result with
          | .ok () => .heartbeatSent
          | .error cause => .heartbeatFailed cause]
  | received {wait : Wait} {session : Nat} {loop : ReceiveLoop} {items : List Item}
      {buffer : Bytes} {incoming : List Delivery} {due : Duration} :
      client.receiver? session = some loop →
      client.finds net session = (items, .pending, buffer, incoming) →
      Moved now client net wait (.receive session)
        ((client.handleAll now items).1.putReceiver
          { loop with reader := { loop.reader with buffer }, due })
        (net.leave loop.reader.conn incoming) wait (client.handleAll now items).2
  | hungUp {wait : Wait} {session : Nat} {loop : ReceiveLoop} {items : List Item}
      {buffer : Bytes} {incoming : List Delivery} :
      client.receiver? session = some loop →
      client.finds net session = (items, .closed, buffer, incoming) →
      Moved now client net wait (.receive session)
        ((client.handleAll now items).1.haltedBy session) (net.leave loop.reader.conn incoming) wait
        ((client.handleAll now items).2 ++ [.closedByServer])
  | broke {wait : Wait} {session : Nat} {loop : ReceiveLoop} {items : List Item} {text : String}
      {buffer : Bytes} {incoming : List Delivery} :
      client.receiver? session = some loop →
      client.finds net session = (items, .fault text, buffer, incoming) →
      Moved now client net wait (.receive session)
        ((client.handleAll now items).1.haltedBy session) (net.leave loop.reader.conn incoming) wait
        ((client.handleAll now items).2 ++ [.receiveFailed (.io text)])

/-! ### Every move is one of these -/

def turnOn (client : Client) (net : Net σ) : Turn σ :=
  { client, net }

variable (client : Client) (net : Net σ) (now : Duration)

lemma pollAuth_looked (turn : Turn σ) (deadline : Duration) (hinc : turn.incidents = []) :
    Looked now deadline turn.client turn.net (turn.pollAuth now deadline).1.client
      (turn.pollAuth now deadline).1.net
      (Progress.ofAnswer (.auth deadline) (turn.pollAuth now deadline).2).wait
      (turn.pollAuth now deadline).1.incidents := by
  rw [Turn.pollAuth]
  split
  · next hr =>
    simp only [Turn.authFailed, Turn.emit, hinc]
    exact .noReader hr
  · next reader hr =>
    split
    next answer buffer incoming hp =>
    cases answer with
    | item found =>
      cases found with
      | frame frame =>
        simp only [Turn.emit, hinc]
        exact .answered hr hp
      | badHeader fault =>
        simp only [Turn.authFailed, Turn.emit, hinc]
        exact .failed hr hp (by simp) (by simp) (by simp)
    | closed =>
      simp only [Turn.authFailed, Turn.emit, hinc]
      exact .failed hr hp (by simp) (by simp) (by simp)
    | fault text =>
      simp only [Turn.authFailed, Turn.emit, hinc]
      exact .failed hr hp (by simp) (by simp) (by simp)
    | pending =>
      by_cases hd : deadline ≤ now
      · simp only [hd, if_true, Turn.authFailed, Turn.emit, hinc]
        exact .failed hr hp (by simp) (fun _ => hd) (by simp)
      · simp only [hd, if_false, hinc]
        exact .waits hr hp (Nat.lt_of_not_le hd)

lemma connect_moved (limit : Duration) :
    Moved now client net .nothing (.begin (.connect limit))
      ((client.turnOn net).connect now limit).1.client
      ((client.turnOn net).connect now limit).1.net
      (Progress.ofAnswer (.connection (now + limit) limit)
        ((client.turnOn net).connect now limit).2).wait
      ((client.turnOn net).connect now limit).1.incidents := by
  rw [Turn.connect]
  cases hr : net.attempt.1 with
  | unreachable =>
    simp only [turnOn, hr]
    exact .refused (by simp [hr])
  | accepts =>
    simp only [turnOn, hr]
    by_cases hl : limit = 0
    · simp only [hl, if_true]
      exact .late hr
    · simp only [hl, if_false]
      exact .connected hr rfl
  | refuses =>
    simp only [turnOn, hr]
    exact .refused (by simp [hr])
  | silent =>
    simp only [turnOn, hr]
    by_cases hl : limit = 0
    · simp only [hl, if_true]
      exact .refused (by simp [hr])
    · simp only [hl, if_false]
      exact .connecting (by simp [hr])

variable {client net now}

lemma sendAuth_of_none (hw : client.writer = none) :
    (client.turnOn net).sendAuth now = (client.drawId.2.turnOn net, .error .notConnected) := by
  simp only [Turn.sendAuth, turnOn]
  have hw' : client.drawId.2.writer = none := hw
  rw [hw']

lemma sendAuth_of_some {conn : ConnId} {result : Except IoError Unit} {net' : Net σ}
    (hw : client.writer = some conn) (hres : net.write now conn client.authFrame = (result, net')) :
    (client.turnOn net).sendAuth now =
      (client.drawId.2.turnOn net', result.mapError ClientError.send) := by
  simp only [Turn.sendAuth, turnOn]
  have hw' : client.drawId.2.writer = some conn := hw
  have hf : net.write now conn (Frame.encode .auth client.drawId.1
      (Auth.ofClient client.drawId.2.id).encode) = (result, net') := hres
  rw [hw']
  simp only [hf]
  cases result <;> rfl

variable (net now) in
lemma writes?_auth {conn : ConnId} (hs : client.state = .connected) (hw : client.writer = some conn) :
    client.writes? net now .nothing (.begin .authenticate) = some (conn, client.authFrame) := by
  simp [writes?, hw, frame?, hs]

variable (client net now)

lemma authenticate_moved :
    Moved now client net .nothing (.begin .authenticate)
      ((client.turnOn net).authenticate now).1.client
      ((client.turnOn net).authenticate now).1.net
      (Progress.ofAnswer (.auth (now + client.settings.authTimeout))
        ((client.turnOn net).authenticate now).2).wait
      ((client.turnOn net).authenticate now).1.incidents := by
  rw [Turn.authenticate]
  by_cases hs : client.state = .connected
  · rw [if_neg (by simp [turnOn, hs])]
    cases hw : client.writer with
    | none =>
      rw [sendAuth_of_none hw]
      exact .unsendable hs hw
    | some conn =>
      have hwrites := writes?_auth net now hs hw
      cases hres : net.write now conn client.authFrame with
      | mk result net' =>
        rw [sendAuth_of_some hw hres]
        cases result with
        | error cause => exact .unsent hs hwrites hres
        | ok _ =>
          simp only [Except.mapError]
          by_cases hasty : (client.turnOn net).client.hasty (client.turnOn net).net
          · rw [if_pos hasty]
            exact .hasty hs hwrites hres hasty
          · rw [if_neg hasty]
            have hlook := pollAuth_looked now (client.drawId.2.turnOn net')
              (now + client.settings.authTimeout) rfl
            exact .sent hs hwrites hres (Bool.eq_false_of_not_eq_true hasty) hlook
  · have hs' : (client.turnOn net).client.state ≠ .connected := hs
    rw [if_pos hs']
    refine .still ?_ (.inl rfl) trivial (by simp [turnOn, Turn.emit])
    cases hw : client.writer <;> simp [writes?, hw, frame?, hs]

lemma sendChat_moved (act : Act) (message : Int64 → Chat) (hm : client.message? act = some message) :
    Moved now client net .nothing (.begin act)
      ((client.turnOn net).sendChat now message).client
      ((client.turnOn net).sendChat now message).net .nothing
      ((client.turnOn net).sendChat now message).incidents := by
  have hframe : client.frame? net now act = if client.isAuthenticated then
      some (client.chatFrame net now message) else none := by
    cases act with
    | single target content => simp [frame?, hm]
    | group session content => simp [frame?, hm]
    | _ => cases hm
  have hover : client.Overlooks .nothing (.begin act) := by
    cases act with
    | connect limit => cases hm
    | _ => trivial
  rw [Turn.sendChat]
  cases ha : client.isAuthenticated with
  | false =>
    simp only [turnOn, ha, Turn.emit]
    refine .still ?_ (.inl rfl) hover (by simp)
    cases hw : client.writer <;> simp [writes?, hw, hframe, ha]
  | true =>
    cases hw : client.writer with
    | none =>
      simp only [turnOn, ha, hw, Turn.emit]
      exact .still (by simp [writes?, hw]) (.inl rfl) hover (by simp)
    | some conn =>
      have hwrites : client.writes? net now .nothing (.begin act) =
          some (conn, client.chatFrame net now message) := by
        simp [writes?, hw, hframe, ha]
      simp only [turnOn, ha, hw]
      cases hres : net.write now conn (client.chatFrame net now message) with
      | mk result net' =>
        have hc := Moved.chat hm ha hwrites hres
        unfold chatFrame at hres
        simp only at hres
        cases result with
        | ok _ =>
          simp only [hres]
          exact hc
        | error cause =>
          simp only [hres]
          exact hc

lemma heartbeat_moved :
    Moved now client net .nothing (.begin .heartbeat) ((client.turnOn net).heartbeat now).client
      ((client.turnOn net).heartbeat now).net .nothing
      ((client.turnOn net).heartbeat now).incidents := by
  rw [Turn.heartbeat]
  cases hw : client.writer with
  | none =>
    simp only [turnOn, hw, Turn.emit]
    exact .still (by simp [writes?, hw]) (.inl rfl) trivial (by simp)
  | some conn =>
    have hwrites : client.writes? net now .nothing (.begin .heartbeat) =
        some (conn, beatFrame net now) := by
      simp [writes?, hw, frame?]
    simp only [turnOn, hw, Turn.beat]
    cases hres : net.write now conn (beatFrame net now) with
    | mk result net' =>
      have hm := Moved.heartbeat hwrites hres
      rw [beatFrame] at hres
      cases result with
      | ok _ =>
        simp only [hres]
        exact hm
      | error cause =>
        simp only [hres]
        exact hm

lemma start_moved (interval : Duration) :
    Moved now client net .nothing (.begin (.start interval))
      ((client.turnOn net).start now interval).client
      ((client.turnOn net).start now interval).net .nothing
      ((client.turnOn net).start now interval).incidents := by
  rw [Turn.start]
  split
  · next conn reader hs hw hr => exact .started hs hw hr
  · refine .still ?_ (.inl rfl) trivial (by simp [turnOn, Turn.emit])
    cases hw : client.writer <;> simp [writes?, hw, frame?, message?]

lemma runHeartbeat_moved (wait : Wait) (session : Nat) :
    Moved now client net wait (.beat session) ((client.turnOn net).runHeartbeat now session).client
      ((client.turnOn net).runHeartbeat now session).net wait
      ((client.turnOn net).runHeartbeat now session).incidents := by
  rw [Turn.runHeartbeat]
  cases hl : client.heartbeat? session with
  | none =>
    simp only [turnOn, hl]
    exact .still (by simp [writes?, hl]) (.inl rfl) trivial (by simp)
  | some loop =>
    simp only [turnOn, hl]
    by_cases hd : now < loop.due
    · rw [if_pos hd]
      exact .still (by simp [writes?, hl, hd]) (.inl rfl) trivial (by simp)
    · rw [if_neg hd]
      have hwrites : client.writes? net now wait (.beat session) =
          some (loop.conn, beatFrame net now) := by
        simp [writes?, hl, hd]
      cases hres : net.write now loop.conn (beatFrame net now) with
      | mk result net' =>
        have hbeat := hres
        rw [beatFrame] at hbeat
        by_cases hs : client.state = .running
        · have hm := Moved.beat hl (Nat.le_of_not_lt hd) hwrites hres hs
          cases result with
          | ok _ =>
            simp only [Turn.beat, hbeat, Turn.emit, hs, if_true]
            exact hm
          | error cause =>
            simp only [Turn.beat, hbeat, Turn.emit, hs, if_true]
            exact hm
        · have hm := Moved.lastBeat hl (Nat.le_of_not_lt hd) hwrites hres hs
          cases result with
          | ok _ =>
            simp only [Turn.beat, hbeat, Turn.emit, hs, if_false]
            exact hm
          | error cause =>
            simp only [Turn.beat, hbeat, Turn.emit, hs, if_false]
            exact hm

lemma runReceiver_moved (wait : Wait) (session : Nat) :
    Moved now client net wait (.receive session)
      ((client.turnOn net).runReceiver now session).client
      ((client.turnOn net).runReceiver now session).net wait
      ((client.turnOn net).runReceiver now session).incidents := by
  rw [Turn.runReceiver]
  cases hl : client.receiver? session with
  | none =>
    simp only [turnOn, hl]
    exact .still (by simp [writes?]) (.inl rfl) hl (by simp)
  | some loop =>
    rcases hd : Inbound.drain loop.reader.buffer (net.incoming loop.reader.conn) with
      ⟨items, last, buffer, incoming⟩
    have hf : client.finds net session = (items, last, buffer, incoming) := by
      simp only [finds, hl, hd]
    have hlast := (Inbound.drains_drain loop.reader.buffer (net.incoming loop.reader.conn)).last
    rw [hd] at hlast
    simp only [turnOn, hl, hd]
    cases last with
    | pending => exact .received hl hf
    | closed => exact .hungUp hl hf
    | fault text => exact .broke hl hf
    | item found => simp at hlast

lemma waitUntil_moved {wait : Wait} {move : Move} {moment : Duration}
    (hwrites : client.writes? net now wait move = none) (hwait : wait.inCall = false)
    (hover : client.Overlooks wait move) :
    Moved now client net wait move ((client.turnOn net).waitUntil now moment).1.client
      ((client.turnOn net).waitUntil now moment).1.net
      ((client.turnOn net).waitUntil now moment).2.wait
      ((client.turnOn net).waitUntil now moment).1.incidents := by
  refine .still hwrites (.inr ⟨hwait, ?_⟩) hover (List.nil_subset _)
  rw [Turn.waitUntil]
  split <;> rfl

lemma resume_moved (wait : Wait) :
    Moved now client net wait .resume ((client.turnOn net).resume now wait).1.client
      ((client.turnOn net).resume now wait).1.net
      ((client.turnOn net).resume now wait).2.wait
      ((client.turnOn net).resume now wait).1.incidents := by
  cases wait with
  | nothing => exact .still rfl (.inl rfl) (by simp [Overlooks]) (List.nil_subset _)
  | clock moment => exact waitUntil_moved client net now rfl rfl (by simp [Overlooks])
  | auth deadline =>
    have hlook := pollAuth_looked now (client.turnOn net) deadline rfl
    exact .resumed hlook
  | connection deadline limit =>
    rw [Turn.resume]
    by_cases hd : deadline ≤ now
    · simp only [hd, if_true]
      exact .expired
    · simp only [hd, if_false]
      exact .still rfl (.inl rfl) (by simp [Overlooks]) (List.nil_subset _)

lemma begin_moved (act : Act) :
    Moved now client net .nothing (.begin act) ((client.turnOn net).begin now act).1.client
      ((client.turnOn net).begin now act).1.net ((client.turnOn net).begin now act).2.wait
      ((client.turnOn net).begin now act).1.incidents := by
  cases act with
  | connect limit => exact connect_moved client net now limit
  | authenticate => exact authenticate_moved client net now
  | start interval => exact start_moved client net now interval
  | single target content =>
    have hm := sendChat_moved client net now (.single target content) _ rfl
    exact hm
  | group session content =>
    have hm := sendChat_moved client net now (.group session content) _ rfl
    exact hm
  | heartbeat => exact heartbeat_moved client net now
  | stop => exact .stopped
  | pause span =>
    refine waitUntil_moved client net now ?_ rfl trivial
    cases hw : client.writer <;> simp [writes?, hw, frame?, message?]
  | pauseUntil moment =>
    refine waitUntil_moved client net now ?_ rfl trivial
    cases hw : client.writer <;> simp [writes?, hw, frame?, message?]

/-- Whatever the move, what comes of it is one of these cases. -/
theorem moved (wait : Wait) (move : Move) :
    Moved now client net wait move ((client.turnOn net).move now wait move).1.client
      ((client.turnOn net).move now wait move).1.net ((client.turnOn net).move now wait move).2
      ((client.turnOn net).move now wait move).1.incidents := by
  cases move with
  | resume => exact resume_moved client net now wait
  | beat session => exact runHeartbeat_moved client net now wait session
  | receive session => exact runReceiver_moved client net now wait session
  | begin act =>
    by_cases hb : wait = .nothing
    · subst hb
      exact begin_moved client net now act
    · rw [Turn.move, if_neg hb]
      exact .still (by simp [writes?, hb]) (.inl rfl) (by cases act <;> simp [Overlooks, hb])
        (List.nil_subset _)

end

end Client

end ChatLoad
