import ChatLoad.Proofs.Client.Mooring
import ChatLoad.Proofs.Net.Recording
import ChatLoad.Proofs.Wire.Framing

/-! What a client counts as sent, and the frames that a peer reads for it. -/

namespace ChatLoad

/-- Something that goes out in one frame. A chat comes with the request id that its call returns. -/
inductive Sending
  | auth
  | chat (act : Act) (request : UInt64)
  | heartbeat

/-- What the chat of an act looks like to its recipient. -/
def Act.Carried (id : UInt64) (act : Act) (kind : Command) (chat : Chat) : Prop :=
  chat.command = kind ∧ chat.senderId = id.toInt64 ∧ chat.contentType = "text" ∧
    match act with
    | .single target content =>
        kind = .singleChat ∧ chat.targetId = target ∧ chat.sessionId = 0 ∧ chat.content = content
    | .group session content =>
        kind = .groupChat ∧ chat.sessionId = session ∧ chat.targetId = 0 ∧ chat.content = content
    | _ => False

namespace Sending

def isChat : Sending → Bool
  | chat _ _ => true
  | _ => false

def isHeartbeat : Sending → Bool
  | heartbeat => true
  | _ => false

/-- The frame is what a peer is to read for it. -/
def Conveyed (id : UInt64) : Sending → Frame → Prop
  | auth, frame =>
      frame.kind = .auth ∧
        Auth.decode frame.body =
          .ok { token := s!"user:{id.toNat}", deviceId := s!"device_{id.toNat}" }
  | chat act request, frame =>
      request ≠ 0 ∧ frame.requestId = request ∧
        ∃ chat, Chat.decode frame.body = .ok chat ∧ act.Carried id frame.kind chat
  | heartbeat, frame => frame.kind = .heartbeat ∧ frame.body = []

/-- Whatever is written after it, the bytes are read as a frame that conveys the sending. -/
def Legible (id : UInt64) (sending : Sending) (bytes : Bytes) : Prop :=
  ∃ frame, sending.Conveyed id frame ∧ ∀ rest, Item.Cut (bytes ++ rest) (.frame frame) rest

lemma Conveyed.kind {id : UInt64} {sending : Sending} {frame : Frame}
    (h : sending.Conveyed id frame) :
    sending.isChat = decide (frame.kind = .singleChat ∨ frame.kind = .groupChat) ∧
      sending.isHeartbeat = decide (frame.kind = .heartbeat) := by
  cases sending with
  | auth => simp [isChat, isHeartbeat, h.1]
  | heartbeat => simp [isChat, isHeartbeat, h.1]
  | chat act request =>
    obtain ⟨_, _, chat, _, _, _, _, hact⟩ := h
    cases act with
    | single | group => simp [isChat, isHeartbeat, hact.1]
    | _ => exact hact.elim

lemma countP_conveyed {id : UInt64} {sendings : List Sending} {frames : List Frame}
    (h : List.Forall₂ (Conveyed id) sendings frames) :
    sendings.countP isChat =
        frames.countP (fun frame => frame.kind = .singleChat ∨ frame.kind = .groupChat) ∧
      sendings.countP isHeartbeat = frames.countP fun frame => frame.kind = .heartbeat := by
  induction h with
  | nil => exact ⟨rfl, rfl⟩
  | cons hone _ ih =>
    obtain ⟨hchat, hbeat⟩ := hone.kind
    simp only [List.countP_cons, ih, hchat, hbeat, and_self]

/-- What is legible is read as one frame for each sending, in the same order. -/
lemma parse_legible {id : UInt64} {sendings : List Sending} {written : List (ConnId × Bytes)}
    (h : List.Forall₂ (fun sending entry => sending.Legible id entry.2) sendings written) :
    ∃ frames, List.Forall₂ (Conveyed id) sendings frames ∧
      Item.parse (written.map (·.2)).flatten = (frames.map .frame, []) := by
  have hframes : ∃ frames, List.Forall₂ (Conveyed id) sendings frames ∧
      List.Forall₂ (fun bytes frame => ∀ rest, Item.Cut (bytes ++ rest) (.frame frame) rest)
        (written.map (·.2)) frames := by
    induction h with
    | nil => exact ⟨[], .nil, .nil⟩
    | cons hone _ ih =>
      obtain ⟨frame, hconveyed, hcut⟩ := hone
      obtain ⟨frames, hall, hcuts⟩ := ih
      exact ⟨frame :: frames, .cons hconveyed hall, .cons hcut hcuts⟩
  obtain ⟨frames, hall, hcuts⟩ := hframes
  exact ⟨frames, hall, Item.parse_flatten hcuts⟩

end Sending

def Incident.sending? (move : Move) : Incident → Option Sending
  | chatSent request =>
      match move with
      | .begin act => some (.chat act request)
      | _ => none
  | heartbeatSent => some .heartbeat
  | _ => none

namespace Client

variable {σ : Type}

/-- What a move sends, told by the call and what is noted of it. Every call to authenticate a connected
client sends an AUTH, whatever comes of it. -/
def sendingsOf (client : Client) (wait : Wait) (move : Move) (incidents : List Incident) :
    List Sending :=
  match move with
  | .begin .authenticate => if wait = .nothing ∧ client.state = .connected then [.auth] else []
  | move => incidents.filterMap (Incident.sending? move)

/-- The payloads of chats, also of those that are not sent. -/
def bodies (client : Client) (net : Net σ) (now : Duration) (_wait : Wait) : Move → List Bytes
  | .begin act =>
      ((client.message? act).map fun message =>
        (message (net.wallMillis now)).encode (net.wallMillis now)).toList
  | _ => []

section

variable {now : Duration} {client client' : Client} {net net' : Net σ} {wait wait' : Wait}
  {move : Move} {incidents : List Incident}

/-! ### Single frames -/

lemma authFrame_legible (client : Client) : Sending.auth.Legible client.id client.authFrame := by
  have hlength := Auth.length_encode_ofClient_le client.id
  have hshort : (Auth.ofClient client.id).encode.length ≤ Header.maxBody :=
    Nat.le_trans hlength (by decide)
  refine ⟨.made .auth client.drawId.1 (Auth.ofClient client.id).encode, ⟨Frame.kind_made _ _ _, ?_⟩,
    Item.cut_encode hshort _ _⟩
  exact Auth.decode_encode (Auth.fits_of_length (Nat.lt_of_le_of_lt hlength (by norm_num)))

lemma beatFrame_legible (id : UInt64) (net : Net σ) (now : Duration) :
    Sending.heartbeat.Legible id (beatFrame net now) :=
  ⟨.made .heartbeat (net.clockId now) [], ⟨Frame.kind_made _ _ _, rfl⟩,
    Item.cut_encode (Nat.zero_le _) _ _⟩

lemma carried_of_message? {act : Act} {message : Int64 → Chat}
    (hmessage : client.message? act = some message) (clock : Int64) :
    act.Carried client.id (message clock).command ((message clock).stamped clock) := by
  have hstamped (chat : Chat) :
      chat.stamped clock = { chat with timestamp := (chat.stamped clock).timestamp } := by
    rw [Chat.stamped]
    split <;> rfl
  rw [hstamped]
  cases act with
  | single target content | group session content =>
    cases hmessage
    exact ⟨rfl, rfl, rfl, rfl, rfl, rfl, rfl⟩
  | _ => cases hmessage

lemma chatFrame_legible {act : Act} {message : Int64 → Chat}
    (hmessage : client.message? act = some message)
    (hshort : ∀ body ∈ client.bodies net now wait (.begin act), body.length ≤ Header.maxBody) :
    (Sending.chat act client.drawId.1).Legible client.id (client.chatFrame net now message) := by
  have hlength := hshort ((message (net.wallMillis now)).encode (net.wallMillis now))
    (by simp [bodies, hmessage])
  refine ⟨.made (message (net.wallMillis now)).command client.drawId.1 _,
    ⟨requestId_ne_zero _ _, rfl, (message (net.wallMillis now)).stamped (net.wallMillis now), ?_, ?_⟩,
    Item.cut_encode hlength _ _⟩
  · exact Chat.decode_fields (Chat.fits_of_length (Nat.lt_of_le_of_lt hlength (by decide)))
  · rw [Frame.kind_made]
    exact carried_of_message? hmessage _

/-! ### What a move sends -/

lemma written_of_write {conn : ConnId} {bytes : Bytes}
    (hwrites : client.writes? net now wait move = some (conn, bytes))
    (hwrite : net.write now conn bytes = (.ok (), net')) :
    client.written net now wait move = [(conn, bytes)] := by
  simp [written, hwrites, Net.writable_of_write_ok hwrite]

lemma written_of_none (hnone : client.writes? net now wait move = none) :
    client.written net now wait move = [] := by
  simp [written, hnone]

lemma succeeded_of_lost {conn : ConnId} {bytes : Bytes} {result : Except IoError Unit}
    (safe : client.lost net now wait move = [])
    (hwrites : client.writes? net now wait move = some (conn, bytes))
    (hwrite : net.write now conn bytes = (result, net')) : result = .ok () := by
  cases result with
  | ok _ => rfl
  | error cause => simp [lost_of_write hwrites hwrite] at safe

lemma bytes_of_writes? {act : Act} {conn : ConnId} {bytes frame : Bytes}
    (hwrites : client.writes? net now wait (.begin act) = some (conn, bytes))
    (hframe : client.frame? net now act = some frame) : bytes = frame := by
  simp only [writes?, hframe] at hwrites
  split at hwrites
  · cases hwriter : client.writer <;> simp_all
  · cases hwrites

lemma frame?_of_message? {act : Act} {message : Int64 → Chat}
    (hmessage : client.message? act = some message) (hauth : client.isAuthenticated = true) :
    client.frame? net now act = some (client.chatFrame net now message) := by
  cases act with
  | single target content | group session content => simp [frame?, hauth, hmessage]
  | _ => cases hmessage

lemma sendingsOf_skipped (wired : client.Wired wait)
    (hnone : client.writes? net now wait move = none)
    (hskip : incidents ⊆ [.authSkipped, .startSkipped, .chatRefused, .heartbeatSkipped]) :
    client.sendingsOf wait move incidents = [] := by
  have hnothing : incidents.filterMap (Incident.sending? move) = [] := by
    apply List.filterMap_eq_nil_iff.mpr
    intro incident hi
    have hmem := hskip hi
    simp only [List.mem_cons, List.not_mem_nil, or_false] at hmem
    rcases hmem with rfl | rfl | rfl | rfl <;> rfl
  cases move with
  | «begin» act =>
    cases act with
    | authenticate =>
      refine if_neg ?_
      rintro ⟨rfl, hstate⟩
      obtain ⟨conn, hwriter⟩ :=
        Option.isSome_iff_exists.mp (wired (.inl (by simp [mayLogIn, hstate])))
      rw [writes?_auth net now hstate hwriter] at hnone
      cases hnone
    | _ => exact hnothing
  | _ => exact hnothing

lemma filterMap_inbound {incidents : List Incident} (h : ∀ incident ∈ incidents, incident.isInbound)
    (move : Move) : incidents.filterMap (Incident.sending? move) = [] := by
  apply List.filterMap_eq_nil_iff.mpr
  intro incident hi
  have hkind := h incident hi
  cases incident <;> first | rfl | simp [Incident.isInbound] at hkind

/-- A move writes what it counts as sent, and nothing else. -/
theorem Moved.sends (h : Moved now client net wait move client' net' wait' incidents)
    (wired : client.Wired wait) (safe : client.lost net now wait move = [])
    (short : ∀ body ∈ client.bodies net now wait move, body.length ≤ Header.maxBody) :
    List.Forall₂ (fun sending entry => sending.Legible client.id entry.2)
      (client.sendingsOf wait move incidents) (client.written net now wait move) := by
  -- A move writes at most one frame, and as no write fails, what it tries to write is written.
  have hsilent (hwritten : client.writes? net now wait move = none)
      (hsent : client.sendingsOf wait move incidents = []) :
      List.Forall₂ (fun sending entry => sending.Legible client.id entry.2)
        (client.sendingsOf wait move incidents) (client.written net now wait move) := by
    rw [written_of_none hwritten, hsent]
    exact .nil
  have hone {conn : ConnId} {bytes : Bytes} {result : Except IoError Unit}
      {between : Net σ} {sending : Sending}
      (hwrites : client.writes? net now wait move = some (conn, bytes))
      (hwrite : net.write now conn bytes = (result, between))
      (hsent : client.sendingsOf wait move incidents = [sending])
      (hlegible : sending.Legible client.id bytes) :
      List.Forall₂ (fun sending entry => sending.Legible client.id entry.2)
        (client.sendingsOf wait move incidents) (client.written net now wait move) := by
    rw [succeeded_of_lost safe hwrites hwrite] at hwrite
    rw [written_of_write hwrites hwrite, hsent]
    exact .cons hlegible .nil
  cases h with
  | still hnone _ _ hskip =>
    exact hsilent hnone (sendingsOf_skipped wired hnone hskip)
  | refused | late | connecting | connected | started | stopped =>
    refine hsilent (writes?_of_frame? ?_) rfl
    simp [frame?, message?]
  | expired => exact hsilent rfl rfl
  | unsendable hstate hwriter =>
    have hw := wired (.inl (by simp [mayLogIn, hstate]))
    simp [hwriter] at hw
  | unsent hstate hwrites hwrite => cases succeeded_of_lost safe hwrites hwrite
  | hasty hstate hwrites hwrite | sent hstate hwrites hwrite =>
    refine hone hwrites hwrite (if_pos ⟨rfl, hstate⟩) ?_
    have hframe : client.frame? net now .authenticate = some client.authFrame := by
      simp [frame?, hstate]
    rw [bytes_of_writes? hwrites hframe]
    exact authFrame_legible client
  | resumed hlook =>
    refine hsilent rfl ?_
    cases hlook <;> rfl
  | @chat act message _ _ result _ hmessage hauth hwrites hwrite =>
    obtain rfl := succeeded_of_lost safe hwrites hwrite
    have hsent : client.sendingsOf .nothing (.begin act) [.chatSent client.drawId.1] =
        [.chat act client.drawId.1] := by
      cases act <;> first | rfl | cases hmessage
    refine hone hwrites hwrite hsent ?_
    rw [bytes_of_writes? hwrites (frame?_of_message? hmessage hauth)]
    exact chatFrame_legible hmessage short
  | heartbeat hwrites hwrite =>
    obtain rfl := succeeded_of_lost safe hwrites hwrite
    refine hone hwrites hwrite rfl ?_
    rw [bytes_of_writes? hwrites rfl]
    exact beatFrame_legible _ _ _
  | beat hloop hdue hwrites hwrite | lastBeat hloop hdue hwrites hwrite =>
    obtain rfl := succeeded_of_lost safe hwrites hwrite
    refine hone hwrites hwrite rfl ?_
    simp only [writes?, hloop, Option.bind_some, hdue, if_true, Option.some.injEq,
      Prod.mk.injEq] at hwrites
    rw [← hwrites.2]
    exact beatFrame_legible _ _ _
  | received => exact hsilent rfl (filterMap_inbound (handleAll_inbound _ _ _) _)
  | hungUp | broke =>
    refine hsilent rfl ?_
    rw [sendingsOf, List.filterMap_append, filterMap_inbound (handleAll_inbound _ _ _)]
    · rfl
    · simp

lemma Looked.tally_sent {deadline : Duration}
    (h : Looked now deadline client net client' net' wait' incidents) :
    Incident.tally incidents .messagesSent = 0 ∧ Incident.tally incidents .heartbeatsSent = 0 := by
  cases h <;> simp [Incident.counters]

lemma Moved.tally_sent (h : Moved now client net wait move client' net' wait' incidents)
    (wired : client.Wired wait) :
    Incident.tally incidents .messagesSent =
        (client.sendingsOf wait move incidents).countP Sending.isChat ∧
      Incident.tally incidents .heartbeatsSent =
        (client.sendingsOf wait move incidents).countP Sending.isHeartbeat := by
  cases h with
  | still hnone _ _ hskip =>
    have hs := List.Subset.trans hskip Incident.skipped_subset_harmless
    rw [sendingsOf_skipped wired hnone hskip, Incident.tally_of_harmless hs,
      Incident.tally_of_harmless hs]
    exact ⟨rfl, rfl⟩
  | unsendable hstate | unsent hstate | hasty hstate =>
    simp [sendingsOf, hstate, Incident.counters, Sending.isChat, Sending.isHeartbeat]
  | sent hstate _ _ _ hlook =>
    rw [hlook.tally_sent.1, hlook.tally_sent.2]
    simp [sendingsOf, hstate, Sending.isChat, Sending.isHeartbeat]
  | resumed hlook =>
    rw [hlook.tally_sent.1, hlook.tally_sent.2]
    cases hlook <;> exact ⟨rfl, rfl⟩
  | @chat act _ _ _ result _ hmessage =>
    cases act <;> cases hmessage <;> cases result <;> exact ⟨rfl, rfl⟩
  | @heartbeat _ _ result | @beat _ _ _ _ _ result | @lastBeat _ _ _ _ _ result =>
    cases result <;> exact ⟨rfl, rfl⟩
  | received =>
    rw [sendingsOf, filterMap_inbound (handleAll_inbound _ _ _)]
    · simp [tally_handleAll]
    · simp
  | hungUp | broke =>
    rw [sendingsOf, List.filterMap_append, filterMap_inbound (handleAll_inbound _ _ _),
      Incident.tally_append, Incident.tally_append, tally_handleAll, tally_handleAll]
    · exact ⟨rfl, rfl⟩
    all_goals simp
  | refused | late | connecting | connected | expired | started | stopped => exact ⟨rfl, rfl⟩

lemma conn_of_written {entry : ConnId × Bytes} (h : entry ∈ client.written net now wait move) :
    client.writer = some entry.1 ∨ ∃ loop ∈ client.heartbeats, loop.conn = entry.1 := by
  have hwrites := (List.mem_filter.mp h).1
  rw [Option.mem_toList] at hwrites
  cases move with
  | «begin» act =>
    left
    simp only [writes?] at hwrites
    split at hwrites
    · obtain ⟨conn, hwriter, hframe⟩ := Option.bind_eq_some_iff.mp hwrites
      obtain ⟨frame, _, rfl⟩ := Option.map_eq_some_iff.mp hframe
      exact hwriter
    · cases hwrites
  | beat session =>
    right
    obtain ⟨loop, hloop, hdue⟩ := Option.bind_eq_some_iff.mp hwrites
    split at hdue
    · cases hdue
      exact ⟨loop, List.mem_of_find?_eq_some hloop, rfl⟩
    · cases hdue
  | resume | receive => cases hwrites

end

end Client

end ChatLoad
