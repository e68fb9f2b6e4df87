import ChatLoad.Proofs.Client.Requests
import ChatLoad.Proofs.Net.Arrival

/-! From which connections a client reads, and what one move takes off them: the readers after a move go
on where the readers before it have stopped. -/

namespace ChatLoad

open Item

/-- The bytes that a reader has not made into items yet. -/
def Net.unread {σ : Type} (net : Net σ) (reader : Reader) : Bytes :=
  reader.buffer ++ Delivery.bytes (net.incoming reader.conn)

namespace Client

variable {σ : Type}

def readers (client : Client) : List Reader :=
  client.reader.toList ++ client.receivers.map (·.reader)

def conns (client : Client) : List ConnId :=
  client.readers.map (·.conn)

def listening (client : Client) : List Nat :=
  client.receivers.map (·.session)

/-- No connection has two readers, and no session two receive loops. -/
structure Tidy (client : Client) (links : Nat) : Prop where
  distinct : client.conns.Nodup
  known : ∀ conn ∈ client.conns, conn < links
  sessions : client.listening.Nodup
  past : ∀ session ∈ client.listening, session < client.sessions

section

variable (client : Client) (net : Net σ) (now : Duration) (wait : Wait)

/-- The bytes that a move brings to a connection by way of the peer's immediate reactions, to a new
connection or to what the move writes. -/
def gain (move : Move) (conn : ConnId) : Bytes :=
  (match move with
    | .begin (.connect _) =>
        if wait = .nothing ∧ net.attempt.1 = .accepts then
          net.attempt.2.accepting.brought conn net.attempt.2.welcome
        else []
    | _ => []) ++
  match client.writes? net now wait move with
  | some (target, bytes) =>
      if net.writable target then net.brought conn (net.provoked target bytes) else []
  | none => []

def polled (conn : ConnId) : List Item :=
  match client.reader with
  | some reader =>
      if reader.conn = conn then
        (Inbound.poll reader.buffer (net.incoming reader.conn)).1.items
      else []
  | none => []

/-- What authenticating takes off a connection in one move. -/
def answered (move : Move) (conn : ConnId) : List Item :=
  match move with
  | .begin .authenticate =>
      match client.writes? net now wait (.begin .authenticate) with
      | some (target, bytes) =>
          match net.write now target bytes with
          | (.ok (), net') => if client.hasty net then [] else client.polled net' conn
          | (.error _, _) => []
      | none => []
  | .resume =>
      match wait with
      | .auth _ => client.polled net conn
      | _ => []
  | _ => []

def looped (move : Move) (conn : ConnId) : List Item :=
  match move with
  | .receive session =>
      match client.receiver? session with
      | some loop => if loop.reader.conn = conn then (client.finds net session).1 else []
      | none => []
  | _ => []

end

/-! ### Readers go on where they have stopped -/

/-- The readers of a client after a move, in a network that has grown meanwhile: each goes on where the
reader of its connection has stopped, apart from what was taken, unless its connection is new. -/
structure Continues (client : Client) (net : Net σ) (client' : Client) (net' : Net σ)
    (gain : ConnId → Bytes) (took : ConnId → List Item) : Prop where
  sound : net'.Sound
  links : net.links.length ≤ net'.links.length
  fresh : ∀ conn, net'.links.length ≤ conn → gain conn = []
  others : ∀ conn, conn ∉ client.conns → took conn = [] ∧
    Delivery.bytes (net'.incoming conn) = Delivery.bytes (net.incoming conn) ++ gain conn
  readers : ∀ reader' ∈ client'.readers,
    (∃ reader ∈ client.readers, reader.conn = reader'.conn ∧
      Cuts (net.unread reader ++ gain reader.conn) (took reader.conn) (net'.unread reader')) ∨
    reader' = { conn := net.links.length } ∧ net.links.length < net'.links.length
  tidy : client'.Tidy net'.links.length

section

variable {client client' : Client} {net net' net'' : Net σ} {gain : ConnId → Bytes}
  {took : ConnId → List Item} {links links' : Nat}

lemma Tidy.sub (tidy : client.Tidy links) (hle : links ≤ links')
    (hconns : client'.conns.Sublist client.conns)
    (hlistening : client'.listening.Sublist client.listening)
    (hsessions : client.sessions ≤ client'.sessions) : client'.Tidy links' where
  distinct := tidy.distinct.sublist hconns
  known := fun conn hc => Nat.lt_of_lt_of_le (tidy.known conn (hconns.subset hc)) hle
  sessions := tidy.sessions.sublist hlistening
  past := fun session hs => Nat.lt_of_lt_of_le (tidy.past session (hlistening.subset hs)) hsessions

lemma Tidy.keep (tidy : client.Tidy links) (hle : links ≤ links')
    (hconns : client'.conns = client.conns) (hlistening : client'.listening = client.listening)
    (hsessions : client'.sessions = client.sessions) : client'.Tidy links' :=
  tidy.sub hle (hconns ▸ List.Sublist.refl _) (hlistening ▸ List.Sublist.refl _)
    (Nat.le_of_eq hsessions.symm)

lemma continues_of_grown (grown : net.Grown net' gain)
    (hreaders : ∀ reader' ∈ client'.readers, reader' ∈ client.readers ∨
      reader' = { conn := net.links.length } ∧ net.links.length < net'.links.length)
    (tidy : client'.Tidy net'.links.length) :
    Continues client net client' net' gain fun _ => [] where
  sound := grown.sound
  links := grown.links
  fresh := grown.fresh
  others := fun conn _ => ⟨rfl, grown.bytes conn⟩
  readers := by
    intro reader' hr
    rcases hreaders reader' hr with hold | hnew
    · refine .inl ⟨reader', hold, rfl, ?_⟩
      rw [Net.unread, Net.unread, grown.bytes, List.append_assoc]
      exact .nil _
    · exact .inr hnew
  tidy := tidy

lemma continues_of_read (grown : net.Grown net' gain) {reader : Reader}
    (hreader : reader ∈ client.readers) (tidy : client.Tidy net.links.length) {items : List Item}
    {buffer : Bytes} {rest : List Delivery}
    (hcuts : Cuts (reader.buffer ++ Delivery.bytes (net'.incoming reader.conn)) items
      (buffer ++ Delivery.bytes rest))
    (hrest : rest <:+ net'.incoming reader.conn)
    (hreaders : ∀ reader' ∈ client'.readers, reader' = { reader with buffer } ∨
      reader' ∈ client.readers ∧ reader'.conn ≠ reader.conn)
    (tidy' : client'.Tidy net.links.length) :
    Continues client net client' (net'.leave reader.conn rest) gain
      fun conn => if reader.conn = conn then items else [] := by
  have hmem : reader.conn ∈ client.conns := List.mem_map_of_mem hreader
  have hlt : reader.conn < net'.links.length :=
    Nat.lt_of_lt_of_le (tidy.known _ hmem) grown.links
  refine ⟨Net.sound_leave grown.sound hlt hrest, ?_, ?_, ?_, ?_, ?_⟩
  · rw [Net.length_links_leave]
    exact grown.links
  · intro conn hc
    rw [Net.length_links_leave] at hc
    exact grown.fresh conn hc
  · intro conn hc
    have hne : reader.conn ≠ conn := fun heq => hc (heq ▸ hmem)
    rw [if_neg hne, Net.incoming_leave hlt, if_neg hne]
    exact ⟨rfl, grown.bytes conn⟩
  · intro reader' hr
    rcases hreaders reader' hr with rfl | ⟨hold, hne⟩
    · refine .inl ⟨reader, hreader, rfl, ?_⟩
      rw [if_pos rfl, Net.unread, Net.unread, Net.incoming_leave hlt, if_pos rfl,
        List.append_assoc, ← grown.bytes]
      exact hcuts
    · refine .inl ⟨reader', hold, rfl, ?_⟩
      rw [if_neg hne.symm, Net.unread, Net.unread, Net.incoming_leave hlt, if_neg hne.symm,
        grown.bytes, List.append_assoc]
      exact .nil _
  · rw [Net.length_links_leave]
    exact tidy'.keep grown.links rfl rfl rfl

end

/-! ### Every move -/

section

variable {now : Duration} {client client' : Client} {net net' : Net σ} {wait wait' : Wait}
  {move : Move} {incidents : List Incident} {links : Nat}

lemma mem_readers_of_reader {reader : Reader} (h : client.reader = some reader) :
    reader ∈ client.readers := by
  simp [readers, h]

lemma ne_conn_of_receiver {reader : Reader} (tidy : client.Tidy links)
    (h : client.reader = some reader) {loop : ReceiveLoop} (hl : loop ∈ client.receivers) :
    loop.reader.conn ≠ reader.conn := by
  have hdistinct := tidy.distinct
  simp only [conns, readers, h, Option.toList_some, List.singleton_append, List.map_cons,
    List.nodup_cons] at hdistinct
  intro heq
  refine hdistinct.1 (heq ▸ ?_)
  exact List.mem_map_of_mem (List.mem_map_of_mem hl)

lemma continues_of_poll {old : Net σ} {gain : ConnId → Bytes} (grown : old.Grown net gain)
    (tidy : client.Tidy old.links.length) {reader : Reader} {answer : Polled} {buffer : Bytes}
    {incoming : List Delivery} (hr : client.reader = some reader)
    (hp : Inbound.poll reader.buffer (net.incoming reader.conn) = (answer, buffer, incoming))
    (hr' : client'.reader = some { reader with buffer })
    (hreceivers : client'.receivers = client.receivers)
    (hsessions : client'.sessions = client.sessions) :
    Continues client old client' (net.leave reader.conn incoming) gain (client.polled net) := by
  have htook : client.polled net = fun conn => if reader.conn = conn then answer.items else [] := by
    funext conn
    simp only [polled, hr, hp]
  have hpolls := Inbound.polls_poll reader.buffer (net.incoming reader.conn)
  have hcuts := hpolls.cuts
  have hrest := hpolls.suffix
  rw [hp] at hcuts hrest
  have hconns : client'.conns = client.conns := by simp [conns, readers, hr, hr', hreceivers]
  have hlistening : client'.listening = client.listening := by simp only [listening, hreceivers]
  rw [htook]
  refine continues_of_read grown (mem_readers_of_reader hr) tidy hcuts hrest ?_
    (tidy.keep (Nat.le_refl _) hconns hlistening hsessions)
  intro reader' hmem
  simp only [readers, hr', hreceivers, Option.toList_some, List.singleton_append,
    List.mem_cons, List.mem_map] at hmem
  rcases hmem with rfl | ⟨loop, hl, rfl⟩
  · exact .inl rfl
  · refine .inr ⟨?_, ne_conn_of_receiver tidy hr hl⟩
    exact List.mem_append_right _ (List.mem_map_of_mem hl)

lemma Looked.continues {deadline : Duration} {old : Net σ} {gain : ConnId → Bytes}
    (h : Looked now deadline client net client' net' wait' incidents) (grown : old.Grown net gain)
    (tidy : client.Tidy old.links.length) :
    Continues client old client' net' gain (client.polled net) := by
  cases h with
  | noReader hr =>
    have htook : client.polled net = fun _ => [] := by
      funext conn
      simp only [polled, hr]
    rw [htook]
    exact continues_of_grown grown (fun _ hmem => .inl hmem)
      (tidy.keep grown.links rfl rfl rfl)
  | answered hr hp => exact continues_of_poll grown tidy hr hp rfl rfl rfl
  | failed hr hp => exact continues_of_poll grown tidy hr hp rfl rfl rfl
  | waits hr hp => exact continues_of_poll grown tidy hr hp rfl rfl rfl

lemma mem_of_receiver? {session : Nat} {loop : ReceiveLoop}
    (h : client.receiver? session = some loop) :
    loop ∈ client.receivers ∧ loop.session = session :=
  ⟨List.mem_of_find?_eq_some h, by simpa using List.find?_some h⟩

lemma Tidy.conn_ne (tidy : client.Tidy links) {loop other : ReceiveLoop} (hl : loop ∈ client.receivers)
    (ho : other ∈ client.receivers) (hne : other.session ≠ loop.session) :
    other.reader.conn ≠ loop.reader.conn := by
  have hdistinct := tidy.distinct
  rw [conns, readers, List.map_append, List.map_map] at hdistinct
  intro heq
  have hsame := List.inj_on_of_nodup_map (List.nodup_append.mp hdistinct).2.1 ho hl heq
  exact hne (congrArg _ hsame)

lemma Tidy.loop_eq (tidy : client.Tidy links) {loop other : ReceiveLoop}
    (hl : loop ∈ client.receivers) (ho : other ∈ client.receivers)
    (heq : other.session = loop.session) : other = loop :=
  List.inj_on_of_nodup_map tidy.sessions ho hl heq

lemma mem_readers_putReceiver (tidy : client.Tidy links) {loop : ReceiveLoop}
    (hl : loop ∈ client.receivers) {buffer : Bytes} {due : Duration} {pending : Pending}
    {reader' : Reader}
    (h : reader' ∈ (({ client with pending } : Client).putReceiver
      { loop with reader := { loop.reader with buffer }, due }).readers) :
    reader' = { loop.reader with buffer } ∨
      reader' ∈ client.readers ∧ reader'.conn ≠ loop.reader.conn := by
  rcases List.mem_append.mp h with hown | hloop
  · have hr : client.reader = some reader' := Option.mem_toList.mp hown
    exact .inr ⟨mem_readers_of_reader hr, (ne_conn_of_receiver tidy hr hl).symm⟩
  · simp only [putReceiver, List.map_map, List.mem_map, Function.comp_apply] at hloop
    obtain ⟨other, ho, rfl⟩ := hloop
    by_cases heq : other.session = loop.session
    · rw [if_pos heq]
      exact .inl rfl
    · rw [if_neg heq]
      exact .inr ⟨List.mem_append_right _ (List.mem_map_of_mem ho), tidy.conn_ne hl ho heq⟩

lemma mem_readers_haltedBy (tidy : client.Tidy links) {loop : ReceiveLoop}
    (hl : loop ∈ client.receivers) {pending : Pending} {reader' : Reader}
    (h : reader' ∈ (({ client with pending } : Client).haltedBy loop.session).readers) :
    reader' ∈ client.readers ∧ reader'.conn ≠ loop.reader.conn := by
  rcases List.mem_append.mp h with hown | hloop
  · have hr : client.reader = some reader' := Option.mem_toList.mp hown
    exact ⟨mem_readers_of_reader hr, (ne_conn_of_receiver tidy hr hl).symm⟩
  · simp only [haltedBy, List.mem_map, List.mem_filter, bne_iff_ne] at hloop
    obtain ⟨other, ⟨ho, hne⟩, rfl⟩ := hloop
    exact ⟨List.mem_append_right _ (List.mem_map_of_mem ho), tidy.conn_ne hl ho hne⟩

lemma Tidy.putReceiver (tidy : client.Tidy links) {loop : ReceiveLoop} (hl : loop ∈ client.receivers)
    {buffer : Bytes} {due : Duration} {pending : Pending} :
    (({ client with pending } : Client).putReceiver
      { loop with reader := { loop.reader with buffer }, due }).Tidy links := by
  refine tidy.keep (Nat.le_refl _) ?_ ?_ rfl
  · simp only [conns, readers, Client.putReceiver, List.map_append, List.map_map]
    congr 1
    apply List.map_congr_left
    intro other ho
    simp only [Function.comp_apply]
    split
    · next heq => rw [tidy.loop_eq hl ho heq]
    · rfl
  · simp only [listening, Client.putReceiver, List.map_map]
    apply List.map_congr_left
    intro other ho
    simp only [Function.comp_apply]
    split
    · next heq => exact heq.symm
    · rfl

lemma Tidy.haltedBy (tidy : client.Tidy links) (session : Nat) {pending : Pending} :
    (({ client with pending } : Client).haltedBy session).Tidy links := by
  refine tidy.sub (Nat.le_refl _) ?_ ?_ (Nat.le_refl _)
  · exact ((List.Sublist.refl _).append (List.filter_sublist.map _)).map _
  · exact List.filter_sublist.map _

lemma continues_of_finds (sound : net.Sound) (tidy : client.Tidy net.links.length) {session : Nat}
    {loop : ReceiveLoop} {items : List Item} {last : Polled} {buffer : Bytes}
    {incoming : List Delivery} (hl : client.receiver? session = some loop)
    (hf : client.finds net session = (items, last, buffer, incoming))
    (hreaders : ∀ reader' ∈ client'.readers, reader' = { loop.reader with buffer } ∨
      reader' ∈ client.readers ∧ reader'.conn ≠ loop.reader.conn)
    (tidy' : client'.Tidy net.links.length) :
    Continues client net client' (net.leave loop.reader.conn incoming) (fun _ => [])
      (client.looped net (.receive session)) := by
  have htook : client.looped net (.receive session) = fun conn =>
      if loop.reader.conn = conn then items else [] := by
    funext conn
    simp only [looped, hl, hf]
  have hdrains := Inbound.drains_drain loop.reader.buffer (net.incoming loop.reader.conn)
  have hcuts := hdrains.cuts
  have hrest := hdrains.suffix
  simp only [finds, hl] at hf
  rw [hf] at hcuts hrest
  have hmem : loop.reader ∈ client.readers :=
    List.mem_append_right _ (List.mem_map_of_mem (mem_of_receiver? hl).1)
  rw [htook]
  exact continues_of_read (.refl sound) hmem tidy hcuts hrest hreaders tidy'

/-! ### Sessions -/

lemma receivers_endCurrentSession (client : Client) :
    client.endCurrentSession.receivers.Sublist client.receivers := by
  rw [endCurrentSession]
  split
  · exact List.filter_sublist
  · exact List.Sublist.refl _

lemma sessions_endCurrentSession (client : Client) :
    client.endCurrentSession.sessions = client.sessions := by
  rw [endCurrentSession]
  split <;> rfl

lemma Tidy.connectedTo (tidy : client.Tidy links) {links' : Nat} (hlt : links < links') :
    (client.connectedTo links).Tidy links' := by
  have hloops : (client.receivers.map (·.reader)).Sublist client.readers :=
    List.sublist_append_right _ _
  refine ⟨?_, ?_, tidy.sessions, tidy.past⟩
  · refine List.nodup_cons.mpr ⟨?_, tidy.distinct.sublist (hloops.map _)⟩
    intro hmem
    exact Nat.lt_irrefl _ (tidy.known _ ((hloops.map _).subset hmem))
  · intro conn hc
    rcases List.mem_cons.mp hc with rfl | hold
    · exact hlt
    · exact Nat.lt_trans (tidy.known conn ((hloops.map _).subset hold)) hlt

lemma readers_startedOn {interval : Duration} {conn : ConnId} {reader : Reader} :
    (client.startedOn now interval conn reader).readers =
      client.endCurrentSession.receivers.map (·.reader) ++ [reader] := by
  simp [readers, startedOn]

lemma Tidy.startedOn (tidy : client.Tidy links) {interval : Duration} {conn : ConnId}
    {reader : Reader} (hr : client.reader = some reader) :
    (client.startedOn now interval conn reader).Tidy links := by
  have hloops := receivers_endCurrentSession client
  have hconns : (reader :: client.endCurrentSession.receivers.map (·.reader)).Sublist
      client.readers := by
    simp only [readers, hr, Option.toList_some, List.singleton_append]
    exact (hloops.map _).cons_cons _
  have hperm : (client.startedOn now interval conn reader).readers.Perm
      (reader :: client.endCurrentSession.receivers.map (·.reader)) := by
    rw [readers_startedOn]
    exact List.perm_append_singleton _ _
  refine ⟨?_, ?_, ?_, ?_⟩
  · exact (hperm.map _).nodup_iff.mpr (tidy.distinct.sublist (hconns.map _))
  · intro other ho
    exact tidy.known other ((hconns.map _).subset ((hperm.map _).subset ho))
  · simp only [listening, Client.startedOn, sessions_endCurrentSession, List.map_append,
      List.map_cons, List.map_nil]
    refine List.nodup_append.mpr ⟨tidy.sessions.sublist (hloops.map _), List.nodup_singleton _, ?_⟩
    intro session hs last hlast
    rw [List.mem_singleton.mp hlast]
    exact Nat.ne_of_lt (tidy.past session ((hloops.map _).subset hs))
  · intro session hs
    simp only [listening, Client.startedOn, sessions_endCurrentSession, List.map_append,
      List.map_cons, List.map_nil, List.mem_append, List.mem_singleton] at hs ⊢
    rcases hs with hold | rfl
    · exact Nat.lt_succ_of_lt (tidy.past session ((hloops.map _).subset hold))
    · exact Nat.lt_succ_self _

lemma Tidy.stopped (tidy : client.Tidy links) : client.stopped.Tidy links := by
  have hloops := receivers_endCurrentSession client
  refine tidy.sub (Nat.le_refl _) ?_ (hloops.map _) (Nat.le_of_eq (sessions_endCurrentSession client).symm)
  apply List.Sublist.map _
  exact (hloops.map _).trans (List.sublist_append_right _ _)

/-! ### What arrives and what is taken -/

lemma gain_overlooked (hwrites : client.writes? net now wait move = none)
    (hover : client.Overlooks wait move) : client.gain net now wait move = fun _ => [] := by
  funext conn
  simp only [gain, hwrites, List.append_nil]
  split
  · next limit => exact if_neg fun hc => hover hc.1
  · rfl

lemma gain_unreached {limit : Duration} (h : net.attempt.1 ≠ .accepts) :
    client.gain net now .nothing (.begin (.connect limit)) = fun _ => [] := by
  funext conn
  cases hw : client.writer <;> simp [gain, writes?, hw, frame?, message?, h]

lemma gain_reached {limit : Duration} (h : net.attempt.1 = .accepts) :
    client.gain net now .nothing (.begin (.connect limit)) = fun conn =>
      net.attempt.2.accepting.brought conn net.attempt.2.welcome := by
  funext conn
  cases hw : client.writer <;> simp [gain, writes?, hw, frame?, message?, h]

lemma grown_of_write (sound : net.Sound) {conn : ConnId} {bytes : Bytes}
    {result : Except IoError Unit} (hw : client.writes? net now wait move = some (conn, bytes))
    (hr : net.write now conn bytes = (result, net')) :
    net.Grown net' (client.gain net now wait move) := by
  have hgain : client.gain net now wait move = fun other =>
      if net.writable conn then net.brought other (net.provoked conn bytes) else [] := by
    funext other
    simp only [gain, hw]
    split
    · next limit =>
      cases hwriter : client.writer <;> simp [writes?, hwriter, frame?, message?] at hw
    · rfl
  rw [hgain]
  cases result with
  | ok _ => simpa only [Net.writable_of_write_ok hr, if_true] using Net.grown_write sound hr
  | error cause =>
    rw [Net.write_error hr]
    simpa [Net.not_writable_of_write_error hr] using Net.Grown.refl sound

lemma grown_attempt (sound : net.Sound) : net.Grown net.attempt.2 fun _ => [] :=
  .keep sound net.links_attempt.symm

/-- What a move takes off a connection, be it for an AUTH or for a receive loop. -/
def taken (client : Client) (net : Net σ) (now : Duration) (wait : Wait) (move : Move)
    (conn : ConnId) : List Item :=
  client.answered net now wait move conn ++ client.looped net move conn

lemma taken_overlooked (hwrites : client.writes? net now wait move = none)
    (hover : client.Overlooks wait move) : client.taken net now wait move = fun _ => [] := by
  funext conn
  cases move with
  | «begin» act =>
    cases act with
    | authenticate => simp only [taken, answered, looped, hwrites, List.append_nil]
    | _ => rfl
  | resume =>
    cases wait with
    | auth deadline => exact absurd rfl (hover deadline)
    | _ => rfl
  | beat session => rfl
  | receive session =>
    have hnone : client.receiver? session = none := hover
    simp only [taken, answered, looped, hnone, List.append_nil]

lemma answered_authenticate {conn : ConnId} {bytes : Bytes} {result : Except IoError Unit}
    (hw : client.writes? net now .nothing (.begin .authenticate) = some (conn, bytes))
    (hr : net.write now conn bytes = (result, net')) :
    client.answered net now .nothing (.begin .authenticate) = fun other =>
      match result with
      | .ok () => if client.hasty net then [] else client.polled net' other
      | .error _ => [] := by
  funext other
  simp only [answered, hw, hr]
  cases result <;> rfl

lemma taken_authenticate {conn : ConnId} {bytes : Bytes} {result : Except IoError Unit}
    (hw : client.writes? net now .nothing (.begin .authenticate) = some (conn, bytes))
    (hr : net.write now conn bytes = (result, net')) :
    client.taken net now .nothing (.begin .authenticate) = fun other =>
      match result with
      | .ok () => if client.hasty net then [] else client.polled net' other
      | .error _ => [] := by
  rw [← answered_authenticate hw hr]
  funext other
  exact List.append_nil _

lemma taken_resume {deadline : Duration} :
    client.taken net now (.auth deadline) .resume = client.polled net := by
  funext conn
  simp only [taken, answered, looped, List.append_nil]

lemma taken_chat {act : Act} {message : Int64 → Chat} (hm : client.message? act = some message) :
    client.taken net now wait (.begin act) = fun _ => [] := by
  funext conn
  cases act with
  | authenticate => cases hm
  | _ => rfl

theorem Moved.continues (h : Moved now client net wait move client' net' wait' incidents)
    (sound : net.Sound) (tidy : client.Tidy net.links.length) :
    Continues client net client' net' (client.gain net now wait move)
      (client.taken net now wait move) := by
  cases h with
  | still hwrites _ hover =>
    rw [gain_overlooked hwrites hover, taken_overlooked hwrites hover]
    exact continues_of_grown (.refl sound) (fun _ hr => .inl hr) tidy
  | refused hno | connecting hno =>
    have grown := grown_attempt sound
    rw [gain_unreached hno]
    exact continues_of_grown grown (fun _ hr => .inl hr) (tidy.keep grown.links rfl rfl rfl)
  | late hyes =>
    have hattempt := grown_attempt sound
    have grown := hattempt.trans (Net.grown_touch hattempt.sound now)
    rw [gain_reached hyes]
    exact continues_of_grown grown (fun _ hr => .inl hr) (tidy.keep grown.links rfl rfl rfl)
  | @connected _ conn after hyes hopen =>
    have hattempt := grown_attempt sound
    obtain ⟨hopened, hlt⟩ := Net.grown_openLink hattempt.sound now
    have hconn : conn = net.links.length := by
      rw [← net.links_attempt, ← Net.openLink_fst net.attempt.2 now, hopen]
    rw [hopen] at hopened hlt
    rw [net.links_attempt] at hlt
    have hdropped := Net.grown_drop hopened.sound client (client.connectedTo conn)
    have grown := (hattempt.trans hopened).trans hdropped
    have hlinks := Nat.lt_of_lt_of_le hlt hdropped.links
    rw [gain_reached hyes]
    refine continues_of_grown (by simpa using grown) ?_ (hconn ▸ tidy.connectedTo (hconn ▸ hlinks))
    intro reader' hr
    rcases List.mem_cons.mp hr with rfl | hold
    · exact .inr ⟨by rw [hconn], hlinks⟩
    · exact .inl (List.mem_append_right _ hold)
  | expired => exact continues_of_grown (.refl sound) (fun _ hr => .inl hr) tidy
  | unsendable hstate hwriter =>
    have hw : client.writes? net now .nothing (.begin .authenticate) = none := by
      simp [writes?, hwriter]
    rw [gain_overlooked hw trivial, taken_overlooked hw trivial]
    exact continues_of_grown (.refl sound) (fun _ hr => .inl hr)
      (tidy.keep (Nat.le_refl _) rfl rfl rfl)
  | unsent hstate hw hr =>
    have grown := grown_of_write sound hw hr
    rw [taken_authenticate hw hr]
    exact continues_of_grown grown (fun _ hmem => .inl hmem) (tidy.keep grown.links rfl rfl rfl)
  | hasty hstate hw hr hasty =>
    have grown := grown_of_write sound hw hr
    rw [taken_authenticate hw hr]
    simp only [hasty, if_true]
    exact continues_of_grown grown (fun _ hmem => .inl hmem) (tidy.keep grown.links rfl rfl rfl)
  | sent hstate hw hr hpatient hlook =>
    have grown := grown_of_write sound hw hr
    have tidy' : client.drawId.2.Tidy net.links.length := tidy.keep (Nat.le_refl _) rfl rfl rfl
    rw [taken_authenticate hw hr]
    simp only [hpatient, Bool.false_eq_true, if_false]
    -- drawing an id leaves the readers as they are
    have h := hlook.continues grown tidy'
    exact ⟨h.sound, h.links, h.fresh, h.others, h.readers, h.tidy⟩
  | resumed hlook =>
    rw [taken_resume]
    exact hlook.continues (.refl sound) tidy
  | chat hm hauth hw hr =>
    have grown := grown_of_write sound hw hr
    rw [taken_chat hm]
    exact continues_of_grown grown (fun _ hmem => .inl hmem) (tidy.keep grown.links rfl rfl rfl)
  | heartbeat hw hr =>
    have grown := grown_of_write sound hw hr
    exact continues_of_grown grown (fun _ hmem => .inl hmem) (tidy.keep grown.links rfl rfl rfl)
  | @started interval conn reader hstate hwriter hr =>
    have hw : client.writes? net now .nothing (.begin (.start interval)) = none := by
      simp [writes?, hwriter, frame?, message?]
    have grown := Net.grown_drop sound client (client.startedOn now interval conn reader)
    rw [gain_overlooked hw trivial]
    refine continues_of_grown grown ?_ ((tidy.startedOn hr).sub grown.links (List.Sublist.refl _)
      (List.Sublist.refl _) (Nat.le_refl _))
    intro reader' hmem
    rw [readers_startedOn] at hmem
    rcases List.mem_append.mp hmem with hloop | hown
    · have hsub := (receivers_endCurrentSession client).map (·.reader)
      exact .inl (List.mem_append_right _ (hsub.subset hloop))
    · rw [List.mem_singleton.mp hown]
      exact .inl (mem_readers_of_reader hr)
  | stopped =>
    have hw : client.writes? net now .nothing (.begin .stop) = none := by
      cases hwriter : client.writer <;> simp [writes?, hwriter, frame?, message?]
    have grown := Net.grown_drop sound client client.stopped
    rw [gain_overlooked hw trivial]
    refine continues_of_grown grown ?_ (tidy.stopped.sub grown.links (List.Sublist.refl _)
      (List.Sublist.refl _) (Nat.le_refl _))
    intro reader' hmem
    have hsub := (receivers_endCurrentSession client).map (·.reader)
    exact .inl (List.mem_append_right _ (hsub.subset hmem))
  | beat hl hd hw hr =>
    have grown := grown_of_write sound hw hr
    exact continues_of_grown grown (fun _ hmem => .inl hmem) (tidy.keep grown.links rfl rfl rfl)
  | @lastBeat _ session _ _ _ _ _ hl hd hw hr =>
    have hwritten := grown_of_write sound hw hr
    have hdropped := Net.grown_drop hwritten.sound client (client.endHeartbeat session)
    have grown := hwritten.trans hdropped
    simp only [List.append_nil] at grown
    exact continues_of_grown grown (fun _ hmem => .inl hmem) (tidy.keep grown.links rfl rfl rfl)
  | @received _ session loop _ _ _ _ hl hf =>
    have hloop := mem_of_receiver? hl
    rw [handleAll_client]
    exact continues_of_finds sound tidy hl hf (fun _ hmem => mem_readers_putReceiver tidy hloop.1 hmem)
      (tidy.putReceiver hloop.1)
  | @hungUp _ session loop _ _ _ hl hf | @broke _ session loop _ _ _ _ hl hf =>
    obtain ⟨hloop, rfl⟩ := mem_of_receiver? hl
    rw [handleAll_client]
    exact continues_of_finds sound tidy hl hf
      (fun _ hmem => .inr (mem_readers_haltedBy tidy hloop hmem)) (tidy.haltedBy _)

/-! ### From authenticating to receiving -/

lemma Moved.reader_conn (h : Moved now client net wait move client' net' wait' incidents)
    {reader' : Reader} (hr' : client'.reader = some reader') :
    (∃ reader, client.reader = some reader ∧ reader.conn = reader'.conn) ∨
      reader'.conn = net.links.length := by
  have hlook {deadline : Duration} {first last : Client} {before after : Net σ}
      (hlook : Looked now deadline first before last after wait' incidents)
      (hr : last.reader = some reader') :
      ∃ reader, first.reader = some reader ∧ reader.conn = reader'.conn := by
    cases hlook with
    | noReader => exact ⟨reader', hr, rfl⟩
    | answered hfirst | failed hfirst | waits hfirst =>
      cases hr
      exact ⟨_, hfirst, rfl⟩
  cases h with
  | @connected _ conn _ hyes hopen =>
    have hconn : conn = net.links.length := by
      rw [← net.links_attempt, ← Net.openLink_fst net.attempt.2 now, hopen]
    exact .inr ((congrArg Reader.conn (Option.some.inj hr')).symm.trans hconn)
  | sent _ _ _ _ hl | resumed hl =>
    obtain ⟨reader, hr, hconn⟩ := hlook hl hr'
    exact .inl ⟨reader, hr, hconn⟩
  | started | stopped => cases hr'
  | received | hungUp | broke =>
    rw [handleAll_client] at hr'
    exact .inl ⟨reader', hr', rfl⟩
  | _ => exact .inl ⟨reader', hr', rfl⟩

lemma conn_of_answered {conn : ConnId} (h : client.answered net now wait move conn ≠ []) :
    ∃ reader, client.reader = some reader ∧ reader.conn = conn := by
  have hpolled {other : Net σ} (hp : client.polled other conn ≠ []) :
      ∃ reader, client.reader = some reader ∧ reader.conn = conn := by
    rw [polled] at hp
    cases hr : client.reader with
    | none => simp [hr] at hp
    | some reader =>
      refine ⟨reader, rfl, ?_⟩
      by_contra hne
      simp [hr, hne] at hp
  unfold answered at h
  split at h
  · split at h
    · split at h
      · split at h
        · exact absurd rfl h
        · exact hpolled h
      · exact absurd rfl h
    · exact absurd rfl h
  · split at h
    · exact hpolled h
    · exact absurd rfl h
  · exact absurd rfl h

lemma loop_of_looped {conn : ConnId} (h : client.looped net move conn ≠ []) :
    ∃ loop ∈ client.receivers, loop.reader.conn = conn := by
  cases move with
  | receive session =>
    simp only [looped] at h
    split at h
    · next loop hl =>
      refine ⟨loop, (mem_of_receiver? hl).1, ?_⟩
      by_contra hne
      exact h (if_neg hne)
    · exact absurd rfl h
  | _ => exact absurd rfl h

lemma length_polled_le (client : Client) (net : Net σ) (conn : ConnId) :
    (client.polled net conn).length ≤ 1 := by
  rw [polled]
  split
  · next reader _ =>
    split
    · cases (Inbound.poll reader.buffer (net.incoming reader.conn)).1 <;> simp [Polled.items]
    · exact Nat.zero_le _
  · exact Nat.zero_le _

lemma Looked.ends {deadline : Duration} {conn : ConnId}
    (h : Looked now deadline client net client' net' wait' incidents)
    (hp : client.polled net conn ≠ []) : wait' = .nothing := by
  cases h with
  | @waits reader _ _ hr hpoll =>
    have hnone : client.polled net conn = [] := by
      simp [polled, hr, hpoll, Polled.items]
    exact absurd hnone hp
  | _ => rfl

/-- Authenticating takes at most one item in a move, and is over once it has taken one. -/
lemma Moved.answers_once (h : Moved now client net wait move client' net' wait' incidents)
    (conn : ConnId) :
    (client.answered net now wait move conn).length ≤ 1 ∧
      (client.answered net now wait move conn ≠ [] → wait' = .nothing) := by
  have hnil {items : List Item} (hi : items = []) :
      items.length ≤ 1 ∧ (items ≠ [] → wait' = .nothing) := by
    subst hi
    exact ⟨Nat.zero_le _, fun hne => absurd rfl hne⟩
  cases h with
  | still hwrites _ hover =>
    have htaken := congrFun (taken_overlooked hwrites hover) conn
    exact hnil (List.append_eq_nil_iff.mp htaken).1
  | unsendable _ hwriter =>
    have hwrites : client.writes? net now .nothing (.begin .authenticate) = none := by
      simp [writes?, hwriter]
    have htaken := congrFun (taken_overlooked hwrites trivial) conn
    exact hnil (List.append_eq_nil_iff.mp htaken).1
  | unsent _ hw hr => exact hnil (congrFun (answered_authenticate hw hr) conn)
  | hasty _ hw hr hasty =>
    refine hnil ?_
    rw [answered_authenticate hw hr, hasty]
    rfl
  | sent _ hw hr hpatient hlook =>
    rw [answered_authenticate hw hr, hpatient]
    exact ⟨length_polled_le _ _ _, hlook.ends⟩
  | resumed hlook => exact ⟨length_polled_le _ _ _, hlook.ends⟩
  | @chat act _ _ _ _ _ hm =>
    have htaken := congrFun (@taken_chat _ now client net .nothing act _ hm) conn
    exact hnil (List.append_eq_nil_iff.mp htaken).1
  | _ => exact hnil rfl

end

end Client

end ChatLoad
