import ChatLoad.Proofs.Client.Play
import ChatLoad.Proofs.Client.Readers

/-! What is left to do at a moment: after the turn of an agent no heartbeat of it is due, and unless its
routine came further or somebody was written to, nothing complete is left for its receive loops. -/

namespace ChatLoad

open Item

/-- Between the two networks only some connections have been read from. -/
structure Net.Read {σ : Type} (net net' : Net σ) (conns : List ConnId) : Prop where
  links : net'.links.length = net.links.length
  agenda : net'.agenda = net.agenda
  others : ∀ conn, conn ∉ conns → net'.incoming conn = net.incoming conn

namespace Net.Read

variable {σ : Type} {net net' net'' : Net σ} {conns : List ConnId}

lemma refl (net : Net σ) (conns : List ConnId) : net.Read net conns :=
  ⟨rfl, rfl, fun _ _ => rfl⟩

lemma trans {conns' : List ConnId} (h : net.Read net' conns) (h' : net'.Read net'' conns')
    (hsub : conns' ⊆ conns) : net.Read net'' conns where
  links := h'.links.trans h.links
  agenda := h'.agenda.trans h.agenda
  others := fun conn hc => (h'.others conn fun hc' => hc (hsub hc')).trans (h.others conn hc)

lemma leave {conn : ConnId} (h : conn ∈ conns) (rest : List Delivery) :
    net.Read (net.leave conn rest) conns where
  links := net.length_links_leave conn rest
  agenda := rfl
  others := by
    intro other ho
    have hne : conn ≠ other := fun heq => ho (heq ▸ h)
    unfold Net.leave Net.incoming
    rw [Net.link?_change, if_neg hne]

end Net.Read

namespace Client

variable {σ : Type}

/-! ### Heartbeats -/

def beating (client : Client) : List Nat :=
  client.heartbeats.map (·.session)

/-- No session has two heartbeat loops. -/
structure Paced (client : Client) : Prop where
  sessions : client.beating.Nodup
  past : ∀ session ∈ client.beating, session < client.sessions

def Rested (client : Client) (now : Duration) : Prop :=
  ∀ loop ∈ client.heartbeats, now < loop.due

section

variable {now : Duration} {client client' : Client} {net net' : Net σ} {wait wait' : Wait}
  {move : Move} {incidents : List Incident}

lemma Paced.sub (paced : client.Paced) (hbeating : client'.beating.Sublist client.beating)
    (hsessions : client.sessions ≤ client'.sessions) : client'.Paced where
  sessions := paced.sessions.sublist hbeating
  past := fun session hs => Nat.lt_of_lt_of_le (paced.past session (hbeating.subset hs)) hsessions

lemma Paced.keep (paced : client.Paced) (hbeats : client'.heartbeats = client.heartbeats)
    (hsessions : client'.sessions = client.sessions) : client'.Paced :=
  paced.sub (by rw [beating, beating, hbeats]) (Nat.le_of_eq hsessions.symm)

lemma heartbeats_endCurrentSession (client : Client) :
    client.endCurrentSession.heartbeats.Sublist client.heartbeats := by
  rw [endCurrentSession]
  split
  · exact List.filter_sublist
  · exact List.Sublist.refl _

lemma Paced.startedOn (paced : client.Paced) (interval : Duration) (conn : ConnId)
    (reader : Reader) : (client.startedOn now interval conn reader).Paced := by
  have hold := (heartbeats_endCurrentSession client).map (·.session)
  refine ⟨?_, ?_⟩
  · simp only [beating, Client.startedOn, sessions_endCurrentSession, List.map_append,
      List.map_cons, List.map_nil]
    refine List.nodup_append.mpr ⟨paced.sessions.sublist hold, List.nodup_singleton _, ?_⟩
    intro session hs last hlast
    rw [List.mem_singleton.mp hlast]
    exact Nat.ne_of_lt (paced.past session (hold.subset hs))
  · intro session hs
    simp only [beating, Client.startedOn, sessions_endCurrentSession, List.map_append,
      List.map_cons, List.map_nil, List.mem_append, List.mem_singleton] at hs ⊢
    rcases hs with hs | rfl
    · exact Nat.lt_succ_of_lt (paced.past session (hold.subset hs))
    · exact Nat.lt_succ_self _

lemma beating_putHeartbeat (client : Client) (loop : HeartbeatLoop) :
    (client.putHeartbeat loop).beating = client.beating := by
  simp only [beating, putHeartbeat, List.map_map]
  apply List.map_congr_left
  intro other _
  simp only [Function.comp_apply]
  split
  · next heq => exact heq.symm
  · rfl

lemma Looked.beats {deadline : Duration}
    (h : Looked now deadline client net client' net' wait' incidents) :
    client'.heartbeats = client.heartbeats ∧ client'.sessions = client.sessions := by
  cases h <;> exact ⟨rfl, rfl⟩

lemma Moved.paced (h : Moved now client net wait move client' net' wait' incidents)
    (paced : client.Paced) : client'.Paced := by
  cases h with
  | still | refused | late | connecting | expired | heartbeat => exact paced
  | connected | unsendable | unsent | hasty | chat => exact paced.keep rfl rfl
  | sent _ _ _ _ hlook | resumed hlook =>
    obtain ⟨hbeats, hsessions⟩ := hlook.beats
    exact paced.keep hbeats hsessions
  | started => exact paced.startedOn _ _ _
  | stopped =>
    exact paced.sub ((heartbeats_endCurrentSession client).map _)
      (Nat.le_of_eq (sessions_endCurrentSession client).symm)
  | beat => exact paced.sub (by rw [beating_putHeartbeat]) (Nat.le_refl _)
  | lastBeat => exact paced.sub (List.filter_sublist.map _) (Nat.le_refl _)
  | received | hungUp | broke =>
    rw [handleAll_client]
    exact paced.keep rfl rfl

lemma heartbeat?_of_mem (paced : client.Paced) {loop : HeartbeatLoop}
    (h : loop ∈ client.heartbeats) : client.heartbeat? loop.session = some loop := by
  cases hf : client.heartbeat? loop.session with
  | none =>
    have hno := List.find?_eq_none.mp hf loop h
    simp at hno
  | some other =>
    have hsession : other.session = loop.session := by simpa using List.find?_some hf
    have hmem : other ∈ client.heartbeats := List.mem_of_find?_eq_some hf
    rw [List.inj_on_of_nodup_map paced.sessions hmem h hsession]

lemma lt_nextBeat (now interval : Duration) : now < nextBeat now interval :=
  Nat.lt_add_of_pos_right (Nat.lt_of_lt_of_le Nat.zero_lt_one (Nat.le_max_right _ _))

lemma Moved.beaten {session : Nat}
    (h : Moved now client net wait (.beat session) client' net' wait' incidents)
    (paced : client.Paced) :
    ∀ loop ∈ client'.heartbeats, now < loop.due ∨ loop ∈ client.heartbeats ∧ loop.session ≠ session := by
  intro loop hl
  cases h with
  | still hwrites =>
    by_cases hs : loop.session = session
    · have hfind := heartbeat?_of_mem paced hl
      rw [hs] at hfind
      left
      simpa [writes?, hfind] using hwrites
    · exact .inr ⟨hl, hs⟩
  | @beat _ _ found _ _ _ _ hfind =>
    have hsession : found.session = session := by simpa using List.find?_some hfind
    obtain ⟨other, ho, rfl⟩ := List.mem_map.mp hl
    by_cases heq : other.session = found.session
    · rw [if_pos heq]
      exact .inl (lt_nextBeat _ _)
    · rw [if_neg heq]
      exact .inr ⟨ho, hsession ▸ heq⟩
  | lastBeat hfind =>
    obtain ⟨hmem, hne⟩ := List.mem_filter.mp hl
    exact .inr ⟨hmem, by simpa using hne⟩

lemma Moved.heartbeats (h : Moved now client net wait move client' net' wait' incidents)
    (hact : ∀ act, move ≠ .begin act) (hbeat : ∀ session, move ≠ .beat session) :
    client'.heartbeats = client.heartbeats := by
  cases h with
  | still | expired => rfl
  | resumed hlook => exact hlook.beats.1
  | received | hungUp | broke =>
    rw [handleAll_client]
    rfl
  | beat | lastBeat => exact absurd rfl (hbeat _)
  | _ => exact absurd rfl (hact _)

/-! ### Reading -/

/-- Nothing is left to read for a receive loop, nor anything complete in its buffer. -/
def Attentive (client : Client) (net : Net σ) : Prop :=
  ∀ loop ∈ client.receivers,
    net.incoming loop.reader.conn = [] ∧ Unfinished loop.reader.buffer

/-- What a move that only reads leaves alone. -/
structure Keeps (client : Client) (net : Net σ) (client' : Client) (net' : Net σ) : Prop where
  heartbeats : client'.heartbeats = client.heartbeats
  conns : client'.conns ⊆ client.conns
  read : net.Read net' client.conns

lemma Keeps.trans {client'' : Client} {net'' : Net σ} (h : client.Keeps net client' net')
    (h' : client'.Keeps net' client'' net'') : client.Keeps net client'' net'' where
  heartbeats := h'.heartbeats.trans h.heartbeats
  conns := fun _ hc => h.conns (h'.conns hc)
  read := h.read.trans h'.read h.conns

lemma Keeps.refl (client : Client) (net : Net σ) : client.Keeps net client net :=
  ⟨rfl, List.Subset.refl _, .refl net _⟩

lemma mem_conns_of_receiver {loop : ReceiveLoop} (h : loop ∈ client.receivers) :
    loop.reader.conn ∈ client.conns :=
  List.mem_map_of_mem (List.mem_append_right _ (List.mem_map_of_mem h))

lemma Looked.reads {deadline : Duration}
    (h : Looked now deadline client net client' net' wait' incidents) :
    (client' = client ∧ net' = net) ∨
      ∃ reader buffer incoming state, client.reader = some reader ∧
        client' = { client.read reader buffer with state } ∧
        net' = net.leave reader.conn incoming := by
  cases h with
  | noReader => exact .inl ⟨rfl, rfl⟩
  | answered hr => exact .inr ⟨_, _, _, _, hr, rfl, rfl⟩
  | failed hr | waits hr => exact .inr ⟨_, _, _, client.state, hr, rfl, rfl⟩

lemma Looked.attentive {deadline : Duration}
    (h : Looked now deadline client net client' net' wait' incidents)
    (tidy : client.Tidy net.links.length) (attentive : client.Attentive net) :
    client.Keeps net client' net' ∧ client'.Attentive net' := by
  rcases h.reads with ⟨rfl, rfl⟩ | ⟨reader, buffer, incoming, state, hr, rfl, rfl⟩
  · exact ⟨.refl _ _, attentive⟩
  · have hmem : reader.conn ∈ client.conns :=
      List.mem_map_of_mem (mem_readers_of_reader hr)
    refine ⟨⟨rfl, ?_, .leave hmem incoming⟩, ?_⟩
    · simp [conns, readers, read, hr]
    · intro loop hl
      have hne : reader.conn ≠ loop.reader.conn := (ne_conn_of_receiver tidy hr hl).symm
      rw [Net.incoming_leave (tidy.known _ hmem), if_neg hne]
      exact attentive loop hl

lemma Moved.attentive_resume
    (h : Moved now client net wait .resume client' net' wait' incidents)
    (tidy : client.Tidy net.links.length) (attentive : client.Attentive net) :
    client.Keeps net client' net' ∧ client'.Attentive net' := by
  cases h with
  | still | expired => exact ⟨.refl _ _, attentive⟩
  | resumed hlook => exact hlook.attentive tidy attentive

lemma Moved.keeps_receive {session : Nat}
    (h : Moved now client net wait (.receive session) client' net' wait' incidents)
    (tidy : client.Tidy net.links.length) : client.Keeps net client' net' := by
  cases h with
  | still => exact .refl _ _
  | received hl =>
    have hmem := (mem_of_receiver? hl).1
    rw [handleAll_client]
    refine ⟨rfl, ?_, .leave (mem_conns_of_receiver hmem) _⟩
    intro conn hc
    obtain ⟨reader', hr, rfl⟩ := List.mem_map.mp hc
    rcases mem_readers_putReceiver tidy hmem hr with rfl | ⟨hold, _⟩
    · exact mem_conns_of_receiver hmem
    · exact List.mem_map_of_mem hold
  | hungUp hl | broke hl =>
    obtain ⟨hmem, rfl⟩ := mem_of_receiver? hl
    rw [handleAll_client]
    refine ⟨rfl, ?_, .leave (mem_conns_of_receiver hmem) _⟩
    intro conn hc
    obtain ⟨reader', hr, rfl⟩ := List.mem_map.mp hc
    exact List.mem_map_of_mem (mem_readers_haltedBy tidy hmem hr).1

/-- A receive loop that has looked and goes on has read all there was; the others have nothing less to
read than before. -/
lemma Moved.attentive_receive {session : Nat}
    (h : Moved now client net wait (.receive session) client' net' wait' incidents)
    (tidy : client.Tidy net.links.length) :
    ∀ loop ∈ client'.receivers,
      (net'.incoming loop.reader.conn = [] ∧ Unfinished loop.reader.buffer) ∨
      loop ∈ client.receivers ∧ loop.session ≠ session ∧
        net'.incoming loop.reader.conn = net.incoming loop.reader.conn := by
  intro loop hl
  have hleave {found : ReceiveLoop} (hfound : found ∈ client.receivers)
      (hold : loop ∈ client.receivers) (hne : loop.session ≠ found.session)
      (incoming : List Delivery) :
      (net.leave found.reader.conn incoming).incoming loop.reader.conn =
        net.incoming loop.reader.conn := by
    rw [Net.incoming_leave (tidy.known _ (mem_conns_of_receiver hfound)),
      if_neg (tidy.conn_ne hfound hold hne).symm]
  cases h with
  | still _ _ hover =>
    refine .inr ⟨hl, ?_, rfl⟩
    intro hs
    have hnone : client.receiver? session = none := hover
    have hno := List.find?_eq_none.mp hnone loop hl
    simp [hs] at hno
  | @received _ _ found items buffer incoming due hfind hf =>
    obtain ⟨hmem, rfl⟩ := mem_of_receiver? hfind
    have hdrains := Inbound.drains_drain found.reader.buffer (net.incoming found.reader.conn)
    have hlast := hdrains.last
    have hunfinished := hdrains.unfinished
    simp only [finds, hfind] at hf
    rw [hf] at hlast hunfinished
    obtain rfl : incoming = [] := by simpa using hlast
    rw [handleAll_client] at hl
    obtain ⟨other, ho, rfl⟩ := List.mem_map.mp hl
    by_cases heq : other.session = found.session
    · rw [if_pos heq]
      refine .inl ⟨?_, hunfinished⟩
      rw [Net.incoming_leave (tidy.known _ (mem_conns_of_receiver hmem)), if_pos rfl]
    · simp only [heq, if_false] at hleave ⊢
      exact .inr ⟨ho, heq, hleave hmem ho heq []⟩
  | @hungUp _ _ found _ _ incoming hfind | @broke _ _ found _ _ _ incoming hfind =>
    obtain ⟨hmem, rfl⟩ := mem_of_receiver? hfind
    rw [handleAll_client] at hl
    obtain ⟨hold, hne⟩ := List.mem_filter.mp hl
    have hne : loop.session ≠ found.session := by simpa using hne
    exact .inr ⟨hold, hne, hleave hmem hold hne incoming⟩

end

end Client

namespace Turn

variable {σ : Type}

lemma moved (turn : Turn σ) (now : Duration) (wait : Wait) (move : Move) :
    ∃ incidents, Client.Moved now turn.client turn.net wait move (turn.move now wait move).1.client
      (turn.move now wait move).1.net (turn.move now wait move).2 incidents := by
  have hturn : turn = (turn.client.turnOn turn.net).noting turn.incidents := by
    simp [noting, Client.turnOn]
  have hmove := move_noting turn.incidents (turn.client.turnOn turn.net) now wait move
  rw [← hturn] at hmove
  rw [hmove]
  exact ⟨_, turn.client.moved turn.net now wait move⟩

lemma beats_rested {turn : Turn σ} {now : Duration} (paced : turn.client.Paced)
    (sessions : List Nat) :
    ∀ loop ∈ (sessions.foldl (·.runHeartbeat now ·) turn).client.heartbeats,
      now < loop.due ∨ loop ∈ turn.client.heartbeats ∧ loop.session ∉ sessions := by
  induction sessions generalizing turn with
  | nil => exact fun loop hl => .inr ⟨hl, List.not_mem_nil⟩
  | cons session sessions ih =>
    intro loop hl
    obtain ⟨_, hmoved⟩ := turn.moved now .nothing (.beat session)
    rcases ih (hmoved.paced paced) loop hl with hrested | ⟨hmem, hnot⟩
    · exact .inl hrested
    · rcases hmoved.beaten paced loop hmem with hrested | ⟨hold, hne⟩
      · exact .inl hrested
      · exact .inr ⟨hold, by simp [hne, hnot]⟩

lemma runHeartbeats_rested {turn : Turn σ} {now : Duration} (paced : turn.client.Paced) :
    (turn.runHeartbeats now).client.Rested now := by
  intro loop hl
  rcases beats_rested paced _ loop hl with hrested | ⟨hmem, hnot⟩
  · exact hrested
  · exact absurd (List.mem_map_of_mem hmem) hnot

lemma runHeartbeats_of_rested {turn : Turn σ} {now : Duration} (rested : turn.client.Rested now) :
    turn.runHeartbeats now = turn := by
  have hone : ∀ session, turn.runHeartbeat now session = turn := by
    intro session
    rw [runHeartbeat]
    cases hl : turn.client.heartbeat? session with
    | none => rfl
    | some loop => exact if_pos (rested loop (List.mem_of_find?_eq_some hl))
  rw [runHeartbeats]
  induction turn.client.heartbeats.map (·.session) with
  | nil => rfl
  | cons session sessions ih => rw [List.foldl_cons, hone, ih]

lemma receives_attentive {turn : Turn σ} {now : Duration} (sound : turn.net.Sound)
    (tidy : turn.client.Tidy turn.net.links.length) (sessions : List Nat) :
    let after := sessions.foldl (·.runReceiver now ·) turn
    after.net.Sound ∧ after.client.Tidy after.net.links.length ∧
      turn.client.Keeps turn.net after.client after.net ∧
      ∀ loop ∈ after.client.receivers,
        (after.net.incoming loop.reader.conn = [] ∧ Unfinished loop.reader.buffer) ∨
        loop ∈ turn.client.receivers ∧ loop.session ∉ sessions ∧
          after.net.incoming loop.reader.conn = turn.net.incoming loop.reader.conn := by
  induction sessions generalizing turn with
  | nil => exact ⟨sound, tidy, .refl _ _, fun loop hl => .inr ⟨hl, List.not_mem_nil, rfl⟩⟩
  | cons session sessions ih =>
    obtain ⟨_, hmoved⟩ := turn.moved now .nothing (.receive session)
    have hcontinues := hmoved.continues sound tidy
    obtain ⟨hsound, htidy, hkeeps, hrest⟩ := ih hcontinues.sound hcontinues.tidy
    refine ⟨hsound, htidy, (hmoved.keeps_receive tidy).trans hkeeps, ?_⟩
    intro loop hl
    rcases hrest loop hl with hdone | ⟨hmem, hnot, hsame⟩
    · exact .inl hdone
    · rcases hmoved.attentive_receive tidy loop hmem with ⟨hnil, hbuffer⟩ | ⟨hold, hne, hsame'⟩
      · exact .inl ⟨hsame.trans hnil, hbuffer⟩
      · exact .inr ⟨hold, by simp [hne, hnot], hsame.trans hsame'⟩

lemma runReceivers_attentive {turn : Turn σ} {now : Duration} (sound : turn.net.Sound)
    (tidy : turn.client.Tidy turn.net.links.length) :
    (turn.runReceivers now).net.Sound ∧
      (turn.runReceivers now).client.Tidy (turn.runReceivers now).net.links.length ∧
      turn.client.Keeps turn.net (turn.runReceivers now).client (turn.runReceivers now).net ∧
      (turn.runReceivers now).client.Attentive (turn.runReceivers now).net := by
  obtain ⟨hsound, htidy, hkeeps, hall⟩ := receives_attentive sound tidy
    (turn.client.receivers.map (·.session))
  refine ⟨hsound, htidy, hkeeps, ?_⟩
  intro loop hl
  rcases hall loop hl with hdone | ⟨hmem, hnot, _⟩
  · exact hdone
  · exact absurd (List.mem_map_of_mem hmem) hnot

lemma heartbeats_runReceivers (turn : Turn σ) (now : Duration) :
    (turn.runReceivers now).client.heartbeats = turn.client.heartbeats := by
  rw [runReceivers]
  induction turn.client.receivers.map (·.session) generalizing turn with
  | nil => rfl
  | cons session sessions ih =>
    obtain ⟨_, hmoved⟩ := turn.moved now .nothing (.receive session)
    exact (ih _).trans (hmoved.heartbeats (by simp) (by simp))

lemma perform_remaining (turn : Turn σ) (now : Duration) (acts : List Act) :
    2 * (turn.perform now acts).2.1.length +
        (if (turn.perform now acts).2.2 = .nothing then 0 else 1) ≤ 2 * acts.length ∧
      (acts ≠ [] → 2 * (turn.perform now acts).2.1.length +
        (if (turn.perform now acts).2.2 = .nothing then 0 else 1) < 2 * acts.length) := by
  induction acts generalizing turn with
  | nil => simp [perform]
  | cons act acts ih =>
    rw [perform]
    rcases turn.begin now act with ⟨begun, (_ | _) | wait⟩
    · simp
    · have hrest := (ih begun).1
      simp only [List.length_cons]
      omega
    · simp only [List.length_cons]
      split <;> omega

end Turn

namespace Agent

variable {σ : Type} (agent : Agent) (now : Duration) (net : Net σ)

/-- A turn that does not shorten the routine has only looked whether a wait is over. -/
lemma turn_cases :
    (agent.turn now net).1.remaining < agent.remaining ∨
      (agent.turn now net).1.remaining = agent.remaining ∧
        (agent.turn now net).1.client = ((agent.looped now net).resume now agent.wait).1.client ∧
        (agent.turn now net).2.1 = ((agent.looped now net).resume now agent.wait).1.net := by
  have hnothing : agent.wait = .nothing →
      (agent.looped now net).resume now agent.wait = (agent.looped now net, .done true) := by
    intro hw
    rw [hw]
    rfl
  rcases hr : (agent.looped now net).resume now agent.wait with ⟨resumed, (_ | _) | wait⟩
  · rw [hr] at hnothing
    have hw : agent.wait ≠ .nothing := fun hw => by cases hnothing hw
    left
    rw [turn_of_failed hr]
    simp [remaining, hw]
  · rw [turn_of_succeeded hr]
    by_cases hacts : agent.acts = []
    · rw [hacts]
      by_cases hw : agent.wait = .nothing
      · right
        simp [remaining, hacts, hw, Turn.perform]
      · left
        simp [remaining, hacts, hw, Turn.perform]
    · left
      have hless := (resumed.perform_remaining now agent.acts).2 hacts
      exact Nat.lt_of_lt_of_le hless (Nat.le_add_right _ _)
  · rw [hr] at hnothing
    have hw : agent.wait ≠ .nothing := fun hw => by cases hnothing hw
    rw [turn_of_waits hr]
    by_cases hw' : wait = .nothing
    · left
      simp [remaining, hw, hw']
    · right
      simp [remaining, hw, hw']

lemma turn_remaining_le : (agent.turn now net).1.remaining ≤ agent.remaining := by
  rcases agent.turn_cases now net with hless | ⟨heq, _⟩
  · exact Nat.le_of_lt hless
  · exact Nat.le_of_eq heq

variable {agent now net}

lemma turn_rested (paced : agent.client.Paced)
    (hstuck : (agent.turn now net).1.remaining = agent.remaining) :
    (agent.turn now net).1.client.Rested now := by
  rcases agent.turn_cases now net with hless | ⟨_, hclient, _⟩
  · exact absurd hstuck (Nat.ne_of_lt hless)
  · have hbeats : (agent.turn now net).1.client.heartbeats =
        ((agent.client.turnOn net).runHeartbeats now).client.heartbeats := by
      obtain ⟨_, hmoved⟩ := (agent.looped now net).moved now agent.wait .resume
      rw [hclient]
      exact (hmoved.heartbeats (by simp) (by simp)).trans (Turn.heartbeats_runReceivers _ now)
    rw [Client.Rested, hbeats]
    exact Turn.runHeartbeats_rested paced

/-- If no heartbeat is due and the routine does not come further, a turn just reads, and it reads all
there is for the receive loops. -/
lemma turn_attentive (sound : net.Sound) (tidy : agent.client.Tidy net.links.length)
    (rested : agent.client.Rested now)
    (hstuck : (agent.turn now net).1.remaining = agent.remaining) :
    (agent.turn now net).2.1.Sound ∧
      agent.client.Keeps net (agent.turn now net).1.client (agent.turn now net).2.1 ∧
      (agent.turn now net).1.client.Attentive (agent.turn now net).2.1 := by
  rcases agent.turn_cases now net with hless | ⟨_, hclient, hnet⟩
  · exact absurd hstuck (Nat.ne_of_lt hless)
  · have hlooped : agent.looped now net = (agent.client.turnOn net).runReceivers now := by
      rw [looped, Turn.runLoops, Turn.runHeartbeats_of_rested rested]
    obtain ⟨hsound, htidy, hkeeps, hattentive⟩ :=
      @Turn.runReceivers_attentive _ (agent.client.turnOn net) now sound tidy
    rw [← hlooped] at hsound htidy hkeeps hattentive
    obtain ⟨_, hmoved⟩ := (agent.looped now net).moved now agent.wait .resume
    obtain ⟨hkeeps', hattentive'⟩ := hmoved.attentive_resume htidy hattentive
    rw [hclient, hnet]
    exact ⟨(hmoved.continues hsound htidy).sound, hkeeps.trans hkeeps', hattentive'⟩

end Agent

end ChatLoad
