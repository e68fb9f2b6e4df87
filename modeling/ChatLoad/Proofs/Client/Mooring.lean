import ChatLoad.Proofs.Client.Readers
import ChatLoad.Proofs.Client.Sessions

/-! Which connection a client is on: it reads and writes the one that it opened last, its loops the one
that was handed over at the last start. -/

namespace ChatLoad

def Incident.isInbound : Incident → Bool
  | heartbeatReceived | responded _ | serverError _ _ => true
  | _ => false

namespace Client

variable {σ : Type}

def opening (net : Net σ) (incidents : List Incident) : Option ConnId :=
  if .connected ∈ incidents then some net.links.length else none

def handing (client : Client) (incidents : List Incident) : Option ConnId :=
  if .started ∈ incidents then client.writer else none

structure Moored (opened handed : Option ConnId) (client : Client) : Prop where
  writer : ∀ conn, client.writer = some conn → opened = some conn
  reader : ∀ reader, client.reader = some reader → opened = some reader.conn
  heartbeats : ∀ loop ∈ client.heartbeats, handed = some loop.conn
  receivers : ∀ loop ∈ client.receivers, handed = some loop.reader.conn
  running : client.state = .running → handed = opened

/-- A client that runs is not about to log in. -/
def Settled (client : Client) (wait : Wait) : Prop :=
  client.state = .running → wait.isLoggingIn = false

section

variable {now : Duration} {client client' : Client} {net net' : Net σ} {wait wait' : Wait}
  {move : Move} {incidents : List Incident} {opened handed : Option ConnId}

lemma handleAll_inbound (client : Client) (now : Duration) (items : List Item) :
    ∀ incident ∈ (client.handleAll now items).2, incident.isInbound := by
  induction items generalizing client with
  | nil => exact fun _ hi => absurd hi List.not_mem_nil
  | cons item items ih =>
    cases item with
    | badHeader fault => exact ih client
    | frame frame =>
      rw [handleAll_frame]
      refine List.forall_mem_append.mpr ⟨?_, ih _⟩
      rw [handle]
      split_ifs
      · simp [Incident.isInbound]
      · split <;> simp [Incident.isInbound]
      · simp [Incident.isInbound]
      · simp

lemma notMem_handleAll {incident : Incident} (h : incident.isInbound = false) (client : Client)
    (now : Duration) (items : List Item) : incident ∉ (client.handleAll now items).2 := by
  intro hi
  simp [client.handleAll_inbound now items incident hi] at h

lemma notMem_handleAll_append {incident last : Incident} (h : incident.isInbound = false)
    (hlast : incident ≠ last) (client : Client) (now : Duration) (items : List Item) :
    incident ∉ (client.handleAll now items).2 ++ [last] := by
  intro hi
  rcases List.mem_append.mp hi with hi | hi
  · exact notMem_handleAll h client now items hi
  · exact hlast (List.mem_singleton.mp hi)

/-! ### Connections -/

lemma Moored.keep (moored : client.Moored opened handed) (hwriter : client'.writer = client.writer)
    (hreader : client'.reader = client.reader) (hbeats : client'.heartbeats = client.heartbeats)
    (hreceivers : client'.receivers = client.receivers) (hstate : client'.state = client.state) :
    client'.Moored opened handed := by
  obtain ⟨hw, hr, hb, hl, hs⟩ := moored
  exact ⟨hwriter ▸ hw, hreader ▸ hr, hbeats ▸ hb, hreceivers ▸ hl, hstate ▸ hs⟩

lemma Looked.moored {deadline : Duration}
    (h : Looked now deadline client net client' net' wait' incidents)
    (moored : client.Moored opened handed) : client'.Moored opened handed := by
  cases h with
  | noReader => exact moored
  | @answered reader _ _ _ hreader =>
    refine ⟨moored.writer, ?_, moored.heartbeats, moored.receivers, by simp⟩
    rintro _ ⟨⟩
    exact moored.reader reader hreader
  | @failed reader _ _ _ _ hreader | @waits reader _ _ hreader =>
    refine ⟨moored.writer, ?_, moored.heartbeats, moored.receivers, moored.running⟩
    rintro _ ⟨⟩
    exact moored.reader reader hreader

lemma Looked.notes {deadline : Duration}
    (h : Looked now deadline client net client' net' wait' incidents) :
    .connected ∉ incidents ∧ .started ∉ incidents := by
  cases h <;> simp

lemma Moored.startedOn (moored : client.Moored opened handed) (led : client.Led)
    {interval : Duration} {conn : ConnId} {reader : Reader} (hwriter : client.writer = some conn)
    (hreader : client.reader = some reader) :
    (client.startedOn now interval conn reader).Moored opened (some conn) := by
  obtain ⟨hbeats, hreceivers⟩ := led.endCurrentSession
  have hopened := moored.writer conn hwriter
  have hconn : reader.conn = conn := by
    rw [moored.reader reader hreader, Option.some.injEq] at hopened
    exact hopened
  refine ⟨?_, ?_, ?_, ?_, fun _ => hopened.symm⟩
  · rw [startedOn_writer]
    exact moored.writer
  · rintro _ ⟨⟩
  · simp [Client.startedOn, hbeats]
  · simp [Client.startedOn, hreceivers, hconn]

lemma mem_putHeartbeat {loop other : HeartbeatLoop} (h : other ∈ (client.putHeartbeat loop).heartbeats) :
    other = loop ∨ other ∈ client.heartbeats := by
  obtain ⟨old, hold, heq⟩ := List.mem_map.mp h
  split at heq
  · exact .inl heq.symm
  · exact .inr (heq ▸ hold)

lemma mem_putReceiver {loop other : ReceiveLoop} (h : other ∈ (client.putReceiver loop).receivers) :
    other = loop ∨ other ∈ client.receivers := by
  obtain ⟨old, hold, heq⟩ := List.mem_map.mp h
  split at heq
  · exact .inl heq.symm
  · exact .inr (heq ▸ hold)

lemma Moored.haltedBy (moored : client.Moored opened handed) (session : Nat) (pending : Pending) :
    ({ client with pending }.haltedBy session).Moored opened handed where
  writer := moored.writer
  reader := moored.reader
  heartbeats := moored.heartbeats
  receivers := fun loop hl => moored.receivers loop (List.mem_filter.mp hl).1
  running := by simp [Client.haltedBy]

lemma Moored.unchanged (hconnected : .connected ∉ incidents) (hstarted : .started ∉ incidents)
    (moored : client'.Moored opened handed) :
    client'.Moored ((opening net incidents).or opened) ((client.handing incidents).or handed) := by
  simpa [opening, handing, hconnected, hstarted] using moored

theorem Moved.moored (h : Moved now client net wait move client' net' wait' incidents)
    (led : client.Led) (moored : client.Moored opened handed) :
    client'.Moored ((opening net incidents).or opened) ((client.handing incidents).or handed) := by
  cases h with
  | still _ _ _ hskip =>
    exact .unchanged (fun hi => by simpa using hskip hi) (fun hi => by simpa using hskip hi) moored
  | refused | late | connecting | expired => exact .unchanged (by simp) (by simp) moored
  | unsendable | unsent | hasty =>
    exact .unchanged (by simp) (by simp) (moored.keep rfl rfl rfl rfl rfl)
  | @heartbeat _ _ result => cases result <;> exact .unchanged (by simp) (by simp) moored
  | @chat _ _ _ _ result =>
    cases result <;> exact .unchanged (by simp) (by simp) (moored.keep rfl rfl rfl rfl rfl)
  | @connected limit conn _ _ hopen =>
    have hconn : conn = net.links.length := by
      rw [← net.links_attempt, ← Net.openLink_fst net.attempt.2 now, hopen]
    simp only [opening, handing, List.mem_cons, reduceCtorEq, List.not_mem_nil, or_false, or_true,
      if_true, if_false, Option.some_or, Option.none_or]
    refine ⟨?_, ?_, moored.heartbeats, moored.receivers, by simp [connectedTo]⟩
    · rintro _ ⟨⟩
      rw [hconn]
    · rintro _ ⟨⟩
      rw [hconn]
  | sent _ _ _ _ hlook =>
    exact .unchanged hlook.notes.1 hlook.notes.2 (hlook.moored (moored.keep rfl rfl rfl rfl rfl))
  | resumed hlook => exact .unchanged hlook.notes.1 hlook.notes.2 (hlook.moored moored)
  | started _ hwriter hreader =>
    simpa [opening, handing, hwriter] using moored.startedOn led hwriter hreader
  | stopped =>
    have hrest := led.stopped
    refine .unchanged (by simp) (by simp) ?_
    constructor <;>
      simp [hrest.writer, hrest.reader, hrest.heartbeats, hrest.receivers, hrest.state]
  | @beat _ _ loop _ _ result _ hloop =>
    have hmoored : (client.putHeartbeat { loop with due := nextBeat now loop.interval }).Moored
        opened handed := by
      refine ⟨moored.writer, moored.reader, ?_, moored.receivers, moored.running⟩
      intro other hother
      rcases mem_putHeartbeat hother with rfl | hold
      · exact moored.heartbeats loop (List.mem_of_find?_eq_some hloop)
      · exact moored.heartbeats other hold
    cases result <;> exact .unchanged (by simp) (by simp) hmoored
  | @lastBeat _ session _ _ _ result =>
    have hmoored : (client.endHeartbeat session).Moored opened handed :=
      ⟨moored.writer, moored.reader, fun other ho => moored.heartbeats other (List.mem_filter.mp ho).1,
        moored.receivers, moored.running⟩
    cases result <;> exact .unchanged (by simp) (by simp) hmoored
  | @received _ _ loop items _ _ due hloop =>
    refine .unchanged (notMem_handleAll rfl _ _ _) (notMem_handleAll rfl _ _ _) ?_
    rw [handleAll_client]
    refine ⟨moored.writer, moored.reader, moored.heartbeats, ?_, moored.running⟩
    intro other hother
    rcases mem_putReceiver hother with rfl | hold
    · exact moored.receivers loop (List.mem_of_find?_eq_some hloop)
    · exact moored.receivers other hold
  | hungUp | broke =>
    refine .unchanged (notMem_handleAll_append rfl (by simp) _ _ _)
      (notMem_handleAll_append rfl (by simp) _ _ _) ?_
    rw [handleAll_client]
    exact moored.haltedBy _ _

/-! ### Changes of state -/

lemma Moved.settled (h : Moved now client net wait move client' net' wait' incidents)
    (settled : client.Settled wait) : client'.Settled wait' := by
  cases h with
  | still _ hwait =>
    rcases hwait with rfl | ⟨_, hw⟩
    · exact settled
    · exact fun _ => (Wait.not_inCall_iff.mp hw).2
  | sent hstate _ _ _ hlook =>
    intro hrunning
    cases hlook <;> simp [read, drawId, hstate] at hrunning
  | resumed hlook =>
    intro hrunning
    cases hlook with
    | waits => simpa [Wait.isLoggingIn] using settled hrunning
    | noReader | answered | failed => rfl
  | beat | lastBeat => exact settled
  | received =>
    rw [handleAll_client]
    exact settled
  | hungUp | broke => simp [Settled, haltedBy]
  | refused | late | connecting | connected | expired | unsendable | unsent | hasty | chat | heartbeat
  | started | stopped => exact fun _ => rfl

lemma receivers_haltedBy (led : client.Led) {session : Nat} {loop : ReceiveLoop}
    (hloop : client.receiver? session = some loop) (pending : Pending) :
    ({ client with pending }.haltedBy session).receivers = [] := by
  have hsession : loop.session = session := by simpa using List.find?_some hloop
  have hcurrent := led.receivers loop (List.mem_of_find?_eq_some hloop)
  refine List.filter_eq_nil_iff.mpr fun other ho => ?_
  have heq := led.receivers other ho
  rw [hcurrent, Option.some.injEq] at heq
  simp [← heq, hsession]

/-- Looking for the answer to an AUTH leaves the state as it is, unless a frame is there. -/
lemma Looked.restated {deadline : Duration}
    (h : Looked now deadline client net client' net' wait' incidents) :
    client'.state = client.state ∨ client'.state = .authenticated ∧
      ∃ reader frame, client.reader = some reader ∧
        client.polled net reader.conn = [.frame frame] := by
  cases h with
  | @answered reader frame _ _ hreader hpoll =>
    refine .inr ⟨rfl, reader, frame, hreader, ?_⟩
    simp only [polled, hreader, if_true, hpoll, Polled.items]
  | noReader | failed | waits => exact .inl rfl

/-- A client that listens runs, or it did so before and has connected anew since. -/
lemma Moved.astray (h : Moved now client net wait move client' net' wait' incidents)
    (led : client.Led) (settled : client.Settled wait)
    (alive : client.receivers ≠ [] → client.state ≠ .stopped) (hlistens : client'.receivers ≠ []) :
    client'.state = .running ∨ client.receivers ≠ [] ∧ client'.state ≠ .stopped ∧
      (client.state = .running → ∃ limit, move = .begin (.connect limit) ∧ .connected ∈ incidents) := by
  have hsame (hstate : client'.state = client.state) (hloops : client.receivers ≠ []) :
      client'.state = .running ∨ client.receivers ≠ [] ∧ client'.state ≠ .stopped ∧
        (client.state = .running →
          ∃ limit, move = .begin (.connect limit) ∧ .connected ∈ incidents) := by
    by_cases hrun : client.state = .running
    · exact .inl (hstate.trans hrun)
    · exact .inr ⟨hloops, hstate ▸ alive hloops, fun hs => absurd hs hrun⟩
  cases h with
  | still | refused | late | connecting | expired | unsendable | unsent | hasty | chat | heartbeat
  | beat | lastBeat => exact hsame rfl hlistens
  -- The loops of a session that runs go on, on the connection before.
  | @connected limit => exact .inr ⟨hlistens, by simp [connectedTo], fun _ => ⟨limit, rfl, by simp⟩⟩
  | sent hconnected _ _ _ hlook =>
    have hloops := hlook.receivers ▸ hlistens
    rcases hlook.restated with hstate | ⟨hauth, _⟩
    · exact hsame hstate hloops
    · exact .inr ⟨hloops, by simp [hauth], fun hs => by simp [hconnected] at hs⟩
  | @resumed deadline _ _ _ _ hlook =>
    have hloops := hlook.receivers ▸ hlistens
    rcases hlook.restated with hstate | ⟨hauth, _⟩
    · exact hsame hstate hloops
    · refine .inr ⟨hloops, by simp [hauth], fun hs => ?_⟩
      simpa [Wait.isLoggingIn] using settled hs
  | started => exact .inl rfl
  | stopped => exact absurd led.stopped.receivers hlistens
  | received hloop =>
    refine hsame ?_ (List.ne_nil_of_mem (List.mem_of_find?_eq_some hloop))
    rw [handleAll_client]
    rfl
  | hungUp hloop | broke hloop =>
    rw [handleAll_client] at hlistens
    exact absurd (receivers_haltedBy led hloop _) hlistens

lemma over_of_finds {session : Nat} {loop : ReceiveLoop} {items : List Item} {last : Polled}
    {buffer : Bytes} {incoming : List Delivery} (hloop : client.receiver? session = some loop)
    (hfinds : client.finds net session = (items, last, buffer, incoming))
    (hlast : last ≠ .pending) : net.Over loop.reader.conn := by
  simp only [finds, hloop] at hfinds
  have hdrains := Inbound.drains_drain loop.reader.buffer (net.incoming loop.reader.conn)
  have hended := hdrains.ended_iff
  have hfaults := hdrains.faults_eq
  have hcases := hdrains.last
  rw [hfinds] at hended hfaults hcases
  rcases hcases with ⟨hpending, _⟩ | ⟨_, later, hrest⟩ | ⟨text, htext⟩
  · exact absurd hpending hlast
  · refine .inl (hended.mp ?_)
    rw [hrest]
    exact List.mem_cons_self
  · refine .inr ?_
    rw [hfaults, htext]
    exact List.cons_ne_nil _ _

/-- In this move the client takes a frame from its reader for the answer to an AUTH. -/
def TakesAnswer (client : Client) (net : Net σ) (now : Duration) (wait : Wait) (move : Move) : Prop :=
  ∃ reader frame, client.reader = some reader ∧
    client.answered net now wait move reader.conn = [.frame frame]

/-- What changes the state of a client: an operation of its own, of which only stopping makes for
`stopped`, the answer to an AUTH, or that a receive loop comes to the end of its connection. -/
theorem Moved.restated (h : Moved now client net wait move client' net' wait' incidents)
    (hstate : client'.state ≠ client.state) :
    (∃ act, move = .begin act ∧ (client'.state = .stopped → act = .stop) ∧
      (client'.state = .authenticated →
        act = .authenticate ∧ client.TakesAnswer net now wait move)) ∨
    (move = .resume ∧ client'.state = .authenticated ∧ client.TakesAnswer net now wait move) ∨
    ∃ session loop, move = .receive session ∧ client.receiver? session = some loop ∧
      client'.state = .stopped ∧ net.Over loop.reader.conn := by
  cases h with
  | still | refused | late | connecting | expired | unsendable | unsent | hasty | chat | heartbeat
  | beat | lastBeat => exact absurd rfl hstate
  | connected | started =>
    exact .inl ⟨_, rfl, by simp [connectedTo, Client.startedOn], by simp [connectedTo, Client.startedOn]⟩
  | stopped => exact .inl ⟨.stop, rfl, fun _ => rfl, by simp [Client.stopped]⟩
  | sent _ hw hr hpatient hlook =>
    rcases hlook.restated with hsame | ⟨hauth, reader, frame, hreader, htaken⟩
    · exact absurd hsame hstate
    · refine .inl ⟨_, rfl, by simp [hauth], fun _ => ⟨rfl, reader, frame, hreader, ?_⟩⟩
      rw [answered_authenticate hw hr, hpatient]
      exact htaken
  | resumed hlook =>
    rcases hlook.restated with hsame | ⟨hauth, taken⟩
    · exact absurd hsame hstate
    · exact .inr (.inl ⟨rfl, hauth, taken⟩)
  | received =>
    rw [handleAll_client] at hstate
    exact absurd rfl hstate
  | hungUp hloop hfinds | broke hloop hfinds =>
    exact .inr (.inr ⟨_, _, rfl, hloop, rfl, over_of_finds hloop hfinds (by simp)⟩)

end

end Client

end ChatLoad
