import ChatLoad.Proofs.Client.Tale

/-! What a client holds in each of its states, and which failures that rules out. -/

namespace ChatLoad

lemma Incident.not_ofLoop {incident : Incident} (h : incident.ofLoop) :
    incident ≠ .chatRefused ∧ incident ≠ .startSkipped ∧ ∀ cause, incident ≠ .authFailed cause := by
  refine ⟨?_, ?_, fun cause => ?_⟩ <;> rintro rfl <;> cases h

lemma Act.Comes.skips {state : ClientState} {act : Act} {incidents : List Incident} {progress : Progress}
    (h : act.Comes state incidents progress) :
    (.chatRefused ∈ incidents → ¬ (state = .authenticated ∨ state = .running)) ∧
    (.startSkipped ∈ incidents → state ≠ .authenticated) ∧
    ∀ cause, .authFailed cause ∈ incidents → act = .authenticate := by
  cases h with
  | startSkipped hstate => simpa using hstate
  | refused _ hstate => simpa using hstate
  | @heartbeat incident hloop =>
    rcases hloop with hloop | rfl
    · obtain ⟨hchat, hstart, hauth⟩ := Incident.not_ofLoop hloop
      simp [hchat.symm, hstart.symm, fun cause => (hauth cause).symm]
    · simp
  | _ => simp

namespace Client

variable {σ : Type}

def Handed (client : Client) : Prop :=
  client.state = .running → client.reader = none ∧ client.receivers ≠ []

/-- What a client holds: both halves of one connection from connecting until it starts, and then the writing
half, with the reading half in the hands of the loop of its session. -/
structure Equipped (client : Client) : Prop where
  connected : client.state = .connected ∨ client.state = .authenticated →
    ∃ reader, client.reader = some reader ∧ client.writer = some reader.conn
  running : client.state = .running → client.reader = none ∧ ∃ loop ∈ client.receivers,
    client.writer = some loop.reader.conn ∧ client.session = some loop.session

section

variable {now : Duration} {client client' : Client} {net net' : Net σ} {wait wait' : Wait}
  {move : Move} {incidents : List Incident} {standing : Standing} {newest started : Option ConnId}

lemma Looked.handed {deadline : Duration}
    (h : Looked now deadline client net client' net' wait' incidents)
    (hstate : client.state ≠ .running) : client'.Handed := by
  intro hrunning
  cases h with
  | answered => cases hrunning
  | noReader | failed | waits => exact absurd hrunning hstate

lemma Moved.handed (h : Moved now client net wait move client' net' wait' incidents)
    (settled : client.Settled wait) (handed : client.Handed) : client'.Handed := by
  cases h with
  | still | refused | late | connecting | expired | heartbeat => exact handed
  | unsendable | unsent | hasty | chat | beat | lastBeat => exact handed
  | connected | stopped | hungUp | broke => exact fun hrunning => by cases hrunning
  -- a client that waits for the answer to its AUTH does not run
  | sent hstate _ _ _ hlook => exact hlook.handed (by simp [drawId, hstate])
  | resumed hlook =>
    exact hlook.handed fun hrunning => by simpa [Wait.isLoggingIn] using settled hrunning
  | started => exact fun _ => ⟨rfl, by simp [Client.startedOn]⟩
  | received =>
    rw [handleAll_client]
    exact fun hrunning => ⟨(handed hrunning).1, by simpa [putReceiver] using (handed hrunning).2⟩

lemma Stands.equipped (stands : client.Stands wait standing) (moored : client.Moored newest started)
    (hhanded : client.Handed) : client.Equipped := by
  refine ⟨fun hstate => ?_, fun hrunning => ?_⟩
  · have hreader : client.reader.isSome := by
      rcases hstate with hstate | hstate
      · exact stands.ready (by simp [mayLogIn, hstate])
      · exact stands.readable hstate
    have hwriter : client.writer.isSome := by
      rcases hstate with hstate | hstate
      · exact stands.wired (.inl (by simp [mayLogIn, hstate]))
      · exact stands.wired (.inr (by simp [isAuthenticated, hstate]))
    obtain ⟨reader, hreader⟩ := Option.isSome_iff_exists.mp hreader
    obtain ⟨conn, hwriter⟩ := Option.isSome_iff_exists.mp hwriter
    have hconn := moored.writer conn hwriter
    rw [moored.reader reader hreader] at hconn
    exact ⟨reader, hreader, hwriter.trans hconn.symm⟩
  · obtain ⟨hreader, hloops⟩ := hhanded hrunning
    obtain ⟨loop, hloop⟩ := List.exists_mem_of_ne_nil _ hloops
    obtain ⟨conn, hwriter⟩ := Option.isSome_iff_exists.mp
      (stands.wired (.inr (by simp [isAuthenticated, hrunning])))
    have hconn := moored.writer conn hwriter
    rw [← moored.running hrunning, moored.receivers loop hloop] at hconn
    exact ⟨hreader, loop, hloop, hwriter.trans hconn.symm, stands.led.receivers loop hloop⟩

end

/-! ### Failures that do not occur -/

lemma pollAuth_connected (turn : Turn σ) (now deadline : Duration) (hnone : turn.incidents = [])
    (hreader : turn.client.reader.isSome) :
    .authFailed .notConnected ∉ (turn.pollAuth now deadline).1.incidents := by
  obtain ⟨reader, hreader⟩ := Option.isSome_iff_exists.mp hreader
  rw [Turn.pollAuth, hreader]
  dsimp only
  split
  · simp [incidents_emit, hnone]
  · simp [Turn.authFailed, incidents_emit, hnone]
  · simp [Turn.authFailed, incidents_emit, hnone]
  · simp [Turn.authFailed, incidents_emit, hnone]
  · split
    · simp [Turn.authFailed, incidents_emit, hnone]
    · simp [hnone]

variable {client : Client} {wait : Wait} {standing : Standing}

lemma authenticate_connected (stands : client.Stands .nothing standing) (net : Net σ) (now : Duration) :
    .authFailed .notConnected ∉ ((client.turnOn net).authenticate now).1.incidents := by
  rw [Turn.authenticate]
  by_cases hs : client.state = .connected
  · rw [if_neg (by simp [turnOn, hs])]
    obtain ⟨conn, hwriter⟩ := Option.isSome_iff_exists.mp
      (stands.wired (.inl (by simp [mayLogIn, hs])))
    cases hres : net.write now conn client.authFrame with
    | mk result net' =>
      rw [sendAuth_of_some hwriter hres]
      cases result with
      | error cause => simp [Except.mapError, Turn.authFailed, Turn.emit, turnOn]
      | ok _ =>
        simp only [Except.mapError]
        split
        · simp [Turn.authFailed, Turn.emit, turnOn]
        · exact pollAuth_connected _ now _ rfl (stands.ready (by simp [mayLogIn, hs]))
  · have hs' : (client.turnOn net).client.state ≠ .connected := hs
    rw [if_pos hs']
    simp [turnOn, Turn.emit]

lemma resume_connected (stands : client.Stands wait standing) (net : Net σ) (now : Duration) :
    .authFailed .notConnected ∉ ((client.turnOn net).resume now wait).1.incidents := by
  cases wait with
  | nothing => exact List.not_mem_nil
  | clock moment => exact List.not_mem_nil
  | connection deadline limit =>
    rw [Turn.resume]
    split <;> simp [Turn.connectFailed, Turn.emit, turnOn]
  | auth deadline =>
    exact pollAuth_connected _ now deadline rfl (stands.ready (by simp [mayLogIn, Wait.isLoggingIn]))

lemma resume_skips (client : Client) (net : Net σ) (now : Duration) (wait : Wait) :
    .chatRefused ∉ ((client.turnOn net).resume now wait).1.incidents ∧
      .startSkipped ∉ ((client.turnOn net).resume now wait).1.incidents := by
  by_cases hwait : wait = .nothing
  · subst hwait
    exact ⟨List.not_mem_nil, List.not_mem_nil⟩
  · rcases resume_ends client net now hwait with ⟨-, hnone⟩ | ⟨succeeded, -, hends⟩
    · simp [hnone]
    · generalize ((client.turnOn net).resume now wait).1.incidents = incidents at hends
      cases hends <;> simp

theorem Stands.noted (stands : client.Stands wait standing) (net : Net σ) (now : Duration) (move : Move) :
    .authFailed .notConnected ∉ client.noted net now wait move ∧
    (.chatRefused ∈ client.noted net now wait move → client.isAuthenticated = false) ∧
    (.startSkipped ∈ client.noted net now wait move → client.state ≠ .authenticated) := by
  have hloops (h : ∀ incident ∈ client.noted net now wait move, incident.ofLoop) :
      .authFailed .notConnected ∉ client.noted net now wait move ∧
      .chatRefused ∉ client.noted net now wait move ∧ .startSkipped ∉ client.noted net now wait move :=
    ⟨fun hi => (Incident.not_ofLoop (h _ hi)).2.2 _ rfl, fun hi => (Incident.not_ofLoop (h _ hi)).1 rfl,
      fun hi => (Incident.not_ofLoop (h _ hi)).2.1 rfl⟩
  cases move with
  | beat session => exact (hloops (noted_beat client net now wait session)).imp_right fun h => by simp [h]
  | receive session =>
    exact (hloops (noted_receive client net now wait session)).imp_right fun h => by simp [h]
  | resume =>
    obtain ⟨hchat, hstart⟩ := resume_skips client net now wait
    exact ⟨resume_connected stands net now, fun hi => absurd hi hchat, fun hi => absurd hi hstart⟩
  | «begin» act =>
    by_cases hwait : wait = .nothing
    · subst hwait
      obtain ⟨hchat, hstart, hauth⟩ := (begin_comes stands net now act).skips
      refine ⟨fun hi => ?_, fun hi => ?_, fun hi => ?_⟩
      · obtain rfl := hauth _ hi
        exact authenticate_connected stands net now hi
      · simpa [isAuthenticated, stands.state] using hchat hi
      · rw [stands.state]
        exact hstart hi
    · simp [Client.noted, Turn.move, hwait, turnOn]

end Client

end ChatLoad
