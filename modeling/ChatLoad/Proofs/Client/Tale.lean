import ChatLoad.Proofs.Client.Play
import ChatLoad.Proofs.Client.Standing
import ChatLoad.Proofs.World.Balance

/-! Tales: what may come of a routine, told by what there is to note until it is over. -/

namespace ChatLoad

/-- What the loops of a client note; heartbeats may also be sent on request. -/
def Incident.ofLoop : Incident → Bool
  | heartbeatSent | heartbeatFailed _ | heartbeatReceived | responded _ | serverError _ _
  | closedByServer | receiveFailed _ => true
  | _ => false

/-- What is left of a routine after an act. -/
def Progress.left : Progress → List Act → List Act
  | done false, _ => []
  | _, acts => acts

namespace Act

def isPause : Act → Bool
  | pause _ | pauseUntil _ => true
  | _ => false

def isChat : Act → Bool
  | single _ _ | group _ _ => true
  | _ => false

/-- What may come of an act that is begun in this state: what there is to note, and how it goes on. -/
inductive Comes (state : ClientState) : Act → List Incident → Progress → Prop
  | connected {limit : Duration} :
      Comes state (.connect limit) [.connecting, .connected] (.done true)
  | unconnected {limit : Duration} {cause : ClientError} :
      Comes state (.connect limit) [.connecting, .connectFailed cause] (.done false)
  | dialing {limit deadline : Duration} :
      Comes state (.connect limit) [.connecting] (.waits (.connection deadline limit))
  | authSkipped : state ≠ .connected → Comes state .authenticate [.authSkipped] (.done false)
  | authenticated : state = .connected → Comes state .authenticate [.authenticated] (.done true)
  | unauthenticated {cause : ClientError} :
      state = .connected → Comes state .authenticate [.authFailed cause] (.done false)
  | loggingIn {deadline : Duration} :
      state = .connected → Comes state .authenticate [] (.waits (.auth deadline))
  | started {interval : Duration} :
      state = .authenticated → Comes state (.start interval) [.started] (.done true)
  | startSkipped {interval : Duration} :
      state ≠ .authenticated → Comes state (.start interval) [.startSkipped] (.done true)
  | sent {act : Act} {request : UInt64} :
      act.isChat → state = .authenticated ∨ state = .running →
      Comes state act [.chatSent request] (.done true)
  | unsent {act : Act} {request : UInt64} {cause : IoError} :
      act.isChat → state = .authenticated ∨ state = .running →
      Comes state act [.chatFailed request cause] (.done true)
  | refused {act : Act} :
      act.isChat → ¬ (state = .authenticated ∨ state = .running) →
      Comes state act [.chatRefused] (.done true)
  | heartbeat {incident : Incident} :
      incident.ofLoop ∨ incident = .heartbeatSkipped →
      Comes state .heartbeat [incident] (.done true)
  | stopped : Comes state .stop [.stopped] (.done true)
  | paused {act : Act} : act.isPause → Comes state act [] (.done true)
  | pausing {act : Act} {moment : Duration} :
      act.isPause → Comes state act [] (.waits (.clock moment))

end Act

/-- How a wait may end: what there is to note, and whether the routine goes on. -/
inductive Wait.Ends : Wait → List Incident → Bool → Prop
  | reached {moment : Duration} : Ends (.clock moment) [] true
  | unconnected {deadline limit : Duration} {cause : ClientError} :
      Ends (.connection deadline limit) [.connectFailed cause] false
  | authenticated {deadline : Duration} : Ends (.auth deadline) [.authenticated] true
  | unauthenticated {deadline : Duration} {cause : ClientError} :
      Ends (.auth deadline) [.authFailed cause] false

/-- What there may be to note of a client, from a moment in its routine to a moment at which the routine
is over. Its loops may chime in at any time. -/
inductive Tale : Standing → Wait → List Act → List Incident → Prop
  | done {standing : Standing} : Tale standing .nothing [] []
  | looped {standing : Standing} {wait : Wait} {acts : List Act} {incident : Incident}
      {story : List Incident} :
      standing.looping → incident.ofLoop → Tale (standing.after incident) wait acts story →
      Tale standing wait acts (incident :: story)
  | begins {standing : Standing} {act : Act} {acts : List Act} {incidents : List Incident}
      {progress : Progress} {story : List Incident} :
      act.Comes standing.state incidents progress →
      Tale (standing.afterAll incidents) progress.wait (progress.left acts) story →
      Tale standing .nothing (act :: acts) (incidents ++ story)
  | ends {standing : Standing} {wait : Wait} {acts : List Act} {incidents : List Incident}
      {succeeded : Bool} {story : List Incident} :
      wait.Ends incidents succeeded →
      Tale (standing.afterAll incidents) .nothing ((Progress.done succeeded).left acts) story →
      Tale standing wait acts (incidents ++ story)

/-! ### Moves -/

namespace Client

variable {σ : Type} {client : Client} {standing : Standing}

lemma connect_comes (net : Net σ) (now limit : Duration) (state : ClientState) :
    Act.Comes state (.connect limit) ((client.turnOn net).begin now (.connect limit)).1.incidents
      ((client.turnOn net).begin now (.connect limit)).2 := by
  rw [Turn.begin, Turn.connect]
  cases hr : net.attempt.1 with
  | unreachable =>
    simp only [turnOn, hr]
    exact .unconnected
  | accepts =>
    simp only [turnOn, hr]
    by_cases hl : limit = 0
    · simp only [hl, if_true]
      exact .unconnected
    · simp only [hl, if_false]
      exact .connected
  | refuses =>
    simp only [turnOn, hr]
    exact .unconnected
  | silent =>
    simp only [turnOn, hr]
    by_cases hl : limit = 0
    · simp only [hl, if_true]
      exact .unconnected
    · simp only [hl, if_false]
      exact .dialing

lemma incidents_emit {turn : Turn σ} (h : turn.incidents = []) (incident : Incident) :
    (turn.emit incident).incidents = [incident] := by
  rw [Turn.emit, h, List.nil_append]

lemma pollAuth_comes (turn : Turn σ) (now deadline : Duration) (h : turn.incidents = []) :
    ((turn.pollAuth now deadline).1.incidents = [.authenticated] ∧
      (turn.pollAuth now deadline).2 = some true) ∨
    (∃ cause, (turn.pollAuth now deadline).1.incidents = [.authFailed cause] ∧
      (turn.pollAuth now deadline).2 = some false) ∨
    ((turn.pollAuth now deadline).1.incidents = [] ∧ (turn.pollAuth now deadline).2 = none) := by
  rw [Turn.pollAuth]
  split
  · exact .inr (.inl ⟨_, incidents_emit h _, rfl⟩)
  · split
    split
    · exact .inl ⟨incidents_emit h _, rfl⟩
    · exact .inr (.inl ⟨_, incidents_emit h _, rfl⟩)
    · exact .inr (.inl ⟨_, incidents_emit h _, rfl⟩)
    · exact .inr (.inl ⟨_, incidents_emit h _, rfl⟩)
    · split
      · exact .inr (.inl ⟨_, incidents_emit h _, rfl⟩)
      · exact .inr (.inr ⟨h, rfl⟩)

lemma authenticate_comes (net : Net σ) (now : Duration) (hstate : client.state = standing.state) :
    Act.Comes standing.state .authenticate ((client.turnOn net).authenticate now).1.incidents
      (Progress.ofAnswer (.auth (now + client.settings.authTimeout))
        ((client.turnOn net).authenticate now).2) := by
  rw [Turn.authenticate]
  by_cases hs : client.state = .connected
  · rw [if_neg (by simp [turnOn, hs])]
    rw [hstate] at hs
    cases hw : client.writer with
    | none =>
      rw [sendAuth_of_none hw]
      exact .unauthenticated hs
    | some conn =>
      cases hres : net.write now conn client.authFrame with
      | mk result net' =>
        rw [sendAuth_of_some hw hres]
        cases result with
        | error cause => exact .unauthenticated hs
        | ok _ =>
          simp only [Except.mapError]
          by_cases hasty : (client.turnOn net).client.hasty (client.turnOn net).net
          · rw [if_pos hasty]
            exact .unauthenticated hs
          · rw [if_neg hasty]
            rcases pollAuth_comes (client.drawId.2.turnOn net') now
              (now + (client.drawId.2.turnOn net').client.settings.authTimeout) rfl with
              ⟨hinc, hanswer⟩ | ⟨cause, hinc, hanswer⟩ | ⟨hinc, hanswer⟩
            · rw [hinc, hanswer]
              exact .authenticated hs
            · rw [hinc, hanswer]
              exact .unauthenticated hs
            · rw [hinc, hanswer]
              exact .loggingIn hs
  · have hs' : (client.turnOn net).client.state ≠ .connected := hs
    rw [if_pos hs']
    rw [hstate] at hs
    exact .authSkipped hs

lemma start_comes (stands : client.Stands .nothing standing) (net : Net σ)
    (now interval : Duration) :
    Act.Comes standing.state (.start interval)
      ((client.turnOn net).begin now (.start interval)).1.incidents
      ((client.turnOn net).begin now (.start interval)).2 := by
  rw [Turn.begin, Turn.start]
  by_cases hs : client.state = .authenticated
  · obtain ⟨reader, hreader⟩ := Option.isSome_iff_exists.mp (stands.readable hs)
    obtain ⟨conn, hwriter⟩ := Option.isSome_iff_exists.mp
      (stands.wired (.inr (by simp [isAuthenticated, hs])))
    simp only [turnOn, hs, hwriter, hreader]
    rw [stands.state] at hs
    exact .started hs
  · split
    · next hauth _ _ => exact absurd hauth hs
    · rw [stands.state] at hs
      exact .startSkipped hs

lemma sendChat_comes (stands : client.Stands .nothing standing) (net : Net σ) (now : Duration)
    (act : Act) (message : Int64 → Chat) (hm : client.message? act = some message) :
    Act.Comes standing.state act ((client.turnOn net).sendChat now message).incidents
      (.done true) := by
  have hstate := stands.state
  have hchat : act.isChat := by cases act <;> first | rfl | cases hm
  rw [Turn.sendChat]
  cases ha : client.isAuthenticated with
  | false =>
    simp only [turnOn, ha, Turn.emit]
    refine .refused hchat ?_
    simpa [isAuthenticated, hstate] using ha
  | true =>
    obtain ⟨conn, hwriter⟩ := Option.isSome_iff_exists.mp (stands.wired (.inr ha))
    have hauth : standing.state = .authenticated ∨ standing.state = .running := by
      simpa [isAuthenticated, hstate] using ha
    simp only [turnOn, ha, hwriter]
    split
    · exact .sent hchat hauth
    · exact .unsent hchat hauth

lemma waitUntil_comes (net : Net σ) (now moment : Duration) (state : ClientState) {act : Act}
    (hpause : act.isPause) :
    Act.Comes state act ((client.turnOn net).waitUntil now moment).1.incidents
      ((client.turnOn net).waitUntil now moment).2 := by
  rw [Turn.waitUntil]
  split
  · exact .paused hpause
  · exact .pausing hpause

theorem begin_comes (stands : client.Stands .nothing standing) (net : Net σ) (now : Duration)
    (act : Act) :
    act.Comes standing.state ((client.turnOn net).begin now act).1.incidents
      ((client.turnOn net).begin now act).2 := by
  cases act with
  | connect limit => exact connect_comes net now limit _
  | authenticate => exact authenticate_comes net now stands.state
  | start interval => exact start_comes stands net now interval
  | single target content =>
    have hcomes := sendChat_comes stands net now (.single target content) _ rfl
    exact hcomes
  | group session content =>
    have hcomes := sendChat_comes stands net now (.group session content) _ rfl
    exact hcomes
  | heartbeat =>
    rw [Turn.begin, Turn.heartbeat]
    split
    · rw [Turn.beat]
      split <;> exact .heartbeat (.inl rfl)
    · exact .heartbeat (.inr rfl)
  | stop => exact .stopped
  | pause span => exact waitUntil_comes net now _ _ rfl
  | pauseUntil moment => exact waitUntil_comes net now _ _ rfl

lemma resume_ends (client : Client) (net : Net σ) (now : Duration) {wait : Wait}
    (hwait : wait ≠ .nothing) :
    (((client.turnOn net).resume now wait).2 = .waits wait ∧
      ((client.turnOn net).resume now wait).1.incidents = []) ∨
    ∃ succeeded, ((client.turnOn net).resume now wait).2 = .done succeeded ∧
      wait.Ends ((client.turnOn net).resume now wait).1.incidents succeeded := by
  cases wait with
  | nothing => exact absurd rfl hwait
  | clock moment =>
    rw [Turn.resume, Turn.waitUntil]
    by_cases hover : moment ≤ now
    · exact .inr ⟨true, if_pos hover, .reached⟩
    · exact .inl ⟨if_neg hover, rfl⟩
  | connection deadline limit =>
    rw [Turn.resume]
    by_cases hover : deadline ≤ now
    · rw [if_pos hover]
      exact .inr ⟨false, rfl, .unconnected⟩
    · rw [if_neg hover]
      exact .inl ⟨rfl, rfl⟩
  | auth deadline =>
    rw [Turn.resume]
    rcases pollAuth_comes (client.turnOn net) now deadline rfl with
      ⟨hinc, hanswer⟩ | ⟨cause, hinc, hanswer⟩ | ⟨hinc, hanswer⟩
    · simp only [hinc, hanswer]
      exact .inr ⟨true, rfl, .authenticated⟩
    · simp only [hinc, hanswer]
      exact .inr ⟨false, rfl, .unauthenticated⟩
    · simp only [hinc, hanswer]
      exact .inl ⟨rfl, trivial⟩

lemma noted_beat (client : Client) (net : Net σ) (now : Duration) (wait : Wait) (session : Nat) :
    ∀ incident ∈ client.noted net now wait (.beat session), incident.ofLoop := by
  rw [noted, Turn.move, Turn.runHeartbeat]
  split
  · exact fun _ hi => absurd hi List.not_mem_nil
  · split
    · exact fun _ hi => absurd hi List.not_mem_nil
    · have hbeat (conn : ConnId) :
          ∀ incident ∈ ((client.turnOn net).beat now conn).incidents, incident.ofLoop := by
        rw [Turn.beat]
        split <;> simp [turnOn, Turn.emit, Incident.ofLoop]
      dsimp only
      split
      · exact hbeat _
      · exact hbeat _

lemma ofLoop_of_inbound {incident : Incident} (h : incident.isInbound) : incident.ofLoop := by
  cases incident <;> first | rfl | cases h

lemma noted_receive (client : Client) (net : Net σ) (now : Duration) (wait : Wait)
    (session : Nat) :
    ∀ incident ∈ client.noted net now wait (.receive session), incident.ofLoop := by
  rw [noted, Turn.move, Turn.runReceiver]
  split
  · exact fun _ hi => absurd hi List.not_mem_nil
  · split
    have hhandled (items : List Item) :
        ∀ incident ∈ (client.turnOn net).incidents ++ (client.handleAll now items).2,
          incident.ofLoop :=
      fun incident hi => ofLoop_of_inbound (handleAll_inbound _ _ _ incident hi)
    dsimp only
    split
    · refine List.forall_mem_append.mpr ⟨hhandled _, ?_⟩
      simp [Incident.ofLoop]
    · refine List.forall_mem_append.mpr ⟨hhandled _, ?_⟩
      simp [Incident.ofLoop]
    · exact hhandled _

end Client

end ChatLoad
