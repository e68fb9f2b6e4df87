import ChatLoad.Proofs.Client.Telling

/-! The tale of logging in: a client without loops connects, authenticates and is started. -/

namespace ChatLoad

/-- The three ways in which logging in may go, and whether it succeeds. -/
inductive Login : List Incident → Bool → Prop
  | unconnected {cause : ClientError} : Login [.connecting, .connectFailed cause] false
  | unauthenticated {cause : ClientError} :
      Login [.connecting, .connected, .authFailed cause] false
  | authenticated : Login [.connecting, .connected, .authenticated] true

/-- A client is started if it may be, and from then on its loops may have something to note. -/
def Starting (started : Bool) (story : List Incident) : Prop :=
  if started then ∃ loops : List Incident, story = .started :: loops ∧ ∀ incident ∈ loops, incident.ofLoop
  else story = []

namespace Login

variable {story : List Incident} {ok : Bool} {standing : Standing}

lemma looping (h : Login story ok) : (standing.afterAll story).looping = standing.looping := by
  cases h <;> rfl

lemma state (h : Login story ok)
    (hout : standing.state ≠ .authenticated ∧ standing.state ≠ .running) :
    ((standing.afterAll story).state = .authenticated ↔ ok) ∧
      (standing.afterAll story).state ≠ .running := by
  cases h with
  | unconnected => exact ⟨⟨fun h => absurd h hout.1, fun h => by cases h⟩, hout.2⟩
  | unauthenticated => exact ⟨⟨fun h => (by cases h), fun h => by cases h⟩, fun h => by cases h⟩
  | authenticated => exact ⟨⟨fun _ => rfl, fun _ => rfl⟩, fun h => by cases h⟩

lemma counted (h : Login story ok) :
    Incident.tally story .connectionsAttempted = 1 ∧
    Incident.tally story .connectionsSucceeded + Incident.tally story .connectionsFailed = 1 ∧
    Incident.tally story .authSucceeded + Incident.tally story .authFailed =
      Incident.tally story .connectionsSucceeded ∧
    Incident.tally story .messagesSent = 0 := by
  cases h <;> exact ⟨rfl, rfl, rfl, rfl⟩

end Login

/-- The counters that loops have no part in. -/
def Counter.isOfRoutine : Counter → Bool
  | .connectionsAttempted | .connectionsSucceeded | .connectionsFailed | .authSucceeded
  | .authFailed | .messagesSent => true
  | _ => false

lemma Incident.tally_eq_zero {incidents : List Incident} {c : Counter}
    (h : ∀ incident ∈ incidents, c ∉ incident.counters) : Incident.tally incidents c = 0 := by
  rw [tally, List.count_eq_zero]
  intro hmem
  obtain ⟨incident, hi, hc⟩ := List.mem_flatMap.mp hmem
  exact h incident hi hc

lemma Incident.counters_ofLoop {incident : Incident} (h : incident.ofLoop) {c : Counter}
    (hc : c.isOfRoutine) : c ∉ incident.counters := by
  intro hmem
  cases incident with
  | heartbeatSent | heartbeatFailed | heartbeatReceived | responded | serverError | receiveFailed =>
    obtain rfl := List.mem_singleton.mp hmem
    simp [Counter.isOfRoutine] at hc
  | closedByServer => cases hmem
  | _ => cases h

lemma Incident.tally_ofLoop {incidents : List Incident} (h : ∀ incident ∈ incidents, incident.ofLoop)
    {c : Counter} (hc : c.isOfRoutine) : Incident.tally incidents c = 0 :=
  tally_eq_zero fun incident hi => counters_ofLoop (h incident hi) hc

lemma Starting.counted {started : Bool} {story : List Incident} (h : Starting started story)
    {c : Counter} (hc : c.isOfRoutine) : Incident.tally story c = 0 := by
  rw [Starting] at h
  split at h
  · obtain ⟨loops, rfl, hloops⟩ := h
    rw [Incident.tally_cons, Incident.tally_ofLoop hloops hc]
    rfl
  · rw [h]
    rfl

/-- A client logs in, and it is started just if that succeeds. -/
def Admission (story : List Incident) : Prop :=
  ∃ before after ok, story = before ++ after ∧ Login before ok ∧ Starting ok after

lemma Admission.counted {story : List Incident} (h : Admission story) :
    Incident.tally story .connectionsAttempted = 1 ∧
    Incident.tally story .connectionsSucceeded + Incident.tally story .connectionsFailed = 1 ∧
    Incident.tally story .authSucceeded + Incident.tally story .authFailed =
      Incident.tally story .connectionsSucceeded ∧
    Incident.tally story .messagesSent = 0 := by
  obtain ⟨before, after, ok, rfl, hlogin, hstart⟩ := h
  simp only [Incident.tally_append, @Starting.counted _ _ hstart .connectionsAttempted rfl,
    @Starting.counted _ _ hstart .connectionsSucceeded rfl,
    @Starting.counted _ _ hstart .connectionsFailed rfl,
    @Starting.counted _ _ hstart .authSucceeded rfl, @Starting.counted _ _ hstart .authFailed rfl,
    @Starting.counted _ _ hstart .messagesSent rfl, Nat.add_zero]
  exact hlogin.counted

namespace Tale

variable {standing : Standing} {state : ClientState} {acts : List Act} {story : List Incident}

lemma of_over (h : Tale standing .nothing [] story) : ∀ incident ∈ story, incident.ofLoop := by
  generalize hwait : Wait.nothing = wait at h
  generalize hacts : ([] : List Act) = acts at h
  induction h with
  | done => exact fun _ hi => absurd hi List.not_mem_nil
  | looped _ hloop _ ih => exact List.forall_mem_cons.mpr ⟨hloop, ih hwait hacts⟩
  | begins => cases hacts
  | ends hends =>
    subst hwait
    cases hends

lemma of_alone (h : Tale standing .nothing [] story) (hlooping : standing.looping = false) :
    story = [] := by
  cases h with
  | done => rfl
  | looped hloops =>
    rw [hlooping] at hloops
    cases hloops
  | ends hends => cases hends

lemma of_connect {limit : Duration} (h : Tale ⟨state, false⟩ .nothing (.connect limit :: acts) story) :
    (∃ cause, story = [.connecting, .connectFailed cause]) ∨
      ∃ later, story = .connecting :: .connected :: later ∧
        Tale ⟨.connected, false⟩ .nothing acts later := by
  cases h with
  | looped hloops => cases hloops
  | ends hends => cases hends
  | begins hcomes htale =>
    cases hcomes with
    | connected => exact .inr ⟨_, rfl, htale⟩
    | @unconnected _ cause =>
      left
      rw [htale.of_alone rfl]
      exact ⟨cause, rfl⟩
    | dialing =>
      left
      cases htale with
      | looped hloops => cases hloops
      | ends hends htale =>
        cases hends with
        | unconnected =>
          rw [of_alone htale rfl]
          exact ⟨_, rfl⟩
    | sent hchat | unsent hchat | refused hchat => cases hchat
    | paused hpause | pausing hpause => cases hpause

lemma of_authenticate (h : Tale ⟨.connected, false⟩ .nothing (.authenticate :: acts) story) :
    (∃ cause, story = [.authFailed cause]) ∨
      ∃ later, story = .authenticated :: later ∧
        Tale ⟨.authenticated, false⟩ .nothing acts later := by
  cases h with
  | looped hloops => cases hloops
  | ends hends => cases hends
  | begins hcomes htale =>
    cases hcomes with
    | authenticated => exact .inr ⟨_, rfl, htale⟩
    | unauthenticated =>
      left
      rw [htale.of_alone rfl]
      exact ⟨_, rfl⟩
    | loggingIn =>
      cases htale with
      | looped hloops => cases hloops
      | ends hends htale =>
        cases hends with
        | authenticated => exact .inr ⟨_, rfl, htale⟩
        | unauthenticated =>
          left
          rw [of_alone htale rfl]
          exact ⟨_, rfl⟩
    | authSkipped hstate => exact absurd rfl hstate
    | sent hchat | unsent hchat | refused hchat => cases hchat
    | paused hpause | pausing hpause => cases hpause

lemma of_pause {span : Duration} (h : Tale ⟨state, false⟩ .nothing (.pause span :: acts) story) :
    Tale ⟨state, false⟩ .nothing acts story := by
  cases h with
  | looped hloops => cases hloops
  | ends hends => cases hends
  | begins hcomes htale =>
    cases hcomes with
    | paused => exact htale
    | pausing =>
      cases htale with
      | looped hloops => cases hloops
      | ends hends htale =>
        cases hends with
        | reached => exact htale
    | sent hchat | unsent hchat | refused hchat => cases hchat

lemma of_start {interval : Duration}
    (h : Tale ⟨.authenticated, false⟩ .nothing [.start interval] story) :
    Starting true story := by
  cases h with
  | looped hloops => cases hloops
  | ends hends => cases hends
  | begins hcomes htale =>
    cases hcomes with
    | started => exact ⟨_, rfl, htale.of_over⟩
    | startSkipped hstate => exact absurd rfl hstate
    | sent hchat | unsent hchat | refused hchat => cases hchat
    | paused hpause | pausing hpause => cases hpause

theorem login {limit span : Duration}
    (h : Tale ⟨state, false⟩ .nothing [.connect limit, .pause span, .authenticate] story) :
    ∃ ok, Login story ok := by
  rcases h.of_connect with ⟨cause, rfl⟩ | ⟨later, rfl, hconnected⟩
  · exact ⟨false, .unconnected⟩
  · rcases hconnected.of_pause.of_authenticate with ⟨cause, rfl⟩ | ⟨rest, rfl, hover⟩
    · exact ⟨false, .unauthenticated⟩
    · rw [hover.of_alone rfl]
      exact ⟨true, .authenticated⟩

theorem admission {limit interval : Duration}
    (h : Tale ⟨state, false⟩ .nothing [.connect limit, .authenticate, .start interval] story) :
    Admission story := by
  rcases h.of_connect with ⟨cause, rfl⟩ | ⟨later, rfl, hconnected⟩
  · exact ⟨_, [], false, (List.append_nil _).symm, .unconnected, rfl⟩
  · rcases hconnected.of_authenticate with ⟨cause, rfl⟩ | ⟨rest, rfl, hlogged⟩
    · exact ⟨_, [], false, (List.append_nil _).symm, .unauthenticated, rfl⟩
    · exact ⟨[.connecting, .connected, .authenticated], rest, true, rfl, .authenticated,
        hlogged.of_start⟩

end Tale

end ChatLoad
