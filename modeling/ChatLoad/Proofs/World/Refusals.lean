import ChatLoad.Proofs.World.Passage
import ChatLoad.Proofs.World.Resources

/-! Calls that are refused disturb nothing: a run in which one is made goes on like the run in which it
is not, byte by byte, and only a refused connection leaves its marks on three counters. -/

namespace ChatLoad

/-- An attempt to connect that comes to its end at once, and not at the peer. -/
def Reach.failsAtOnce (limit : Duration) : Reach → Bool
  | .refuses | .unreachable => true
  | .silent => limit = 0
  | .accepts => false

namespace Client

variable {σ : Type} {client : Client}

/-! ### Refused calls -/

lemma begin_refused {act : Act} (h : client.refuses act = true) (net : Net σ) (now : Duration) :
    ∃ incident ∈ Incident.harmless, ∃ succeeded,
      (client.turnOn net).begin now act = ((client.turnOn net).emit incident, .done succeeded) := by
  cases act with
  | authenticate =>
    have hstate : client.state ≠ .connected := by simpa [refuses] using h
    refine ⟨.authSkipped, by decide, false, ?_⟩
    simp [Turn.begin, Turn.authenticate, turnOn, hstate, Progress.ofAnswer]
  | start interval =>
    have hstate : client.state ≠ .authenticated := by simpa [refuses] using h
    refine ⟨.startSkipped, by decide, true, ?_⟩
    rw [Turn.begin, Turn.start]
    split
    · next hs _ _ => exact absurd hs hstate
    · rfl
  | single target content | group session content =>
    have hauth : client.isAuthenticated = false := by simpa [refuses] using h
    refine ⟨.chatRefused, by decide, true, ?_⟩
    simp [Turn.begin, Turn.single, Turn.group, Turn.sendChat, turnOn, hauth]
  | heartbeat =>
    have hwriter : client.writer = none := by simpa [refuses] using h
    refine ⟨.heartbeatSkipped, by decide, true, ?_⟩
    simp [Turn.begin, Turn.heartbeat, turnOn, hwriter]
  | connect | stop | pause | pauseUntil => cases h

lemma move_refused {act : Act} (h : client.refuses act = true) (net : Net σ) (now : Duration)
    (wait : Wait) :
    ∃ incidents ⊆ Incident.harmless,
      (client.turnOn net).move now wait (.begin act) = ({ client, net, incidents }, wait) := by
  by_cases hw : wait = .nothing
  · obtain ⟨incident, hi, succeeded, hbegin⟩ := begin_refused h net now
    refine ⟨[incident], by simpa using hi, ?_⟩
    rw [Turn.move, if_pos hw, hbegin, hw]
    rfl
  · exact ⟨[], List.nil_subset _, by rw [Turn.move, if_neg hw]; rfl⟩

lemma move_unreached {limit : Duration} {net net' : Net σ} {reach : Reach}
    (hattempt : net.attempt = (reach, net')) (hfails : reach.failsAtOnce limit = true)
    (now : Duration) :
    ∃ cause, (client.turnOn net).move now .nothing (.begin (.connect limit)) =
      ({ client, net := net', incidents := [.connecting, .connectFailed cause] }, .nothing) := by
  rw [Turn.move, if_pos rfl, Turn.begin, Turn.connect]
  cases reach with
  | accepts => cases hfails
  | refuses | unreachable =>
    simp [turnOn, hattempt, Turn.emit, Turn.connectFailed, Progress.ofAnswer, Progress.wait]
  | silent =>
    have hlimit : limit = 0 := by simpa [Reach.failsAtOnce] using hfails
    simp [turnOn, hattempt, hlimit, Turn.emit, Turn.connectFailed, Progress.ofAnswer, Progress.wait]

/-! ### From one authentication to the next -/

section

variable {now : Duration} {client' : Client} {net net' : Net σ} {wait wait' : Wait} {move : Move}
  {incidents : List Incident}

lemma state_afterAll_authenticated {standing : Standing} {incidents : List Incident}
    (h : (standing.afterAll incidents).state = .authenticated) (hnone : .authenticated ∉ incidents) :
    standing.state = .authenticated := by
  induction incidents generalizing standing with
  | nil => exact h
  | cons incident incidents ih =>
    obtain ⟨hfirst, hlater⟩ := not_or.mp (List.mem_cons.not.mp hnone)
    have hstate := ih h hlater
    cases incident with
    | authenticated => exact absurd rfl hfirst
    | connected | started | stopped | closedByServer | receiveFailed => cases hstate
    | _ => exact hstate

/-- Nothing but an authentication makes for a client that is authenticated. -/
lemma Moved.unauthenticated (h : Moved now client net wait move client' net' wait' incidents)
    (hstate : client.state ≠ .authenticated) (hnone : .authenticated ∉ incidents) :
    client'.state ≠ .authenticated := by
  have htold : client'.state = (Standing.afterAll ⟨client.state, false⟩ incidents).state :=
    h.state rfl
  exact fun hafter => hstate (state_afterAll_authenticated (htold ▸ hafter) hnone)

lemma Moved.unstarted (h : Moved now client net wait move client' net' wait' incidents)
    (hstate : client.state ≠ .authenticated) :
    .started ∉ incidents ∧ client'.sessions = client.sessions := by
  cases h with
  | still _ _ _ hskip => exact ⟨fun hi => by simpa using hskip hi, rfl⟩
  | started hauth => exact absurd hauth hstate
  | stopped => exact ⟨by simp, sessions_endCurrentSession client⟩
  | sent _ _ _ _ hlook => exact ⟨hlook.notes.2, hlook.trims.sessions⟩
  | resumed hlook => exact ⟨hlook.notes.2, hlook.trims.sessions⟩
  | received =>
    rw [handleAll_client]
    exact ⟨notMem_handleAll rfl _ _ _, rfl⟩
  | hungUp | broke =>
    rw [handleAll_client]
    exact ⟨notMem_handleAll_append rfl (by simp) _ _ _, rfl⟩
  | @chat _ _ _ _ result | @heartbeat _ _ result | @beat _ _ _ _ _ result
  | @lastBeat _ _ _ _ _ result => cases result <;> exact ⟨by simp, rfl⟩
  | _ => exact ⟨by simp, rfl⟩

/-- A client that has started since it authenticated last, with the loops of that session or what is
left of them. -/
structure Launched (session : Nat) (client : Client) : Prop where
  led : client.Led
  state : client.state ≠ .authenticated
  sessions : client.sessions = session + 1
  beating : client.beating.Sublist [session]
  listening : client.listening.Sublist [session]

lemma Begins.launched (begins : client.Begins client') (led : client'.Led) :
    client'.Launched client.sessions where
  led := led
  state := by simp [begins.state]
  sessions := begins.sessions
  beating := begins.beating ▸ List.Sublist.refl _
  listening := begins.listening ▸ List.Sublist.refl _

lemma Moved.launched {session : Nat}
    (h : Moved now client net wait move client' net' wait' incidents)
    (launched : client.Launched session) (hnone : .authenticated ∉ incidents) :
    client'.Launched session ∧ .started ∉ incidents := by
  obtain ⟨hstarted, hsessions⟩ := h.unstarted launched.state
  have hstate := h.unauthenticated launched.state hnone
  have hcount := hsessions.trans launched.sessions
  refine ⟨?_, hstarted⟩
  rcases h.loops launched.led with trims | begins | ⟨rest, _⟩
  · exact ⟨h.led launched.led, hstate, hcount, trims.beating.trans launched.beating,
      trims.listening.trans launched.listening⟩
  · exact absurd (begins.sessions.symm.trans hsessions) (Nat.succ_ne_self _)
  · refine ⟨h.led launched.led, hstate, hcount, ?_, ?_⟩
    · simp [beating, rest.heartbeats]
    · simp [listening, rest.receivers]

end

end Client

namespace World

variable {σ : Type} {world other : World σ}

/-- Other counters, and all else the same. -/
structure AheadBy (extra : Counter → Nat) (world other : World σ) : Prop where
  net : other.net = world.net
  now : other.now = world.now
  agents : other.agents.map (fun agent => (agent.client, agent.wait)) =
    world.agents.map fun agent => (agent.client, agent.wait)
  counters : ∀ counter, other.stats.counters.get counter =
    world.stats.counters.get counter + extra counter
  latencies : other.stats.latencies = world.stats.latencies
  startedAt : other.stats.startedAt = world.stats.startedAt
  finishedAt : other.stats.finishedAt = world.stats.finishedAt

namespace AheadBy

variable {extra : Counter → Nat}

lemma same (ahead : world.AheadBy extra other) : { world with stats := other.stats }.Same other :=
  ⟨ahead.net.symm, ahead.now.symm, rfl, ahead.agents.symm⟩

lemma ofMoves {α : Type} (ahead : world.AheadBy extra other)
    (f : Client → Net σ → Duration → Wait → Move → List α) (happening : Happening) :
    other.ofMoves f happening = world.ofMoves f happening :=
  (ahead.same.ofMoves f happening).symm

lemma step (ahead : world.AheadBy extra other) (happening : Happening) :
    (world.step happening).AheadBy extra (other.step happening) := by
  have same := ahead.same.step happening
  have blind : ∀ stats, ({ world with stats }.step happening).net = (world.step happening).net ∧
      ({ world with stats }.step happening).now = (world.step happening).now ∧
      ({ world with stats }.step happening).agents = (world.step happening).agents := by
    intro stats
    cases happening with
    | client position move =>
      simp only [World.step]
      split <;> exact ⟨rfl, rfl, rfl⟩
    | peer | agenda | pass => exact ⟨rfl, rfl, rfl⟩
  obtain ⟨net, now, agents⟩ := blind other.stats
  obtain ⟨counted, hcounted⟩ := Stats.exists_counters_after (world.ofMoves Client.noted happening)
    world.stats
  obtain ⟨counted', hcounted'⟩ := Stats.exists_counters_after (world.ofMoves Client.noted happening)
    other.stats
  refine ⟨same.net.symm.trans net, same.now.symm.trans now, same.agents.symm.trans (agents ▸ rfl),
    fun counter => ?_, ?_, ?_, ?_⟩
  · rw [stats_step, stats_step, ahead.ofMoves, Stats.get_after, Stats.get_after, ahead.counters]
    omega
  · rw [stats_step, stats_step, ahead.ofMoves, hcounted, hcounted', ahead.latencies]
  · rw [stats_step, stats_step, ahead.ofMoves, hcounted, hcounted', ahead.startedAt]
  · rw [stats_step, stats_step, ahead.ofMoves, hcounted, hcounted', ahead.finishedAt]

lemma run (ahead : world.AheadBy extra other) (later : List Happening) :
    (world.run later).AheadBy extra (other.run later) := by
  induction later generalizing world other with
  | nil => exact ahead
  | cons happening later ih => exact ih (ahead.step happening)

lemma trace {α : Type} (ahead : world.AheadBy extra other)
    (f : Client → Net σ → Duration → Wait → Move → List α) (later : List Happening) :
    other.trace (World.ofMoves f) later = world.trace (World.ofMoves f) later := by
  induction later generalizing world other with
  | nil => rfl
  | cons happening later ih =>
    rw [World.trace, World.trace, ahead.ofMoves, ih (ahead.step happening)]

end AheadBy

variable {position : Nat} {agent : Agent}

/-- A move that changes nothing of its client changes the network and the statistics at most. -/
lemma step_unmoved {net : Net σ} {move : Move} {incidents : List Incident}
    (h : world.agents[position]? = some agent)
    (hm : (agent.client.turnOn world.net).move world.now agent.wait move =
      ({ client := agent.client, net, incidents }, agent.wait)) :
    (world.step (.client position move)).Same
      { world with net, stats := world.stats.after incidents } := by
  obtain ⟨hlt, hget⟩ := List.getElem?_eq_some_iff.mp h
  have hsame : agent.moved world.net world.now move = agent := by rw [Agent.moved, hm]
  refine ⟨by rw [net_step_client h, hm], by rw [step_client h]; rfl, ?_, ?_⟩
  · rw [stats_step, ofMoves_client h, Client.noted, hm]
  · rw [step_client h, agents_moved, hsame, ← hget, List.set_getElem_self]

/-- Beside a world with the network that such a move leaves, it is ahead by what there is to count. -/
lemma aheadBy_move {net net' : Net σ} {move : Move} {incidents : List Incident}
    (h : world.agents[position]? = some agent)
    (hm : (agent.client.turnOn net).move world.now agent.wait move =
      ({ client := agent.client, net := net', incidents }, agent.wait))
    (hsamples : incidents.filterMap Incident.sample? = []) :
    { world with net := net' }.AheadBy (Incident.tally incidents)
      ({ world with net }.step (.client position move)) := by
  have ha : { world with net }.agents[position]? = some agent := h
  have same := step_unmoved ha hm
  obtain ⟨counted, hcounted⟩ := Stats.exists_counters_after incidents world.stats
  refine ⟨same.net, same.now, same.agents, fun counter => ?_, ?_, ?_, ?_⟩
  · rw [same.stats, Stats.get_after]
  · simp [same.stats, hcounted, hsamples]
  · rw [same.stats, hcounted]
  · rw [same.stats, hcounted]

/-! ### Whole runs -/

/-- Whatever happens next, it happens in the same way in both worlds. -/
def RunsAs (extra : Counter → Nat) (world other : World σ) : Prop :=
  ∀ later, (world.run later).AheadBy extra (other.run later) ∧
    ∀ {α : Type} (f : Client → Net σ → Duration → Wait → Move → List α),
      other.trace (ofMoves f) later = world.trace (ofMoves f) later

lemma AheadBy.runsAs {extra : Counter → Nat} (ahead : world.AheadBy extra other) :
    world.RunsAs extra other :=
  fun later => ⟨ahead.run later, fun f => ahead.trace f later⟩

lemma Same.runsAs (same : world.Same other) : world.RunsAs (fun _ => 0) other := by
  have ahead : world.AheadBy (fun _ => 0) other :=
    ⟨same.net.symm, same.now.symm, same.agents.symm, fun _ => by rw [same.stats, Nat.add_zero],
      by rw [same.stats], by rw [same.stats], by rw [same.stats]⟩
  exact ahead.runsAs

lemma same_refused (h : world.agents[position]? = some agent) {act : Act}
    (hrefuses : agent.client.refuses act = true) :
    world.Same (world.step (.client position (.begin act))) := by
  obtain ⟨incidents, harmless, hm⟩ := Client.move_refused hrefuses world.net world.now agent.wait
  have same := (step_unmoved h hm).symm
  rwa [Stats.after_of_harmless harmless] at same

lemma runsAs_unreached (h : world.agents[position]? = some agent) (hwait : agent.wait = .nothing)
    {limit : Duration} {reach : Reach} {net : Net σ} (hattempt : net.attempt = (reach, world.net))
    (hfails : reach.failsAtOnce limit = true) :
    world.RunsAs
      (fun counter => if counter ∈ [.connectionsAttempted, .connectionsFailed, .errors] then 1 else 0)
      ({ world with net }.step (.client position (.begin (.connect limit)))) := by
  obtain ⟨cause, hm⟩ := agent.client.move_unreached hattempt hfails world.now
  have ahead := aheadBy_move h (hwait.symm ▸ hm) rfl
  have htally : Incident.tally [.connecting, .connectFailed cause] = fun counter =>
      if counter ∈ [.connectionsAttempted, .connectionsFailed, .errors] then 1 else 0 := by
    funext counter
    cases counter <;> rfl
  exact htally ▸ ahead.runsAs

lemma length_run (world : World σ) (later : List Happening) :
    (world.run later).agents.length = world.agents.length := by
  induction later generalizing world with
  | nil => rfl
  | cons happening later ih => rw [run_cons, ih, length_step]

/-- Until it authenticates anew, a client that has started starts no more and spawns no loops. -/
lemma launched_run {session : Nat} (h : world.agents[position]? = some agent)
    (launched : agent.client.Launched session) (later : List Happening)
    (hnone : .authenticated ∉ world.notes position later) :
    .started ∉ world.notes position later ∧
      ∃ after, (world.run later).client? position = some after ∧ after.Launched session := by
  have kept : ∀ after, (world.run later).agents[position]? = some after →
      .authenticated ∉ world.notes position later →
        after.client.Launched session ∧ .started ∉ world.notes position later := by
    refine run_position (motive := fun before after => .authenticated ∉ world.notes position before →
      after.client.Launched session ∧ .started ∉ world.notes position before) ?_ ?_ ?_ later
    · intro first hfirst _
      obtain rfl := Option.some.inj (h.symm.trans hfirst)
      exact ⟨launched, List.not_mem_nil⟩
    · intro before mover move hmover ih hno
      rw [notes_concat, ofMovesBy_self hmover, List.mem_append, not_or] at hno ⊢
      obtain ⟨launched, hstarted⟩ := ih hno.1
      have hmoved := mover.client.moved (world.run before).net (world.run before).now mover.wait move
      obtain ⟨hafter, hmine⟩ := hmoved.launched launched hno.2
      exact ⟨hafter, hstarted, hmine⟩
    · intro before other happening hby ih hno
      rw [notes_concat, ofMovesBy_other hby, List.append_nil] at hno ⊢
      exact ih hno
  have hlt : position < (world.run later).agents.length := by
    rw [length_run]
    exact (List.getElem?_eq_some_iff.mp h).1
  have hlast := List.getElem?_eq_getElem hlt
  obtain ⟨hafter, hstarted⟩ := kept _ hlast hnone
  exact ⟨hstarted, _, by rw [client?, hlast]; rfl, hafter⟩

lemma starts_once (fresh : world.Fresh) (before : List Happening)
    (h : (world.run before).agents[position]? = some agent) (hwait : agent.wait = .nothing)
    (hstate : agent.client.state = .authenticated) (interval : Duration) (later : List Happening) :
    let here := world.run before
    let started := here.step (.client position (.begin (.start interval)))
    (∃ first, started.client? position = some first ∧ agent.client.Begins first) ∧
    (.authenticated ∉ started.notes position later →
      (here.notes position (.client position (.begin (.start interval)) :: later)).count .started = 1 ∧
      ∃ after, (started.run later).client? position = some after ∧
        after.Launched agent.client.sessions) := by
  intro here started
  have stands := (fresh.run_furnished before agent h).stands
  obtain ⟨conn, hwriter⟩ := Option.isSome_iff_exists.mp
    (stands.wired (.inr (by simp [Client.isAuthenticated, hstate])))
  obtain ⟨reader, hreader⟩ := Option.isSome_iff_exists.mp (stands.readable hstate)
  have hm : (agent.client.turnOn here.net).move here.now agent.wait (.begin (.start interval)) =
      ((((agent.client.turnOn here.net).become
        (agent.client.startedOn here.now interval conn reader)).emit .started), .nothing) := by
    simp [Turn.move, hwait, Turn.begin, Turn.start, Client.turnOn, hstate, hwriter, hreader,
      Progress.wait]
  have hfirst : started.agents[position]? =
      some (agent.moved here.net here.now (.begin (.start interval))) := by
    rw [show started = _ from step_client h _, agents_moved,
      List.getElem?_set_self (List.getElem?_eq_some_iff.mp h).1]
  have hclient : (agent.moved here.net here.now (.begin (.start interval))).client =
      agent.client.startedOn here.now interval conn reader := by
    rw [Agent.moved, hm]
    rfl
  have begins := stands.led.begins here.now interval conn reader
  rw [← hclient] at begins
  refine ⟨⟨_, by rw [client?, hfirst]; rfl, begins⟩, fun hnone => ?_⟩
  have hmoved := agent.client.moved here.net here.now agent.wait (.begin (.start interval))
  obtain ⟨hlater, hafter⟩ := launched_run hfirst (begins.launched (hmoved.led stands.led)) later hnone
  have hnotes : here.notes position (.client position (.begin (.start interval)) :: later) =
      .started :: started.notes position later := by
    rw [notes, trace, ofMovesBy_self h, Client.noted, hm]
    rfl
  exact ⟨by rw [hnotes, List.count_cons_self, List.count_eq_zero.mpr hlater], hafter⟩

/-- Refused calls disturb no run, at no point of it. Authenticating in the wrong state, starting in the
wrong state, chats of a client that is not authenticated and heartbeats without a connection to write
to leave everything as it would be without them; an attempt to connect that fails at once, in a network
that is as before afterwards, adds one to each of three counters. A client that has authenticated starts
once, and only the two loops of that start are there, until it authenticates anew. -/
theorem refused_calls_disturb_nothing (fresh : world.Fresh) (before : List Happening)
    (h : (world.run before).agents[position]? = some agent) :
    let here := world.run before
    (∀ act, agent.client.refuses act = true →
      here.RunsAs (fun _ => 0) (here.step (.client position (.begin act)))) ∧
    (∀ limit reach net, agent.wait = .nothing → net.attempt = (reach, here.net) →
      reach.failsAtOnce limit = true →
      here.RunsAs
        (fun counter =>
          if counter ∈ [.connectionsAttempted, .connectionsFailed, .errors] then 1 else 0)
        ({ here with net }.step (.client position (.begin (.connect limit))))) ∧
    ∀ interval later, agent.wait = .nothing → agent.client.state = .authenticated →
      let started := here.step (.client position (.begin (.start interval)))
      (∃ first, started.client? position = some first ∧ agent.client.Begins first) ∧
      (.authenticated ∉ started.notes position later →
        (here.notes position (.client position (.begin (.start interval)) :: later)).count .started =
          1 ∧
        ∃ after, (started.run later).client? position = some after ∧
          after.Launched agent.client.sessions) :=
  ⟨fun _ hrefuses => (same_refused h hrefuses).runsAs,
    fun _ _ _ hwait hattempt hfails => runsAs_unreached h hwait hattempt hfails,
    fun interval later hwait hstate => starts_once fresh before h hwait hstate interval later⟩

/-- A client connects and logs in. -/
def login : List Happening :=
  [.client 0 (.begin (.connect 5)), .peer (.deliver 0 (Frame.encode .ack 1 [])),
    .client 0 (.begin .authenticate)]

theorem login_undisturbed :
    let here := lone.run login
    let again : Happening := .client 0 (.begin (.start 100))
    lone.Fresh ∧ here.RunsAs (fun _ => 0) (here.step (.client 0 (.begin .authenticate))) ∧
    here.RunsAs
      (fun counter =>
        if counter ∈ [.connectionsAttempted, .connectionsFailed, .errors] then 1 else 0)
      ({ here with net := { here.net with foreseen := [.refuses] } }.step
        (.client 0 (.begin (.connect 5)))) ∧
    (here.notes 0 [again, again, .client 0 (.begin .heartbeat), again]).count .started = 1 := by
  intro here again
  have hend : here.agents[0]?.any (fun agent => agent.client.state = .authenticated ∧
      agent.wait = .nothing ∧ agent.client.refuses .authenticate = true) = true := by
    decide
  obtain ⟨agent, h, hknown⟩ := (Option.any_eq_true _ _).mp hend
  obtain ⟨hstate, hwait, hrefuses⟩ := of_decide_eq_true hknown
  obtain ⟨refused, unreached, started⟩ := refused_calls_disturb_nothing lone_fresh login h
  have hnone : .authenticated ∉ (here.step again).notes 0
      [again, .client 0 (.begin .heartbeat), again] := by
    decide
  exact ⟨lone_fresh, refused _ hrefuses, unreached 5 .refuses _ hwait rfl rfl,
    ((started 100 _ hwait hstate).2 hnone).1⟩

end World

end ChatLoad
