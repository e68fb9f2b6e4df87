import ChatLoad.Proofs.Client.Verdict
import ChatLoad.Proofs.World.Settling

/-! What clients make of the bytes that arrive depends on the bytes only: first each AUTH takes at most one
item, then the receive loop takes all others in order, before time goes on. -/

namespace ChatLoad

open Item

namespace Client

variable {σ : Type}

/-- What a move adds to the errors on its own account, be it that connecting, authenticating, writing or
reading has failed. -/
def ownErrors (client : Client) (net : Net σ) (now : Duration) (wait : Wait) (move : Move) : Nat :=
  Incident.tally (client.noted net now wait move) .connectionsFailed +
    Incident.tally (client.noted net now wait move) .authFailed +
    (client.lostChats net now wait move).length + (client.lostBeats net now wait move).length +
    (client.readFailures net move).length

/-- What a move makes of the statistics and of the table is what the frames heard in it make of them, but
for its own errors and for the request it sends. -/
structure Heeds (client : Client) (net : Net σ) (now : Duration) (wait : Wait) (move : Move)
    (client' : Client) (stats stats' : Stats) : Prop where
  heartbeats : stats'.counters.heartbeatsReceived = stats.counters.heartbeatsReceived +
    (client.heard net move).countP fun frame => frame.kind = .heartbeat
  messages : stats'.counters.messagesReceived = stats.counters.messagesReceived +
    (client.heard net move).countP fun frame => frame.kind.isChatResponse
  errors : stats'.counters.errors = stats.counters.errors +
    ((client.heard net move).countP fun frame => frame.kind = .error) +
      client.ownErrors net now wait move
  samples : stats'.latencyCount =
    stats.latencyCount + client.pending.matched (client.heard net move)
  pending : client'.pending =
    (client.chatIds wait move).foldl (fun pending id => pending.insert id now)
      ((client.heard net move).foldl Pending.hear client.pending)

end Client

namespace World

variable {σ : Type}

/-! ### From authenticating to receiving -/

def answers (conn : ConnId) : World σ → Happening → List Item :=
  ofMoves fun client net now wait move => client.answered net now wait move conn

def loops (conn : ConnId) : World σ → Happening → List Item :=
  ofMoves fun client net _ _ move => client.looped net move conn

def answered (world : World σ) (happenings : List Happening) (conn : ConnId) : List Item :=
  world.trace (answers conn) happenings

def looped (world : World σ) (happenings : List Happening) (conn : ConnId) : List Item :=
  world.trace (loops conn) happenings

lemma takes_eq (conn : ConnId) (world : World σ) (happening : Happening) :
    world.takes conn happening = world.answers conn happening ++ world.loops conn happening := by
  rcases step_cases world happening with ⟨position, agent, move, rfl, h⟩ | ⟨_, _, hsilent⟩
  · rw [takes, answers, loops, ofMoves_client h, ofMoves_client h, ofMoves_client h, Client.taken]
  · rw [takes, answers, loops, hsilent, hsilent, hsilent, List.append_nil]

/-- No receive loop has taken anything off a connection that its client still authenticates on. -/
structure Handed (world : World σ) (happenings : List Happening) (after : World σ) : Prop where
  parts : ∀ conn, world.taken happenings conn =
    world.answered happenings conn ++ world.looped happenings conn
  apart : ∀ (position : Nat) (agent : Agent) (reader : Reader),
    after.agents[position]? = some agent → agent.client.reader = some reader →
    world.looped happenings reader.conn = []

lemma handed_nil (world : World σ) : world.Handed [] world where
  parts := fun _ => rfl
  apart := fun _ _ _ _ _ => rfl

lemma Handed.step {world : World σ} {happenings : List Happening}
    (handed : world.Handed happenings (world.run happenings))
    (followed : world.Followed happenings (world.run happenings)) (happening : Happening) :
    world.Handed (happenings ++ [happening]) ((world.run happenings).step happening) := by
  obtain ⟨parts, apart⟩ := handed
  have hlooped (conn : ConnId) : world.looped (happenings ++ [happening]) conn =
      world.looped happenings conn ++ (world.run happenings).loops conn happening :=
    trace_concat _ _ _ _
  have hanswered (conn : ConnId) : world.answered (happenings ++ [happening]) conn =
      world.answered happenings conn ++ (world.run happenings).answers conn happening :=
    trace_concat _ _ _ _
  rcases step_cases (world.run happenings) happening with
    ⟨position, agent, move, rfl, h⟩ | ⟨hagents, _, hsilent⟩
  · have hmoved := agent.client.moved (world.run happenings).net (world.run happenings).now
      agent.wait move
    have hanswers (conn : ConnId) := ofMoves_client h (fun client net now wait move =>
      client.answered net now wait move conn) move
    have hloops (conn : ConnId) := ofMoves_client h (fun client net _ _ move =>
      client.looped net move conn) move
    have tidy := followed.tidy position agent h
    refine ⟨?_, ?_⟩
    · intro conn
      rw [taken_concat, takes_eq, parts, hanswered, hlooped, answers, hanswers]
      by_cases hnil : agent.client.answered (world.run happenings).net (world.run happenings).now
          agent.wait move conn = []
      · rw [hnil]
        simp
      · obtain ⟨reader, hr, rfl⟩ := Client.conn_of_answered hnil
        rw [apart position agent reader h hr]
        simp
    · intro other after reader' ha hr'
      rw [hlooped, loops, hloops, List.append_eq_nil_iff]
      rcases agents_step_client h ha with ⟨_, rfl⟩ | ⟨hne, hold⟩
      · rcases hmoved.reader_conn hr' with ⟨reader, hr, hconn⟩ | hnew
        · rw [← hconn]
          refine ⟨apart position agent reader h hr, ?_⟩
          by_contra hnil
          obtain ⟨loop, hl, hsame⟩ := Client.loop_of_looped hnil
          exact Client.ne_conn_of_receiver tidy hr hl hsame
        · obtain ⟨_, htaken⟩ := followed.untouched _ (Nat.le_of_eq hnew.symm)
          rw [parts, List.append_eq_nil_iff] at htaken
          refine ⟨htaken.2, ?_⟩
          by_contra hnil
          obtain ⟨loop, hl, hsame⟩ := Client.loop_of_looped hnil
          have hlt := tidy.known _ (Client.mem_conns_of_receiver hl)
          rw [hsame, hnew] at hlt
          exact Nat.lt_irrefl _ hlt
      · refine ⟨apart other after reader' hold hr', ?_⟩
        by_contra hnil
        obtain ⟨loop, hl, hsame⟩ := Client.loop_of_looped hnil
        refine hne (followed.apart other position after agent hold h reader'.conn ?_ ?_)
        · exact List.mem_map_of_mem (Client.mem_readers_of_reader hr')
        · exact hsame ▸ Client.mem_conns_of_receiver hl
  · refine ⟨?_, ?_⟩
    · intro conn
      rw [taken_concat, takes, hsilent, hanswered, answers, hsilent, hlooped, loops, hsilent, parts]
      simp
    · intro position agent reader ha hr
      rw [hagents] at ha
      rw [hlooped, loops, hsilent, List.append_nil]
      exact apart position agent reader ha hr

theorem Fresh.run_handed {world : World σ} (fresh : world.Fresh) (happenings : List Happening) :
    world.Handed happenings (world.run happenings) :=
  run_induction world.handed_nil
    (fun before happening handed => handed.step (fresh.run_followed before) happening) happenings

/-! ### Calls -/

def LogsIn (world : World σ) (position : Nat) : Prop :=
  ∃ agent, world.agents[position]? = some agent ∧ agent.wait.isLoggingIn

def answersTo (position : Nat) (conn : ConnId) (world : World σ) (happening : Happening) :
    List Item :=
  match happening with
  | .client other _ => if other = position then world.answers conn happening else []
  | _ => []

lemma answersTo_once (position : Nat) (conn : ConnId) (world : World σ) (happening : Happening) :
    (world.answersTo position conn happening).length ≤ 1 ∧
      ((world.step happening).LogsIn position → world.answersTo position conn happening = []) := by
  unfold answersTo
  split
  · next other move =>
    split
    · next heq =>
      subst heq
      cases h : world.agents[other]? with
      | none => simp [answers, ofMoves, h]
      | some agent =>
        obtain ⟨hle, hends⟩ :=
          (agent.client.moved world.net world.now agent.wait move).answers_once conn
        rw [answers, ofMoves_client h]
        refine ⟨hle, ?_⟩
        rintro ⟨agent', ha', hwait⟩
        rcases agents_step_client h ha' with ⟨_, rfl⟩ | ⟨hne, _⟩
        · by_contra hnil
          have hover : (agent.moved world.net world.now move).wait = .nothing := hends hnil
          rw [hover] at hwait
          cases hwait
        · exact absurd rfl hne
    · exact ⟨Nat.zero_le _, fun _ => rfl⟩
  · exact ⟨Nat.zero_le _, fun _ => rfl⟩

lemma answersTo_call (position : Nat) (conn : ConnId) {world : World σ} {call : List Happening}
    (h : ∀ before later, before ≠ [] → later ≠ [] → call = before ++ later →
      (world.run before).LogsIn position) :
    (world.trace (answersTo position conn) call).length ≤ 1 := by
  induction call generalizing world with
  | nil => exact Nat.zero_le _
  | cons happening later ih =>
    obtain ⟨hle, hnil⟩ := world.answersTo_once position conn happening
    rw [trace]
    by_cases hlast : later = []
    · subst hlast
      simpa [trace] using hle
    · have hwaits : (world.step happening).LogsIn position :=
        h [happening] later (List.cons_ne_nil _ _) hlast rfl
      rw [hnil hwaits, List.nil_append]
      apply ih
      intro before rest hbefore hrest heq
      exact h (happening :: before) rest (List.cons_ne_nil _ _) hrest (by rw [heq]; rfl)

/-! ### What clients make of their bytes -/

section

variable {world : World σ} {position : Nat} {agent : Agent}

lemma heeds_step (h : world.agents[position]? = some agent)
    (wired : agent.client.Wired agent.wait) (move : Move) :
    agent.client.Heeds world.net world.now agent.wait move
      (agent.moved world.net world.now move).client world.stats
      (world.step (.client position move)).stats := by
  have hmoved := agent.client.moved world.net world.now agent.wait move
  have hstats := stats_step world (.client position move)
  rw [ofMoves_client h] at hstats
  have hget (c : Counter) :=
    Stats.get_after (agent.client.noted world.net world.now agent.wait move) world.stats c
  obtain ⟨hbeats, hmessages⟩ := hmoved.counted
  obtain ⟨hpending, hsamples⟩ := hmoved.pending wired
  have herrors := hmoved.errors
  rw [hstats]
  refine ⟨?_, ?_, ?_, ?_, hpending⟩
  · exact (hget .heartbeatsReceived).trans (congrArg _ hbeats)
  · exact (hget .messagesReceived).trans (congrArg _ hmessages)
  · apply (hget .errors).trans
    rw [Client.noted, herrors, Client.ownErrors, Client.noted]
    simp only [Counters.get]
    omega
  · rw [Stats.latencyCount_after, Client.noted, hsamples]

lemma verdict_step (h : world.agents[position]? = some agent) (sound : world.net.Sound)
    (tidy : agent.client.Tidy world.net.links.length) (wired : agent.client.Wired agent.wait)
    (ready : agent.client.Ready agent.wait) {move : Move}
    (hauth : agent.client.Authenticates agent.wait move) :
    let next := world.step (.client position move)
    let agent' := agent.moved world.net world.now move
    ∃ reader reader', agent.client.reader = some reader ∧ agent'.client.reader = some reader' ∧
      reader'.conn = reader.conn ∧
      Client.Verdict world.now agent.client.state agent.wait
        (agent.client.Asked world.net world.now agent.wait move) agent'.client
        (next.net.unread reader') (Delivery.Ended (next.net.incoming reader.conn)) agent'.wait
        (agent.client.noted world.net world.now agent.wait move)
        (world.answers reader.conn (.client position move)) := by
  have hmoved := agent.client.moved world.net world.now agent.wait move
  obtain ⟨reader, reader', hr, hr', hconn, hverdict⟩ := hmoved.verdict sound tidy wired ready hauth
  have hlooped : agent.client.looped world.net move reader.conn = [] := by
    cases move with
    | receive session => cases hauth
    | _ => rfl
  have hitems : agent.client.taken world.net world.now agent.wait move reader.conn =
      world.answers reader.conn (.client position move) := by
    rw [Client.taken, hlooped, List.append_nil, answers, ofMoves_client h]
  rw [hitems, ← net_step_client h] at hverdict
  exact ⟨reader, reader', hr, hr', hconn, hverdict⟩

lemma attended_step (h : world.agents[position]? = some agent)
    (tidy : agent.client.Tidy world.net.links.length) {session : Nat} {loop : ReceiveLoop}
    (hl : agent.client.receiver? session = some loop) :
    agent.client.Attended world.now world.net loop
      (agent.moved world.net world.now (.receive session)).client
      (world.step (.client position (.receive session))).net
      (world.loops loop.reader.conn (.client position (.receive session)))
      (agent.client.noted world.net world.now agent.wait (.receive session)) := by
  have hattended := (agent.client.moved world.net world.now agent.wait (.receive session)).attended
    tidy hl
  have hitems : agent.client.taken world.net world.now agent.wait (.receive session)
      loop.reader.conn = world.loops loop.reader.conn (.client position (.receive session)) := by
    rw [loops, ofMoves_client h]
    rfl
  rw [hitems, ← net_step_client h] at hattended
  exact hattended

end

/-- In whatever pieces the bytes of a connection arrive, and whatever happens in between: first each AUTH
takes at most one item of them and is decided by it, then the receive loop hands all others over in order,
and nothing else is received. Once the clients have settled, before time goes on, nothing complete is left
for a receive loop. -/
theorem hearing_follows_bytes {world : World σ} (fresh : world.Fresh)
    (happenings : List Happening) :
    let after := world.run happenings
    (∀ position agent, after.agents[position]? = some agent →
      (∀ reader ∈ agent.client.readers,
        Cuts (world.delivered happenings reader.conn)
          (world.answered happenings reader.conn ++ world.looped happenings reader.conn)
          (after.net.unread reader)) ∧
      (∀ move, agent.client.Authenticates agent.wait move →
        let next := after.step (.client position move)
        let agent' := agent.moved after.net after.now move
        ∃ reader reader', agent.client.reader = some reader ∧
          agent'.client.reader = some reader' ∧ reader'.conn = reader.conn ∧
          Client.Verdict after.now agent.client.state agent.wait
            (agent.client.Asked after.net after.now agent.wait move) agent'.client
            (next.net.unread reader') (Delivery.Ended (next.net.incoming reader.conn)) agent'.wait
            (agent.client.noted after.net after.now agent.wait move)
            (after.answers reader.conn (.client position move))) ∧
      (∀ session loop, agent.client.receiver? session = some loop →
        agent.client.Attended after.now after.net loop
          (agent.moved after.net after.now (.receive session)).client
          (after.step (.client position (.receive session))).net
          (after.loops loop.reader.conn (.client position (.receive session)))
          (agent.client.noted after.net after.now agent.wait (.receive session))) ∧
      ∀ move, agent.client.Heeds after.net after.now agent.wait move
        (agent.moved after.net after.now move).client after.stats
        (after.step (.client position move)).stats) ∧
    (∀ position conn call,
      (∀ before later, before ≠ [] → later ≠ [] → call = before ++ later →
        (after.run before).LogsIn position) →
      (after.trace (answersTo position conn) call).length ≤ 1) ∧
    after.Comes after.settle ∧
    ∀ agent ∈ after.settle.agents, agent.client.Attentive after.settle.net := by
  have followed := fresh.run_followed happenings
  have handed := fresh.run_handed happenings
  have wired := fresh.run_agents (p := Client.Wired)
    (fun _ _ => by simp [Client.Wired, Client.mayLogIn, Client.isAuthenticated, Wait.isLoggingIn])
    (fun h => h.wired) happenings
  have ready := fresh.run_agents (p := Client.Ready)
    (fun _ _ => by simp [Client.Ready, Client.mayLogIn, Wait.isLoggingIn])
    (fun h => h.ready) happenings
  refine ⟨fun position agent h => ⟨?_, ?_, ?_, ?_⟩, ?_, ?_, ?_⟩
  · intro reader hr
    rw [← handed.parts]
    exact followed.cuts position agent h reader hr
  · intro move hauth
    have hmem := List.mem_of_getElem? h
    exact verdict_step h followed.sound (followed.tidy position agent h) (wired agent hmem)
      (ready agent hmem) hauth
  · intro session loop hl
    exact attended_step h (followed.tidy position agent h) hl
  · exact heeds_step h (wired agent (List.mem_of_getElem? h))
  · intro position conn call hcall
    exact answersTo_call position conn hcall
  · exact settle_comes _
  · exact fresh.settle_attentive ⟨happenings, Same.refl _⟩

def eager : World Unit where
  net := { peer := .quiet, memory := () }
  agents := [{ client := { id := 3 } }]

lemma eager_fresh : eager.Fresh :=
  fresh_of_new [3] rfl rfl rfl rfl

/-- The answer to the AUTH comes in two pieces, the second together with the start of a heartbeat. -/
def pieces : List Happening :=
  [.client 0 (.begin (.connect 5)), .peer (.deliver 0 ((Frame.encode .ack 1 []).take 9)),
    .client 0 (.begin .authenticate), .pass 8,
    .peer (.deliver 0 ((Frame.encode .ack 1 []).drop 9 ++ (Frame.encode .heartbeat 2 []).take 6)),
    .client 0 .resume]

theorem eager_hearing_follows_bytes :
    eager.Fresh ∧
    ((eager.answered pieces 0).filterMap Item.frame?).map Frame.kind = [.ack] ∧
    ∃ agent reader, (eager.run pieces).agents[0]? = some agent ∧
      agent.client.reader = some reader ∧ reader.conn = 0 ∧
      (eager.run pieces).net.unread reader = (Frame.encode .heartbeat 2 []).take 6 ∧
      Cuts (eager.delivered pieces reader.conn)
        (eager.answered pieces reader.conn ++ eager.looped pieces reader.conn)
        ((eager.run pieces).net.unread reader) := by
  refine ⟨eager_fresh, by decide, _, _, rfl, rfl, rfl, by decide, ?_⟩
  have hall := (hearing_follows_bytes eager_fresh pieces).1 0 _ rfl
  exact hall.1 _ (Client.mem_readers_of_reader rfl)

end World

end ChatLoad
