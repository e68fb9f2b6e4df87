import ChatLoad.Proofs.Client.Tally
import ChatLoad.Proofs.World.Run

/-! The counters that all clients share balance, whatever happens and in whatever order. -/

namespace ChatLoad

namespace Stats

lemma get_foldl_increase (counters : List Counter) (stats : Stats) (c : Counter) :
    ((counters.map (StatsUpdate.increase · 1)).foldl StatsUpdate.apply stats).counters.get c =
      stats.counters.get c + counters.count c := by
  induction counters generalizing stats with
  | nil => rfl
  | cons counter counters ih =>
    rw [List.map_cons, List.foldl_cons, ih, List.count_cons]
    simp only [StatsUpdate.apply, increase, Counters.get_add, beq_iff_eq]
    omega

lemma latencyCount_foldl_increase (counters : List Counter) (stats : Stats) :
    ((counters.map (StatsUpdate.increase · 1)).foldl StatsUpdate.apply stats).latencyCount =
      stats.latencyCount := by
  induction counters generalizing stats with
  | nil => rfl
  | cons counter counters ih =>
    rw [List.map_cons, List.foldl_cons, ih]
    rfl

lemma get_foldl_latency (sample : Option UInt64) (stats : Stats) (c : Counter) :
    ((sample.map StatsUpdate.latency).toList.foldl StatsUpdate.apply stats).counters.get c =
      stats.counters.get c := by
  cases sample <;> rfl

lemma latencyCount_foldl_latency (sample : Option UInt64) (stats : Stats) :
    ((sample.map StatsUpdate.latency).toList.foldl StatsUpdate.apply stats).latencyCount =
      stats.latencyCount + sample.toList.length := by
  cases sample with
  | none => rfl
  | some ms => simp [StatsUpdate.apply, addLatency, latencyCount]

/-- Statistics that have taken note of incidents. -/
def after (stats : Stats) (incidents : List Incident) : Stats :=
  (incidents.flatMap Incident.updates).foldl StatsUpdate.apply stats

lemma after_cons (stats : Stats) (incident : Incident) (incidents : List Incident) :
    stats.after (incident :: incidents) =
      ((incident.sample?.map StatsUpdate.latency).toList.foldl StatsUpdate.apply
        ((incident.counters.map (StatsUpdate.increase · 1)).foldl StatsUpdate.apply stats)).after
          incidents := by
  simp [after, Incident.updates]

theorem get_after (incidents : List Incident) (stats : Stats) (c : Counter) :
    (stats.after incidents).counters.get c =
      stats.counters.get c + Incident.tally incidents c := by
  induction incidents generalizing stats with
  | nil => rfl
  | cons incident incidents ih =>
    rw [after_cons, ih, get_foldl_latency, get_foldl_increase, Incident.tally_cons]
    omega

theorem latencyCount_after (incidents : List Incident) (stats : Stats) :
    (stats.after incidents).latencyCount =
      stats.latencyCount + (incidents.filterMap Incident.sample?).length := by
  induction incidents generalizing stats with
  | nil => rfl
  | cons incident incidents ih =>
    rw [after_cons, ih, latencyCount_foldl_latency, latencyCount_foldl_increase]
    cases hs : incident.sample? with
    | none => simp [hs]
    | some ms => simp [hs]; omega

lemma exists_counters_foldl (counters : List Counter) (stats : Stats) :
    ∃ counted, (counters.map (StatsUpdate.increase · 1)).foldl StatsUpdate.apply stats =
      { stats with counters := counted } := by
  induction counters generalizing stats with
  | nil => exact ⟨_, rfl⟩
  | cons counter counters ih => exact ih _

/-- Incidents count and add samples behind those that are there; the moments of start and end are
none of their business. -/
lemma exists_counters_after (incidents : List Incident) (stats : Stats) :
    ∃ counted, stats.after incidents =
      { stats with
        counters := counted
        latencies := stats.latencies ++ (incidents.filterMap Incident.sample?).toArray } := by
  induction incidents generalizing stats with
  | nil => exact ⟨stats.counters, by simp [after]⟩
  | cons incident incidents ih =>
    obtain ⟨counted, hc⟩ := exists_counters_foldl incident.counters stats
    rw [after_cons, hc]
    obtain ⟨counted, hi⟩ := ih _
    refine ⟨counted, hi.trans ?_⟩
    cases hs : incident.sample? with
    | none => simp [hs]
    | some ms => simp [hs, StatsUpdate.apply, addLatency]

lemma after_of_harmless {incidents : List Incident} (h : incidents ⊆ Incident.harmless)
    (stats : Stats) : stats.after incidents = stats := by
  rw [after, Incident.updates_of_harmless h]
  rfl

end Stats

namespace Client

variable {σ : Type}

def noted (client : Client) (net : Net σ) (now : Duration) (wait : Wait) (move : Move) :
    List Incident :=
  ((client.turnOn net).move now wait move).1.incidents

end Client

namespace World

variable {σ : Type}

lemma stats_record (world : World σ) (id : UInt64) (incidents : List Incident) :
    (world.record (incidents.map (.client id))).stats = world.stats.after incidents := by
  have hu : (incidents.map (Event.client id)).flatMap Event.updates =
      incidents.flatMap Incident.updates := by
    rw [List.flatMap_map]
    rfl
  simp only [record, Stats.after, hu]

lemma stats_step (world : World σ) (happening : Happening) :
    (world.step happening).stats =
      world.stats.after (world.ofMoves Client.noted happening) := by
  rcases step_cases world happening with ⟨position, agent, move, rfl, h⟩ | ⟨_, hs, ho⟩
  · rw [step_client h, ofMoves_client h]
    exact stats_record _ _ _
  · rw [hs, ho]
    rfl

lemma countP_agents_moved {world : World σ} {position : Nat} {agent : Agent}
    (h : world.agents[position]? = some agent) (p : Agent → Bool) (move : Move) :
    (world.step (.client position move)).agents.countP p + (p agent).toNat =
      world.agents.countP p + (p (agent.moved world.net world.now move)).toNat := by
  obtain ⟨hlt, rfl⟩ := List.getElem?_eq_some_iff.mp h
  have hle := List.boole_getElem_le_countP (p := p) hlt
  rw [step_client h, agents_moved, List.countP_set hlt]
  simp only [Bool.toNat, Bool.cond_eq_ite]
  omega

/-! ### Books -/

/-- The books on a run: calls under way count as neither succeeded nor failed, and no client logs in
more often than it connected. -/
structure Books (world : World σ) (happenings : List Happening) (after : World σ) : Prop where
  attempts : after.stats.counters.get .connectionsAttempted =
    after.stats.counters.get .connectionsSucceeded + after.stats.counters.get .connectionsFailed +
      after.agents.countP fun agent => agent.wait.isDialing
  logins : after.stats.counters.get .authSucceeded +
      (after.agents.countP fun agent => agent.client.mayLogIn agent.wait) ≤
    after.stats.counters.get .connectionsSucceeded
  samples : after.stats.latencyCount ≤ after.stats.counters.get .messagesReceived
  errors : after.stats.counters.get .errors =
    after.stats.counters.get .connectionsFailed + after.stats.counters.get .authFailed +
      (world.trace (ofMoves Client.lostChats) happenings).length +
      (world.trace (ofMoves Client.lostBeats) happenings).length +
      ((world.trace (ofMoves fun client net _ _ => client.heard net) happenings).countP
        fun frame => frame.kind = .error) +
      (world.trace (ofMoves fun client net _ _ => client.readFailures net) happenings).length

lemma Fresh.books {world : World σ} (fresh : world.Fresh) : world.Books [] world where
  attempts := by
    have hn : (world.agents.countP fun agent => agent.wait.isDialing) = 0 := by
      apply List.countP_eq_zero.mpr
      intro agent ha
      simp [fresh.wait agent ha, Wait.isDialing]
    rw [hn, fresh.counters]
    rfl
  logins := by
    have hn : (world.agents.countP fun agent => agent.client.mayLogIn agent.wait) = 0 := by
      apply List.countP_eq_zero.mpr
      intro agent ha
      obtain ⟨id, settings, hc⟩ := fresh.client agent ha
      simp [fresh.wait agent ha, hc, Client.mayLogIn, Wait.isLoggingIn]
    rw [hn, fresh.counters]
    exact Nat.le_refl _
  samples := by
    rw [Stats.latencyCount, fresh.latencies]
    exact Nat.zero_le _
  errors := by
    rw [fresh.counters]
    rfl

lemma Books.step {world : World σ} {before : List Happening}
    (books : world.Books before (world.run before)) (happening : Happening) :
    world.Books (before ++ [happening]) ((world.run before).step happening) := by
  have hstats := stats_step (world.run before) happening
  have hsamples := Incident.length_samples_le ((world.run before).ofMoves Client.noted happening)
  obtain ⟨hattempts, hlogins, hlatency, herrors⟩ := books
  rcases step_cases (world.run before) happening with ⟨position, agent, move, rfl, h⟩ | ⟨ha, hs, ho⟩
  · have hmoved := agent.client.moved (world.run before).net (world.run before).now agent.wait move
    have hdial := countP_agents_moved h (fun agent => agent.wait.isDialing) move
    have hauth := countP_agents_moved h (fun agent => agent.client.mayLogIn agent.wait) move
    rw [ofMoves_client h, Client.noted] at hstats hsamples
    simp only [Agent.moved] at hdial hauth
    refine ⟨?_, ?_, ?_, ?_⟩
    · have hmove := hmoved.attempts
      simp only [hstats, Stats.get_after]
      omega
    · have hmove := hmoved.logins
      simp only [hstats, Stats.get_after]
      omega
    · rw [hstats, Stats.get_after, Stats.latencyCount_after]
      omega
    · have hmove := hmoved.errors
      simp only [hstats, Stats.get_after, trace_concat, ofMoves_client h, List.length_append,
        List.countP_append]
      omega
  · refine ⟨?_, ?_, ?_, ?_⟩
    · rwa [hs, ha]
    · rwa [hs, ha]
    · rwa [hs]
    · simpa only [hs, trace_concat, ho, List.append_nil] using herrors

theorem Fresh.run_books {world : World σ} (fresh : world.Fresh) (happenings : List Happening) :
    world.Books happenings (world.run happenings) :=
  run_induction fresh.books (fun _ happening books => books.step happening) happenings

/-- What clients do with one server and one set of statistics leaves the counters balanced: every call
to connect has succeeded or failed once no call is under way, no client logs in more often than it
connects, no sample comes without a message, and every error has its cause. -/
theorem counters_balance {world : World σ} (fresh : world.Fresh) (happenings : List Happening) :
    let after := world.run happenings
    let counters := after.stats.counters
    ((∀ agent ∈ after.agents, agent.wait.inCall = false) →
      counters.connectionsAttempted =
        counters.connectionsSucceeded + counters.connectionsFailed) ∧
    counters.authSucceeded ≤ counters.connectionsSucceeded ∧
    after.stats.latencyCount ≤ counters.messagesReceived ∧
    counters.errors =
      counters.connectionsFailed + counters.authFailed +
        (world.trace (ofMoves Client.lostChats) happenings).length +
        (world.trace (ofMoves Client.lostBeats) happenings).length +
        ((world.trace (ofMoves fun client net _ _ => client.heard net) happenings).countP
          fun frame => frame.kind = .error) +
        (world.trace (ofMoves fun client net _ _ => client.readFailures net) happenings).length ∧
    (∀ position agent session counter, after.agents[position]? = some agent →
      (after.step (.client position (.receive session))).stats.counters.get counter =
        counters.get counter +
          (((agent.client.heard after.net (.receive session)).flatMap Frame.counters).count counter +
            if counter = .errors then
              (agent.client.readFailures after.net (.receive session)).length
            else 0)) ∧
    ∀ position agent move, after.agents[position]? = some agent →
      agent.client.Uneventful after.net move →
      (after.step (.client position move)).stats = after.stats := by
  have books := fresh.run_books happenings
  refine ⟨fun hcalls => ?_, ?_, books.samples, books.errors, ?_, ?_⟩
  · have hn : ((world.run happenings).agents.countP fun agent => agent.wait.isDialing) = 0 := by
      apply List.countP_eq_zero.mpr
      intro agent ha
      simp [(Wait.not_inCall_iff.mp (hcalls agent ha)).1]
    have hattempts := books.attempts
    rwa [hn, Nat.add_zero] at hattempts
  · exact Nat.le_trans (Nat.le_add_right _ _) books.logins
  · intro position agent session counter h
    have hmoved := agent.client.moved (world.run happenings).net (world.run happenings).now
      agent.wait (.receive session)
    rw [stats_step, ofMoves_client h, Stats.get_after, Client.noted, hmoved.receptions]
  · intro position agent move h hquiet
    have hmoved := agent.client.moved (world.run happenings).net (world.run happenings).now
      agent.wait move
    rw [stats_step, ofMoves_client h]
    exact Stats.after_of_harmless (hmoved.harmless hquiet) _

def wary : World Unit where
  net := { peer := .quiet, memory := (), foreseen := [.refuses] }
  agents := [{ client := { id := 1 } }, { client := { id := 2 } }]

lemma wary_fresh : wary.Fresh :=
  fresh_of_new [1, 2] rfl rfl rfl rfl

/-- One client is refused, the other loses its connection and cannot send a heartbeat. -/
def mishaps : List Happening :=
  [.client 0 (.begin (.connect 5)), .client 1 (.begin (.connect 5)), .peer (.reset 0),
    .client 1 (.begin .heartbeat)]

theorem wary_counters_balance :
    wary.Fresh ∧
    (∀ agent ∈ (wary.run mishaps).agents, agent.wait.inCall = false) ∧
    (wary.run mishaps).stats.counters =
      { connectionsAttempted := 2, connectionsSucceeded := 1, connectionsFailed := 1, errors := 2 } ∧
    (wary.run mishaps).stats.counters.connectionsAttempted =
      (wary.run mishaps).stats.counters.connectionsSucceeded +
        (wary.run mishaps).stats.counters.connectionsFailed := by
  have hcalls : ∀ agent ∈ (wary.run mishaps).agents, agent.wait.inCall = false := by decide
  exact ⟨wary_fresh, hcalls, by decide, (counters_balance wary_fresh mishaps).1 hcalls⟩

end World

end ChatLoad
