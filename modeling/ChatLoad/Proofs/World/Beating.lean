import ChatLoad.Proofs.World.Takedown

/-! When heartbeat loops send. A loop looks at the state of its client after it has sent, so that it
sends once more when the client does not run any longer. -/

namespace ChatLoad

namespace World

variable {σ : Type} {world : World σ} {position : Nat} {happenings : List Happening} {agent : Agent}

lemma Unused.run_paced (unused : world.Unused) (happenings : List Happening) :
    ∀ agent ∈ (world.run happenings).agents, agent.client.Paced := by
  refine run_agents (p := fun client _ => client.Paced) ?_ (fun h paced => h.paced paced) happenings
  intro agent ha
  obtain ⟨id, settings, hc⟩ := unused agent ha
  constructor <;> simp [hc, Client.beating]

lemma beats_fading {bound : Nat} (h : world.agents[position]? = some agent) (led : agent.client.Led)
    (hbound : bound ≤ agent.client.sessions)
    (hstate : agent.client.state = .running → agent.client.beatingBefore bound = [])
    (later : List Happening) :
    (world.trace (ofMovesBy position (Client.beatsBefore bound)) later).length ≤
      (agent.client.beatingBefore bound).length := by
  -- Every heartbeat of an early session uses up a loop of such a session.
  induction later generalizing world agent with
  | nil => exact Nat.zero_le _
  | cons happening later ih =>
    rw [trace, List.length_append]
    cases hby : happening.isBy (· == position) with
    | false =>
      rw [ofMovesBy_other hby, List.length_nil, Nat.zero_add]
      refine ih ?_ led hbound hstate
      rw [getElem?_step_other hby (beq_self_eq_true position), h]
    | true =>
      obtain ⟨move, rfl⟩ := eq_client_of_isBy hby
      have hmoved := agent.client.moved world.net world.now agent.wait move
      obtain ⟨hfade, hstate', hbound'⟩ := hmoved.fading led hbound hstate
      have hnext : (world.step (.client position move)).agents[position]? =
          some (agent.moved world.net world.now move) := by
        obtain ⟨hlt, _⟩ := List.getElem?_eq_some_iff.mp h
        rw [step_client h, agents_moved, List.getElem?_set_self hlt]
      rw [ofMovesBy_self h]
      exact Nat.le_trans (Nat.add_le_add_left (ih hnext (hmoved.led led) hbound' hstate') _) hfade

/-- A heartbeat loop writes to the connection on which the client has started last, which is the one it
opened last as long as the client runs, and it counts nothing but what it writes. Once the client does
not run, the loops of its sessions so far send at most one more heartbeat, whatever happens. -/
theorem heartbeats_fade (unused : world.Unused) (happenings : List Happening)
    (h : (world.run happenings).agents[position]? = some agent) :
    (∀ session conn bytes,
      agent.client.writes? (world.run happenings).net (world.run happenings).now agent.wait
        (.beat session) = some (conn, bytes) →
      (world.startedOn position happenings).getLast? = some conn ∧
      (agent.client.state = .running →
        (world.opened position happenings).getLast? = some conn)) ∧
    (∀ session,
      agent.client.writes? (world.run happenings).net (world.run happenings).now agent.wait
        (.beat session) = none →
      ((world.run happenings).step (.client position (.beat session))).stats =
        (world.run happenings).stats) ∧
    (agent.client.state ≠ .running → ∀ later,
      ((world.run happenings).trace
        (ofMovesBy position (Client.beatsBefore agent.client.sessions)) later).length ≤
          agent.client.heartbeats.length) ∧
    agent.client.heartbeats.length ≤ 1 := by
  have traced := unused.run_traced happenings agent h
  have paced := unused.run_paced happenings agent (List.mem_of_getElem? h)
  have hlength : agent.client.beating.length = agent.client.heartbeats.length := List.length_map _
  refine ⟨?_, ?_, ?_, hlength ▸ traced.led.beating_length_le paced⟩
  · intro session conn bytes hwrites
    cases hloop : agent.client.heartbeat? session with
    | none => simp [Client.writes?, hloop] at hwrites
    | some loop =>
      have hconn : loop.conn = conn := by
        simp only [Client.writes?, hloop, Option.bind_some] at hwrites
        split at hwrites
        · exact congrArg Prod.fst (Option.some.inj hwrites)
        · cases hwrites
      have hhanded := traced.moored.heartbeats loop (List.mem_of_find?_eq_some hloop)
      rw [hconn] at hhanded
      exact ⟨hhanded, fun hrunning => traced.moored.running hrunning ▸ hhanded⟩
  · intro session hsilent
    have hmoved := agent.client.moved (world.run happenings).net (world.run happenings).now agent.wait
      (.beat session)
    rw [stats_step, ofMoves_client h]
    exact Stats.after_of_harmless (hmoved.harmless_of_silent hsilent) _
  · intro hstate later
    refine Nat.le_trans (beats_fading h traced.led (Nat.le_refl _) (absurd · hstate) later) ?_
    rw [← hlength]
    exact List.length_filter_le _ _

/-- The peer hangs up on a running client, and a heartbeat is due after that. -/
def hangup : List Happening :=
  [.client 0 (.begin (.connect 5)), .peer (.deliver 0 (Frame.encode .ack 1 [])),
    .client 0 (.begin .authenticate), .client 0 (.begin (.start 100)), .peer (.finish 0),
    .client 0 (.receive 0), .pass 150]

theorem hangup_heartbeats_fade :
    pair.Unused ∧ ∃ agent, (pair.run hangup).agents[0]? = some agent ∧
      agent.client.state ≠ .running ∧
      ((pair.run hangup).trace (ofMovesBy 0 (Client.beatsBefore agent.client.sessions))
        [.client 0 (.beat 0), .pass 150, .client 0 (.beat 0)]).length ≤ 1 := by
  have hagent : (pair.run hangup).agents[0]?.any
      (fun agent => agent.client.state = .stopped) = true := by
    decide
  obtain ⟨agent, h, hstopped⟩ := (Option.any_eq_true _ _).mp hagent
  have hstate : agent.client.state ≠ .running := by
    rw [of_decide_eq_true hstopped]
    decide
  obtain ⟨_, _, hfade, hone⟩ := heartbeats_fade pair_unused hangup h
  exact ⟨pair_unused, agent, h, hstate, Nat.le_trans (hfade hstate _) hone⟩

/-- The client has stopped, and its heartbeat loop still sends a heartbeat and counts it. -/
theorem stopped_client_sends_heartbeat :
    ((pair.run hangup).client? 0).map (fun client => client.state) = some .stopped ∧
    (pair.run hangup).stats.counters.heartbeatsSent = 0 ∧
    ((pair.run hangup).step (.client 0 (.beat 0))).stats.counters.heartbeatsSent = 1 := by
  decide +kernel

end World

end ChatLoad
