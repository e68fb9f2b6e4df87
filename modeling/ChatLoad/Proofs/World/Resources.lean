import ChatLoad.Proofs.Client.Equipment
import ChatLoad.Proofs.World.Correlation
import ChatLoad.Proofs.World.Takedown

/-! Whatever was asked of a client and whatever its peers did, it holds what its state promises. -/

namespace ChatLoad

namespace World

variable {σ : Type} {world : World σ} {position : Nat} {happenings : List Happening} {agent : Agent}

structure Furnished (world : World σ) (position : Nat) (happenings : List Happening) (agent : Agent) :
    Prop where
  stands : agent.client.Stands agent.wait
    (Standing.afterAll ⟨.disconnected, false⟩ (world.notes position happenings))
  settled : agent.client.Settled agent.wait
  handed : agent.client.Handed

lemma Furnished.move (furnished : world.Furnished position happenings agent)
    (h : (world.run happenings).agents[position]? = some agent) (move : Move) :
    world.Furnished position (happenings ++ [.client position move])
      (agent.moved (world.run happenings).net (world.run happenings).now move) := by
  have hmoved := agent.client.moved (world.run happenings).net (world.run happenings).now agent.wait
    move
  refine ⟨?_, hmoved.settled furnished.settled, hmoved.handed furnished.settled furnished.handed⟩
  rw [notes_concat, ofMovesBy_self h, Standing.afterAll_append]
  exact hmoved.stands furnished.stands

lemma Furnished.other (furnished : world.Furnished position happenings agent) {happening : Happening}
    (hby : happening.isBy (· == position) = false) :
    world.Furnished position (happenings ++ [happening]) agent := by
  refine ⟨?_, furnished.settled, furnished.handed⟩
  rw [notes_concat, ofMovesBy_other hby, List.append_nil]
  exact furnished.stands

theorem Fresh.run_furnished (fresh : world.Fresh) (happenings : List Happening) :
    ∀ agent, (world.run happenings).agents[position]? = some agent →
      world.Furnished position happenings agent := by
  refine run_position (fun agent h => ?_) (fun before agent move h furnished => furnished.move h move)
    (fun before agent happening hby furnished => furnished.other hby) happenings
  have hmem := List.mem_of_getElem? h
  obtain ⟨id, settings, hc⟩ := fresh.client agent hmem
  refine ⟨?_, ?_, ?_⟩
  · rw [hc, fresh.wait agent hmem]
    exact Client.fresh_stands id settings
  · simp [Client.Settled, hc]
  · simp [Client.Handed, hc]

/-- At any time after any run a client holds both halves of one connection when it is connected or
authenticated, and when it runs the writing half, while the reading half is with the loop of the session
that stopping will end. It is disconnected only as long as it has neither connected nor stopped. So it
never lacks a connection to log in on, and is refused a chat or a start only by its state. -/
theorem resources_match_state (fresh : world.Fresh) (happenings : List Happening)
    (h : (world.run happenings).agents[position]? = some agent) :
    agent.client.Equipped ∧
    (agent.client.state = .disconnected →
      .connected ∉ world.notes position happenings ∧ .stopped ∉ world.notes position happenings) ∧
    ∀ (net : Net σ) (now : Duration) (move : Move),
      .authFailed .notConnected ∉ agent.client.noted net now agent.wait move ∧
      (.chatRefused ∈ agent.client.noted net now agent.wait move →
        agent.client.isAuthenticated = false) ∧
      (.startSkipped ∈ agent.client.noted net now agent.wait move →
        agent.client.state ≠ .authenticated) := by
  have furnished := fresh.run_furnished happenings agent h
  have unused : world.Unused := fresh.client
  have traced := unused.run_traced happenings agent h
  refine ⟨furnished.stands.equipped traced.moored furnished.handed, fun hstate => ?_,
    furnished.stands.noted⟩
  rw [furnished.stands.state] at hstate
  exact (Standing.afterAll_disconnected _ hstate).2

/-- A running client connects anew without stopping, and starts again on the new connection. -/
def comeback : List Happening :=
  [.client 0 (.begin (.connect 5)), .peer (.deliver 0 (Frame.encode .ack 1 [])),
    .client 0 (.begin .authenticate), .client 0 (.begin (.start 100)),
    .client 0 (.begin (.connect 5)), .peer (.deliver 1 (Frame.encode .ack 2 [])),
    .client 0 (.begin .authenticate), .client 0 (.begin (.start 100)), .peer (.finish 0)]

theorem comeback_equipped :
    lone.Fresh ∧ ∃ agent, (lone.run comeback).agents[0]? = some agent ∧
      agent.client.state = .running ∧ agent.client.writer = some 1 ∧ agent.client.session = some 1 ∧
      agent.client.Equipped ∧
      .startSkipped ∈ agent.client.noted (lone.run comeback).net 0 agent.wait (.begin (.start 100)) := by
  have hend : (lone.run comeback).agents[0]?.any (fun agent => agent.client.state = .running ∧
      agent.client.writer = some 1 ∧ agent.client.session = some 1 ∧
      .startSkipped ∈ agent.client.noted (lone.run comeback).net 0 agent.wait (.begin (.start 100))) =
      true := by
    decide
  obtain ⟨agent, h, hknown⟩ := (Option.any_eq_true _ _).mp hend
  obtain ⟨hstate, hwriter, hsession, hskipped⟩ := of_decide_eq_true hknown
  obtain ⟨hequipped, -, -⟩ := resources_match_state lone_fresh comeback h
  exact ⟨lone_fresh, agent, h, hstate, hwriter, hsession, hequipped, hskipped⟩

end World

end ChatLoad
