import ChatLoad.Proofs.Client.Sending
import ChatLoad.Proofs.World.Correlation
import ChatLoad.Proofs.World.Takedown

/-! A client that does all its sending over one connection, and the peer that reads what it has written. -/

namespace ChatLoad

def Client.sendings {σ : Type} (client : Client) (net : Net σ) (now : Duration) (wait : Wait)
    (move : Move) : List Sending :=
  client.sendingsOf wait move (client.noted net now wait move)

namespace World

variable {σ : Type}

def sendings : World σ → Happening → List Sending :=
  ofMoves Client.sendings

def written : World σ → Happening → List (ConnId × Bytes) :=
  ofMoves Client.written

/-! ### Where to -/

section

variable {world : World σ} {position : Nat}

lemma Unused.startedOn_subset (unused : world.Unused) (happenings : List Happening) :
    world.startedOn position happenings ⊆ world.opened position happenings := by
  induction happenings using List.reverseRecOn with
  | nil => exact List.Subset.refl _
  | append_singleton before happening ih =>
    rw [startedOn, opened, trace_concat, trace_concat]
    refine List.append_subset.mpr ⟨List.subset_append_of_subset_left _ ih, fun conn hconn => ?_⟩
    obtain ⟨agent, move, rfl, h, hhands⟩ := mem_ofMovesBy hconn
    have hwriter : agent.client.writer = some conn := by
      rw [Client.hands, Client.handing, Option.mem_toList] at hhands
      split at hhands
      · exact hhands
      · cases hhands
    have hlast := (unused.run_traced before agent h).moored.writer conn hwriter
    exact List.mem_append_left _ (List.mem_of_getLast? hlast)

lemma Unused.written_opened (unused : world.Unused) (happenings : List Happening) :
    ∀ entry ∈ world.trace (ofMovesBy position Client.written) happenings,
      entry.1 ∈ world.opened position happenings := by
  induction happenings using List.reverseRecOn with
  | nil => exact fun _ hentry => absurd hentry List.not_mem_nil
  | append_singleton before happening ih =>
    rw [opened, trace_concat, trace_concat]
    refine List.forall_mem_append.mpr
      ⟨fun entry hentry => List.mem_append_left _ (ih entry hentry), fun entry hentry => ?_⟩
    obtain ⟨agent, move, rfl, h, hwritten⟩ := mem_ofMovesBy hentry
    have moored := (unused.run_traced before agent h).moored
    refine List.mem_append_left _ ?_
    rcases Client.conn_of_written hwritten with hwriter | ⟨loop, hloop, hconn⟩
    · exact List.mem_of_getLast? (moored.writer _ hwriter)
    · rw [← hconn]
      exact unused.startedOn_subset before (List.mem_of_getLast? (moored.heartbeats loop hloop))

end

/-! ### On record -/

lemma recorded_step {world : World (σ × List (ConnId × Bytes))} {peer : Peer σ}
    {record : List (ConnId × Bytes)} (recorded : world.net.Recorded peer record)
    (happening : Happening) :
    (world.step happening).net.Recorded peer (record ++ world.written happening) := by
  have hsilent {net : Net (σ × List (ConnId × Bytes))} (hafter : net.Recorded peer record)
      (hnone : world.written happening = []) :
      net.Recorded peer (record ++ world.written happening) := by
    rwa [hnone, List.append_nil]
  cases happening with
  | peer action => exact hsilent (recorded.apply action) rfl
  | agenda => exact hsilent recorded.runAgenda rfl
  | pass => exact hsilent recorded rfl
  | client position move =>
    cases h : world.agents[position]? with
    | none => exact hsilent (by simpa only [step, h] using recorded) (by simp [written, ofMoves, h])
    | some agent =>
      rw [written, ofMoves_client h, net_step_client h]
      exact (agent.client.moved world.net world.now agent.wait move).recorded recorded

/-- The peer has on record what the clients have written, in the order in which they wrote it. -/
theorem recorded_run {world : World (σ × List (ConnId × Bytes))} {peer : Peer σ}
    (recorded : world.net.Recorded peer []) (happenings : List Happening) :
    (world.run happenings).net.Recorded peer (world.trace written happenings) := by
  refine run_induction
    (motive := fun before after => after.net.Recorded peer (world.trace written before))
    recorded ?_ happenings
  intro before happening hbefore
  rw [trace_concat]
  exact recorded_step hbefore happening

/-! ### One client on its own -/

/-- What can be read of what a client has written, against what it has counted. -/
structure Delivered (id : UInt64) (world : World σ) (happenings : List Happening) (after : World σ)
    (agent : Agent) : Prop where
  alone : after.agents = [agent]
  owner : agent.client.id = id
  wired : agent.client.Wired agent.wait
  legible : List.Forall₂ (fun sending entry => sending.Legible id entry.2)
    (world.trace sendings happenings) (world.trace written happenings)
  messages : after.stats.counters.get .messagesSent =
    (world.trace sendings happenings).countP Sending.isChat
  heartbeats : after.stats.counters.get .heartbeatsSent =
    (world.trace sendings happenings).countP Sending.isHeartbeat

namespace Delivered

variable {world : World σ} {id : UInt64} {happenings : List Happening} {happening : Happening}
  {agent : Agent}

lemma move (d : Delivered id world happenings (world.run happenings) agent)
    {position : Nat} (h : (world.run happenings).agents[position]? = some agent) {move : Move}
    (alone : ((world.run happenings).step (.client position move)).agents =
      [agent.moved (world.run happenings).net (world.run happenings).now move])
    (safe : (world.run happenings).ofMoves Client.lost (.client position move) = [])
    (short : ∀ body ∈ (world.run happenings).ofMoves Client.bodies (.client position move),
      body.length ≤ Header.maxBody) :
    Delivered id world (happenings ++ [.client position move])
      ((world.run happenings).step (.client position move))
      (agent.moved (world.run happenings).net (world.run happenings).now move) := by
  have hmoved := agent.client.moved (world.run happenings).net (world.run happenings).now agent.wait
    move
  rw [ofMoves_client h] at safe short
  have hsendings : (world.run happenings).sendings (.client position move) =
    agent.client.sendings (world.run happenings).net (world.run happenings).now agent.wait move :=
      ofMoves_client h _ _
  have hwritten : (world.run happenings).written (.client position move) =
    agent.client.written (world.run happenings).net (world.run happenings).now agent.wait move :=
      ofMoves_client h _ _
  have hstats := stats_step (world.run happenings) (.client position move)
  rw [ofMoves_client h] at hstats
  obtain ⟨hmessages, hheartbeats⟩ := hmoved.tally_sent d.wired
  refine ⟨alone, (hmoved.draws d.wired).1.trans d.owner, hmoved.wired d.wired, ?_, ?_, ?_⟩
  · rw [trace_concat, trace_concat, hsendings, hwritten]
    exact List.rel_append d.legible (d.owner ▸ hmoved.sends d.wired safe short)
  · rw [hstats, Stats.get_after, d.messages, trace_concat, List.countP_append, hsendings]
    exact congrArg _ hmessages
  · rw [hstats, Stats.get_after, d.heartbeats, trace_concat, List.countP_append, hsendings]
    exact congrArg _ hheartbeats

lemma pass (d : Delivered id world happenings (world.run happenings) agent)
    (alone : ((world.run happenings).step happening).agents = [agent])
    (hstats : ((world.run happenings).step happening).stats = (world.run happenings).stats)
    (hsilent : ∀ {α : Type} (f : Client → Net σ → Duration → Wait → Move → List α),
      (world.run happenings).ofMoves f happening = []) :
    Delivered id world (happenings ++ [happening]) ((world.run happenings).step happening) agent := by
  have hsendings : world.trace World.sendings (happenings ++ [happening]) =
      world.trace World.sendings happenings := by
    rw [trace_concat, World.sendings, hsilent, List.append_nil]
  have hwritten : world.trace World.written (happenings ++ [happening]) =
      world.trace World.written happenings := by
    rw [trace_concat, World.written, hsilent, List.append_nil]
  refine ⟨alone, d.owner, d.wired, ?_, ?_, ?_⟩
  · rw [hsendings, hwritten]
    exact d.legible
  · rw [hstats, hsendings]
    exact d.messages
  · rw [hstats, hsendings]
    exact d.heartbeats

end Delivered

lemma Fresh.delivered {world : World σ} (fresh : world.Fresh) {agent : Agent}
    (alone : world.agents = [agent]) : Delivered agent.client.id world [] world agent := by
  refine ⟨alone, rfl, fresh.wired (by simp [alone]), .nil, ?_, ?_⟩
  · rw [fresh.counters]
    rfl
  · rw [fresh.counters]
    rfl

theorem Fresh.run_delivered {world : World σ} (fresh : world.Fresh) {agent : Agent}
    (alone : world.agents = [agent]) (happenings : List Happening)
    (safe : world.trace (ofMoves Client.lost) happenings = [])
    (short : ∀ body ∈ world.trace (ofMoves Client.bodies) happenings,
      body.length ≤ Header.maxBody) :
    ∃ after, Delivered agent.client.id world happenings (world.run happenings) after := by
  induction happenings using List.reverseRecOn with
  | nil => exact ⟨agent, fresh.delivered alone⟩
  | append_singleton happenings happening ih =>
    rw [trace_concat] at safe short
    obtain ⟨hsafe, hsafe'⟩ := List.append_eq_nil_iff.mp safe
    obtain ⟨hshort, hshort'⟩ := List.forall_mem_append.mp short
    obtain ⟨before, d⟩ := ih hsafe hshort
    rw [run_append]
    rcases step_alone d.alone happening with
      ⟨position, move, rfl, h, hagents⟩ | ⟨hagents, hstats, hsilent⟩
    · exact ⟨_, d.move h hagents hsafe' hshort'⟩
    · exact ⟨before, d.pass hagents hstats hsilent⟩

lemma trace_alone {α : Type} {world : World σ} {agent : Agent} (alone : world.agents = [agent])
    (f : Client → Net σ → Duration → Wait → Move → List α) (happenings : List Happening) :
    world.trace (ofMoves f) happenings = world.trace (ofMovesBy 0 f) happenings := by
  induction happenings generalizing world agent with
  | nil => rfl
  | cons happening later ih =>
    have hone : world.ofMoves f happening = world.ofMovesBy 0 f happening := by
      cases hby : happening.isBy (· == 0) with
      | true => rw [ofMovesBy, if_pos hby]
      | false =>
        rw [ofMovesBy_other hby]
        cases happening with
        | client position move =>
          have hposition : position ≠ 0 := by simpa [Happening.isBy] using hby
          have hnone : world.agents[position]? = none := by
            rw [alone, List.getElem?_eq_none_iff]
            exact Nat.one_le_iff_ne_zero.mpr hposition
          simp only [ofMoves, hnone]
        | peer | agenda | pass => rfl
    rw [trace, trace, hone]
    rcases step_alone alone happening with ⟨_, _, _, _, hagents⟩ | ⟨hagents, _⟩
    · rw [ih hagents]
    · rw [ih hagents]

/-- A client that opens one connection, on which no write fails, and whose chats fit into frames. All
that it writes goes to this connection. However the bytes are cut up, a reader is told of one frame for
everything the client has sent, in the order in which it was sent, and of nothing else but the end of
the stream, if it comes to an end; the client has counted just the chats and the heartbeats of it. -/
theorem sendings_reach_peer {world : World (σ × List (ConnId × Bytes))} (fresh : world.Fresh)
    {agent : Agent} (alone : world.agents = [agent]) {peer : Peer σ}
    (recorded : world.net.Recorded peer []) (happenings : List Happening)
    (single : (world.opened 0 happenings).length ≤ 1)
    (safe : world.trace (ofMoves Client.lost) happenings = [])
    (short : ∀ body ∈ world.trace (ofMoves Client.bodies) happenings,
      body.length ≤ Header.maxBody) :
    let after := world.run happenings
    let record := after.net.memory.2
    (∀ entry ∈ record, world.opened 0 happenings = [entry.1]) ∧
    ∃ frames, List.Forall₂ (Sending.Conveyed agent.client.id) (world.trace sendings happenings)
        frames ∧
      (∀ inputs, Delivery.bytes (Inbound.arrivals inputs) = (record.map (·.2)).flatten →
        Inbound.Tells inputs frames) ∧
      after.stats.counters.messagesSent =
        frames.countP (fun frame => frame.kind = .singleChat ∨ frame.kind = .groupChat) ∧
      after.stats.counters.heartbeatsSent = frames.countP fun frame => frame.kind = .heartbeat := by
  intro after record
  have hrecord : record = world.trace written happenings :=
    (recorded_run recorded happenings).record
  obtain ⟨last, d⟩ := fresh.run_delivered alone happenings safe short
  obtain ⟨frames, hall, hparse⟩ := Sending.parse_legible d.legible
  obtain ⟨hchats, hbeats⟩ := Sending.countP_conveyed hall
  refine ⟨fun entry hentry => ?_, frames, hall, fun inputs hinputs => ?_, ?_, ?_⟩
  · have unused : world.Unused := fresh.client
    rw [hrecord, written, trace_alone alone] at hentry
    have hopened := unused.written_opened happenings entry hentry
    obtain ⟨conn, hconn⟩ :=
      List.length_eq_one_iff.mp (Nat.le_antisymm single (List.length_pos_of_mem hopened))
    rw [hconn] at hopened ⊢
    rw [List.mem_singleton.mp hopened]
  · rw [← hrecord, ← hinputs] at hparse
    exact Inbound.tells_of_parse hparse
  · exact d.messages.trans hchats
  · exact d.heartbeats.trans hbeats

def heeded : World (Unit × List (ConnId × Bytes)) where
  net := { peer := Peer.quiet.recorded, memory := ((), []) }
  agents := [{ client := { id := 7 } }]

lemma heeded_fresh : heeded.Fresh :=
  fresh_of_new [7] rfl rfl rfl rfl

/-- The client logs in, and sends two messages and two heartbeats. -/
def talk : List Happening :=
  [.client 0 (.begin (.connect 5)), .peer (.deliver 0 (Frame.encode .ack 1 [])),
    .client 0 (.begin .authenticate), .client 0 (.begin (.start 100)),
    .client 0 (.begin (.single 2 "one")), .client 0 (.begin .heartbeat), .pass 150,
    .client 0 (.beat 0), .client 0 (.begin (.group 3 "two"))]

theorem heeded_sendings_reach_peer :
    heeded.Fresh ∧ heeded.net.Recorded Peer.quiet [] ∧ (heeded.opened 0 talk).length = 1 ∧
    heeded.trace (ofMoves Client.lost) talk = [] ∧
    (∀ body ∈ heeded.trace (ofMoves Client.bodies) talk, body.length ≤ Header.maxBody) ∧
    (heeded.trace sendings talk).length = 5 ∧
    ∃ frames, List.Forall₂ (Sending.Conveyed 7) (heeded.trace sendings talk) frames ∧
      (heeded.run talk).stats.counters.messagesSent =
        frames.countP (fun frame => frame.kind = .singleChat ∨ frame.kind = .groupChat) ∧
      (heeded.run talk).stats.counters.heartbeatsSent =
        frames.countP fun frame => frame.kind = .heartbeat := by
  have recorded : heeded.net.Recorded Peer.quiet [] := ⟨rfl, rfl⟩
  have single : (heeded.opened 0 talk).length = 1 := by decide +kernel
  have safe : heeded.trace (ofMoves Client.lost) talk = [] := by decide +kernel
  have short : ∀ body ∈ heeded.trace (ofMoves Client.bodies) talk,
      body.length ≤ Header.maxBody := by decide +kernel
  have five : (heeded.trace sendings talk).length = 5 := by decide +kernel
  obtain ⟨_, frames, hall, _, hchats, hbeats⟩ :=
    sendings_reach_peer heeded_fresh rfl recorded talk single.le safe short
  exact ⟨heeded_fresh, recorded, single, safe, short, five, frames, hall, hchats, hbeats⟩

end World

end ChatLoad
