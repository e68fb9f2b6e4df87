import ChatLoad.Proofs.Client.Mooring
import ChatLoad.Proofs.World.Stopping

/-! What can take a client down: its own stopping, or the end of the connection that its last start has
handed to a receive loop. -/

namespace ChatLoad

namespace Client

variable {σ : Type}

def opens (client : Client) (net : Net σ) (now : Duration) (wait : Wait) (move : Move) :
    List ConnId :=
  (opening net (client.noted net now wait move)).toList

def hands (client : Client) (net : Net σ) (now : Duration) (wait : Wait) (move : Move) :
    List ConnId :=
  (client.handing (client.noted net now wait move)).toList

end Client

namespace World

variable {σ : Type}

section

variable {α : Type} (world : World σ) (position : Nat)

def ofMovesBy (f : Client → Net σ → Duration → Wait → Move → List α) (world : World σ)
    (happening : Happening) : List α :=
  if happening.isBy (· == position) then world.ofMoves f happening else []

/-- The connections that a client has opened, in order. -/
def opened (happenings : List Happening) : List ConnId :=
  world.trace (ofMovesBy position Client.opens) happenings

/-- The connections on which a client has started, in order. -/
def startedOn (happenings : List Happening) : List ConnId :=
  world.trace (ofMovesBy position Client.hands) happenings

def notes (happenings : List Happening) : List Incident :=
  world.trace (ofMovesBy position Client.noted) happenings

/-- A client that was running has connected, and was not stopped at any moment since. -/
def Reconnected (happenings : List Happening) : Prop :=
  ∃ earlier limit later client,
    happenings = earlier ++ .client position (.begin (.connect limit)) :: later ∧
    (world.run earlier).client? position = some client ∧ client.state = .running ∧
    .connected ∈ (world.run earlier).notes position [.client position (.begin (.connect limit))] ∧
    ∀ between after, between <+: later →
      (world.run (earlier ++ .client position (.begin (.connect limit)) :: between)).client? position =
        some after → after.state ≠ .stopped

/-- In this move an agent takes a frame for the answer to its AUTH, and takes it from the connection that
was opened last. -/
def TakesLatest (happenings : List Happening) (agent : Agent) (move : Move) : Prop :=
  ∃ reader frame, agent.client.reader = some reader ∧
    (world.opened position happenings).getLast? = some reader.conn ∧
    agent.client.answered (world.run happenings).net (world.run happenings).now agent.wait move
      reader.conn = [.frame frame]

end

section

variable {world : World σ} {position : Nat} {happenings : List Happening} {agent : Agent}

lemma ofMovesBy_self {α : Type} (h : world.agents[position]? = some agent)
    (f : Client → Net σ → Duration → Wait → Move → List α) (move : Move) :
    world.ofMovesBy position f (.client position move) =
      f agent.client world.net world.now agent.wait move := by
  rw [ofMovesBy, if_pos (by simp [Happening.isBy]), ofMoves_client h]

lemma ofMovesBy_other {α : Type} {happening : Happening}
    (hby : happening.isBy (· == position) = false)
    (f : Client → Net σ → Duration → Wait → Move → List α) :
    world.ofMovesBy position f happening = [] := by
  rw [ofMovesBy, hby]
  rfl

lemma eq_client_of_isBy {happening : Happening} (hby : happening.isBy (· == position)) :
    ∃ move, happening = .client position move := by
  cases happening with
  | client place move =>
    obtain rfl : place = position := by simpa [Happening.isBy] using hby
    exact ⟨move, rfl⟩
  | peer | agenda | pass => cases hby

lemma mem_ofMovesBy {α : Type} {f : Client → Net σ → Duration → Wait → Move → List α}
    {happening : Happening} {x : α} (hx : x ∈ world.ofMovesBy position f happening) :
    ∃ agent move, happening = .client position move ∧ world.agents[position]? = some agent ∧
      x ∈ f agent.client world.net world.now agent.wait move := by
  cases hby : happening.isBy (· == position) with
  | false =>
    rw [ofMovesBy_other hby] at hx
    cases hx
  | true =>
    obtain ⟨move, rfl⟩ := eq_client_of_isBy hby
    cases h : world.agents[position]? with
    | none => simp [ofMovesBy, ofMoves, h] at hx
    | some agent =>
      rw [ofMovesBy_self h] at hx
      exact ⟨agent, move, rfl, rfl, hx⟩

lemma client?_eq_some {client : Client} (h : world.client? position = some client) :
    ∃ agent, world.agents[position]? = some agent ∧ agent.client = client :=
  Option.map_eq_some_iff.mp h

lemma notes_concat (happening : Happening) :
    world.notes position (happenings ++ [happening]) =
      world.notes position happenings ++ (world.run happenings).ofMovesBy position Client.noted
        happening :=
  trace_concat _ _ _ _

lemma Reconnected.alive (h : world.Reconnected position happenings) {client : Client}
    (hclient : (world.run happenings).client? position = some client) : client.state ≠ .stopped := by
  obtain ⟨_, _, later, _, rfl, _, _, _, hsince⟩ := h
  exact hsince later client List.prefix_rfl hclient

lemma Reconnected.concat (h : world.Reconnected position happenings) {happening : Happening}
    (halive : ∀ after, (world.run (happenings ++ [happening])).client? position = some after →
      after.state ≠ .stopped) : world.Reconnected position (happenings ++ [happening]) := by
  obtain ⟨earlier, limit, later, client, rfl, hclient, hrunning, hconnected, hsince⟩ := h
  refine ⟨earlier, limit, later ++ [happening], client, List.append_assoc _ _ _, hclient, hrunning,
    hconnected, fun between after hbetween hafter => ?_⟩
  rcases List.prefix_concat_iff.mp hbetween with rfl | hbetween
  · refine halive after ?_
    rwa [List.append_assoc]
  · exact hsince between after hbetween hafter

structure Traced (world : World σ) (position : Nat) (happenings : List Happening)
    (agent : Agent) : Prop where
  led : agent.client.Led
  settled : agent.client.Settled agent.wait
  moored : agent.client.Moored (world.opened position happenings).getLast?
    (world.startedOn position happenings).getLast?
  listens : agent.client.receivers ≠ [] →
    agent.client.state = .running ∨ world.Reconnected position happenings

lemma Traced.alive (traced : world.Traced position happenings agent)
    (h : (world.run happenings).agents[position]? = some agent)
    (hlistens : agent.client.receivers ≠ []) : agent.client.state ≠ .stopped := by
  rcases traced.listens hlistens with hrunning | hanew
  · simp [hrunning]
  · exact hanew.alive (by rw [client?, h]; rfl)

lemma getLast?_concat_toList {α : Type} (before : List α) (last : Option α) :
    (before ++ last.toList).getLast? = last.or before.getLast? := by
  cases last <;> simp

lemma Traced.move (traced : world.Traced position happenings agent)
    (h : (world.run happenings).agents[position]? = some agent) (move : Move) :
    world.Traced position (happenings ++ [.client position move])
      (agent.moved (world.run happenings).net (world.run happenings).now move) := by
  have hmoved := agent.client.moved (world.run happenings).net (world.run happenings).now agent.wait
    move
  have hnotes := ofMovesBy_self h Client.noted move
  refine ⟨hmoved.led traced.led, hmoved.settled traced.settled, ?_, fun hlistens => ?_⟩
  · have hnext := hmoved.moored traced.led traced.moored
    rw [opened, startedOn, trace_concat, trace_concat, ofMovesBy_self h, ofMovesBy_self h, Client.opens,
      Client.hands, getLast?_concat_toList, getLast?_concat_toList]
    exact hnext
  · rcases hmoved.astray traced.led traced.settled (traced.alive h) hlistens with
      hrun | ⟨hold, halive, hanew⟩
    · exact .inl hrun
    · have hafter (after : Client) (hc : (world.run (happenings ++ [.client position move])).client?
          position = some after) : after.state ≠ .stopped := by
        rw [run_append] at hc
        obtain ⟨next, hnext, rfl⟩ := client?_eq_some hc
        obtain ⟨_, rfl⟩ | ⟨hne, _⟩ := agents_step_client h hnext
        · exact halive
        · exact absurd rfl hne
      by_cases hstate : agent.client.state = .running
      · obtain ⟨limit, rfl, hconnected⟩ := hanew hstate
        refine .inr ⟨happenings, limit, [], agent.client, rfl, ?_, hstate, ?_, ?_⟩
        · rw [client?, h]
          rfl
        · simpa [notes, trace, hnotes, Client.noted] using hconnected
        · intro between after hbetween
          rw [List.prefix_nil.mp hbetween]
          exact hafter after
      · exact .inr (((traced.listens hold).resolve_left hstate).concat hafter)

lemma Traced.other (traced : world.Traced position happenings agent) {happening : Happening}
    (hby : happening.isBy (· == position) = false) :
    world.Traced position (happenings ++ [happening]) agent := by
  refine ⟨traced.led, traced.settled, ?_, fun hlistens => ?_⟩
  · have hmoored := traced.moored
    rwa [opened, startedOn, trace_concat, trace_concat, ofMovesBy_other hby, ofMovesBy_other hby,
      List.append_nil, List.append_nil]
  · refine (traced.listens hlistens).imp_right fun hanew => hanew.concat fun after hafter => ?_
    refine hanew.alive ?_
    rwa [run_append, run_cons, run_nil, client?,
      getElem?_step_other hby (beq_self_eq_true position)] at hafter

/-- What one agent keeps in every move of its own, and whatever else happens, holds of it after every run. -/
lemma run_position {motive : List Happening → Agent → Prop}
    (start : ∀ agent, world.agents[position]? = some agent → motive [] agent)
    (move : ∀ before agent move, (world.run before).agents[position]? = some agent →
      motive before agent → motive (before ++ [.client position move])
        (agent.moved (world.run before).net (world.run before).now move))
    (other : ∀ before agent happening, Happening.isBy (· == position) happening = false →
      motive before agent → motive (before ++ [happening]) agent)
    (happenings : List Happening) : ∀ agent,
    (world.run happenings).agents[position]? = some agent → motive happenings agent := by
  refine run_induction (motive := fun before after => ∀ agent,
    after.agents[position]? = some agent → motive before agent) start ?_ happenings
  intro before happening ih after hafter
  cases hby : happening.isBy (· == position) with
  | false =>
    rw [getElem?_step_other hby (beq_self_eq_true position)] at hafter
    exact other before after happening hby (ih after hafter)
  | true =>
    obtain ⟨act, rfl⟩ := eq_client_of_isBy hby
    cases h : (world.run before).agents[position]? with
    | none =>
      rw [step, h] at hafter
      simp [h] at hafter
    | some agent =>
      obtain ⟨_, rfl⟩ | ⟨hne, _⟩ := agents_step_client h hafter
      · exact move before agent act h (ih agent h)
      · exact absurd rfl hne

theorem Unused.run_traced (unused : world.Unused) (happenings : List Happening) :
    ∀ agent, (world.run happenings).agents[position]? = some agent →
      world.Traced position happenings agent := by
  refine run_position (fun agent h => ?_) (fun before agent move h traced => traced.move h move)
    (fun before agent happening hby traced => traced.other hby) happenings
  obtain ⟨id, settings, hc⟩ := unused agent (List.mem_of_getElem? h)
  refine ⟨?_, ?_, ?_, ?_⟩
  · constructor <;> simp [hc]
  · simp [Client.Settled, hc]
  · constructor <;> simp [hc]
  · simp [hc]

/-- The state of a client changes through an operation of its own, of which only stopping makes for
`stopped`, or when the connection of the last start comes to its end or fails. An AUTH is answered, at
once or later, by a frame from the connection opened last. The connection of the last start is the one
opened last as long as the client runs; a client that does not run any more has connected while it ran,
and was not stopped since. -/
theorem takedown_of_session (unused : world.Unused) (happenings : List Happening)
    (h : (world.run happenings).agents[position]? = some agent) {happening : Happening}
    {after : Client} (hafter : ((world.run happenings).step happening).client? position = some after)
    (hstate : after.state ≠ agent.client.state) :
    (∃ act, happening = .client position (.begin act) ∧ (after.state = .stopped → act = .stop) ∧
      (after.state = .authenticated →
        act = .authenticate ∧ world.TakesLatest position happenings agent (.begin act))) ∨
    (happening = .client position .resume ∧ after.state = .authenticated ∧
      world.TakesLatest position happenings agent .resume) ∨
    ∃ session loop, happening = .client position (.receive session) ∧
      agent.client.receiver? session = some loop ∧ after.state = .stopped ∧
      (world.run happenings).net.Over loop.reader.conn ∧
      (world.startedOn position happenings).getLast? = some loop.reader.conn ∧
      (agent.client.state = .running →
        (world.opened position happenings).getLast? = some loop.reader.conn) ∧
      (agent.client.state ≠ .running → world.Reconnected position happenings) := by
  have traced := unused.run_traced happenings agent h
  obtain ⟨next, hnext, rfl⟩ := client?_eq_some hafter
  cases hby : happening.isBy (· == position) with
  | false =>
    rw [getElem?_step_other hby (beq_self_eq_true position), h, Option.some.injEq] at hnext
    exact absurd (hnext ▸ rfl) hstate
  | true =>
    obtain ⟨move, rfl⟩ := eq_client_of_isBy hby
    obtain ⟨_, rfl⟩ | ⟨hne, _⟩ := agents_step_client h hnext
    · have hmoved := agent.client.moved (world.run happenings).net (world.run happenings).now
        agent.wait move
      have htakes (taken : agent.client.TakesAnswer (world.run happenings).net
          (world.run happenings).now agent.wait move) :
          world.TakesLatest position happenings agent move := by
        obtain ⟨reader, frame, hreader, hframe⟩ := taken
        exact ⟨reader, frame, hreader, traced.moored.reader reader hreader, hframe⟩
      rcases hmoved.restated hstate with ⟨act, rfl, hstop, hauth⟩ | ⟨rfl, hauth, taken⟩ |
        ⟨session, loop, rfl, hloop, hstopped, hover⟩
      · exact .inl ⟨act, rfl, hstop, fun hs => (hauth hs).imp_right htakes⟩
      · exact .inr (.inl ⟨rfl, hauth, htakes taken⟩)
      · have hmem := List.mem_of_find?_eq_some hloop
        have hhanded := traced.moored.receivers loop hmem
        refine .inr (.inr ⟨session, loop, rfl, hloop, hstopped, hover, hhanded, ?_, ?_⟩)
        · exact fun hrunning => traced.moored.running hrunning ▸ hhanded
        · exact (traced.listens (List.ne_nil_of_mem hmem)).resolve_left
    · exact absurd rfl hne

end

/-- A running client connects anew, and then the peer ends the old connection. -/
def switch : List Happening :=
  [.client 0 (.begin (.connect 5)), .peer (.deliver 0 (Frame.encode .ack 1 [])),
    .client 0 (.begin .authenticate), .client 0 (.begin (.start 100)),
    .client 0 (.begin (.connect 5)), .peer (.finish 0)]

theorem switch_takedown :
    pair.Unused ∧ ∃ agent after session loop, (pair.run switch).agents[0]? = some agent ∧
      ((pair.run switch).step (.client 0 (.receive 0))).client? 0 = some after ∧
      after.state ≠ agent.client.state ∧ agent.client.receiver? session = some loop ∧
      (pair.startedOn 0 switch).getLast? = some loop.reader.conn ∧ pair.Reconnected 0 switch := by
  have hbefore : (pair.run switch).agents[0]?.any
      (fun agent => agent.client.state = .connected) = true := by
    decide
  have hnext : (((pair.run switch).step (.client 0 (.receive 0))).client? 0).any
      (fun client => client.state = .stopped) = true := by
    decide
  obtain ⟨agent, h, hconnected⟩ := (Option.any_eq_true _ _).mp hbefore
  obtain ⟨after, hafter, hstopped⟩ := (Option.any_eq_true _ _).mp hnext
  have hconnected := of_decide_eq_true hconnected
  have hstate : after.state ≠ agent.client.state := by
    rw [of_decide_eq_true hstopped, hconnected]
    decide
  rcases takedown_of_session pair_unused switch h hafter hstate with
    ⟨act, hact, _⟩ | ⟨hresume, _⟩ | ⟨session, loop, _, hloop, _, _, hhanded, _, hanew⟩
  · cases hact
  · cases hresume
  · exact ⟨pair_unused, agent, after, session, loop, h, hafter, hstate, hloop, hhanded,
      hanew (by rw [hconnected]; decide)⟩

/-- The client is connected to a peer that did nothing to the new connection, and is stopped by the end
of the old one. -/
theorem old_connection_stops_newer :
    pair.opened 0 switch = [0, 1] ∧
    ((pair.run switch).client? 0).map (fun client => (client.state, client.writer)) =
      some (.connected, some 1) ∧
    (pair.run switch).net.incoming 1 = [] ∧
    (((pair.run switch).step (.client 0 (.receive 0))).client? 0).map (fun client => client.state) =
      some .stopped := by
  decide

end World

end ChatLoad
