import ChatLoad.Proofs.Client.Sessions
import ChatLoad.Proofs.World.Rounds
import ChatLoad.Scenario.Population

/-! Stopping is final: until it connects again, a client that was stopped has no part in what happens, and
the same holds of all clients after a population was torn down. -/

namespace ChatLoad

namespace Happening

/-- Whether it is a move of one of these clients. -/
def isBy (among : Nat → Bool) : Happening → Bool
  | client position _ => among position
  | _ => false

def isConnect : Happening → Bool
  | client _ (.begin (.connect _)) => true
  | _ => false

end Happening

namespace World

variable {σ : Type}

/-- Nothing was asked of the clients so far; there may be connections of others. -/
def Unused (world : World σ) : Prop :=
  ∀ agent ∈ world.agents, ∃ id settings, agent.client = { id, settings }

lemma populate_unused (world : World σ) (count : Nat) : (world.populate count).Unused := by
  intro agent ha
  obtain ⟨i, _, rfl⟩ := List.mem_map.mp ha
  exact ⟨_, _, rfl⟩

lemma Unused.led {world : World σ} (unused : world.Unused) :
    ∀ agent ∈ world.agents, agent.client.Led := by
  intro agent ha
  obtain ⟨id, settings, hc⟩ := unused agent ha
  constructor <;> simp [hc]

lemma run_led {world : World σ} (led : ∀ agent ∈ world.agents, agent.client.Led)
    (happenings : List Happening) : ∀ agent ∈ (world.run happenings).agents, agent.client.Led :=
  run_agents (p := fun client _ => client.Led) led (fun h led => h.led led) happenings

lemma Reaches.led {world reached : World σ} (h : world.Reaches reached)
    (led : ∀ agent ∈ world.agents, agent.client.Led) :
    ∀ agent ∈ reached.agents, agent.client.Led := by
  obtain ⟨happenings, hsame⟩ := h
  intro agent ha
  obtain ⟨position, hp⟩ := List.getElem?_of_mem ha
  obtain ⟨agent', ha', hclient, _⟩ := hsame.symm.agent hp
  exact hclient ▸ run_led led happenings agent' (List.mem_of_getElem? ha')

/-! ### Moves of clients at rest -/

/-- These clients have stopped, and no call of theirs is under way. -/
def Resting (among : Nat → Bool) (world : World σ) : Prop :=
  ∀ position agent, among position → world.agents[position]? = some agent →
    agent.client.AtRest ∧ agent.wait.inCall = false

/-- The same but for these clients. -/
structure Beside (among : Nat → Bool) (world other : World σ) : Prop where
  net : world.net = other.net
  now : world.now = other.now
  stats : world.stats = other.stats
  agents : ∀ position, among position = false → world.agents[position]? = other.agents[position]?

section

variable {among : Nat → Bool} {world other : World σ} {happening : Happening}

lemma Beside.refl (world : World σ) : world.Beside among world :=
  ⟨rfl, rfl, rfl, fun _ _ => rfl⟩

lemma Resting.step_by (resting : world.Resting among) (hby : happening.isBy among)
    (hno : happening.isConnect = false) :
    (world.step happening).Beside among world ∧ (world.step happening).Resting among ∧
      ∀ position, (world.step happening).client? position = world.client? position := by
  cases happening with
  | peer | agenda | pass => cases hby
  | client place move =>
    cases h : world.agents[place]? with
    | none =>
      have hsame : world.step (.client place move) = world := by simp only [step, h]
      rw [hsame]
      exact ⟨.refl world, resting, fun _ => rfl⟩
    | some agent =>
      obtain ⟨hrest, hidle⟩ := resting place agent hby h
      have hconnect : ∀ limit, move ≠ .begin (.connect limit) := by
        rintro limit rfl
        cases hno
      obtain ⟨hclient, hnet, hidle', hupdates⟩ :=
        (agent.client.moved world.net world.now agent.wait move).at_rest hrest hidle hconnect
      have hmoved : (agent.moved world.net world.now move).client = agent.client := hclient
      obtain ⟨hlt, _⟩ := List.getElem?_eq_some_iff.mp h
      have hagents : (world.step (.client place move)).agents =
          world.agents.set place (agent.moved world.net world.now move) := by
        rw [step_client h, agents_moved]
      refine ⟨⟨?_, ?_, ?_, ?_⟩, ?_, ?_⟩
      · rw [net_step_client h, hnet]
      · rw [step_client h]
        rfl
      · rw [stats_step, ofMoves_client h, Stats.after, Client.noted, hupdates]
        rfl
      · intro position hposition
        have hne : place ≠ position := fun heq => by simp_all [Happening.isBy]
        rw [hagents, List.getElem?_set_ne hne]
      · intro position after hamong hafter
        rcases agents_step_client h hafter with ⟨_, rfl⟩ | ⟨_, hold⟩
        · exact ⟨hmoved ▸ hrest, hidle'⟩
        · exact resting position after hamong hold
      · intro position
        rw [client?, client?, hagents, List.getElem?_set]
        by_cases heq : place = position
        · rw [if_pos heq, if_pos hlt, ← heq, h, Option.map_some, Option.map_some, hmoved]
        · rw [if_neg heq]

lemma getElem?_step_other (hby : happening.isBy among = false) {position : Nat}
    (hamong : among position) : (world.step happening).agents[position]? = world.agents[position]? := by
  rcases step_cases world happening with ⟨place, mover, move, rfl, h⟩ | ⟨hsame, _⟩
  · have hne : place ≠ position := fun heq => by simp_all [Happening.isBy]
    rw [step_client h, agents_moved, List.getElem?_set_ne hne]
  · rw [hsame]

lemma Beside.step (beside : world.Beside among other) (hby : happening.isBy among = false) :
    (world.step happening).Beside among (other.step happening) := by
  obtain ⟨hnet, hnow, hstats, hagents⟩ := beside
  cases happening with
  | peer action => exact ⟨congrArg (·.apply action) hnet, hnow, hstats, hagents⟩
  | agenda => exact ⟨by simp only [World.step, hnet, hnow], hnow, hstats, hagents⟩
  | pass span => exact ⟨hnet, congrArg (· + span) hnow, hstats, hagents⟩
  | client place move =>
    have hsame := hagents place hby
    cases ha : world.agents[place]? with
    | none =>
      rw [ha] at hsame
      simpa only [World.step, ha, ← hsame] using (⟨hnet, hnow, hstats, hagents⟩ : Beside _ _ _)
    | some mover =>
      have ha' := hsame.symm.trans ha
      refine ⟨?_, ?_, ?_, ?_⟩
      · rw [net_step_client ha, net_step_client ha', hnet, hnow]
      · rw [step_client ha, step_client ha']
        exact hnow
      · rw [stats_step, stats_step, ofMoves_client ha, ofMoves_client ha', hnet, hnow, hstats]
      · intro position hposition
        rw [step_client ha, step_client ha', agents_moved, agents_moved, List.getElem?_set,
          List.getElem?_set, hnet, hnow]
        by_cases heq : place = position
        · obtain ⟨hlt, _⟩ := List.getElem?_eq_some_iff.mp ha
          obtain ⟨hlt', _⟩ := List.getElem?_eq_some_iff.mp ha'
          rw [if_pos heq, if_pos heq, if_pos hlt, if_pos hlt']
        · rw [if_neg heq, if_neg heq]
          exact hagents position hposition

/-- Without the moves of clients at rest everything else comes out the same. -/
lemma Resting.run (resting : world.Resting among) (beside : world.Beside among other)
    {later : List Happening}
    (hno : ∀ happening ∈ later, happening.isBy among → happening.isConnect = false) :
    (world.run later).Beside among (other.run (later.filter fun h => !h.isBy among)) ∧
      ∀ position, among position → (world.run later).client? position = world.client? position := by
  induction later generalizing world other with
  | nil => exact ⟨beside, fun _ _ => rfl⟩
  | cons happening later ih =>
    have hlater : ∀ other ∈ later, other.isBy among → other.isConnect = false :=
      fun other ho => hno other (List.mem_cons_of_mem _ ho)
    cases hby : happening.isBy among with
    | false =>
      have hsame (position : Nat) (hamong : among position) :
          (world.step happening).agents[position]? = world.agents[position]? :=
        getElem?_step_other hby hamong
      have hresting : (world.step happening).Resting among := by
        intro position agent hamong h
        exact resting position agent hamong (hsame position hamong ▸ h)
      obtain ⟨hbeside, hclients⟩ := ih hresting (beside.step hby) hlater
      rw [List.filter_cons_of_pos (by simp [hby])]
      exact ⟨hbeside, fun position hamong => (hclients position hamong).trans
        (congrArg _ (hsame position hamong))⟩
    | true =>
      -- The move changes nothing outside, so the other world need not make it.
      obtain ⟨hstep, hresting, hsame⟩ := resting.step_by hby (hno happening List.mem_cons_self hby)
      have hskip : (world.step happening).Beside among other :=
        ⟨hstep.net.trans beside.net, hstep.now.trans beside.now, hstep.stats.trans beside.stats,
          fun position h => (hstep.agents position h).trans (beside.agents position h)⟩
      obtain ⟨hbeside, hclients⟩ := ih hresting hskip hlater
      rw [List.filter_cons_of_neg (by simp [hby])]
      exact ⟨hbeside, fun position hamong => (hclients position hamong).trans (hsame position)⟩

lemma stats_run_of_no_move {happenings : List Happening}
    (hno : ∀ happening ∈ happenings, happening.isBy (fun _ => true) = false) (world : World σ) :
    (world.run happenings).stats = world.stats := by
  induction happenings generalizing world with
  | nil => rfl
  | cons happening later ih =>
    have hstep : (world.step happening).stats = world.stats := by
      cases happening with
      | client => simpa [Happening.isBy] using hno _ List.mem_cons_self
      | peer | agenda | pass => rfl
    exact (ih (fun other ho => hno other (List.mem_cons_of_mem _ ho)) _).trans hstep

end

/-! ### Torn down populations -/

/-- Stopped, or about to be. -/
structure Leaving (agent : Agent) : Prop where
  wait : agent.wait = .nothing
  led : agent.client.Led
  acts : agent.acts = [.stop] ∨ agent.acts = [] ∧ agent.client.AtRest

/-- Stopped, with nothing left to do. -/
structure Gone (agent : Agent) : Prop where
  wait : agent.wait = .nothing
  acts : agent.acts = []
  rest : agent.client.AtRest

lemma Gone.leaving {agent : Agent} (gone : Gone agent) : Leaving agent :=
  ⟨gone.wait, gone.rest.led, .inr ⟨gone.acts, gone.rest⟩⟩

lemma looped_led {agent : Agent} (led : agent.client.Led) (now : Duration) (net : Net σ) :
    (agent.looped now net).client.Led := by
  have hfold {f : Turn σ → Nat → Turn σ} (move : Nat → Move)
      (hmove : ∀ turn session, (f turn session) = (turn.move now .nothing (move session)).1)
      (sessions : List Nat) {turn : Turn σ} (hled : turn.client.Led) :
      (sessions.foldl f turn).client.Led := by
    induction sessions generalizing turn with
    | nil => exact hled
    | cons session sessions ih =>
      obtain ⟨_, hmoved⟩ := turn.moved now .nothing (move session)
      exact ih (hmove turn session ▸ hmoved.led hled)
  exact hfold .receive (fun _ _ => rfl) _ (hfold .beat (fun _ _ => rfl) _ led)

lemma looped_at_rest {agent : Agent} (rest : agent.client.AtRest) (now : Duration) (net : Net σ) :
    agent.looped now net = agent.client.turnOn net := by
  simp [Agent.looped, Turn.runLoops, Turn.runHeartbeats, Turn.runReceivers, Client.turnOn,
    rest.heartbeats, rest.receivers]

lemma Leaving.turn {agent : Agent} (leaving : Leaving agent) (now : Duration) (net : Net σ) :
    Gone (agent.turn now net).1 := by
  have hresume : (agent.looped now net).resume now agent.wait = (agent.looped now net, .done true) := by
    rw [leaving.wait]
    rfl
  rw [Agent.turn_of_succeeded hresume]
  rcases leaving.acts with hacts | ⟨hacts, hrest⟩
  · rw [hacts]
    exact ⟨rfl, rfl, (looped_led leaving.led now net).stopped⟩
  · rw [hacts, looped_at_rest hrest]
    exact ⟨rfl, rfl, hrest⟩

lemma turns_gone {now : Duration} {agents : List Agent} {net : Net σ}
    (leaving : ∀ agent ∈ agents, Leaving agent) :
    (turns now agents net).1.length = agents.length ∧
      ∀ agent ∈ (turns now agents net).1, Gone agent := by
  induction agents generalizing net with
  | nil => exact ⟨rfl, fun _ ha => absurd ha List.not_mem_nil⟩
  | cons agent agents ih =>
    obtain ⟨hlength, hgone⟩ := @ih (agent.turn now net).2.1
      fun other ho => leaving other (List.mem_cons_of_mem _ ho)
    refine ⟨congrArg (· + 1) hlength, List.forall_mem_cons.mpr ⟨?_, hgone⟩⟩
    exact (leaving agent List.mem_cons_self).turn now net

lemma round_gone {world : World σ} (leaving : ∀ agent ∈ world.agents, Leaving agent) :
    world.round.agents.length = world.agents.length ∧ ∀ agent ∈ world.round.agents, Gone agent :=
  turns_gone leaving

lemma settle_gone {world : World σ} (leaving : ∀ agent ∈ world.agents, Leaving agent) :
    world.settle.agents.length = world.agents.length ∧
      ∀ agent ∈ world.settle.agents, Gone agent := by
  -- The first round lets everybody stop; in all others nobody has anything to do.
  induction world using settle.induct with
  | case1 world next hless ih =>
    obtain ⟨hfirst, hgone⟩ := round_gone leaving
    obtain ⟨hsecond, hgone'⟩ := round_gone fun agent ha => (hgone agent ha).leaving
    obtain ⟨hlength, hall⟩ := ih fun agent ha => (hgone' agent ha).leaving
    rw [settle, if_pos hless]
    exact ⟨hlength.trans (hsecond.trans hfirst), hall⟩
  | case2 world next hless =>
    obtain ⟨hfirst, hgone⟩ := round_gone leaving
    obtain ⟨hsecond, hgone'⟩ := round_gone fun agent ha => (hgone agent ha).leaving
    rw [settle, if_neg hless]
    exact ⟨hsecond.trans hfirst, hgone'⟩

lemma tearDown_gone {world : World σ} (led : ∀ agent ∈ world.agents, agent.client.Led) :
    world.tearDown.agents.length = world.agents.length ∧
      ∀ agent ∈ world.tearDown.agents, Gone agent := by
  have hleaving : ∀ agent ∈ world.agents.map fun agent => { agent.cancel with acts := [.stop] },
      Leaving agent := by
    intro agent ha
    obtain ⟨old, hold, rfl⟩ := List.mem_map.mp ha
    exact ⟨rfl, led old hold, .inl rfl⟩
  let leaving : World σ :=
    { world.note .info s!"Closing {world.agents.length} connections..." with
      agents := world.agents.map fun agent => { agent.cancel with acts := [.stop] } }
  obtain ⟨hlength, hgone⟩ := @settle_gone _ leaving hleaving
  exact ⟨hlength.trans (List.length_map _), hgone⟩

/-- A population may be torn down whatever its clients are at. -/
lemma tearDown_resting {world : World σ} (led : ∀ agent ∈ world.agents, agent.client.Led) :
    world.tearDown.Resting fun _ => true := by
  intro position agent _ h
  have gone := (tearDown_gone led).2 agent (List.mem_of_getElem? h)
  exact ⟨gone.rest, by rw [gone.wait]; rfl⟩

/-! ### Stopping -/

/-- When a client stops, nothing of any session is left, and until it connects again nothing changes
it, and it changes nothing: without its moves the network, the statistics and the other clients come out
the same. So it is with all clients of a population that was torn down, whatever they were at. -/
theorem stopping_is_final {world : World σ} (unused : world.Unused) :
    (∀ happenings position agent, (world.run happenings).agents[position]? = some agent →
      agent.wait = .nothing →
      let stopped := (world.run happenings).step (.client position (.begin .stop))
      stopped.client? position = some agent.client.stopped ∧ agent.client.stopped.AtRest ∧
      ∀ later, (∀ happening ∈ later, happening.isBy (· == position) → happening.isConnect = false) →
        let others := stopped.run (later.filter fun happening => !happening.isBy (· == position))
        (stopped.run later).client? position = stopped.client? position ∧
        (stopped.run later).net = others.net ∧ (stopped.run later).stats = others.stats ∧
        ∀ other ≠ position, (stopped.run later).agents[other]? = others.agents[other]?) ∧
    ∀ reached, world.Reaches reached →
      reached.tearDown.agents.length = reached.agents.length ∧
      (∀ agent ∈ reached.tearDown.agents, agent.client.AtRest) ∧
      ∀ later, (∀ happening ∈ later, happening.isConnect = false) →
        (reached.tearDown.run later).stats = reached.tearDown.stats ∧
        (reached.tearDown.run later).net =
          (reached.tearDown.run (later.filter fun h => !h.isBy fun _ => true)).net ∧
        ∀ position, (reached.tearDown.run later).client? position =
          reached.tearDown.client? position := by
  refine ⟨fun happenings position agent h free => ?_, fun reached hreached => ?_⟩
  · intro stopped
    have hrest := (run_led unused.led happenings agent (List.mem_of_getElem? h)).stopped
    have hmove : (agent.client.turnOn (world.run happenings).net).move (world.run happenings).now
        agent.wait (.begin .stop) =
          ((agent.client.turnOn (world.run happenings).net).stop, .nothing) := by
      rw [free]
      rfl
    have hstopped : stopped.agents[position]? = some { agent with client := agent.client.stopped } := by
      obtain ⟨hlt, _⟩ := List.getElem?_eq_some_iff.mp h
      simp only [stopped]
      rw [step_client h, agents_moved, List.getElem?_set_self hlt, Agent.moved, hmove, free]
      rfl
    have resting : stopped.Resting (· == position) := by
      intro place after hplace hafter
      rw [beq_iff_eq.mp hplace, hstopped] at hafter
      cases hafter
      exact ⟨hrest, by rw [free]; rfl⟩
    refine ⟨by rw [client?, hstopped]; rfl, hrest, fun later hno => ?_⟩
    obtain ⟨hbeside, hclients⟩ := resting.run (.refl _) hno
    refine ⟨hclients position (beq_self_eq_true _), hbeside.net, hbeside.stats, ?_⟩
    intro other hother
    exact hbeside.agents other (by simpa using hother)
  · have led := hreached.led unused.led
    obtain ⟨hlength, hgone⟩ := tearDown_gone led
    refine ⟨hlength, fun agent ha => (hgone agent ha).rest, fun later hno => ?_⟩
    obtain ⟨hbeside, hclients⟩ :=
      (tearDown_resting led).run (.refl _) fun happening hh _ => hno happening hh
    refine ⟨hbeside.stats.trans (stats_run_of_no_move ?_ _), hbeside.net, fun position =>
      hclients position rfl⟩
    intro happening hh
    simpa using (List.mem_filter.mp hh).2

def pair : World Unit where
  net := { peer := .quiet, memory := () }
  agents := [{ client := { id := 7 } }, { client := { id := 8 } }]

lemma pair_unused : pair.Unused := by
  intro agent ha
  simp only [pair, List.mem_cons, List.not_mem_nil, or_false] at ha
  rcases ha with rfl | rfl
  · exact ⟨7, {}, rfl⟩
  · exact ⟨8, {}, rfl⟩

/-- One client has connected anew while its session ran, and started again; the other is about to get
an answer that never comes. -/
def renewal : List Happening :=
  [.client 0 (.begin (.connect 5)), .peer (.deliver 0 (Frame.encode .ack 1 [])),
    .client 0 (.begin .authenticate), .client 0 (.begin (.start 100)),
    .client 0 (.begin (.connect 5)), .peer (.deliver 1 (Frame.encode .ack 2 [])),
    .client 0 (.begin .authenticate), .client 0 (.begin (.start 100)),
    .client 1 (.begin (.connect 5)), .client 1 (.begin .authenticate)]

def aftermath : List Happening :=
  [.peer (.deliver 0 [0, 1]), .peer (.reset 1), .pass 1000, .client 0 (.beat 0), .client 0 (.beat 1),
    .client 0 (.receive 0), .client 0 (.receive 1), .client 0 (.begin .authenticate),
    .client 0 (.begin (.start 5)), .client 0 (.begin (.single 8 "late")),
    .client 0 (.begin .heartbeat), .client 0 (.begin .stop), .client 1 .resume]

theorem pair_stopping_is_final :
    pair.Unused ∧
    ∃ agent : Agent, (pair.run renewal).agents[0]? = some agent ∧ agent.wait = .nothing ∧
      agent.client.state = .running ∧ agent.client.heartbeats.length = 1 ∧
      (∀ happening ∈ aftermath, happening.isConnect = false) ∧
      (pair.run (renewal ++ .client 0 (.begin .stop) :: aftermath)).client? 0 =
        some agent.client.stopped ∧
      (pair.run (renewal ++ .client 0 (.begin .stop) :: aftermath)).stats =
        (pair.run (renewal ++ [.client 0 (.begin .stop), .peer (.deliver 0 [0, 1]),
          .peer (.reset 1), .pass 1000, .client 1 .resume])).stats ∧
      ((pair.run renewal).tearDown.run aftermath).stats = (pair.run renewal).tearDown.stats := by
  have hlater : ∀ happening ∈ aftermath, happening.isConnect = false := by decide
  obtain ⟨hstop, htear⟩ := stopping_is_final pair_unused
  have hothers : (aftermath.filter fun happening => !happening.isBy (· == 0)) =
      [.peer (.deliver 0 [0, 1]), .peer (.reset 1), .pass 1000, .client 1 .resume] := rfl
  have hagent : (pair.run renewal).agents[0]?.any (fun agent => agent.wait = .nothing ∧
      agent.client.state = .running ∧ agent.client.heartbeats.length = 1) = true := by
    decide
  obtain ⟨agent, h, hknown⟩ := (Option.any_eq_true _ _).mp hagent
  obtain ⟨free, hrunning, hbeats⟩ := of_decide_eq_true hknown
  obtain ⟨hclient, _, hall⟩ := hstop renewal 0 agent h free
  obtain ⟨hsame, _, hstats, _⟩ := hall aftermath fun happening hh _ => hlater happening hh
  obtain ⟨_, _, hdown⟩ := htear (pair.run renewal) ⟨renewal, Same.refl _⟩
  rw [hothers] at hstats
  refine ⟨pair_unused, agent, h, free, hrunning, hbeats, hlater, ?_, ?_, (hdown aftermath hlater).1⟩
  · rw [run_append, run_cons]
    exact hsame.trans hclient
  · rw [run_append, run_append, run_cons, run_cons _ (.client 0 (.begin .stop))]
    exact hstats

end World

end ChatLoad
