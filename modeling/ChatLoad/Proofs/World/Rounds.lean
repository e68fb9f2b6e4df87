import ChatLoad.Proofs.Client.Play
import ChatLoad.Proofs.World.Balance

/-! Rounds, and whatever is made of rounds, are runs: what holds after every run holds whenever the clients
have taken their turns. -/

namespace ChatLoad

def Happening.isPrompt : Happening → Bool
  | agenda => true
  | client _ _ => true
  | _ => false

namespace World

variable {σ : Type}

/-- The same up to routines and the log. -/
structure Same (world other : World σ) : Prop where
  net : world.net = other.net
  now : world.now = other.now
  stats : world.stats = other.stats
  agents : world.agents.map (fun agent => (agent.client, agent.wait)) =
    other.agents.map fun agent => (agent.client, agent.wait)

namespace Same

variable {world other third : World σ}

lemma refl (world : World σ) : world.Same world :=
  ⟨rfl, rfl, rfl, rfl⟩

lemma symm (h : world.Same other) : other.Same world :=
  ⟨h.net.symm, h.now.symm, h.stats.symm, h.agents.symm⟩

lemma trans (h : world.Same other) (h' : other.Same third) : world.Same third :=
  ⟨h.net.trans h'.net, h.now.trans h'.now, h.stats.trans h'.stats, h.agents.trans h'.agents⟩

lemma agent (h : world.Same other) {position : Nat} {agent : Agent}
    (ha : world.agents[position]? = some agent) :
    ∃ agent', other.agents[position]? = some agent' ∧ agent'.client = agent.client ∧
      agent'.wait = agent.wait := by
  have hmap := congrArg (fun agents : List (Client × Wait) => agents[position]?) h.agents
  simp only [List.getElem?_map, ha, Option.map_some] at hmap
  obtain ⟨agent', ha', heq⟩ := Option.map_eq_some_iff.mp hmap.symm
  rw [Prod.mk.injEq] at heq
  exact ⟨agent', ha', heq.1, heq.2⟩

lemma no_agent (h : world.Same other) {position : Nat} (ha : world.agents[position]? = none) :
    other.agents[position]? = none := by
  have hlen := congrArg List.length h.agents
  simp only [List.length_map] at hlen
  rw [List.getElem?_eq_none_iff] at ha ⊢
  exact hlen ▸ ha

lemma step (h : world.Same other) (happening : Happening) :
    (world.step happening).Same (other.step happening) := by
  obtain ⟨hnet, hnow, hstats, hagents⟩ := h
  cases happening with
  | peer action => exact ⟨congrArg (·.apply action) hnet, hnow, hstats, hagents⟩
  | agenda => exact ⟨by simp only [World.step, hnet, hnow], hnow, hstats, hagents⟩
  | pass span => exact ⟨hnet, congrArg (· + span) hnow, hstats, hagents⟩
  | client position move =>
    have same : world.Same other := ⟨hnet, hnow, hstats, hagents⟩
    cases ha : world.agents[position]? with
    | none => simpa only [World.step, ha, same.no_agent ha] using same
    | some agent =>
      obtain ⟨agent', ha', hclient, hwait⟩ := same.agent ha
      have hnets : (world.step (.client position move)).net =
          (other.step (.client position move)).net := by
        rw [net_step_client ha, net_step_client ha', hclient, hwait, hnet, hnow]
      refine ⟨hnets, ?_, ?_, ?_⟩
      · rw [step_client ha, step_client ha']
        exact hnow
      · rw [stats_step, stats_step, ofMoves_client ha, ofMoves_client ha', hclient, hwait, hnet,
          hnow, hstats]
      · rw [step_client ha, step_client ha', agents_moved, agents_moved, List.map_set,
          List.map_set, hagents]
        simp only [Agent.moved, hclient, hwait, hnet, hnow]

lemma run (h : world.Same other) (happenings : List Happening) :
    (world.run happenings).Same (other.run happenings) := by
  induction happenings generalizing world other with
  | nil => exact h
  | cons happening later ih => exact ih (h.step happening)

end Same

/-! ### Turns -/

lemma run_play {world : World σ} {position : Nat} {agent : Agent}
    (h : world.agents[position]? = some agent) {moves : List Move} {played : Turn σ} {wait : Wait}
    (hp : (agent.client.turnOn world.net).play world.now agent.wait moves = (played, wait)) :
    (world.run (moves.map (.client position))).Same
      { world with
        agents := world.agents.set position { agent with client := played.client, wait }
        net := played.net
        stats := world.stats.after played.incidents } := by
  induction moves generalizing world agent played wait with
  | nil =>
    cases hp
    obtain ⟨hlt, rfl⟩ := List.getElem?_eq_some_iff.mp h
    exact ⟨rfl, rfl, rfl, congrArg _ (List.set_getElem_self hlt).symm⟩
  | cons move moves ih =>
    rcases hm : (agent.client.turnOn world.net).move world.now agent.wait move with ⟨turn, wait'⟩
    -- the other moves go on with what the first has noted
    have hturn : turn = (turn.client.turnOn turn.net).noting turn.incidents := by
      simp [Turn.noting, Client.turnOn]
    rw [Turn.play, hm, hturn, Turn.play_noting] at hp
    rcases hlater : (turn.client.turnOn turn.net).play world.now wait' moves with ⟨rest, last⟩
    rw [hlater, Prod.mk.injEq] at hp
    obtain ⟨rfl, rfl⟩ := hp
    have hstep := step_client h move
    have hagents : (world.step (.client position move)).agents =
        world.agents.set position { agent with client := turn.client, wait := wait' } := by
      rw [hstep, agents_moved, Agent.moved, hm]
    have hnet : (world.step (.client position move)).net = turn.net := by
      rw [net_step_client h, hm]
    have hnow : (world.step (.client position move)).now = world.now := by
      rw [hstep]
      rfl
    have hstats : (world.step (.client position move)).stats =
        world.stats.after turn.incidents := by
      rw [stats_step, ofMoves_client h, Client.noted, hm]
    obtain ⟨hlt, _⟩ := List.getElem?_eq_some_iff.mp h
    have ha : (world.step (.client position move)).agents[position]? =
        some { agent with client := turn.client, wait := wait' } := by
      rw [hagents, List.getElem?_set_self hlt]
    have hrest := @ih _ _ ha rest last (by rw [hnet, hnow]; exact hlater)
    rw [List.map_cons, run_cons]
    refine hrest.trans ⟨rfl, hnow, ?_, ?_⟩
    · simp [hstats, Stats.after, Turn.noting]
    · simp [hagents, Turn.noting]

lemma turns_cons (now : Duration) (agent : Agent) (waiting : List Agent)
    (net : Net σ) :
    (turns now (agent :: waiting) net).1 =
        (agent.turn now net).1 :: (turns now waiting (agent.turn now net).2.1).1 ∧
      (turns now (agent :: waiting) net).2.1 = (turns now waiting (agent.turn now net).2.1).2.1 :=
  ⟨rfl, rfl⟩

/-- The moves of one turn of each of these agents, the first of which is at this position. -/
def turnMoves (now : Duration) (position : Nat) : List Agent → Net σ → List Happening
  | [], _ => []
  | agent :: waiting, net =>
      (agent.moves now net).map (.client position) ++
        turnMoves now (position + 1) waiting (agent.turn now net).2.1

lemma mem_turnMoves {now : Duration} {position : Nat} {waiting : List Agent} {net : Net σ}
    {happening : Happening} (h : happening ∈ turnMoves now position waiting net) :
    ∃ place move, position ≤ place ∧ happening = .client place move := by
  induction waiting generalizing position net with
  | nil => cases h
  | cons agent waiting ih =>
    rcases List.mem_append.mp h with hmine | hlater
    · obtain ⟨move, _, rfl⟩ := List.mem_map.mp hmine
      exact ⟨position, move, Nat.le_refl _, rfl⟩
    · obtain ⟨place, move, hle, rfl⟩ := ih hlater
      exact ⟨place, move, Nat.le_of_succ_le hle, rfl⟩

lemma turn_run {world : World σ} {agent : Agent} {waiting done : List Agent}
    (hagents : world.agents = done ++ agent :: waiting) :
    (world.run ((agent.moves world.now world.net).map (.client done.length))).Same
      { world with
        agents := done ++ [(agent.turn world.now world.net).1] ++ waiting
        net := (agent.turn world.now world.net).2.1
        stats := world.stats.after (agent.turn world.now world.net).2.2 } := by
  obtain ⟨played, wait, hplay, hclient, hwait, hrest⟩ := agent.turn_play world.now world.net
  have ha : world.agents[done.length]? = some agent := by simp [hagents]
  rw [hrest]
  refine (run_play ha hplay).trans ⟨rfl, rfl, rfl, ?_⟩
  simp [hagents, hclient, hwait]

lemma turns_run (now : Duration) (waiting done : List Agent) {world : World σ}
    (hnow : world.now = now) (hagents : world.agents = done ++ waiting) :
    (world.run (turnMoves now done.length waiting world.net)).Same
      { world with
        agents := done ++ (turns now waiting world.net).1
        net := (turns now waiting world.net).2.1
        stats := ((turns now waiting world.net).2.2.flatMap Event.updates).foldl
          StatsUpdate.apply world.stats } := by
  induction waiting generalizing done world with
  | nil => exact ⟨rfl, rfl, rfl, by rw [turnMoves, run_nil, hagents]; rfl⟩
  | cons agent waiting ih =>
    subst hnow
    have hrun := turn_run hagents
    rcases hturn : agent.turn world.now world.net with ⟨agent', net', incidents⟩
    rw [hturn] at hrun
    let next : World σ :=
      { world with
        agents := done ++ [agent'] ++ waiting
        net := net'
        stats := world.stats.after incidents }
    have hlater := @ih (done ++ [agent']) next rfl rfl
    rw [List.length_append, List.length_singleton] at hlater
    have hupdates : (incidents.map (Event.client agent'.client.id)).flatMap Event.updates =
        incidents.flatMap Incident.updates := by
      rw [List.flatMap_map]
      rfl
    rw [turnMoves, turns, hturn, run_append]
    refine (hrun.run _).trans (hlater.trans ⟨rfl, rfl, ?_, ?_⟩)
    · simp [next, Stats.after, hupdates]
    · simp [next]

/-! ### Rounds -/

/-- From a world another is reached by prompt steps, up to routines and the log. -/
def Comes (world other : World σ) : Prop :=
  ∃ happenings, (∀ happening ∈ happenings, happening.isPrompt) ∧ (world.run happenings).Same other

lemma Comes.trans {world other third : World σ} (h : world.Comes other) (h' : other.Comes third) :
    world.Comes third := by
  obtain ⟨happenings, hprompt, hsame⟩ := h
  obtain ⟨later, hprompt', hsame'⟩ := h'
  refine ⟨happenings ++ later, ?_, ?_⟩
  · intro happening hm
    exact (List.mem_append.mp hm).elim (hprompt happening) (hprompt' happening)
  · rw [run_append]
    exact (hsame.run later).trans hsame'

/-- A round as a run: what the peer has put off, then a turn of each client. -/
def roundMoves (world : World σ) : List Happening :=
  .agenda :: turnMoves world.now 0 world.agents (world.net.runAgenda world.now)

lemma round_run (world : World σ) : (world.run world.roundMoves).Same world.round :=
  (@turns_run _ world.now world.agents [] (world.step .agenda) rfl rfl).trans ⟨rfl, rfl, rfl, rfl⟩

lemma roundMoves_prompt (world : World σ) :
    ∀ happening ∈ world.roundMoves, happening.isPrompt := by
  intro happening h
  rcases List.mem_cons.mp h with rfl | hlater
  · rfl
  · obtain ⟨_, _, _, rfl⟩ := mem_turnMoves hlater
    rfl

theorem round_comes (world : World σ) : world.Comes world.round :=
  ⟨world.roundMoves, world.roundMoves_prompt, world.round_run⟩

theorem settle_comes (world : World σ) : world.Comes world.settle := by
  induction world using settle.induct with
  | case1 world next hless ih =>
    rw [settle, if_pos hless]
    exact (world.round_comes.trans world.round.round_comes).trans ih
  | case2 world next hless =>
    rw [settle, if_neg hless]
    exact world.round_comes.trans world.round.round_comes

lemma now_step {happening : Happening} (h : happening.isPrompt) (world : World σ) :
    (world.step happening).now = world.now := by
  cases happening with
  | agenda => rfl
  | client position move =>
    cases ha : world.agents[position]? with
    | none => simp only [step, ha]
    | some agent =>
      rw [step_client ha]
      rfl
  | _ => cases h

lemma now_run {happenings : List Happening} (h : ∀ happening ∈ happenings, happening.isPrompt)
    (world : World σ) : (world.run happenings).now = world.now := by
  induction happenings generalizing world with
  | nil => rfl
  | cons happening later ih =>
    rw [run_cons, ih (fun other ho => h other (List.mem_cons_of_mem _ ho)),
      now_step (h happening List.mem_cons_self)]

lemma now_settle (world : World σ) : world.settle.now = world.now := by
  obtain ⟨happenings, hprompt, hsame⟩ := world.settle_comes
  rw [← hsame.now, now_run hprompt]

/-! ### Time -/

def Reaches (world other : World σ) : Prop :=
  ∃ happenings, (world.run happenings).Same other

lemma Reaches.trans {world other third : World σ} (h : world.Reaches other)
    (h' : other.Reaches third) : world.Reaches third := by
  obtain ⟨happenings, hsame⟩ := h
  obtain ⟨later, hsame'⟩ := h'
  refine ⟨happenings ++ later, ?_⟩
  rw [run_append]
  exact (hsame.run later).trans hsame'

lemma Comes.reaches {world other : World σ} (h : world.Comes other) : world.Reaches other := by
  obtain ⟨happenings, _, hsame⟩ := h
  exact ⟨happenings, hsame⟩

lemma Same.reaches {world other : World σ} (h : world.Same other) : world.Reaches other :=
  ⟨[], h⟩

lemma Reaches.refl (world : World σ) : world.Reaches world :=
  (Same.refl world).reaches

lemma settled_reached {world : World σ} {now : Duration} (h : world.now ≤ now) :
    world.Reaches (settle { world with now }) := by
  have hwait : world.Reaches { world with now } := by
    refine ⟨[.pass (now - world.now)], ⟨rfl, ?_, rfl, rfl⟩⟩
    exact Nat.add_sub_cancel' h
  exact hwait.trans (settle_comes _).reaches

theorem pass_reached (stop : World σ → Bool) (limit now : Duration) {world : World σ}
    (h : world.now ≤ now) : world.Reaches (world.pass stop limit now) := by
  induction now, world using pass.induct stop limit with
  | case1 now world settled hstop =>
    rw [pass, if_pos hstop]
    exact settled_reached h
  | case2 now world settled hstop hcalled =>
    rw [pass, if_neg hstop, if_pos hcalled]
    exact (settled_reached h).trans (Same.reaches ⟨rfl, rfl, rfl, rfl⟩)
  | case3 now world settled moment hstop hcalled hahead ih =>
    rw [pass, if_neg hstop, if_neg hcalled, dif_pos hahead]
    refine (settled_reached h).trans (ih ?_)
    have hnow : settled.now = now := now_settle _
    exact hnow ▸ Nat.le_of_lt hahead.1
  | case4 now world settled moment hstop hcalled hahead =>
    rw [pass, if_neg hstop, if_neg hcalled, dif_neg hahead]
    exact settled_reached h

theorem rest_reached (world : World σ) (span : Duration) : world.Reaches (world.rest span) := by
  rw [rest]
  split
  · exact .refl world
  · exact pass_reached _ _ _ (Nat.le_refl _)

theorem finish_reached (world : World σ) : world.Reaches world.finish := by
  rw [finish]
  split
  · exact .refl world
  · exact pass_reached _ _ _ (Nat.le_refl _)

/-- The agents with their routines, before anything is done. -/
def given (world : World σ) (routine : Nat → Agent → List Act) : World σ :=
  { world with
    agents := world.agents.mapIdx fun i agent => { agent with acts := agent.acts ++ routine i agent } }

lemma same_given (world : World σ) (routine : Nat → Agent → List Act) :
    world.Same (world.given routine) :=
  ⟨rfl, rfl, rfl, List.ext_getElem? fun i => by simp [given, Function.comp_def]⟩

theorem assign_reached (world : World σ) (routine : Nat → Agent → List Act) :
    world.Reaches (world.assign routine) := by
  rw [assign]
  split
  · exact .refl world
  · exact (world.same_given routine).reaches.trans (finish_reached _)

/-! ### The steps that are taken -/

def settleMoves (world : World σ) : List Happening :=
  let next := world.round.round
  let moves := world.roundMoves ++ world.round.roundMoves
  if next.remaining < world.remaining then moves ++ next.settleMoves else moves
termination_by world.remaining

def passMoves (stop : World σ → Bool) (limit now : Duration) (world : World σ) : List Happening :=
  let moves := .pass (now - world.now) :: settleMoves { world with now }
  let world := settle { world with now }
  let moment := match world.nextDue? with
    | some due => min due limit
    | none => limit
  if stop world || limit ≤ now then moves
  else if world.called && !world.interrupted then moves
  else if _ahead : now < moment ∧ moment ≤ limit then moves ++ passMoves stop limit moment world
  else moves
termination_by limit - now
decreasing_by exact Nat.sub_lt_sub_left (Nat.lt_of_lt_of_le _ahead.1 _ahead.2) _ahead.1

def restMoves (world : World σ) (span : Duration) : List Happening :=
  if world.interrupted then []
  else world.passMoves (fun _ => false) (world.now + span) world.now

def finishMoves (world : World σ) : List Happening :=
  if world.interrupted then [] else world.passMoves isIdle world.horizon world.now

def assignMoves (world : World σ) (routine : Nat → Agent → List Act) : List Happening :=
  if world.interrupted then [] else (world.given routine).finishMoves

end World

end ChatLoad
