import ChatLoad.Proofs.Client.Tale

/-! Each turn of an agent tells the next part of its tale. -/

namespace ChatLoad

variable {σ : Type}

namespace Tale

variable {standing : Standing} {wait : Wait} {acts : List Act} {incidents story : List Incident}

lemma looping_after {incident : Incident} (h : incident.ofLoop) :
    (standing.after incident).looping = standing.looping := by
  cases incident <;> first | rfl | cases h

lemma loops (hloop : ∀ incident ∈ incidents, incident.ofLoop)
    (hsilent : standing.looping = false → incidents = [])
    (h : Tale (standing.afterAll incidents) wait acts story) :
    Tale standing wait acts (incidents ++ story) := by
  induction incidents generalizing standing with
  | nil => exact h
  | cons incident incidents ih =>
    obtain ⟨hfirst, hlater⟩ := List.forall_mem_cons.mp hloop
    have hlooping : standing.looping = true := by
      by_contra hno
      simp at hno
      cases hsilent hno
    have hnext : (standing.after incident).looping = true := (looping_after hfirst).trans hlooping
    refine .looped hlooping hfirst (ih hlater ?_ h)
    rw [hnext]
    exact fun hfalse => by cases hfalse

end Tale

/-! ### Moves of a turn -/

namespace Turn

section

variable (turn : Turn σ) (now : Duration)

lemma eq_noting : turn = (turn.client.turnOn turn.net).noting turn.incidents := by
  simp [noting, Client.turnOn]

lemma begin_eq (act : Act) :
    turn.begin now act =
      (((turn.client.turnOn turn.net).begin now act).1.noting turn.incidents,
        ((turn.client.turnOn turn.net).begin now act).2) := by
  conv_lhs => rw [turn.eq_noting]
  exact begin_noting _ _ _ _

lemma resume_eq (wait : Wait) :
    turn.resume now wait =
      (((turn.client.turnOn turn.net).resume now wait).1.noting turn.incidents,
        ((turn.client.turnOn turn.net).resume now wait).2) := by
  conv_lhs => rw [turn.eq_noting]
  exact resume_noting _ _ _ _

lemma move_eq (wait : Wait) (move : Move) :
    turn.move now wait move =
      (((turn.client.turnOn turn.net).move now wait move).1.noting turn.incidents,
        ((turn.client.turnOn turn.net).move now wait move).2) := by
  conv_lhs => rw [turn.eq_noting]
  exact move_noting _ _ _ _ _

lemma move_incidents (wait : Wait) (move : Move) :
    (turn.move now wait move).1.incidents =
      turn.incidents ++ turn.client.noted turn.net now wait move := by
  rw [move_eq]
  rfl

lemma play_incidents (wait : Wait) (moves : List Move) :
    (turn.play now wait moves).1.incidents =
      turn.incidents ++ turn.trace Client.noted now wait moves := by
  induction moves generalizing turn wait with
  | nil => exact (List.append_nil _).symm
  | cons move moves ih => rw [play, trace, ih, move_incidents, List.append_assoc]

lemma play_owner (wait : Wait) (moves : List Move) :
    (turn.play now wait moves).1.client.id = turn.client.id ∧
      (turn.play now wait moves).1.client.settings = turn.client.settings := by
  induction moves generalizing turn wait with
  | nil => exact ⟨rfl, rfl⟩
  | cons move moves ih =>
    obtain ⟨_, hmoved⟩ := turn.moved now wait move
    obtain ⟨hid, hsettings⟩ := ih (turn.move now wait move).1 (turn.move now wait move).2
    exact ⟨hid.trans hmoved.owner.1, hsettings.trans hmoved.owner.2⟩

variable {turn now} {standing : Standing} {wait : Wait}

lemma move_stands (stands : turn.client.Stands wait standing) (move : Move) :
    (turn.move now wait move).1.client.Stands (turn.move now wait move).2
      (standing.afterAll (turn.client.noted turn.net now wait move)) := by
  rw [move_eq]
  exact (turn.client.moved turn.net now wait move).stands stands

lemma play_stands (stands : turn.client.Stands wait standing) (moves : List Move) :
    (turn.play now wait moves).1.client.Stands (turn.play now wait moves).2
      (standing.afterAll (turn.trace Client.noted now wait moves)) := by
  induction moves generalizing turn wait standing with
  | nil => exact stands
  | cons move moves ih =>
    rw [trace, Standing.afterAll_append]
    exact ih (move_stands stands move)

/-! ### Looking -/

lemma noted_alone {client : Client} (net : Net σ) (hbeats : client.heartbeats = [])
    (hreceivers : client.receivers = []) (session : Nat) :
    client.noted net now wait (.beat session) = [] ∧
      client.noted net now wait (.receive session) = [] := by
  constructor
  · simp [Client.noted, move, runHeartbeat, Client.turnOn, Client.heartbeat?, hbeats]
  · simp [Client.noted, move, runReceiver, Client.turnOn, Client.receiver?, hreceivers]

lemma tale_loop {acts : List Act} {story : List Incident} (stands : turn.client.Stands wait standing)
    {move : Move} (hmove : (∃ session, move = .beat session) ∨ ∃ session, move = .receive session)
    (h : Tale (standing.afterAll (turn.client.noted turn.net now wait move)) wait acts story) :
    Tale standing wait acts (turn.client.noted turn.net now wait move ++ story) := by
  rcases hmove with ⟨session, rfl⟩ | ⟨session, rfl⟩
  · refine .loops (turn.client.noted_beat _ _ _ _) (fun hlooping => ?_) h
    obtain ⟨hbeats, hreceivers⟩ := stands.alone hlooping
    exact (noted_alone turn.net hbeats hreceivers session).1
  · refine .loops (turn.client.noted_receive _ _ _ _) (fun hlooping => ?_) h
    obtain ⟨hbeats, hreceivers⟩ := stands.alone hlooping
    exact (noted_alone turn.net hbeats hreceivers session).2

lemma tale_loops {acts : List Act} {story : List Incident} (stands : turn.client.Stands wait standing)
    {moves : List Move}
    (hmoves : ∀ move ∈ moves,
      (∃ session, move = .beat session) ∨ ∃ session, move = .receive session)
    (h : Tale (standing.afterAll (turn.trace Client.noted now wait moves)) wait acts story) :
    Tale standing wait acts (turn.trace Client.noted now wait moves ++ story) := by
  induction moves generalizing turn standing with
  | nil => exact h
  | cons move moves ih =>
    obtain ⟨hfirst, hlater⟩ := List.forall_mem_cons.mp hmoves
    have hwait : (turn.move now wait move).2 = wait := by
      rcases hfirst with ⟨session, rfl⟩ | ⟨session, rfl⟩ <;> rfl
    have hnext := @move_stands _ turn now _ _ stands move
    rw [trace, hwait] at h ⊢
    rw [hwait] at hnext
    rw [Standing.afterAll_append] at h
    rw [List.append_assoc]
    exact tale_loop stands hfirst (ih hnext hlater h)

lemma tale_resume {acts : List Act} {story : List Incident}
    (h : Tale (standing.afterAll (turn.client.noted turn.net now wait .resume))
      (turn.resume now wait).2.wait ((turn.resume now wait).2.left acts) story) :
    Tale standing wait acts (turn.client.noted turn.net now wait .resume ++ story) := by
  have hnoted : turn.client.noted turn.net now wait .resume =
      ((turn.client.turnOn turn.net).resume now wait).1.incidents := rfl
  rw [resume_eq] at h
  by_cases hwait : wait = .nothing
  · subst hwait
    exact h
  · rcases turn.client.resume_ends turn.net now hwait with ⟨hstays, hnothing⟩ | ⟨succeeded, hdone, hends⟩
    · rw [hnoted, hnothing] at h ⊢
      rw [hstays] at h
      exact h
    · rw [hdone] at h
      rw [← hnoted] at hends
      exact .ends hends h

/-! ### Beginning -/

lemma tale_perform {acts acts' : List Act} {wait' : Wait} {rest : Turn σ}
    (stands : turn.client.Stands .nothing standing)
    (hp : turn.perform now acts = (rest, acts', wait')) :
    ∀ story,
      Tale (standing.afterAll
        (turn.trace Client.noted now .nothing ((turn.begins now acts).map .begin))) wait' acts' story →
      Tale standing .nothing acts
        (turn.trace Client.noted now .nothing ((turn.begins now acts).map .begin) ++ story) := by
  induction acts generalizing turn standing with
  | nil =>
    cases hp
    exact fun _ h => h
  | cons act acts ih =>
    have hcomes := Client.begin_comes stands turn.net now act
    have hbegin := turn.begin_eq now act
    have hmove := turn.move_begin now act
    have hnoted : turn.client.noted turn.net now .nothing (.begin act) =
        ((turn.client.turnOn turn.net).begin now act).1.incidents := by
      rw [Client.noted, move_begin]
    have hnext := @move_stands _ turn now _ _ stands (.begin act)
    rw [perform] at hp
    rcases hb : turn.begin now act with ⟨begun, progress⟩
    rw [hb] at hp hmove
    rw [hb, Prod.mk.injEq] at hbegin
    rw [← hnoted, ← hbegin.2] at hcomes
    rw [hmove] at hnext
    -- acts that fail or wait are the last to begin
    rcases progress with (_ | _) | wait
    · cases hp
      intro story h
      simp only [begins, hb, List.map_cons, List.map_nil, trace, List.append_nil] at h ⊢
      exact .begins hcomes h
    · intro story h
      simp only [begins, hb, List.map_cons, trace, hmove] at h ⊢
      rw [List.append_assoc]
      rw [Standing.afterAll_append] at h
      exact .begins hcomes (ih hnext hp story h)
    · cases hp
      intro story h
      simp only [begins, hb, List.map_cons, List.map_nil, trace, List.append_nil] at h ⊢
      exact .begins hcomes h

lemma perform_suffix (turn : Turn σ) (acts : List Act) : (turn.perform now acts).2.1 <:+ acts := by
  induction acts generalizing turn with
  | nil => exact List.suffix_refl _
  | cons act acts ih =>
    rw [perform]
    split
    · exact (ih _).trans (List.suffix_cons _ _)
    · exact List.nil_suffix
    · exact List.suffix_cons _ _

lemma begins_subset (turn : Turn σ) (acts : List Act) : turn.begins now acts ⊆ acts := by
  induction acts generalizing turn with
  | nil => exact List.Subset.refl _
  | cons act acts ih =>
    rw [begins]
    split
    · exact List.cons_subset_cons _ (ih _)
    · simp

end

end Turn

namespace Agent

/-- How an agent comes from one moment to a later one: what it has noted is the next part of whatever tale
it goes on with. -/
structure Goes (agent : Agent) (incidents : List Incident) (agent' : Agent) : Prop where
  id : agent'.client.id = agent.client.id
  settings : agent'.client.settings = agent.client.settings
  acts : agent'.acts <:+ agent.acts
  idle : agent.isIdle → agent'.isIdle
  stands : ∀ standing, agent.client.Stands agent.wait standing →
    agent'.client.Stands agent'.wait (standing.afterAll incidents)
  tale : ∀ standing, agent.client.Stands agent.wait standing → ∀ story,
    Tale (standing.afterAll incidents) agent'.wait agent'.acts story →
      Tale standing agent.wait agent.acts (incidents ++ story)

variable {agent agent' agent'' : Agent} {incidents later : List Incident}

lemma Goes.refl (agent : Agent) : agent.Goes [] agent :=
  ⟨rfl, rfl, List.suffix_refl _, fun h => h, fun _ h => h, fun _ _ _ h => h⟩

lemma Goes.trans (h : agent.Goes incidents agent') (h' : agent'.Goes later agent'') :
    agent.Goes (incidents ++ later) agent'' where
  id := h'.id.trans h.id
  settings := h'.settings.trans h.settings
  acts := h'.acts.trans h.acts
  idle := fun hidle => h'.idle (h.idle hidle)
  stands := fun standing stands => by
    rw [Standing.afterAll_append]
    exact h'.stands _ (h.stands standing stands)
  tale := fun standing stands story hstory => by
    rw [Standing.afterAll_append] at hstory
    rw [List.append_assoc]
    exact h.tale standing stands _ (h'.tale _ (h.stands standing stands) story hstory)

variable (agent) (now : Duration) (net : Net σ)

def loopMoves : List Move :=
  let start := agent.client.turnOn net
  let beaten := start.runHeartbeats now
  (start.client.heartbeats.map (·.session)).map .beat ++
    (beaten.client.receivers.map (·.session)).map .receive

lemma mem_loopMoves {move : Move} (h : move ∈ agent.loopMoves now net) :
    (∃ session, move = .beat session) ∨ ∃ session, move = .receive session := by
  simp only [loopMoves, List.mem_append, List.mem_map] at h
  rcases h with ⟨session, _, rfl⟩ | ⟨session, _, rfl⟩
  · exact .inl ⟨session, rfl⟩
  · exact .inr ⟨session, rfl⟩

lemma loopMoves_play :
    (agent.client.turnOn net).play now agent.wait (agent.loopMoves now net) =
      (agent.looped now net, agent.wait) := by
  rw [loopMoves, Turn.play_append, Turn.play_beats]
  exact Turn.play_receives now ((agent.client.turnOn net).runHeartbeats now) agent.wait _

lemma turn_incidents :
    (agent.turn now net).2.2 =
      (agent.client.turnOn net).trace Client.noted now agent.wait (agent.moves now net) := by
  obtain ⟨played, wait, hplay, _, _, hrest⟩ := agent.turn_play now net
  have hincidents := (agent.client.turnOn net).play_incidents now agent.wait (agent.moves now net)
  rw [hplay] at hincidents
  rw [hrest]
  exact hincidents

lemma begin_mem_moves {act : Act} (h : .begin act ∈ agent.moves now net) : act ∈ agent.acts := by
  rw [moves] at h
  rcases List.mem_append.mp h with hlook | hbegin
  · simp [looks] at hlook
  · split at hbegin
    · obtain ⟨_, hact, heq⟩ := List.mem_map.mp hbegin
      cases heq
      exact Turn.begins_subset _ _ hact
    · cases hbegin

variable {agent now net} {standing : Standing}

lemma looks_stands (stands : agent.client.Stands agent.wait standing) :
    ((agent.looped now net).resume now agent.wait).1.client.Stands
      ((agent.looped now net).resume now agent.wait).2.wait
      (standing.afterAll
        ((agent.client.turnOn net).trace Client.noted now agent.wait (agent.looks now net))) := by
  have hplay := @Turn.play_stands _ (agent.client.turnOn net) now _ _ stands (agent.looks now net)
  rwa [looks_play] at hplay

lemma tale_looks (stands : agent.client.Stands agent.wait standing) {acts : List Act}
    {story : List Incident}
    (h : Tale (standing.afterAll
        ((agent.client.turnOn net).trace Client.noted now agent.wait (agent.looks now net)))
      ((agent.looped now net).resume now agent.wait).2.wait
      (((agent.looped now net).resume now agent.wait).2.left acts) story) :
    Tale standing agent.wait acts
      ((agent.client.turnOn net).trace Client.noted now agent.wait (agent.looks now net) ++
        story) := by
  have hlooks : agent.looks now net = agent.loopMoves now net ++ [.resume] := rfl
  have htrace : (agent.looped now net).trace Client.noted now agent.wait [.resume] =
      (agent.looped now net).client.noted (agent.looped now net).net now agent.wait .resume :=
    List.append_nil _
  rw [hlooks, Turn.trace_append, loopMoves_play, htrace, Standing.afterAll_append] at h
  rw [hlooks, Turn.trace_append, loopMoves_play, htrace, List.append_assoc]
  exact Turn.tale_loops stands (fun move hm => agent.mem_loopMoves now net hm) (Turn.tale_resume h)

lemma turn_tale (stands : agent.client.Stands agent.wait standing) :
    ∀ story,
      Tale (standing.afterAll (agent.turn now net).2.2) (agent.turn now net).1.wait
        (agent.turn now net).1.acts story →
      Tale standing agent.wait agent.acts ((agent.turn now net).2.2 ++ story) := by
  have hlooks := @tale_looks _ agent now net _ stands agent.acts
  have hstands := @looks_stands _ agent now net _ stands
  rw [turn_incidents, moves]
  rcases hr : (agent.looped now net).resume now agent.wait with ⟨resumed, (_ | _) | wait⟩
  · rw [hr] at hlooks
    rw [turn_of_failed hr]
    simp only [List.append_nil]
    exact fun story h => hlooks h
  · rw [hr] at hlooks hstands
    have hperform := @Turn.tale_perform _ resumed now _ agent.acts _ _ _ hstands rfl
    rw [turn_of_succeeded hr]
    simp only [Turn.trace_append, looks_play, hr]
    intro story h
    rw [Standing.afterAll_append] at h
    rw [List.append_assoc]
    exact hlooks (hperform story h)
  · rw [hr] at hlooks
    rw [turn_of_waits hr]
    simp only [List.append_nil]
    exact fun story h => hlooks h

lemma turn_owner (agent : Agent) (now : Duration) (net : Net σ) :
    (agent.turn now net).1.client.id = agent.client.id ∧
      (agent.turn now net).1.client.settings = agent.client.settings := by
  obtain ⟨played, wait, hplay, hclient, _⟩ := agent.turn_play now net
  have hall := (agent.client.turnOn net).play_owner now agent.wait (agent.moves now net)
  rw [hplay] at hall
  rw [hclient]
  exact hall

lemma resumed_owner (agent : Agent) (now : Duration) (net : Net σ) :
    ((agent.looped now net).resume now agent.wait).1.client.settings = agent.client.settings := by
  have hall := (agent.client.turnOn net).play_owner now agent.wait (agent.looks now net)
  rw [looks_play] at hall
  exact hall.2

lemma turn_acts (agent : Agent) (now : Duration) (net : Net σ) :
    (agent.turn now net).1.acts <:+ agent.acts := by
  rcases hr : (agent.looped now net).resume now agent.wait with ⟨resumed, (_ | _) | wait⟩
  · rw [turn_of_failed hr]
    exact List.nil_suffix
  · rw [turn_of_succeeded hr]
    exact Turn.perform_suffix _ _
  · rw [turn_of_waits hr]

lemma turn_idle (idle : agent.isIdle) : (agent.turn now net).1.isIdle := by
  obtain ⟨hacts, hwait⟩ : agent.acts = [] ∧ agent.wait = .nothing := by simpa [isIdle] using idle
  have hr : (agent.looped now net).resume now agent.wait = (agent.looped now net, .done true) := by
    rw [hwait]
    rfl
  rw [turn_of_succeeded hr, hacts]
  rfl

theorem turn_goes (agent : Agent) (now : Duration) (net : Net σ) :
    agent.Goes (agent.turn now net).2.2 (agent.turn now net).1 where
  id := (agent.turn_owner now net).1
  settings := (agent.turn_owner now net).2
  acts := turn_acts agent now net
  idle := turn_idle
  stands := fun standing stands => by
    obtain ⟨played, wait, hplay, hclient, hwait, _⟩ := agent.turn_play now net
    have hplayed := @Turn.play_stands _ (agent.client.turnOn net) now _ _ stands (agent.moves now net)
    rw [hplay] at hplayed
    rw [turn_incidents, hclient, hwait]
    exact hplayed
  tale := fun _ stands => turn_tale stands

end Agent

end ChatLoad
