import ChatLoad.Proofs.Client.Horizon
import ChatLoad.Proofs.World.Timetable

/-! Courses: the steps that clients, peer and clock take while a world settles, while time passes, and
while routines are carried out, with what they make of every agent. -/

namespace ChatLoad

def Event.doing? : Event → Option (UInt64 × Incident)
  | client id incident => some (id, incident)
  | note _ => none

def Client.told {σ : Type} (client : Client) (net : Net σ) (now : Duration) (wait : Wait)
    (move : Move) : List (UInt64 × Incident) :=
  (client.noted net now wait move).map (client.id, ·)

namespace World

variable {σ : Type}

/-- What has happened to clients, in the order in which it came up. -/
def doings (world : World σ) : List (UInt64 × Incident) :=
  world.events.filterMap Event.doing?

def happened : World σ → Happening → List (UInt64 × Incident) :=
  ofMoves Client.told

/-! ### Traces -/

section

variable {world other : World σ}

lemma Same.ofMoves {α : Type} (f : Client → Net σ → Duration → Wait → Move → List α)
    (same : world.Same other) (happening : Happening) :
    world.ofMoves f happening = other.ofMoves f happening := by
  cases happening with
  | client position move =>
    have hby := @Same.ofMovesBy _ _ f world other position same (.client position move)
    simpa [World.ofMovesBy, Happening.isBy] using hby
  | _ => rfl

lemma Same.trace_all {α : Type} (f : Client → Net σ → Duration → Wait → Move → List α)
    (same : world.Same other) (happenings : List Happening) :
    world.trace (World.ofMoves f) happenings = other.trace (World.ofMoves f) happenings := by
  induction happenings generalizing world other with
  | nil => rfl
  | cons happening later ih => rw [World.trace, World.trace, same.ofMoves, ih (same.step happening)]

lemma trace_ofMoves {α : Type} (f : Client → Net σ → Duration → Wait → Move → List α)
    (world : World σ) (position : Nat) (moves : List Move) :
    world.trace (ofMoves f) (moves.map (.client position)) =
      world.trace (ofMovesBy position f) (moves.map (.client position)) := by
  induction moves generalizing world with
  | nil => rfl
  | cons move moves ih =>
    simp only [List.map_cons, trace, ih, ofMovesBy, Happening.isBy, beq_self_eq_true, if_true]

end

lemma trace_told (turn : Turn σ) (now : Duration) (wait : Wait) (moves : List Move) :
    turn.trace Client.told now wait moves =
      (turn.trace Client.noted now wait moves).map (turn.client.id, ·) := by
  induction moves generalizing turn wait with
  | nil => rfl
  | cons move moves ih =>
    obtain ⟨_, hmoved⟩ := turn.moved now wait move
    rw [Turn.trace, Turn.trace, ih, hmoved.owner.1, List.map_append]
    rfl

lemma happened_turnMoves (now : Duration) (waiting done : List Agent) {world : World σ}
    (hnow : world.now = now) (hagents : world.agents = done ++ waiting) :
    world.trace happened (turnMoves now done.length waiting world.net) =
      (turns now waiting world.net).2.2.filterMap Event.doing? := by
  induction waiting generalizing done world with
  | nil => rfl
  | cons agent waiting ih =>
    subst hnow
    have hrun := turn_run hagents
    have ha : world.agents[done.length]? = some agent := by simp [hagents]
    let next : World σ :=
      { world with
        agents := done ++ [(agent.turn world.now world.net).1] ++ waiting
        net := (agent.turn world.now world.net).2.1
        stats := world.stats.after (agent.turn world.now world.net).2.2 }
    have hlater := @ih (done ++ [(agent.turn world.now world.net).1]) next rfl rfl
    rw [List.length_append, List.length_singleton] at hlater
    have hmine : ∀ incidents : List Incident,
        (incidents.map (Event.client (agent.turn world.now world.net).1.client.id)).filterMap
          Event.doing? = incidents.map (agent.client.id, ·) := by
      intro incidents
      rw [(agent.turn_owner world.now world.net).1, List.filterMap_map]
      exact congrFun List.filterMap_eq_map incidents
    have hfirst : world.trace happened ((agent.moves world.now world.net).map (.client done.length)) =
        (agent.turn world.now world.net).2.2.map (agent.client.id, ·) := by
      rw [happened, trace_ofMoves, trace_play _ ha, trace_told, ← Agent.turn_incidents]
      rfl
    have htail := hrun.trace_all Client.told
      (turnMoves world.now (done.length + 1) waiting (agent.turn world.now world.net).2.1)
    rw [turnMoves, trace_append, hfirst]
    simp only [turns, List.filterMap_append, hmine]
    rw [← hlater]
    exact congrArg _ htail

/-! ### Courses -/

/-- By these steps one world becomes the other, up to routines, notes and interruptions. -/
structure Leads (world : World σ) (moves : List Happening) (other : World σ) : Prop where
  same : (world.run moves).Same other
  doings : other.doings = world.doings ++ world.trace happened moves
  settings : other.settings = world.settings
  length : other.agents.length = world.agents.length

namespace Leads

variable {world other third : World σ} {moves later : List Happening}

lemma of_same (hsame : world.Same other) (hdoings : other.doings = world.doings)
    (hsettings : other.settings = world.settings) : world.Leads [] other where
  same := hsame
  doings := by rw [hdoings, trace, List.append_nil]
  settings := hsettings
  length := by
    have hlength := congrArg List.length hsame.agents
    simpa using hlength.symm

lemma trans (h : world.Leads moves other) (h' : other.Leads later third) :
    world.Leads (moves ++ later) third where
  same := by
    rw [run_append]
    exact (h.same.run later).trans h'.same
  doings := by
    rw [h'.doings, h.doings, trace_append, happened, h.same.trace_all, List.append_assoc]
  settings := h'.settings.trans h.settings
  length := h'.length.trans h.length

lemma notes_append (h : world.Leads moves other) (position : Nat) (later : List Happening) :
    world.notes position (moves ++ later) = world.notes position moves ++ other.notes position later := by
  rw [notes, trace_append, h.same.trace]
  rfl

lemma agent (h : world.Leads moves other) {position : Nat} {agent : Agent}
    (ha : world.agents[position]? = some agent) :
    ∃ agent', other.agents[position]? = some agent' := by
  obtain ⟨hlt, _⟩ := List.getElem?_eq_some_iff.mp ha
  exact ⟨_, List.getElem?_eq_getElem (h.length ▸ hlt)⟩

lemma agent_before (h : world.Leads moves other) {position : Nat} {agent' : Agent}
    (ha : other.agents[position]? = some agent') : ∃ agent, world.agents[position]? = some agent := by
  obtain ⟨hlt, _⟩ := List.getElem?_eq_some_iff.mp ha
  exact ⟨_, List.getElem?_eq_getElem (h.length ▸ hlt : position < world.agents.length)⟩

end Leads

/-- On the way from one world to the other agents go on with their routines, and begin nothing else. -/
structure Course (world : World σ) (moves : List Happening) (other : World σ) : Prop
    extends Leads world moves other where
  goes : ∀ {position : Nat} {agent agent' : Agent}, world.agents[position]? = some agent →
    other.agents[position]? = some agent' → agent.Goes (world.notes position moves) agent'
  begun : ∀ {position : Nat} {act : Act}, .client position (.begin act) ∈ moves →
    ∃ agent, world.agents[position]? = some agent ∧ act ∈ agent.acts

namespace Course

variable {world other third : World σ} {moves later : List Happening}

lemma of_leads (h : world.Leads [] other) (hagents : other.agents = world.agents) :
    world.Course [] other where
  toLeads := h
  goes := fun ha ha' => by
    rw [hagents, ha, Option.some.injEq] at ha'
    subst ha'
    exact .refl _
  begun := fun hact => by cases hact

lemma trans (course : world.Course moves other) (course' : other.Course later third) :
    world.Course (moves ++ later) third where
  toLeads := course.toLeads.trans course'.toLeads
  goes := fun h h'' => by
    obtain ⟨agent', h'⟩ := course.agent h
    rw [course.notes_append]
    exact (course.goes h h').trans (course'.goes h' h'')
  begun := fun {position act} hact => by
    rcases List.mem_append.mp hact with hmine | hlater
    · exact course.begun hmine
    · obtain ⟨agent', h', hmem⟩ := course'.begun hlater
      obtain ⟨agent, h⟩ := course.agent_before h'
      exact ⟨agent, h, (course.goes h h').acts.mem hmem⟩

end Course

section

variable (world : World σ)

lemma mem_turnMoves_begin {now : Duration} {position place : Nat} {waiting : List Agent}
    {net : Net σ} {act : Act}
    (h : .client place (.begin act) ∈ turnMoves now position waiting net) :
    ∃ i agent, place = position + i ∧ waiting[i]? = some agent ∧ act ∈ agent.acts := by
  induction waiting generalizing position net with
  | nil => cases h
  | cons agent waiting ih =>
    rcases List.mem_append.mp h with hmine | hlater
    · obtain ⟨move, hmove, heq⟩ := List.mem_map.mp hmine
      cases heq
      exact ⟨0, agent, rfl, rfl, agent.begin_mem_moves now net hmove⟩
    · obtain ⟨i, other, rfl, hother, hact⟩ := ih hlater
      exact ⟨i + 1, other, by omega, hother, hact⟩

theorem round_course : world.Course world.roundMoves world.round where
  same := world.round_run
  doings := by
    have hturns := @happened_turnMoves _ world.now world.agents [] (world.step .agenda) rfl rfl
    have hevents : world.round.events = world.events ++
        (turns world.now world.agents (world.net.runAgenda world.now)).2.2 := rfl
    rw [doings, hevents, List.filterMap_append, roundMoves, trace]
    exact congrArg _ hturns.symm
  settings := rfl
  length := length_turns _ _ _
  goes := fun {position agent agent'} h h' => by
    obtain ⟨net, hturn, htrace⟩ := @trace_turnMoves _ _ Client.noted (world.step .agenda) agent
      world.agents [] rfl position h
    rw [List.length_nil, Nat.zero_add] at htrace
    have hround : world.round.agents =
        (turns world.now world.agents (world.net.runAgenda world.now)).1 := rfl
    rw [hround] at h'
    obtain rfl : (agent.turn world.now net).1 = agent' := Option.some.inj (hturn.symm.trans h')
    have hgoes := agent.turn_goes world.now net
    rw [Agent.turn_incidents] at hgoes
    rw [notes, roundMoves, trace, ofMovesBy_other rfl, List.nil_append]
    exact htrace ▸ hgoes
  begun := fun {position act} h => by
    obtain ⟨i, agent, hplace, hagent, hact⟩ :=
      mem_turnMoves_begin ((List.mem_cons.mp h).resolve_left (by simp))
    rw [Nat.zero_add] at hplace
    exact ⟨agent, hplace ▸ hagent, hact⟩

theorem settle_course : world.Course world.settleMoves world.settle := by
  induction world using settle.induct with
  | case1 world next hless ih =>
    rw [settle, if_pos hless, settleMoves, if_pos hless]
    exact (world.round_course.trans world.round.round_course).trans ih
  | case2 world next hless =>
    rw [settle, if_neg hless, settleMoves, if_neg hless]
    exact world.round_course.trans world.round.round_course

variable {world}

lemma wait_course {moment : Duration} (h : world.now ≤ moment) :
    world.Course [.pass (moment - world.now)] { world with now := moment } where
  same := ⟨rfl, Nat.add_sub_cancel' h, rfl, rfl⟩
  doings := (List.append_nil _).symm
  settings := rfl
  length := rfl
  goes := fun {position agent agent'} ha ha' => by
    obtain rfl : agent = agent' := Option.some.inj (ha.symm.trans ha')
    exact .refl agent
  begun := fun h => by simp at h

theorem pass_course (stop : World σ → Bool) (limit now : Duration) {world : World σ}
    (h : world.now ≤ now) :
    world.Course (world.passMoves stop limit now) (world.pass stop limit now) := by
  have hsettled {world : World σ} {now : Duration} (h : world.now ≤ now) :
      world.Course (.pass (now - world.now) :: settleMoves { world with now })
        (settle { world with now }) :=
    (wait_course h).trans (settle_course _)
  induction now, world using pass.induct stop limit with
  | case1 now world settled hstop =>
    rw [pass, if_pos hstop, passMoves, if_pos hstop]
    exact hsettled h
  | case2 now world settled hstop hcalled =>
    rw [pass, if_neg hstop, if_pos hcalled, passMoves, if_neg hstop, if_pos hcalled]
    have hoff : settled.Course [] { settled with interrupted := true } :=
      .of_leads (.of_same ⟨rfl, rfl, rfl, rfl⟩ rfl rfl) rfl
    have hboth := (hsettled h).trans hoff
    rwa [List.append_nil] at hboth
  | case3 now world settled moment hstop hcalled hahead ih =>
    have hmoves : world.passMoves stop limit now =
        .pass (now - world.now) :: settleMoves { world with now } ++
          settled.passMoves stop limit moment := by
      rw [passMoves, if_neg hstop, if_neg hcalled]
      exact dif_pos hahead
    have hnow : settled.now = now := now_settle _
    rw [pass, if_neg hstop, if_neg hcalled, dif_pos hahead, hmoves]
    exact (hsettled h).trans (ih (hnow ▸ Nat.le_of_lt hahead.1))
  | case4 now world settled moment hstop hcalled hahead =>
    have hmoves : world.passMoves stop limit now =
        .pass (now - world.now) :: settleMoves { world with now } := by
      rw [passMoves, if_neg hstop, if_neg hcalled]
      exact dif_neg hahead
    rw [pass, if_neg hstop, if_neg hcalled, dif_neg hahead, hmoves]
    exact hsettled h

end

end World

end ChatLoad
