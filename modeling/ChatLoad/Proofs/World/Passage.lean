import Mathlib.Algebra.BigOperators.Group.Finset.Piecewise
import ChatLoad.Proofs.Client.Messages
import ChatLoad.Proofs.World.Course

/-! Passages: stretches of a run at whose ends all routines are over. They are put together one after the
other, and so is what every agent has noted on the way. -/

namespace ChatLoad.World

variable {σ : Type} {world other third : World σ} {moves later : List Happening}

/-! ### The end of all routines -/

def OverBy (limit : Duration) (world : World σ) : Prop :=
  ∀ agent ∈ world.agents, agent.horizon world.now ≤ limit

lemma turns_forall {now : Duration} {waiting : List Agent} {net : Net σ} {agent' : Agent}
    (h : agent' ∈ (turns now waiting net).1) :
    ∃ agent ∈ waiting, ∃ net' : Net σ, agent' = (agent.turn now net').1 := by
  induction waiting generalizing net with
  | nil => cases h
  | cons agent waiting ih =>
    rw [(turns_cons now agent waiting net).1] at h
    rcases List.mem_cons.mp h with rfl | hlater
    · exact ⟨agent, List.mem_cons_self, net, rfl⟩
    · obtain ⟨other, ho, net', rfl⟩ := ih hlater
      exact ⟨other, List.mem_cons_of_mem _ ho, net', rfl⟩

lemma OverBy.round {limit : Duration} (h : world.OverBy limit) :
    world.round.OverBy limit ∧ ∀ agent ∈ world.round.agents, agent.Waiting world.now := by
  have hone {agent' : Agent} (ha' : agent' ∈ world.round.agents) :
      agent'.Waiting world.now ∧ agent'.horizon world.now ≤ limit := by
    obtain ⟨agent, ha, net, rfl⟩ := turns_forall ha'
    obtain ⟨hwaiting, hle⟩ := agent.turn_horizon world.now net
    exact ⟨hwaiting, Nat.le_trans hle (h agent ha)⟩
  exact ⟨fun agent ha => (hone ha).2, fun agent ha => (hone ha).1⟩

lemma OverBy.settle {limit : Duration} (h : world.OverBy limit) :
    world.settle.OverBy limit ∧ ∀ agent ∈ world.settle.agents, agent.Waiting world.now := by
  induction world using settle.induct with
  | case1 world next hless ih =>
    rw [World.settle, if_pos hless]
    exact ih h.round.1.round.1
  | case2 world next hless =>
    rw [World.settle, if_neg hless]
    exact h.round.1.round

/-- Unless it is interrupted, a wait for all routines sees them all to their end. -/
theorem pass_idle (limit now : Duration) {world : World σ}
    (hover : World.OverBy limit { world with now })
    (h : (world.pass isIdle limit now).interrupted = false) :
    (world.pass isIdle limit now).isIdle := by
  induction now, world using pass.induct isIdle limit with
  | case1 now world settled hstop =>
    rw [pass, if_pos hstop]
    rcases (Bool.or_eq_true _ _).mp hstop with hidle | hlimit
    · exact hidle
    · obtain ⟨hover, hwaiting⟩ := hover.settle
      rw [OverBy, now_settle] at hover
      exact List.all_eq_true.mpr fun agent ha =>
        (hwaiting agent ha).over (Nat.le_trans (hover agent ha) (of_decide_eq_true hlimit))
  | case2 now world settled hstop hcalled =>
    rw [pass, if_neg hstop, if_pos hcalled] at h
    cases h
  | case3 now world settled moment hstop hcalled hahead ih =>
    rw [pass, if_neg hstop, if_neg hcalled, dif_pos hahead] at h ⊢
    obtain ⟨hover, hwaiting⟩ := hover.settle
    have hnow : settled.now = now := now_settle _
    have hlimit : settled.now < limit := hnow ▸ Nat.lt_of_lt_of_le hahead.1 hahead.2
    obtain ⟨_, _, hdue⟩ := settled.nextDue_spec hlimit
    rw [OverBy, now_settle] at hover
    rw [hnow] at hdue
    -- no wait ends before the moment to which time goes on, so no routine lasts any longer
    refine ih (fun agent ha => ?_) h
    exact Nat.le_trans ((hwaiting agent ha).horizon_le (hdue agent ha))
      (Nat.max_le_of_le_of_le hahead.2 (hover agent ha))
  | case4 now world settled moment hstop hcalled hahead =>
    have hless : now < limit := Nat.lt_of_not_le fun hle => hstop (by simp [hle])
    exact absurd (settled.nextDue_ahead (now_settle _) hless) hahead

lemma finish_idle (world : World σ) (h : world.finish.interrupted = false) :
    world.finish.isIdle := by
  rw [finish] at h ⊢
  split at h
  · next hinterrupted =>
    rw [hinterrupted] at h
    cases h
  · next hgoes =>
    rw [if_neg hgoes]
    exact pass_idle _ _ (fun agent ha => world.horizon_le ha) h

/-! ### Interruptions last -/

lemma interrupted_of_rest {span : Duration} (h : (world.rest span).interrupted = false) :
    world.interrupted = false := by
  by_contra hinterrupted
  rw [Bool.not_eq_false] at hinterrupted
  rw [rest, if_pos hinterrupted, hinterrupted] at h
  cases h

lemma interrupted_of_note {level : Level} {text : String}
    (h : (world.noteUnlessInterrupted level text).interrupted = false) :
    world.interrupted = false :=
  (world.noteUnlessInterrupted_same level text).2 ▸ h

/-! ### Passages -/

/-- On the way from one world to another, in which all routines are over, agents begin only what they may,
and what each has noted fits how it stood before. -/
structure Passage (allows : Nat → Act → Prop) (fits : Nat → Standing → List Incident → Prop)
    (world : World σ) (moves : List Happening) (other : World σ) : Prop
    extends Leads world moves other where
  idle : other.isIdle
  owner : ∀ {position : Nat} {agent agent' : Agent}, world.agents[position]? = some agent →
    other.agents[position]? = some agent' → agent'.client.id = agent.client.id
  stands : ∀ {position : Nat} {agent agent' : Agent}, world.agents[position]? = some agent →
    other.agents[position]? = some agent' →
    ∀ standing, agent.client.Stands .nothing standing →
      agent'.client.Stands .nothing (standing.afterAll (world.notes position moves))
  fits : ∀ {position : Nat} {agent : Agent}, world.agents[position]? = some agent →
    ∀ standing, agent.client.Stands .nothing standing →
      fits position standing (world.notes position moves)
  allowed : ∀ {position : Nat} {act : Act}, .client position (.begin act) ∈ moves →
    allows position act

namespace Passage

variable {allows : Nat → Act → Prop} {fits fits' : Nat → Standing → List Incident → Prop}

lemma imp (passage : Passage allows fits world moves other)
    (h : ∀ position standing story, fits position standing story → fits' position standing story) :
    Passage allows fits' world moves other :=
  { passage with fits := fun ha standing stands => h _ _ _ (passage.fits ha standing stands) }

lemma allowing {allows' : Nat → Act → Prop} (passage : Passage allows fits world moves other)
    (h : ∀ position act, allows position act → allows' position act) :
    Passage allows' fits world moves other :=
  { passage with allowed := fun hact => h _ _ (passage.allowed hact) }

/-- What fits one stretch and then another. -/
def Then (fits fits' : Nat → Standing → List Incident → Prop) (position : Nat)
    (standing : Standing) (story : List Incident) : Prop :=
  ∃ before after, story = before ++ after ∧ fits position standing before ∧
    fits' position (standing.afterAll before) after

lemma trans (passage : Passage allows fits world moves other)
    (passage' : Passage allows fits' other later third) :
    Passage allows (Then fits fits') world (moves ++ later) third where
  toLeads := passage.toLeads.trans passage'.toLeads
  idle := passage'.idle
  owner := fun ha ha'' => by
    obtain ⟨agent', ha'⟩ := passage.agent ha
    exact (passage'.owner ha' ha'').trans (passage.owner ha ha')
  stands := fun ha ha'' standing stands => by
    obtain ⟨agent', ha'⟩ := passage.agent ha
    rw [passage.notes_append, Standing.afterAll_append]
    exact passage'.stands ha' ha'' _ (passage.stands ha ha' standing stands)
  fits := fun ha standing stands => by
    obtain ⟨agent', ha'⟩ := passage.agent ha
    exact ⟨_, _, passage.notes_append _ _, passage.fits ha standing stands,
      passage'.fits ha' _ (passage.stands ha ha' standing stands)⟩
  allowed := fun hact => (List.mem_append.mp hact).elim passage.allowed passage'.allowed

end Passage

section

variable {allows : Nat → Act → Prop} {fits : Nat → Standing → List Incident → Prop}

/-- What an agent notes that is given nothing to do. -/
def AtEase (_position : Nat) (standing : Standing) (story : List Incident) : Prop :=
  Tale standing .nothing [] story

lemma given_leads (routine : Nat → Agent → List Act) : world.Leads [] (world.given routine) :=
  .of_same (world.same_given routine) rfl rfl

lemma Course.begun_given (idle : world.isIdle) {routine : Nat → Agent → List Act}
    (course : (world.given routine).Course moves other) {position : Nat} {act : Act}
    (h : .client position (.begin act) ∈ moves) :
    ∃ agent, world.agents[position]? = some agent ∧ act ∈ routine position agent := by
  obtain ⟨agent', ha', hmem⟩ := course.begun h
  obtain ⟨agent, ha⟩ := (given_leads routine).agent_before ha'
  rw [getElem?_given idle routine ha, Option.some.injEq] at ha'
  subst ha'
  exact ⟨agent, ha, hmem⟩

lemma Passage.of_course (idle : world.isIdle) {routine : Nat → Agent → List Act}
    (course : (world.given routine).Course moves other) (done : other.isIdle)
    (hfits : ∀ {position : Nat} {agent : Agent} {standing : Standing} {story : List Incident},
      world.agents[position]? = some agent → agent.client.Stands .nothing standing →
        Tale standing .nothing (routine position agent) story → fits position standing story)
    (hallows : ∀ {position : Nat} {agent : Agent} {act : Act},
      world.agents[position]? = some agent → act ∈ routine position agent → allows position act) :
    Passage allows fits world moves other := by
  -- the course starts from agents that differ from ours in what they are to do only
  have hpassed {position : Nat} {agent agent' : Agent} (ha : world.agents[position]? = some agent)
      (ha' : other.agents[position]? = some agent') :
      ({ agent with acts := routine position agent } : Agent).Goes (world.notes position moves)
        agent' := by
    rw [notes, (world.same_given routine).trace]
    exact course.goes (getElem?_given idle routine ha) ha'
  refine ⟨(given_leads routine).trans course.toLeads, done, fun ha ha' => (hpassed ha ha').id,
    fun {position agent agent'} ha ha' standing stands => ?_,
    fun {position agent} ha standing stands => ?_, fun {position act} hact => ?_⟩
  · rw [← (idle_agent idle ha).2] at stands
    rw [← (idle_agent done ha').2]
    exact (hpassed ha ha').stands standing stands
  · obtain ⟨agent', ha'⟩ := course.agent (getElem?_given idle routine ha)
    obtain ⟨hacts, hwait⟩ := idle_agent done ha'
    refine hfits ha stands ?_
    rw [← (idle_agent idle ha).2] at stands ⊢
    have htale := (hpassed ha ha').tale standing stands []
    rw [List.append_nil, hacts, hwait] at htale
    exact htale .done
  · obtain ⟨agent, ha, hmem⟩ := course.begun_given idle hact
    exact hallows ha hmem

lemma Passage.at_ease (idle : world.isIdle) (course : world.Course moves other) :
    Passage allows AtEase world moves other := by
  have hagents : (world.agents.mapIdx fun _ agent => agent) = world.agents :=
    List.ext_getElem? fun i => by simp
  have hnothing : world.given (fun _ _ => []) = world := by
    simp only [given, List.append_nil]
    rw [hagents]
  have hdone : other.isIdle := by
    refine List.all_eq_true.mpr fun agent' ha' => ?_
    obtain ⟨position, hp'⟩ := List.getElem?_of_mem ha'
    obtain ⟨agent, hp⟩ := course.agent_before hp'
    exact (course.goes hp hp').idle (List.all_eq_true.mp idle agent (List.mem_of_getElem? hp))
  rw [← hnothing] at course
  exact .of_course idle course hdone (fun _ _ htale => htale) fun _ hact => by cases hact

lemma assign_course (h : world.interrupted = false) (routine : Nat → Agent → List Act) :
    (world.given routine).Course (world.assignMoves routine) (world.assign routine) := by
  have hgiven : ¬ (world.given routine).interrupted = true := by simp [given, h]
  rw [assign_eq_finish h, assignMoves, if_neg (by simp [h]), finish, finishMoves, if_neg hgiven,
    if_neg hgiven]
  exact pass_course _ _ _ (Nat.le_refl _)

/-- Whether or not it is interrupted, an assignment lets idle agents begin only what it gives them. -/
lemma assign_leads (idle : world.isIdle) (routine : Nat → Agent → List Act) :
    world.Leads (world.assignMoves routine) (world.assign routine) ∧
      ∀ {position : Nat} {act : Act}, .client position (.begin act) ∈ world.assignMoves routine →
        ∃ agent, world.agents[position]? = some agent ∧ act ∈ routine position agent := by
  by_cases hinterrupted : world.interrupted = true
  · rw [assign, if_pos hinterrupted, assignMoves, if_pos hinterrupted]
    exact ⟨.of_same (.refl _) rfl rfl, fun hact => by cases hact⟩
  · rw [Bool.not_eq_true] at hinterrupted
    have course := assign_course hinterrupted routine
    exact ⟨(given_leads routine).trans course.toLeads, course.begun_given idle⟩

/-- Unless it is interrupted, an assignment sees all the routines through that it gives to idle agents. -/
theorem assign_passage (idle : world.isIdle) {routine : Nat → Agent → List Act}
    (h : (world.assign routine).interrupted = false)
    (hfits : ∀ {position : Nat} {agent : Agent} {standing : Standing} {story : List Incident},
      world.agents[position]? = some agent → agent.client.Stands .nothing standing →
        Tale standing .nothing (routine position agent) story → fits position standing story)
    (hallows : ∀ {position : Nat} {agent : Agent} {act : Act},
      world.agents[position]? = some agent → act ∈ routine position agent → allows position act) :
    Passage allows fits world (world.assignMoves routine) (world.assign routine) := by
  have hgoes := interrupted_of_assign h
  have hassign := assign_eq_finish hgoes routine
  exact .of_course idle (assign_course hgoes routine) (hassign ▸ finish_idle _ (hassign ▸ h)) hfits
    hallows

/-- What is noted where nothing happens. -/
def Mute (_position : Nat) (_standing : Standing) (story : List Incident) : Prop :=
  story = []

lemma note_passage (idle : world.isIdle) (level : Level) (text : String) :
    Passage allows Mute world [] (world.noteUnlessInterrupted level text) := by
  have hcourse : world.Course [] (world.noteUnlessInterrupted level text) := by
    rw [noteUnlessInterrupted]
    split
    · exact .of_leads (.of_same (.refl _) rfl rfl) rfl
    · refine .of_leads (.of_same (world.note_same level text).symm ?_ rfl) rfl
      simp [doings, World.note, record, Event.doing?]
  exact { Passage.at_ease idle hcourse with fits := fun _ _ _ => rfl }

theorem rest_passage (idle : world.isIdle) (span : Duration) :
    Passage allows AtEase world (world.restMoves span) (world.rest span) := by
  refine .at_ease idle ?_
  rw [rest, restMoves]
  split
  · exact .of_leads (.of_same (.refl _) rfl rfl) rfl
  · exact pass_course _ _ _ (Nat.le_refl _)

lemma Passage.of_note {level : Level} {text : String} (idle : world.isIdle)
    (passage : Passage allows fits (world.noteUnlessInterrupted level text) moves other) :
    Passage allows fits world moves other := by
  refine ((note_passage idle level text).trans passage).imp ?_
  rintro position standing story ⟨before, after, rfl, rfl, hafter⟩
  exact hafter

lemma Passage.note (passage : Passage allows fits world moves other) (level : Level)
    (text : String) : Passage allows fits world moves (other.noteUnlessInterrupted level text) := by
  have hnoted := passage.trans (note_passage passage.idle level text)
  rw [List.append_nil] at hnoted
  refine hnoted.imp ?_
  rintro position standing story ⟨before, after, rfl, hbefore, rfl⟩
  rwa [List.append_nil]

/-- What an agent notes that follows some routine like this. -/
def Following (routine : Nat → Standing → List Act → Prop) (position : Nat) (standing : Standing)
    (story : List Incident) : Prop :=
  ∃ acts, routine position standing acts ∧ Tale standing .nothing acts story

lemma Passage.rest {routine : Nat → Standing → List Act → Prop}
    (passage : Passage allows (Following routine) world moves other) (span : Duration) :
    Passage allows (Following routine) world (moves ++ other.restMoves span) (other.rest span) := by
  refine (passage.trans (rest_passage passage.idle span)).imp ?_
  rintro position standing story ⟨before, after, rfl, ⟨acts, hacts, htale⟩, hafter⟩
  exact ⟨acts, hacts, htale.eased hafter⟩

end

/-! ### What is told of each client -/

/-- Clients are numbered in order, from one on. -/
def Numbered (world : World σ) : Prop :=
  ∀ (position : Nat) (agent : Agent), world.agents[position]? = some agent →
    agent.client.id.toNat = position + 1

def toldOf (number : Nat) (doings : List (UInt64 × Incident)) : List Incident :=
  doings.filterMap fun told => if told.1.toNat = number then some told.2 else none

lemma toldOf_append (number : Nat) (before later : List (UInt64 × Incident)) :
    toldOf number (before ++ later) = toldOf number before ++ toldOf number later :=
  List.filterMap_append

lemma toldOf_told {id : UInt64} (incidents : List Incident) (number : Nat) :
    toldOf number (incidents.map (id, ·)) = if id.toNat = number then incidents else [] := by
  rw [toldOf, List.filterMap_map]
  split
  · next heq =>
    simp only [Function.comp_def, heq, if_true]
    exact List.filterMap_some
  · next hne => simp [hne]

lemma toldOf_ne_nil {told : UInt64 × Incident} {doings : List (UInt64 × Incident)}
    (h : told ∈ doings) : toldOf told.1.toNat doings ≠ [] :=
  List.ne_nil_of_mem (List.mem_filterMap.mpr ⟨told, h, if_pos rfl⟩)

lemma Passage.numbered {allows : Nat → Act → Prop} {fits : Nat → Standing → List Incident → Prop}
    (passage : Passage allows fits world moves other) (h : world.Numbered) : other.Numbered := by
  intro position agent' ha'
  obtain ⟨agent, ha⟩ := passage.agent_before ha'
  rw [passage.owner ha ha', h position agent ha]

lemma Numbered.step (h : world.Numbered) (happening : Happening) :
    (world.step happening).Numbered := by
  intro position agent' ha'
  rcases step_cases world happening with ⟨place, agent, move, rfl, ha⟩ | ⟨hagents, _⟩
  · rcases agents_step_client ha ha' with ⟨rfl, rfl⟩ | ⟨_, hold⟩
    · rw [← h position agent ha]
      exact congrArg _ (agent.client.moved world.net world.now agent.wait move).owner.1
    · exact h position agent' hold
  · rw [hagents] at ha'
    exact h position agent' ha'

lemma length_step (world : World σ) (happening : Happening) :
    (world.step happening).agents.length = world.agents.length := by
  rcases step_cases world happening with ⟨position, agent, move, rfl, h⟩ | ⟨hagents, _⟩
  · rw [step_client h, agents_moved, List.length_set]
  · rw [hagents]

theorem Numbered.toldOf_happened (h : world.Numbered) (moves : List Happening) (position : Nat) :
    toldOf (position + 1) (world.trace happened moves) = world.notes position moves := by
  induction moves generalizing world with
  | nil => rfl
  | cons happening later ih =>
    have hfirst : toldOf (position + 1) (world.happened happening) =
        world.ofMovesBy position Client.noted happening := by
      rcases step_cases world happening with ⟨place, agent, move, rfl, ha⟩ | ⟨_, _, hnone⟩
      · rw [happened, ofMoves_client ha, Client.told, toldOf_told, h place agent ha]
        by_cases hplace : place = position
        · subst hplace
          rw [if_pos rfl, ofMovesBy_self ha]
        · rw [if_neg (by omega), ofMovesBy_other (by simpa [Happening.isBy] using hplace)]
      · rw [happened, hnone, ofMovesBy, hnone, ite_self]
        rfl
    rw [notes, trace, trace, toldOf_append, hfirst, ih (h.step happening), notes]

lemma Numbered.mem_happened (h : world.Numbered) {moves : List Happening} {told : UInt64 × Incident}
    (ht : told ∈ world.trace happened moves) :
    ∃ position agent, world.agents[position]? = some agent ∧ told.1.toNat = position + 1 := by
  induction moves generalizing world with
  | nil => cases ht
  | cons happening later ih =>
    rw [trace] at ht
    rcases List.mem_append.mp ht with hmine | hlater
    · rcases step_cases world happening with ⟨place, agent, move, rfl, ha⟩ | ⟨_, _, hnone⟩
      · rw [happened, ofMoves_client ha] at hmine
        obtain ⟨incident, _, rfl⟩ := List.mem_map.mp hmine
        exact ⟨place, agent, ha, h place agent ha⟩
      · rw [happened, hnone] at hmine
        cases hmine
    · obtain ⟨position, agent', ha', hnumber⟩ := ih (h.step happening) hlater
      have hlt := (List.getElem?_eq_some_iff.mp ha').1
      rw [length_step] at hlt
      exact ⟨position, _, List.getElem?_eq_getElem hlt, hnumber⟩

/-! ### Counting -/

lemma stats_run (world : World σ) (moves : List Happening) :
    (world.run moves).stats = world.stats.after (world.trace (ofMoves Client.noted) moves) := by
  induction moves generalizing world with
  | nil => rfl
  | cons happening later ih =>
    rw [run_cons, ih, stats_step, trace, Stats.after, Stats.after, Stats.after,
      List.flatMap_append, List.foldl_append]

lemma measure_ofMoves {α : Type} (f : Client → Net σ → Duration → Wait → Move → List α)
    (measure : List α → Nat) (hnil : measure [] = 0) (world : World σ) (happening : Happening) :
    measure (world.ofMoves f happening) =
      ∑ position ∈ Finset.range world.agents.length,
        measure (world.ofMovesBy position f happening) := by
  rcases step_cases world happening with ⟨place, agent, move, rfl, h⟩ | ⟨_, _, hnone⟩
  · have hlt := (List.getElem?_eq_some_iff.mp h).1
    rw [Finset.sum_eq_single_of_mem place (Finset.mem_range.mpr hlt), ofMovesBy_self h,
      ofMoves_client h]
    intro position _ hne
    rw [ofMovesBy_other (by simpa [Happening.isBy] using hne.symm), hnil]
  · rw [hnone, hnil, Finset.sum_eq_zero fun position _ => ?_]
    rw [ofMovesBy, hnone, ite_self, hnil]

/-- What adds up along a list adds up over the agents. -/
lemma measure_trace {α : Type} (f : Client → Net σ → Duration → Wait → Move → List α)
    (measure : List α → Nat) (hnil : measure [] = 0)
    (happend : ∀ before after, measure (before ++ after) = measure before + measure after)
    (world : World σ) (moves : List Happening) :
    measure (world.trace (ofMoves f) moves) =
      ∑ position ∈ Finset.range world.agents.length,
        measure (world.trace (ofMovesBy position f) moves) := by
  induction moves generalizing world with
  | nil => rw [trace, hnil]; exact (Finset.sum_eq_zero fun _ _ => hnil).symm
  | cons happening later ih =>
    simp only [trace, happend, Finset.sum_add_distrib]
    rw [measure_ofMoves f measure hnil, ih, length_step]

/-- The counters are the sums of what the clients have noted. -/
theorem Leads.counted (h : world.Leads moves other) (c : Counter) :
    other.stats.counters.get c = world.stats.counters.get c +
      ∑ position ∈ Finset.range world.agents.length,
        Incident.tally (world.notes position moves) c := by
  rw [← h.same.stats, stats_run, Stats.get_after,
    measure_trace Client.noted (Incident.tally · c) rfl fun _ _ => Incident.tally_append _ _ c]
  rfl

end ChatLoad.World
