import ChatLoad.Proofs.Client.Timetable
import ChatLoad.Proofs.World.Takedown

/-! Plain routines are carried out on time: unless a run is interrupted, every act begins just when its
timetable says. -/

namespace ChatLoad.World

variable {σ : Type}

/-! ### What one client does in a run -/

section

variable {α : Type} (f : Client → Net σ → Duration → Wait → Move → List α)
variable {world other : World σ} {position : Nat} {agent : Agent}

lemma trace_of_others (world : World σ) {happenings : List Happening}
    (h : ∀ happening ∈ happenings, happening.isBy (· == position) = false) :
    world.trace (ofMovesBy position f) happenings = [] := by
  induction happenings generalizing world with
  | nil => rfl
  | cons happening later ih =>
    rw [trace, ofMovesBy_other (h happening List.mem_cons_self),
      ih _ fun next hn => h next (List.mem_cons_of_mem _ hn), List.append_nil]

lemma Same.ofMovesBy (same : world.Same other) (happening : Happening) :
    world.ofMovesBy position f happening = other.ofMovesBy position f happening := by
  cases hby : happening.isBy (· == position) with
  | false => rw [ofMovesBy_other hby, ofMovesBy_other hby]
  | true =>
    obtain ⟨move, rfl⟩ := eq_client_of_isBy hby
    cases h : world.agents[position]? with
    | none => simp only [World.ofMovesBy, ofMoves, h, same.no_agent h]
    | some agent =>
      obtain ⟨agent', h', hclient, hwait⟩ := same.agent h
      rw [ofMovesBy_self h, ofMovesBy_self h', hclient, hwait, same.net, same.now]

lemma Same.trace (same : world.Same other) (happenings : List Happening) :
    world.trace (World.ofMovesBy position f) happenings =
      other.trace (World.ofMovesBy position f) happenings := by
  induction happenings generalizing world other with
  | nil => rfl
  | cons happening later ih =>
    rw [World.trace, World.trace, same.ofMovesBy, ih (same.step happening)]

lemma trace_play (h : world.agents[position]? = some agent) (moves : List Move) :
    world.trace (ofMovesBy position f) (moves.map (.client position)) =
      (agent.client.turnOn world.net).trace f world.now agent.wait moves := by
  induction moves generalizing world agent with
  | nil => rfl
  | cons move moves ih =>
    obtain ⟨hlt, _⟩ := List.getElem?_eq_some_iff.mp h
    have hagent : (world.step (.client position move)).agents[position]? =
        some (agent.moved world.net world.now move) := by
      rw [step_client h, agents_moved, List.getElem?_set_self hlt]
    rw [List.map_cons, trace, ofMovesBy_self h, ih hagent, net_step_client h,
      now_step rfl world, Turn.trace]
    -- the other moves do not mind what the first has noted
    have hturn (turn : Turn σ) : turn = (turn.client.turnOn turn.net).noting turn.incidents := by
      simp [Turn.noting, Client.turnOn]
    rw [hturn ((agent.client.turnOn world.net).move world.now agent.wait move).1,
      Turn.trace_noting]
    rfl

lemma trace_turnMoves {waiting done : List Agent} (hagents : world.agents = done ++ waiting)
    {i : Nat} (h : waiting[i]? = some agent) :
    ∃ net, (turns world.now waiting world.net).1[i]? = some (agent.turn world.now net).1 ∧
      world.trace (ofMovesBy (done.length + i) f)
          (turnMoves world.now done.length waiting world.net) =
        (agent.client.turnOn net).trace f world.now agent.wait (agent.moves world.now net) := by
  induction waiting generalizing done world i with
  | nil => cases h
  | cons first waiting ih =>
    have hrun := turn_run hagents
    rw [turnMoves, (turns_cons world.now first waiting world.net).1, trace_append]
    cases i with
    | zero =>
      obtain rfl : first = agent := Option.some.inj h
      have hfirst : world.agents[done.length]? = some first := by simp [hagents]
      refine ⟨world.net, rfl, ?_⟩
      rw [Nat.add_zero, trace_play f hfirst, trace_of_others, List.append_nil]
      intro happening hlater
      obtain ⟨place, move, hle, rfl⟩ := mem_turnMoves hlater
      exact beq_false_of_ne (Nat.ne_of_gt hle)
    | succ i =>
      rw [hrun.trace, trace_of_others]
      · let next : World σ :=
          { world with
            agents := done ++ [(first.turn world.now world.net).1] ++ waiting
            net := (first.turn world.now world.net).2.1
            stats := world.stats.after (first.turn world.now world.net).2.2 }
        obtain ⟨net, hturn, htrace⟩ := @ih next (done ++ [(first.turn world.now world.net).1]) rfl i h
        rw [List.length_append, List.length_singleton] at htrace
        refine ⟨net, hturn, ?_⟩
        rw [← htrace, List.nil_append, Nat.add_right_comm, Nat.add_assoc]
      · intro happening hmine
        obtain ⟨move, _, rfl⟩ := List.mem_map.mp hmine
        exact beq_false_of_ne (by omega)

end

/-! ### From one world to another -/

/-- No agent has missed a moment that its routine waits for. -/
def OnTime (world : World σ) : Prop :=
  ∀ agent ∈ world.agents, agent.OnTime world.now

/-- No routine comes any further at this moment. -/
def Paused (world : World σ) : Prop :=
  ∀ agent ∈ world.agents, agent.Paused world.now

/-- By these steps one world leads to the other, and what was ahead of an agent is either begun on the
way or still ahead. -/
def Carries (world : World σ) (moves : List Happening) (other : World σ) : Prop :=
  world.agents.length = other.agents.length ∧ (world.run moves).Same other ∧
    ∀ (position : Nat) (agent agent' : Agent), world.agents[position]? = some agent →
      other.agents[position]? = some agent' → ∀ settings,
        agent.ahead settings world.now =
          world.trace (ofMovesBy position Client.begun) moves ++ agent'.ahead settings other.now

variable {world other third : World σ} {moves later : List Happening}

lemma Paused.onTime (paused : world.Paused) : world.OnTime :=
  fun agent ha => (paused agent ha).onTime

lemma Carries.trans (h : world.Carries moves other) (h' : other.Carries later third) :
    world.Carries (moves ++ later) third := by
  obtain ⟨hlen, hsame, hahead⟩ := h
  obtain ⟨hlen', hsame', hahead'⟩ := h'
  refine ⟨hlen.trans hlen', ?_, ?_⟩
  · rw [run_append]
    exact (hsame.run later).trans hsame'
  · intro position agent last ha hl settings
    have hlt : position < other.agents.length :=
      hlen ▸ (List.getElem?_eq_some_iff.mp ha).1
    have hmid := List.getElem?_eq_getElem hlt
    rw [hahead position agent _ ha hmid, hahead' position _ last hmid hl, trace_append,
      hsame.trace, List.append_assoc]

/-- No time passes. -/
lemma carries_now (world : World σ) : world.Carries [.pass (world.now - world.now)] world := by
  refine ⟨rfl, ⟨rfl, by simp [World.step], rfl, rfl⟩, ?_⟩
  intro position agent agent' ha ha' settings
  obtain rfl : agent = agent' := Option.some.inj (ha.symm.trans ha')
  rfl

/-- Whatever is still to be begun, is to be begun by then. -/
def EndsBy (limit : Duration) (world : World σ) : Prop :=
  ∀ agent ∈ world.agents, ∃ settings, ∀ entry ∈ agent.ahead settings world.now, entry.1 ≤ limit

lemma Carries.endsBy (h : world.Carries moves other) {limit : Duration} (ends : world.EndsBy limit) :
    other.EndsBy limit := by
  obtain ⟨hlen, _, hahead⟩ := h
  intro agent' ha'
  obtain ⟨position, hp⟩ := List.getElem?_of_mem ha'
  have hlt : position < world.agents.length :=
    hlen ▸ (List.getElem?_eq_some_iff.mp hp).1
  have hagent := List.getElem?_eq_getElem hlt
  obtain ⟨settings, hbound⟩ := ends _ (List.mem_of_getElem? hagent)
  refine ⟨settings, fun entry hentry => hbound entry ?_⟩
  rw [hahead position _ agent' hagent hp]
  exact List.mem_append_right _ hentry

/-! ### Rounds -/

lemma turns_paused {now : Duration} {waiting : List Agent}
    (onTime : ∀ agent ∈ waiting, agent.OnTime now) (net : Net σ) :
    ∀ agent ∈ (turns now waiting net).1, agent.Paused now := by
  induction waiting generalizing net with
  | nil => exact fun _ ha => absurd ha List.not_mem_nil
  | cons agent waiting ih =>
    obtain ⟨hone, hothers⟩ := List.forall_mem_cons.mp onTime
    rw [(turns_cons now agent waiting net).1, List.forall_mem_cons]
    exact ⟨(hone.turn net).1, ih hothers _⟩

lemma length_turns (now : Duration) (waiting : List Agent) (net : Net σ) :
    (turns now waiting net).1.length = waiting.length := by
  induction waiting generalizing net with
  | nil => rfl
  | cons agent waiting ih =>
    rw [(turns_cons now agent waiting net).1, List.length_cons, List.length_cons, ih]

lemma OnTime.round (onTime : world.OnTime) :
    world.Carries world.roundMoves world.round ∧ world.round.Paused := by
  have hagents : world.round.agents =
      (turns world.now world.agents (world.net.runAgenda world.now)).1 := rfl
  have hnow : world.round.now = world.now := rfl
  refine ⟨⟨?_, world.round_run, ?_⟩, ?_⟩
  · rw [hagents, length_turns]
  · intro position agent agent' ha ha' settings
    obtain ⟨net, hturn, htrace⟩ := @trace_turnMoves _ _ Client.begun (world.step .agenda) agent
      world.agents [] rfl position ha
    rw [List.length_nil, Nat.zero_add] at htrace
    rw [hagents] at ha'
    obtain rfl : (agent.turn world.now net).1 = agent' := Option.some.inj (hturn.symm.trans ha')
    rw [((onTime agent (List.mem_of_getElem? ha)).turn net).2 settings, roundMoves, trace,
      ofMovesBy_other rfl, List.nil_append, hnow]
    exact congrArg (· ++ _) htrace.symm
  · rw [Paused, hagents]
    exact turns_paused onTime _

lemma OnTime.settle (onTime : world.OnTime) :
    world.Carries world.settleMoves world.settle ∧ world.settle.Paused := by
  have htwice {world : World σ} (onTime : world.OnTime) :
      world.Carries (world.roundMoves ++ world.round.roundMoves) world.round.round ∧
        world.round.round.Paused := by
    obtain ⟨hfirst, hpaused⟩ := onTime.round
    obtain ⟨hsecond, hpaused'⟩ := hpaused.onTime.round
    exact ⟨hfirst.trans hsecond, hpaused'⟩
  induction world using settle.induct with
  | case1 world next hless ih =>
    obtain ⟨hround, hpaused⟩ := htwice onTime
    obtain ⟨hrest, hdone⟩ := ih hpaused.onTime
    rw [World.settle, if_pos hless, settleMoves, if_pos hless]
    exact ⟨hround.trans hrest, hdone⟩
  | case2 world next hless =>
    rw [World.settle, if_neg hless, settleMoves, if_neg hless]
    exact htwice onTime

/-! ### Time -/

/-- Nothing is missed while time goes on, if no routine waits for a moment in between. -/
lemma Paused.wait (paused : world.Paused) {moment : Duration} (hle : world.now ≤ moment)
    (hdue : ∀ agent ∈ world.agents, ∀ due, agent.wait = .clock due → world.now < due → moment ≤ due) :
    world.Carries [.pass (moment - world.now)] { world with now := moment } ∧
      World.OnTime { world with now := moment } := by
  refine ⟨⟨rfl, ⟨rfl, Nat.add_sub_cancel' hle, rfl, rfl⟩, ?_⟩, ?_⟩
  · intro position agent agent' ha ha' settings
    obtain rfl : agent = agent' := Option.some.inj (ha.symm.trans ha')
    have hmem := List.mem_of_getElem? ha
    rw [trace, ofMovesBy_other rfl, trace, List.nil_append, List.nil_append]
    rcases (paused agent hmem).wait with ⟨hacts, _⟩ | ⟨due, hless, hclock⟩
    · rw [Agent.ahead_of_done hacts, Agent.ahead_of_done hacts]
    · rw [Agent.ahead_of_clock hclock (Nat.le_of_lt hless),
        Agent.ahead_of_clock hclock (hdue agent hmem due hclock hless)]
  · intro agent ha
    refine ⟨(paused agent ha).plain, ?_⟩
    rcases (paused agent ha).wait with ⟨_, hnothing⟩ | ⟨due, hless, hclock⟩
    · exact .inl hnothing
    · exact .inr ⟨due, hdue agent ha due hclock hless, hclock⟩

lemma nextDue_spec (world : World σ) {limit : Duration} (hlimit : world.now < limit) :
    let moment := match world.nextDue? with
      | some due => min due limit
      | none => limit
    world.now < moment ∧ moment ≤ limit ∧ ∀ agent ∈ world.agents, ∀ due,
      agent.wait.deadline? = some due → world.now < due → moment ≤ due := by
  have hmem {agent : Agent} (ha : agent ∈ world.agents) {due : Duration}
      (hdeadline : agent.wait.deadline? = some due) (hless : world.now < due) :
      due ∈ (world.agents.flatMap Agent.dues ++ world.net.agenda.map (·.1)).filter
        (world.now < ·) := by
    have hdues : due ∈ agent.dues := by simp [Agent.dues, hdeadline]
    exact List.mem_filter.mpr ⟨List.mem_append_left _ (List.mem_flatMap.mpr ⟨agent, ha, hdues⟩),
      decide_eq_true hless⟩
  cases hnext : world.nextDue? with
  | none =>
    rw [nextDue?, List.min?_eq_none_iff] at hnext
    refine ⟨hlimit, Nat.le_refl _, fun agent ha due hdeadline hless => ?_⟩
    have hdue := hmem ha hdeadline hless
    rw [hnext] at hdue
    cases hdue
  | some next =>
    rw [nextDue?, List.min?_eq_some_iff] at hnext
    obtain ⟨hfound, hleast⟩ := hnext
    have hafter : world.now < next := of_decide_eq_true (List.mem_filter.mp hfound).2
    refine ⟨lt_min hafter hlimit, Nat.min_le_right _ _, fun agent ha due hdeadline hless => ?_⟩
    exact Nat.le_trans (Nat.min_le_left _ _) (hleast due (hmem ha hdeadline hless))

lemma nextDue_ahead (world : World σ) {now limit : Duration} (hnow : world.now = now)
    (hlimit : now < limit) :
    let moment := match world.nextDue? with
      | some due => min due limit
      | none => limit
    now < moment ∧ moment ≤ limit := by
  subst hnow
  obtain ⟨hafter, hle, _⟩ := world.nextDue_spec hlimit
  exact ⟨hafter, hle⟩

lemma Paused.over (paused : world.Paused) {limit : Duration} (ends : world.EndsBy limit)
    (hlimit : limit ≤ world.now) : ∀ agent ∈ world.agents, agent.acts = [] := by
  intro agent ha
  rcases (paused agent ha).wait with ⟨hacts, _⟩ | ⟨due, hless, hclock⟩
  · exact hacts
  · obtain ⟨settings, hbound⟩ := ends agent ha
    rw [Agent.ahead_of_clock hclock (Nat.le_of_lt hless)] at hbound
    cases hacts : agent.acts with
    | nil => rfl
    | cons act acts =>
      rw [hacts] at hbound
      have hdue : due ≤ limit := hbound (due, act) List.mem_cons_self
      exact absurd (Nat.le_trans hdue hlimit) (Nat.not_le_of_lt hless)

/-- Unless it is interrupted, a wait for all routines carries them out to their ends. -/
theorem pass_carries (limit now : Duration) {world : World σ}
    (waits : world.Carries [.pass (now - world.now)] { world with now })
    (onTime : World.OnTime { world with now }) (ends : World.EndsBy limit { world with now })
    (h : (world.pass isIdle limit now).interrupted = false) :
    world.Carries (world.passMoves isIdle limit now) (world.pass isIdle limit now) ∧
      ∀ agent ∈ (world.pass isIdle limit now).agents, agent.acts = [] := by
  induction now, world using pass.induct isIdle limit with
  | case1 now world settled hstop =>
    rw [pass, if_pos hstop, passMoves, if_pos hstop]
    obtain ⟨hcarries, hpaused⟩ := onTime.settle
    refine ⟨waits.trans hcarries, ?_⟩
    rcases (Bool.or_eq_true _ _).mp hstop with hidle | hlimit
    · intro agent ha
      have hagent := List.all_eq_true.mp hidle agent ha
      rw [Agent.isIdle, Bool.and_eq_true, List.isEmpty_iff] at hagent
      exact hagent.1
    · refine hpaused.over (hcarries.endsBy ends) ?_
      rw [now_settle]
      exact of_decide_eq_true hlimit
  | case2 now world settled hstop hcalled =>
    rw [pass, if_neg hstop, if_pos hcalled] at h
    cases h
  | case3 now world settled moment hstop hcalled hahead ih =>
    have hmoves : world.passMoves isIdle limit now =
        .pass (now - world.now) :: settleMoves { world with now } ++
          settled.passMoves isIdle limit moment := by
      rw [passMoves, if_neg hstop, if_neg hcalled]
      exact dif_pos hahead
    rw [pass, if_neg hstop, if_neg hcalled, dif_pos hahead] at h ⊢
    obtain ⟨hcarries, hpaused⟩ := onTime.settle
    have hnow : settled.now = now := now_settle _
    have hlimit : settled.now < limit := hnow ▸ Nat.lt_of_lt_of_le hahead.1 hahead.2
    obtain ⟨hafter, _, hdue⟩ := settled.nextDue_spec hlimit
    -- time goes on to the first moment that any routine waits for, so none is missed
    obtain ⟨hwait, honTime⟩ := hpaused.wait (Nat.le_of_lt hafter)
      fun agent ha due hclock => hdue agent ha due (hclock ▸ rfl)
    obtain ⟨hrest, hdone⟩ := ih hwait honTime (hwait.endsBy (hcarries.endsBy ends)) h
    rw [hmoves]
    exact ⟨(waits.trans hcarries).trans hrest, hdone⟩
  | case4 now world settled moment hstop hcalled hahead =>
    have hless : now < limit := Nat.lt_of_not_le fun hle => hstop (by simp [hle])
    exact absurd (settled.nextDue_ahead (now_settle _) hless) hahead

/-! ### Routines -/

lemma horizon_le (world : World σ) {agent : Agent} (h : agent ∈ world.agents) :
    agent.horizon world.now ≤ world.horizon := by
  rw [horizon, List.foldl_eq_foldr]
  exact List.le_max_of_le' _ (List.mem_map_of_mem h) (Nat.le_refl _)

lemma assign_congr {routine other : Nat → Agent → List Act}
    (h : ∀ (position : Nat) (agent : Agent), world.agents[position]? = some agent →
      routine position agent = other position agent) : world.assign routine = world.assign other := by
  have hagents : (world.agents.mapIdx fun position agent =>
      ({ agent with acts := agent.acts ++ routine position agent } : Agent)) =
      world.agents.mapIdx fun position agent =>
        { agent with acts := agent.acts ++ other position agent } := by
    rw [List.mapIdx_eq_mapIdx_iff]
    intro position hlt
    rw [h position _ (List.getElem?_eq_getElem hlt)]
  simp only [assign, hagents]

lemma note_same (world : World σ) (level : Level) (text : String) :
    (world.note level text).Same world :=
  ⟨rfl, rfl, rfl, rfl⟩

lemma noteUnlessInterrupted_same (world : World σ) (level : Level) (text : String) :
    (world.noteUnlessInterrupted level text).Same world ∧
      (world.noteUnlessInterrupted level text).interrupted = world.interrupted := by
  rw [noteUnlessInterrupted]
  split
  · exact ⟨.refl world, rfl⟩
  · exact ⟨world.note_same level text, rfl⟩

lemma interrupted_of_assign {routine : Nat → Agent → List Act}
    (h : (world.assign routine).interrupted = false) : world.interrupted = false := by
  by_contra hinterrupted
  rw [Bool.not_eq_false] at hinterrupted
  rw [assign, if_pos hinterrupted, hinterrupted] at h
  cases h

lemma assign_eq_finish (h : world.interrupted = false) (routine : Nat → Agent → List Act) :
    world.assign routine = (world.given routine).finish := by
  rw [assign, if_neg (by simp [h])]
  rfl

lemma idle_agent (idle : world.isIdle) {position : Nat} {agent : Agent}
    (h : world.agents[position]? = some agent) : agent.acts = [] ∧ agent.wait = .nothing := by
  have hagent := List.all_eq_true.mp idle agent (List.mem_of_getElem? h)
  simpa [Agent.isIdle] using hagent

lemma getElem?_given (idle : world.isIdle) (routine : Nat → Agent → List Act) {position : Nat}
    {agent : Agent} (h : world.agents[position]? = some agent) :
    (world.given routine).agents[position]? = some { agent with acts := routine position agent } := by
  simp [given, h, (idle_agent idle h).1]

/-- Idle agents that are given plain routines begin every act just when the timetable says, unless the
run is interrupted. -/
theorem assignMoves_begun {routine : Nat → Agent → List Act} (idle : world.isIdle)
    (plain : ∀ position agent, ∀ act ∈ routine position agent, act.isPlain)
    (h : (world.assign routine).interrupted = false) :
    (world.run (world.assignMoves routine)).Same (world.assign routine) ∧
      ∀ position agent, world.agents[position]? = some agent →
        world.trace (ofMovesBy position Client.begun) (world.assignMoves routine) =
          Act.timetable agent.client.settings world.now (routine position agent) := by
  have hstill := interrupted_of_assign h
  have hgoes : ¬ (world.given routine).interrupted = true := by simp [given, hstill]
  have hmoves : world.assignMoves routine =
      (world.given routine).passMoves isIdle (world.given routine).horizon
        (world.given routine).now := by
    rw [assignMoves, if_neg (by simp [hstill])]
    exact if_neg hgoes
  have hback : ∀ agent' ∈ (world.given routine).agents, agent'.wait = .nothing ∧
      ∀ act ∈ agent'.acts, act.isPlain := by
    intro agent' ha'
    obtain ⟨position, hlt, rfl⟩ := List.mem_mapIdx.mp ha'
    obtain ⟨hacts, hwait⟩ := idle_agent idle (List.getElem?_eq_getElem hlt)
    rw [hacts, List.nil_append]
    exact ⟨hwait, plain position _⟩
  have honTime : (world.given routine).OnTime :=
    fun agent' ha' => ⟨(hback agent' ha').2, .inl (hback agent' ha').1⟩
  have hends : (world.given routine).EndsBy (world.given routine).horizon := by
    intro agent' ha'
    refine ⟨agent'.client.settings, fun entry hentry =>
      Nat.le_trans ?_ ((world.given routine).horizon_le ha')⟩
    exact Act.timetable_le_end hentry
  rw [assign_eq_finish hstill, finish, if_neg hgoes] at h ⊢
  rw [hmoves]
  obtain ⟨⟨hlen, hsame, hahead⟩, hdone⟩ :=
    pass_carries _ (world.given routine).now (carries_now _) honTime hends h
  have hgives := world.same_given routine
  refine ⟨(hgives.run _).trans hsame, fun position agent ha => ?_⟩
  have hfirst := getElem?_given idle routine ha
  have hnothing : ({ agent with acts := routine position agent } : Agent).wait = .nothing :=
    (idle_agent idle ha).2
  have hlast := List.getElem?_eq_getElem (hlen ▸ (List.getElem?_eq_some_iff.mp hfirst).1)
  have htrace := hahead position _ _ hfirst hlast agent.client.settings
  rw [Agent.ahead_of_done (hdone _ (List.mem_of_getElem? hlast)), List.append_nil,
    Agent.ahead_of_nothing hnothing] at htrace
  rw [hgives.trace]
  exact htrace.symm

lemma assign_begun {routine : Nat → Agent → List Act} (idle : world.isIdle)
    (plain : ∀ position agent, ∀ act ∈ routine position agent, act.isPlain)
    (h : (world.assign routine).interrupted = false) :
    ∃ happenings, (world.run happenings).Same (world.assign routine) ∧
      ∀ position agent, world.agents[position]? = some agent →
        world.trace (ofMovesBy position Client.begun) happenings =
          Act.timetable agent.client.settings world.now (routine position agent) :=
  ⟨_, assignMoves_begun idle plain h⟩

/-! ### Runs that nobody interrupts -/

/-- Nothing that comes up in the log interrupts the run. -/
structure Undisturbed (world : World σ) : Prop where
  awaited : world.awaited = none
  called : world.called = false
  interrupted : world.interrupted = false

namespace Undisturbed

lemma record (h : world.Undisturbed) (events : List Event) : (world.record events).Undisturbed := by
  refine ⟨h.awaited, ?_, h.interrupted⟩
  simp [World.record, heeds, h.awaited, h.called]

lemma round (h : world.Undisturbed) : world.round.Undisturbed := by
  have hturned (agents : List Agent) (net : Net σ) :
      World.Undisturbed { world with agents, net } := ⟨h.awaited, h.called, h.interrupted⟩
  exact (hturned _ _).record _

lemma settle (h : world.Undisturbed) : world.settle.Undisturbed := by
  induction world using settle.induct with
  | case1 world next hless ih =>
    rw [World.settle, if_pos hless]
    exact ih h.round.round
  | case2 world next hless =>
    rw [World.settle, if_neg hless]
    exact h.round.round

lemma pass (h : world.Undisturbed) (stop : World σ → Bool) (limit now : Duration) :
    (world.pass stop limit now).Undisturbed := by
  induction now, world using pass.induct stop limit with
  | case1 now world settled hstop =>
    rw [World.pass, if_pos hstop]
    exact settle ⟨h.awaited, h.called, h.interrupted⟩
  | case2 now world settled hstop hcalled =>
    have hsettled : settled.Undisturbed := settle ⟨h.awaited, h.called, h.interrupted⟩
    rw [hsettled.called] at hcalled
    cases hcalled
  | case3 now world settled moment hstop hcalled hahead ih =>
    rw [World.pass, if_neg hstop, if_neg hcalled, dif_pos hahead]
    exact ih (settle ⟨h.awaited, h.called, h.interrupted⟩)
  | case4 now world settled moment hstop hcalled hahead =>
    rw [World.pass, if_neg hstop, if_neg hcalled, dif_neg hahead]
    exact settle ⟨h.awaited, h.called, h.interrupted⟩

lemma assign (h : world.Undisturbed) (routine : Nat → Agent → List Act) :
    (world.assign routine).Undisturbed := by
  rw [World.assign]
  split
  · exact h
  · rw [finish]
    split
    · exact ⟨h.awaited, h.called, h.interrupted⟩
    · refine pass ?_ _ _ _
      exact ⟨h.awaited, h.called, h.interrupted⟩

lemma noteUnlessInterrupted (h : world.Undisturbed) (level : Level) (text : String) :
    (world.noteUnlessInterrupted level text).Undisturbed := by
  rw [World.noteUnlessInterrupted]
  split
  · exact h
  · exact h.record _

end Undisturbed

end ChatLoad.World
