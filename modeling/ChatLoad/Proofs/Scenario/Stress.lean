import Mathlib
import ChatLoad.Scenario.Run
import ChatLoad.Proofs.Scenario.Chats
import ChatLoad.Proofs.Scenario.Schedule
import ChatLoad.Proofs.World.Timetable

/-! The stress workload: its clients take turns, without a gap, at the rate asked for. -/

namespace ChatLoad

namespace Schedule

/-- The moment that a lane goes on to. -/
def deadline? : Duration × Act → Option Duration
  | (_, .pauseUntil moment) => some moment
  | _ => none

/-- A message that is handed over to be sent to another client, and when. -/
def message? : Duration × Act → Option (Duration × String)
  | (now, .single _ text) => some (now, text)
  | _ => none

def text (m : Nat) : String :=
  s!"Stress test msg #{m}"

section

variable (now moment : Duration) (target : Int64) (content : String)

@[simp] lemma deadline?_pauseUntil : deadline? (now, .pauseUntil moment) = some moment := rfl

@[simp] lemma deadline?_single : deadline? (now, .single target content) = none := rfl

@[simp] lemma message?_pauseUntil : message? (now, .pauseUntil moment) = none := rfl

@[simp] lemma message?_single :
    message? (now, .single target content) = some (now, content) := rfl

end

/-- So many messages in each lane, and in all, are a round robin at the rate of the schedule. -/
structure RoundRobin (s : Schedule) (counts : Nat → Nat) (total : Nat) : Prop where
  /-- a lane ends with the first message that is not due before the end -/
  timely : ∀ lane < s.lanes, ∀ k, k < counts lane ↔ s.offset lane k < s.duration
  complete : ((List.range s.lanes).flatMap fun lane =>
    (List.range (counts lane)).map (s.number lane)).Perm (List.range total)
  ordered : ∀ lane < s.lanes, ∀ other < s.lanes, ∀ k k', s.number lane k ≤ s.number other k' →
    s.offset lane k ≤ s.offset other k'
  even : ∀ lane < s.lanes, ∀ other < s.lanes, counts lane ≤ counts other + 1
  enough : (s.duration * s.lanes / s.gap : ℚ) ≤ total
  within : 0 < s.duration → (total : ℚ) < s.duration * s.lanes / s.gap + s.lanes

/-- What the clients begin, by position, is what the lanes are to send, at the moments at which they are
to send it. -/
structure Kept {σ : Type} (s : Schedule) (counts : Nat → Nat) (total : Nat) (world : World σ)
    (clients : Nat) (begun : Nat → List (Duration × Act)) : Prop where
  deadlines : ∀ (position : Nat) (agent : Agent), world.agents[position]? = some agent →
    agent.client.isAuthenticated → (begun position).filterMap deadline? =
      (List.range (counts (world.lane position))).map fun k =>
        world.now + s.offset (world.lane position) k
  messages : 2 ≤ clients → ∀ (position : Nat) (agent : Agent),
    world.agents[position]? = some agent → agent.client.isAuthenticated →
    (begun position).filterMap message? =
      (List.range (counts (world.lane position))).map fun k =>
        (world.now + s.offset (world.lane position) k, text (s.number (world.lane position) k))
  everything : 2 ≤ clients →
    ((List.range world.agents.length).flatMap fun position =>
      (begun position).filterMap message?).Perm
    ((List.range total).map fun m => (world.now + s.moment m, text m))

variable {s : Schedule}

lemma roundRobin (bounded : s.Bounded) {total : Nat}
    (htotal : ∀ m, m < total ↔ s.moment m < s.duration) : s.RoundRobin s.counts total := by
  have hgap : (0 : ℚ) < s.gap := Nat.cast_pos.mpr bounded.gap
  refine ⟨fun lane h k => lt_counts_iff bounded h, numbers_perm bounded htotal,
    fun lane h other h' k k' hle => offset_le_of_number_le h h' hle,
    fun lane h other h' => counts_le_succ bounded h h', ?_, fun _ => ?_⟩
  · rw [div_le_iff₀ hgap]
    exact_mod_cast duration_le_total htotal
  · rw [div_add' _ _ _ hgap.ne', lt_div_iff₀ hgap]
    exact_mod_cast total_lt_duration bounded htotal

/-- What a lane is to send, and when, if the run starts at `start`. -/
def due (s : Schedule) (start : Duration) (lane : Nat) : List (Duration × String) :=
  (List.range (s.counts lane)).map fun k => (start + s.offset lane k, text (s.number lane k))

lemma RoundRobin.due_perm {total : Nat} (robin : s.RoundRobin s.counts total) (start : Duration) :
    ((List.range s.lanes).flatMap (s.due start)).Perm
      ((List.range total).map fun m => (start + s.moment m, text m)) := by
  have hlanes : ∀ lane ∈ List.range s.lanes, s.due start lane =
      ((List.range (s.counts lane)).map (s.number lane)).map fun m =>
        (start + s.moment m, text m) := by
    intro lane h
    rw [due, List.map_map]
    refine List.map_congr_left fun k _ => ?_
    rw [Function.comp_apply, moment_number (List.mem_range.mp h)]
  rw [List.flatMap_congr hlanes, ← List.map_flatMap]
  exact robin.complete.map _

end Schedule

namespace World

variable {σ : Type}

/-! ### The routine of a lane -/

section

variable {draws : Draws} {params : RunParams} {s : Schedule} {start : Duration} {lane : Nat}
  {client : Client}

lemma stressRoutine_plain {count : Nat} {act : Act}
    (h : act ∈ stressRoutine draws params s start lane count client) : act.isPlain := by
  obtain ⟨k, _, hact⟩ := List.mem_flatMap.mp h
  rcases List.mem_cons.mp hact with rfl | hsingle
  · rfl
  · obtain ⟨target, _, rfl⟩ := Option.map_eq_some_iff.mp (Option.mem_toList.mp hsingle)
    rfl

/-- A lane goes from deadline to deadline, and hands over a message at each. -/
lemma timetable_lane (settings : Settings) (k count : Nat) {now : Duration}
    (hnow : now ≤ start + s.offset lane k) :
    let acts := (List.range' k count).flatMap fun k =>
      .pauseUntil (start + s.offset lane k) ::
        ((randomPeer? (draws client.id k) client.id params.clients).map fun target =>
          Act.single (Int64.ofNat target) s!"Stress test msg #{s.number lane k}").toList
    (Act.timetable settings now acts).filterMap Schedule.deadline? =
        (List.range' k count).map (fun k => start + s.offset lane k) ∧
      (2 ≤ params.clients → (Act.timetable settings now acts).filterMap Schedule.message? =
        (List.range' k count).map fun k =>
          (start + s.offset lane k, Schedule.text (s.number lane k))) := by
  induction count generalizing k now with
  | zero => exact ⟨rfl, fun _ => rfl⟩
  | succ count ih =>
    have hnext : start + s.offset lane k ≤ start + s.offset lane (k + 1) :=
      Nat.add_le_add_left (s.offset_mono lane (Nat.le_succ k)) start
    obtain ⟨hdeadlines, hmessages⟩ := ih (k + 1) hnext
    have hpause : Act.latest settings now (.pauseUntil (start + s.offset lane k)) =
        start + s.offset lane k := Nat.max_eq_right hnow
    simp only [List.range'_succ, List.flatMap_cons, List.map_cons]
    cases hpeer : randomPeer? (draws client.id k) client.id params.clients with
    | none =>
      constructor
      · simp only [Option.map_none, Option.toList_none, List.cons_append, List.nil_append,
          Act.timetable_cons, hpause, List.filterMap_cons, Schedule.deadline?_pauseUntil, hdeadlines]
      · intro hclients
        obtain ⟨target, htarget, _⟩ := randomPeer?_spec hclients (draws client.id k) client.id
        rw [hpeer] at htarget
        cases htarget
    | some target =>
      simp only [Option.map_some, Option.toList_some, List.cons_append, List.nil_append,
        Act.timetable_cons, hpause, Act.latest_single, List.filterMap_cons,
        Schedule.deadline?_pauseUntil, Schedule.deadline?_single, Schedule.message?_pauseUntil,
        Schedule.message?_single, hdeadlines]
      exact ⟨trivial, fun hclients => congrArg _ (hmessages hclients)⟩

lemma timetable_stressRoutine (settings : Settings) (count : Nat) :
    let begun := Act.timetable settings start (stressRoutine draws params s start lane count client)
    begun.filterMap Schedule.deadline? =
        (List.range count).map (fun k => start + s.offset lane k) ∧
      (2 ≤ params.clients → begun.filterMap Schedule.message? =
        (List.range count).map fun k =>
          (start + s.offset lane k, Schedule.text (s.number lane k))) := by
  rw [stressRoutine, List.range_eq_range']
  exact timetable_lane settings 0 count (Nat.le_add_right _ _)

end

/-! ### The clients and their lanes -/

lemma flatMap_lanes {α : Type} (g : Nat → List α) (agents : List Agent) :
    ((List.range agents.length).flatMap fun position =>
      if agents[position]?.any (·.client.isAuthenticated) then
        g ((agents.take position).countP (·.client.isAuthenticated))
      else []) =
    (List.range (agents.countP (·.client.isAuthenticated))).flatMap g := by
  induction agents using List.reverseRecOn with
  | nil => rfl
  | append_singleton agents agent ih =>
    have hbefore : ∀ position ∈ List.range agents.length,
        (if (agents ++ [agent])[position]?.any (·.client.isAuthenticated) then
          g (((agents ++ [agent]).take position).countP (·.client.isAuthenticated)) else []) =
        if agents[position]?.any (·.client.isAuthenticated) then
          g ((agents.take position).countP (·.client.isAuthenticated)) else [] := by
      intro position hp
      have hlt := List.mem_range.mp hp
      rw [List.getElem?_append_left hlt, List.take_append_of_le_length (Nat.le_of_lt hlt)]
    rw [List.length_append, List.length_singleton, List.range_succ, List.flatMap_append,
      List.flatMap_congr hbefore, ih, List.countP_append, List.flatMap_singleton,
      List.getElem?_concat_length, List.take_left, Option.any_some]
    cases hactive : agent.client.isAuthenticated with
    | false => simp [hactive]
    | true => simp [hactive, List.range_succ]

lemma lane_lt {world : World σ} {position : Nat} {agent : Agent}
    (h : world.agents[position]? = some agent) (active : agent.client.isAuthenticated) :
    world.lane position < world.authenticatedCount := by
  have hmore : (world.agents.take (position + 1)).countP (·.client.isAuthenticated) =
      world.lane position + 1 := by
    rw [List.take_add_one, h, List.countP_append, lane]
    simp [active]
  rw [authenticatedCount, ← Nat.succ_le_iff, Nat.succ_eq_add_one, ← hmore]
  exact (List.take_sublist _ _).countP_le

lemma Undisturbed.runStress {world after : World σ} (h : world.Undisturbed) {draws : Draws}
    {params : RunParams} (hrun : world.runStress draws params = some after) :
    after.Undisturbed := by
  rw [World.runStress] at hrun
  split at hrun
  · cases hrun
    exact h.record _
  · obtain ⟨counts, _, hafter⟩ := Option.bind_eq_some_iff.mp hrun
    cases hafter
    exact ((h.record _).assign _).noteUnlessInterrupted _ _

/-! ### The run -/

section

variable {draws : Draws} {params : RunParams} {s : Schedule} {world : World σ}

def stressLane (draws : Draws) (params : RunParams) (s : Schedule) (world : World σ)
    (position : Nat) (agent : Agent) : List Act :=
  if agent.client.isAuthenticated then
    stressRoutine draws params s world.now (world.lane position) (s.counts (world.lane position))
      agent.client
  else []

lemma runStress_eq (bounded : s.Bounded) (hactive : world.authenticatedCount = s.lanes)
    (hduration : params.duration = s.duration)
    (hgap : laneGap? s.lanes params.targetRate = some s.gap) :
    ∃ opening closing, world.runStress draws params =
      some (((world.note .info opening).assign (stressLane draws params s world)).noteUnlessInterrupted
        .info closing) := by
  have hschedule : (⟨s.lanes, s.gap, params.duration⟩ : Schedule) = s := by rw [hduration]
  have hcounts : (List.range s.lanes).mapM s.count? = some ((List.range s.lanes).map s.counts) :=
    Schedule.mapM_count? bounded fun lane h => List.mem_range.mp h
  have hassign (opening : String) :
      ((world.note .info opening).assignAuthenticated fun position client =>
        stressRoutine draws params s world.now (world.lane position)
          (((List.range s.lanes).map s.counts).getD (world.lane position) 0) client) =
      (world.note .info opening).assign (stressLane draws params s world) := by
    refine assign_congr fun position agent h => ?_
    rw [stressLane]
    split
    next active =>
      have hlane : world.lane position < s.lanes := hactive ▸ lane_lt h active
      simp [hlane]
    next => rfl
  simp only [runStress, hactive, hgap, hschedule, hcounts, Option.bind_eq_bind, Option.bind_some]
  exact ⟨_, _, congrArg (fun after => some (noteUnlessInterrupted after _ _)) (hassign _)⟩

lemma stressLane_plain {position : Nat} {agent : Agent} {act : Act}
    (h : act ∈ stressLane draws params s world position agent) : act.isPlain := by
  rw [stressLane] at h
  split at h
  · exact stressRoutine_plain h
  · cases h

/-- Clients that begin just the routines of their lanes keep the schedule. -/
lemma kept_of_begun (draws : Draws) {total : Nat} (robin : s.RoundRobin s.counts total)
    (hactive : world.authenticatedCount = s.lanes) {begun : Nat → List (Duration × Act)}
    (h : ∀ (position : Nat) (agent : Agent), world.agents[position]? = some agent →
      begun position = Act.timetable agent.client.settings world.now
        (stressLane draws params s world position agent)) :
    s.Kept s.counts total world params.clients begun := by
  have hlane (position : Nat) (agent : Agent) (ha : world.agents[position]? = some agent)
      (active : agent.client.isAuthenticated) :
      begun position = Act.timetable agent.client.settings world.now
        (stressRoutine draws params s world.now (world.lane position)
          (s.counts (world.lane position)) agent.client) := by
    rw [h position agent ha, stressLane, if_pos active]
  refine ⟨fun position agent ha active => ?_, fun hclients position agent ha active => ?_,
    fun hclients => ?_⟩
  · rw [hlane position agent ha active]
    exact (timetable_stressRoutine _ _).1
  · rw [hlane position agent ha active]
    exact (timetable_stressRoutine _ _).2 hclients
  · have heach : ∀ position ∈ List.range world.agents.length,
        (begun position).filterMap Schedule.message? =
          if world.agents[position]?.any (·.client.isAuthenticated) then
            s.due world.now (world.lane position)
          else [] := by
      intro position hp
      have ha := List.getElem?_eq_getElem (List.mem_range.mp hp)
      rw [ha, Option.any_some]
      split
      next active =>
        rw [hlane position _ ha active]
        exact (timetable_stressRoutine _ _).2 hclients
      next inactive =>
        rw [h position _ ha, stressLane, if_neg inactive]
        rfl
    have hlanes : (List.range world.agents.length).flatMap
        (fun position => (begun position).filterMap Schedule.message?) =
        (List.range s.lanes).flatMap (s.due world.now) := by
      rw [List.flatMap_congr heach, ← hactive]
      exact flatMap_lanes (s.due world.now) world.agents
    rw [hlanes]
    exact robin.due_perm world.now

end

end World

/-- Whatever the number of lanes, the gap and the duration, the lanes are a round robin at the rate of
the schedule. That is how an uninterrupted run goes: its active clients come to the moments at which
messages are due, and if there is anybody to write to, they hand over every message at its moment. -/
theorem Schedule.lanes_take_turns {s : Schedule} (bounded : s.Bounded) :
    ∃ counts total, s.RoundRobin counts total ∧
      ∀ {σ : Type} (world : World σ) (draws : Draws) (params : RunParams), world.isIdle →
        world.authenticatedCount = s.lanes → params.duration = s.duration →
        laneGap? s.lanes params.targetRate = some s.gap →
        ∃ after, world.runStress draws params = some after ∧
          (after.interrupted = false → ∃ happenings, (world.run happenings).Same after ∧
            s.Kept counts total world params.clients fun position =>
              world.trace (World.ofMovesBy position Client.begun) happenings) := by
  obtain ⟨total, htotal⟩ := exists_total bounded
  have robin := roundRobin bounded htotal
  refine ⟨s.counts, total, robin, ?_⟩
  intro σ world draws params idle hactive hduration hgap
  obtain ⟨opening, closing, hrun⟩ :=
    @World.runStress_eq _ draws params s world bounded hactive hduration hgap
  let noted := world.note .info opening
  let assigned := noted.assign (World.stressLane draws params s world)
  obtain ⟨hlast, hinterrupted⟩ := assigned.noteUnlessInterrupted_same .info closing
  refine ⟨_, hrun, fun huncut => ?_⟩
  obtain ⟨happenings, hsame, hbegun⟩ := @World.assign_begun _ noted _ idle
    (fun position agent act => World.stressLane_plain) (hinterrupted.symm.trans huncut)
  have hnoted : world.Same noted := (world.note_same .info opening).symm
  refine ⟨happenings, ((hnoted.run happenings).trans hsame).trans hlast.symm, ?_⟩
  refine World.kept_of_begun draws robin hactive fun position agent ha => ?_
  rw [hnoted.trace]
  exact hbegun position agent ha

namespace World

/-- Three of four clients are active. -/
def crew : World Unit where
  net := { peer := Peer.quiet, memory := (), links := [{}, {}, {}] }
  now := .ofSecs 5
  agents := [
    { client := { id := 1, state := .authenticated, writer := some 0, reader := some { conn := 0 } } },
    { client := { id := 2 } },
    { client := { id := 3, state := .authenticated, writer := some 1, reader := some { conn := 1 } } },
    { client := { id := 4, state := .authenticated, writer := some 2, reader := some { conn := 2 } } }]

def brisk : RunParams where
  clients := 4
  duration := .ofSecs 1
  targetRate := 7

/-- Three sevenths of a second are no whole number of nanoseconds, and cannot be divided by three. -/
def sevenths : Schedule := ⟨3, 428571429, .ofSecs 1⟩

lemma sevenths_bounded : sevenths.Bounded where
  lanes := by decide
  gap := by decide
  room := by decide

theorem crew_takes_turns :
    sevenths.Bounded ∧ crew.isIdle ∧ crew.authenticatedCount = sevenths.lanes ∧
    brisk.duration = sevenths.duration ∧
    laneGap? sevenths.lanes brisk.targetRate = some sevenths.gap ∧
    ∃ after happenings, crew.runStress (fun _ k => k) brisk = some after ∧
      after.interrupted = false ∧ (crew.run happenings).Same after ∧
      ((List.range 4).flatMap fun position =>
        (crew.trace (ofMovesBy position Client.begun) happenings).filterMap
          Schedule.message?).Perm
        ((List.range 7).map fun m => (.ofSecs 5 + sevenths.moment m, Schedule.text m)) := by
  have idle : crew.isIdle := by decide
  have active : crew.authenticatedCount = sevenths.lanes := by decide
  have hgap : laneGap? sevenths.lanes brisk.targetRate = some sevenths.gap := by decide +kernel
  refine ⟨sevenths_bounded, idle, active, rfl, hgap, ?_⟩
  obtain ⟨counts, total, robin, hrun⟩ := Schedule.lanes_take_turns sevenths_bounded
  obtain ⟨after, hafter, hkept⟩ := hrun crew (fun _ k => k) brisk idle active rfl hgap
  have undisturbed : crew.Undisturbed := ⟨rfl, rfl, rfl⟩
  have huncut := (undisturbed.runStress hafter).interrupted
  obtain ⟨happenings, hsame, kept⟩ := hkept huncut
  have hcount {lane k : Nat} (h : lane < sevenths.lanes)
      (hlast : sevenths.offset lane k < sevenths.duration)
      (hend : ¬sevenths.offset lane (k + 1) < sevenths.duration) : counts lane = k + 1 :=
    Nat.le_antisymm (Nat.le_of_not_lt (mt (robin.timely lane h _).mp hend))
      ((robin.timely lane h k).mpr hlast)
  have hfirst : counts 0 = 3 := hcount (by decide) (by decide) (by decide)
  have hsecond : counts 1 = 2 := hcount (by decide) (by decide) (by decide)
  have hthird : counts 2 = 2 := hcount (by decide) (by decide) (by decide)
  have hseven : total = 7 := by
    have hlength := robin.complete.length_eq
    simp [sevenths, List.range_succ, hfirst, hsecond, hthird] at hlength
    exact hlength.symm
  refine ⟨after, happenings, hafter, huncut, hsame, ?_⟩
  have hall := kept.everything (by decide)
  rw [hseven] at hall
  exact hall

end World

end ChatLoad
