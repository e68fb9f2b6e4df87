import ChatLoad.Proofs.Client.Play

/-! Routines that never wait for the peer: it is known beforehand when each of their acts begins. -/

namespace ChatLoad

namespace Act

/-- Whether the act is over at a moment that is known beforehand, whatever the peer does. -/
def isPlain : Act → Bool
  | connect _ => false
  | authenticate => false
  | _ => true

/-- The acts of a routine with the moments at which they begin. -/
def timetable (settings : Settings) (now : Duration) : List Act → List (Duration × Act)
  | [] => []
  | act :: acts => (now, act) :: timetable settings (act.latest settings now) acts

@[simp] lemma timetable_cons (settings : Settings) (now : Duration) (act : Act) (acts : List Act) :
    timetable settings now (act :: acts) =
      (now, act) :: timetable settings (act.latest settings now) acts := rfl

@[simp] lemma latest_single (settings : Settings) (now : Duration) (target : Int64)
    (content : String) : (single target content).latest settings now = now := rfl

lemma le_latest (settings : Settings) (now : Duration) (act : Act) :
    now ≤ act.latest settings now := by
  cases act with
  | connect | authenticate | pause => exact Nat.le_add_right _ _
  | pauseUntil moment => exact Nat.le_max_left _ _
  | _ => exact Nat.le_refl _

lemma le_end (settings : Settings) (now : Duration) (acts : List Act) :
    now ≤ acts.foldl (latest settings) now := by
  induction acts generalizing now with
  | nil => exact Nat.le_refl _
  | cons act acts ih => exact Nat.le_trans (act.le_latest settings now) (ih _)

lemma timetable_le_end {settings : Settings} {now : Duration} {acts : List Act}
    {entry : Duration × Act} (h : entry ∈ timetable settings now acts) :
    entry.1 ≤ acts.foldl (latest settings) now := by
  induction acts generalizing now with
  | nil => cases h
  | cons act acts ih =>
    rcases List.mem_cons.mp h with rfl | hlater
    · exact le_end settings now (act :: acts)
    · exact ih hlater

lemma map_timetable (settings : Settings) (now : Duration) (acts : List Act) :
    (timetable settings now acts).map Prod.snd = acts := by
  induction acts generalizing now with
  | nil => rfl
  | cons act acts ih => rw [timetable_cons, List.map_cons, ih]

end Act

def Client.begun {σ : Type} (_client : Client) (_net : Net σ) (now : Duration) (wait : Wait) :
    Move → List (Duration × Act)
  | .begin act => if wait = .nothing then [(now, act)] else []
  | _ => []

namespace Agent

def ahead (settings : Settings) (now : Duration) (agent : Agent) : List (Duration × Act) :=
  Act.timetable settings (max now (agent.wait.deadline?.getD now)) agent.acts

/-- The routine is plain, and no moment it waits for has been missed. -/
structure OnTime (now : Duration) (agent : Agent) : Prop where
  plain : ∀ act ∈ agent.acts, act.isPlain
  wait : agent.wait = .nothing ∨ ∃ moment, now ≤ moment ∧ agent.wait = .clock moment

/-- The routine is plain, and it has come as far as it could. -/
structure Paused (now : Duration) (agent : Agent) : Prop where
  plain : ∀ act ∈ agent.acts, act.isPlain
  wait : (agent.acts = [] ∧ agent.wait = .nothing) ∨
    ∃ moment, now < moment ∧ agent.wait = .clock moment

variable {settings : Settings} {now : Duration} {agent : Agent}

lemma ahead_of_nothing (h : agent.wait = .nothing) :
    agent.ahead settings now = Act.timetable settings now agent.acts := by
  rw [ahead, h]
  exact congrArg (Act.timetable settings · agent.acts) (Nat.max_self now)

lemma ahead_of_clock {moment : Duration} (h : agent.wait = .clock moment) (hle : now ≤ moment) :
    agent.ahead settings now = Act.timetable settings moment agent.acts := by
  rw [ahead, h]
  exact congrArg (Act.timetable settings · agent.acts) (Nat.max_eq_right hle)

lemma ahead_of_done (h : agent.acts = []) : agent.ahead settings now = [] := by
  rw [ahead, h, Act.timetable]

lemma Paused.onTime (paused : agent.Paused now) : agent.OnTime now := by
  refine ⟨paused.plain, ?_⟩
  rcases paused.wait with ⟨_, hnothing⟩ | ⟨moment, hless, hclock⟩
  · exact .inl hnothing
  · exact .inr ⟨moment, Nat.le_of_lt hless, hclock⟩

end Agent

/-! ### Turns -/

namespace Turn

variable {σ : Type} {turn : Turn σ} {now : Duration}

lemma begin_plain {act : Act} (plain : act.isPlain) (settings : Settings) :
    (act.latest settings now = now ∧ (turn.begin now act).2 = .done true) ∨
      (now < act.latest settings now ∧
        (turn.begin now act).2 = .waits (.clock (act.latest settings now))) := by
  cases act with
  | connect | authenticate => cases plain
  | start | single | group | heartbeat | stop => exact .inl ⟨rfl, rfl⟩
  | pause span =>
    by_cases hover : now + span ≤ now
    · exact .inl ⟨Nat.le_antisymm hover (Nat.le_add_right _ _), if_pos hover⟩
    · exact .inr ⟨Nat.lt_of_not_le hover, if_neg hover⟩
  | pauseUntil moment =>
    by_cases hover : moment ≤ now
    · exact .inl ⟨Nat.max_eq_left hover, if_pos hover⟩
    · have hlatest : max now moment = moment := Nat.max_eq_right (Nat.le_of_not_le hover)
      refine .inr ⟨?_, ?_⟩
      · rw [Act.latest, hlatest]
        exact Nat.lt_of_not_le hover
      · rw [Act.latest, hlatest]
        exact if_neg hover

lemma perform_timetable {acts : List Act} (plain : ∀ act ∈ acts, act.isPlain)
    {rest : Turn σ} {acts' : List Act} {wait' : Wait}
    (h : turn.perform now acts = (rest, acts', wait')) (client : Client) :
    ({ client, acts := acts', wait := wait' } : Agent).Paused now ∧
      ∀ settings, Act.timetable settings now acts =
        turn.trace Client.begun now .nothing ((turn.begins now acts).map .begin) ++
          ({ client, acts := acts', wait := wait' } : Agent).ahead settings now := by
  induction acts generalizing turn with
  | nil =>
    cases h
    exact ⟨⟨plain, .inl ⟨rfl, rfl⟩⟩, fun settings => (Agent.ahead_of_done rfl).symm⟩
  | cons act acts ih =>
    obtain ⟨hact, hacts⟩ := List.forall_mem_cons.mp plain
    have hmove := turn.move_begin now act
    rw [perform] at h
    rcases hb : turn.begin now act with ⟨begun, progress⟩
    rw [hb] at h hmove
    have hcases (settings : Settings) := @begin_plain _ turn now act hact settings
    simp only [hb] at hcases
    rcases progress with (_ | _) | wait
    · have hneither := hcases {}
      simp at hneither
    · simp only [reduceCtorEq, and_false, or_false, and_true] at hcases
      obtain ⟨hpaused, htable⟩ := ih hacts h
      refine ⟨hpaused, fun settings => ?_⟩
      simp only [begins, hb, List.map_cons, trace, hmove, Act.timetable, hcases settings,
        htable settings, Client.begun, Progress.wait, if_true, List.cons_append, List.nil_append]
    · cases h
      simp only [reduceCtorEq, and_false, false_or, Progress.waits.injEq] at hcases
      obtain ⟨hless, rfl⟩ := hcases {}
      refine ⟨⟨hacts, .inr ⟨_, hless, rfl⟩⟩, fun settings => ?_⟩
      obtain ⟨_, hlatest⟩ := hcases settings
      rw [Wait.clock.injEq] at hlatest
      rw [Agent.ahead_of_clock rfl (Nat.le_of_lt hless)]
      simp only [begins, hb, List.map_cons, trace, Act.timetable, Client.begun, if_true,
        List.cons_append, List.nil_append, hlatest, List.map_nil, List.append_nil]

end Turn

namespace Agent

variable {σ : Type} {agent : Agent} {now : Duration}

lemma trace_looks (now : Duration) (agent : Agent) (net : Net σ) :
    (agent.client.turnOn net).trace Client.begun now agent.wait (agent.looks now net) = [] := by
  refine Turn.trace_eq_nil now _ Client.begun fun move h client net wait => ?_
  simp only [looks, List.mem_append, List.mem_map, List.mem_singleton] at h
  rcases h with (⟨_, _, rfl⟩ | ⟨_, _, rfl⟩) | rfl <;> rfl

lemma OnTime.turn_of_succeeded (onTime : agent.OnTime now) {net : Net σ} {resumed : Turn σ}
    (hr : (agent.looped now net).resume now agent.wait = (resumed, .done true))
    (hahead : ∀ settings, agent.ahead settings now = Act.timetable settings now agent.acts) :
    (agent.turn now net).1.Paused now ∧
      ∀ settings, agent.ahead settings now =
        (agent.client.turnOn net).trace Client.begun now agent.wait (agent.moves now net) ++
          (agent.turn now net).1.ahead settings now := by
  rw [moves, Turn.trace_append, trace_looks, looks_play, hr, List.nil_append,
    Agent.turn_of_succeeded hr]
  simp only [hahead]
  exact Turn.perform_timetable onTime.plain rfl _

/-- A turn begins what has come due, and leaves the rest for later. -/
theorem OnTime.turn (onTime : agent.OnTime now) (net : Net σ) :
    (agent.turn now net).1.Paused now ∧
      ∀ settings, agent.ahead settings now =
        (agent.client.turnOn net).trace Client.begun now agent.wait (agent.moves now net) ++
          (agent.turn now net).1.ahead settings now := by
  rcases onTime.wait with hnothing | ⟨moment, hle, hclock⟩
  · refine @OnTime.turn_of_succeeded _ _ _ onTime net (agent.looped now net) ?_
      fun settings => ahead_of_nothing hnothing
    rw [hnothing]
    rfl
  · rcases hle.eq_or_lt with rfl | hless
    · refine @OnTime.turn_of_succeeded _ _ _ onTime net (agent.looped now net) ?_
        fun settings => ahead_of_clock hclock (Nat.le_refl _)
      rw [hclock]
      exact congrArg _ (if_pos (Nat.le_refl _))
    · have hr : (agent.looped now net).resume now agent.wait =
          (agent.looped now net, .waits (.clock moment)) := by
        rw [hclock]
        exact congrArg _ (if_neg (Nat.not_le_of_lt hless))
      rw [moves, Turn.trace_append, trace_looks, looks_play, hr, turn_of_waits hr]
      refine ⟨⟨onTime.plain, .inr ⟨moment, hless, rfl⟩⟩, fun settings => ?_⟩
      rw [ahead, hclock]
      rfl

end Agent

end ChatLoad
