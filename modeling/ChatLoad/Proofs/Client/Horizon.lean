import ChatLoad.Proofs.Client.Telling
import ChatLoad.Proofs.Client.Timetable

/-! Every wait has a deadline, so that routines are over by a moment that is known beforehand. -/

namespace ChatLoad

variable {σ : Type}

namespace Act

lemma latest_mono (settings : Settings) (act : Act) : Monotone (act.latest settings) := by
  intro now later hle
  cases act with
  | connect | authenticate | pause => exact Nat.add_le_add_right hle _
  | pauseUntil moment => exact max_le_max_right moment hle
  | _ => exact hle

lemma end_mono (settings : Settings) (acts : List Act) :
    Monotone fun now => acts.foldl (latest settings) now := by
  induction acts with
  | nil => exact fun _ _ hle => hle
  | cons act acts ih => exact fun _ _ hle => ih (act.latest_mono settings hle)

end Act

namespace Turn

variable {turn : Turn σ} {now : Duration}

lemma pollAuth_none {deadline : Duration} (h : (turn.pollAuth now deadline).2 = none) :
    now < deadline := by
  rw [pollAuth] at h
  split at h
  · cases h
  · split at h
    split at h
    · cases h
    · cases h
    · cases h
    · cases h
    · split at h
      · cases h
      · next hover => exact Nat.lt_of_not_le hover

lemma sendAuth_settings (turn : Turn σ) (now : Duration) :
    (turn.sendAuth now).1.client.settings = turn.client.settings := by
  rw [sendAuth]
  dsimp only
  split
  · rfl
  · split <;> rfl

lemma authenticate_none (h : (turn.authenticate now).2 = none) :
    now < now + turn.client.settings.authTimeout := by
  have hsettings := turn.sendAuth_settings now
  rw [authenticate] at h
  by_cases hstate : turn.client.state ≠ .connected
  · rw [if_pos hstate] at h
    cases h
  · rw [if_neg hstate] at h
    rcases hsent : turn.sendAuth now with ⟨sent, cause | _⟩
    · rw [hsent] at h
      cases h
    · rw [hsent] at h hsettings
      dsimp only at h
      by_cases hasty : turn.client.hasty turn.net
      · rw [if_pos hasty] at h
        cases h
      · rw [if_neg hasty] at h
        exact hsettings ▸ pollAuth_none h

lemma begin_waits {act : Act} {wait : Wait} (h : (turn.begin now act).2 = .waits wait) :
    wait.deadline? = some (act.latest turn.client.settings now) ∧
      now < act.latest turn.client.settings now := by
  have hlater {span : Duration} (hspan : span ≠ 0) : now < now + span :=
    Nat.lt_add_of_pos_right (Nat.pos_of_ne_zero hspan)
  have huntil {moment : Duration} (h : (turn.waitUntil now moment).2 = .waits wait) :
      wait = .clock moment ∧ now < moment := by
    rw [waitUntil] at h
    split at h
    · cases h
    · next hover =>
      cases h
      exact ⟨rfl, Nat.lt_of_not_le hover⟩
  cases act with
  | connect limit =>
    rw [«begin», connect] at h
    cases hr : turn.net.attempt.1 with
    | unreachable | refuses => simp [hr, Progress.ofAnswer] at h
    | accepts =>
      by_cases hl : limit = 0 <;> simp [hr, hl, Progress.ofAnswer] at h
    | silent =>
      by_cases hl : limit = 0
      · simp [hr, hl, Progress.ofAnswer] at h
      · simp only [hr, hl, if_false, Progress.ofAnswer, Progress.waits.injEq] at h
        rw [← h]
        exact ⟨rfl, hlater hl⟩
  | authenticate =>
    rw [«begin»] at h
    rcases ha : (turn.authenticate now).2 with _ | answer
    · simp only [ha, Progress.ofAnswer, Progress.waits.injEq] at h
      rw [← h]
      exact ⟨rfl, authenticate_none ha⟩
    · simp [ha, Progress.ofAnswer] at h
  | pause span =>
    obtain ⟨rfl, hless⟩ := huntil h
    exact ⟨rfl, hless⟩
  | pauseUntil moment =>
    obtain ⟨rfl, hless⟩ := huntil h
    have hmax : max now moment = moment := Nat.max_eq_right (Nat.le_of_lt hless)
    rw [Act.latest, hmax]
    exact ⟨rfl, hless⟩
  | start | single | group | heartbeat | stop => cases h

lemma resume_waits {wait wait' : Wait} (h : (turn.resume now wait).2 = .waits wait') :
    wait' = wait ∧ ∃ deadline, wait.deadline? = some deadline ∧ now < deadline := by
  cases wait with
  | nothing => cases h
  | clock moment =>
    rw [resume, waitUntil] at h
    split at h
    · cases h
    · next hover =>
      cases h
      exact ⟨rfl, moment, rfl, Nat.lt_of_not_le hover⟩
  | connection deadline limit =>
    rw [resume] at h
    split at h
    · cases h
    · next hover =>
      cases h
      exact ⟨rfl, deadline, rfl, Nat.lt_of_not_le hover⟩
  | auth deadline =>
    rw [resume] at h
    rcases ha : (turn.pollAuth now deadline).2 with _ | answer
    · simp only [ha, Progress.ofAnswer, Progress.waits.injEq] at h
      exact ⟨h.symm, deadline, rfl, pollAuth_none ha⟩
    · simp [ha, Progress.ofAnswer] at h

end Turn

namespace Agent

variable {agent : Agent} {now : Duration}

/-- Nothing is left to do, or there is something to wait for. -/
def Waiting (now : Duration) (agent : Agent) : Prop :=
  agent.isIdle ∨ ∃ deadline, agent.wait.deadline? = some deadline ∧ now < deadline

lemma horizon_congr {other : Agent} (hsettings : other.client.settings = agent.client.settings)
    (hacts : other.acts = agent.acts) (hwait : other.wait = agent.wait) (now : Duration) :
    other.horizon now = agent.horizon now := by
  rw [horizon, horizon, hsettings, hacts, hwait]

lemma le_horizon (agent : Agent) (now : Duration) : now ≤ agent.horizon now :=
  Nat.le_trans (Nat.le_max_left _ _) (Act.le_end _ _ _)

lemma horizon_of_deadline {deadline : Duration} (h : agent.wait.deadline? = some deadline)
    (hle : now ≤ deadline) :
    agent.horizon now = agent.acts.foldl (Act.latest agent.client.settings) deadline := by
  rw [horizon, h, Option.getD_some, Nat.max_eq_right hle]

lemma end_le_horizon (agent : Agent) (now : Duration) :
    agent.acts.foldl (Act.latest agent.client.settings) now ≤ agent.horizon now :=
  Act.end_mono agent.client.settings agent.acts (Nat.le_max_left _ _)

lemma horizon_of_idle (idle : agent.isIdle) : agent.horizon now = now := by
  obtain ⟨hacts, hwait⟩ : agent.acts = [] ∧ agent.wait = .nothing := by simpa [isIdle] using idle
  rw [horizon, hacts, hwait]
  exact Nat.max_self now

lemma perform_horizon {turn rest : Turn σ} {acts acts' : List Act} {wait' : Wait}
    (h : turn.perform now acts = (rest, acts', wait')) {client : Client}
    (hsettings : client.settings = turn.client.settings) :
    ({ client, acts := acts', wait := wait' } : Agent).Waiting now ∧
      ({ client, acts := acts', wait := wait' } : Agent).horizon now ≤
        acts.foldl (Act.latest turn.client.settings) now := by
  induction acts generalizing turn with
  | nil =>
    cases h
    exact ⟨.inl rfl, Nat.le_of_eq (horizon_of_idle rfl)⟩
  | cons act acts ih =>
    have hmove := turn.move_begin now act
    obtain ⟨_, hmoved⟩ := turn.moved now .nothing (.begin act)
    rw [hmove] at hmoved
    rw [Turn.perform] at h
    rw [List.foldl_cons]
    rcases hb : turn.begin now act with ⟨begun, (_ | _) | wait⟩
    · rw [hb] at h
      cases h
      refine ⟨.inl rfl, ?_⟩
      rw [horizon_of_idle rfl]
      exact Nat.le_trans (act.le_latest _ now) (Act.le_end _ _ _)
    · rw [hb] at h hmoved
      have hsame : begun.client.settings = turn.client.settings := hmoved.owner.2
      obtain ⟨hwaiting, hle⟩ := ih h (hsettings.trans hsame.symm)
      refine ⟨hwaiting, Nat.le_trans hle ?_⟩
      rw [hsame]
      exact Act.end_mono _ acts (act.le_latest _ now)
    · obtain ⟨hdeadline, hless⟩ := @Turn.begin_waits _ turn now act wait (by rw [hb])
      rw [hb] at h
      cases h
      refine ⟨.inr ⟨_, hdeadline, hless⟩, Nat.le_of_eq ?_⟩
      rw [horizon_of_deadline hdeadline (Nat.le_of_lt hless), hsettings]

theorem turn_horizon (agent : Agent) (now : Duration) (net : Net σ) :
    (agent.turn now net).1.Waiting now ∧ (agent.turn now net).1.horizon now ≤ agent.horizon now := by
  have hresumed := agent.resumed_owner now net
  obtain ⟨_, howner⟩ := agent.turn_owner now net
  rcases hr : (agent.looped now net).resume now agent.wait with ⟨resumed, (_ | _) | wait⟩
  · rw [turn_of_failed hr]
    exact ⟨.inl rfl, Nat.le_trans (Nat.le_of_eq (horizon_of_idle rfl)) (agent.le_horizon now)⟩
  · rw [hr] at hresumed
    rw [turn_of_succeeded hr] at howner ⊢
    rcases hp : resumed.perform now agent.acts with ⟨rest, acts', wait'⟩
    rw [hp] at howner
    obtain ⟨hwaiting, hle⟩ := perform_horizon hp (howner.trans hresumed.symm)
    rw [hresumed] at hle
    exact ⟨hwaiting, Nat.le_trans hle (agent.end_le_horizon now)⟩
  · obtain ⟨rfl, deadline, hdeadline, hless⟩ :=
      @Turn.resume_waits _ (agent.looped now net) now agent.wait wait (by rw [hr])
    rw [turn_of_waits hr] at howner ⊢
    exact ⟨.inr ⟨deadline, hdeadline, hless⟩, Nat.le_of_eq (horizon_congr howner rfl rfl now)⟩

/-- While time goes on to no later moment than any it waits for, an agent misses nothing. -/
lemma Waiting.horizon_le (waiting : agent.Waiting now) {moment : Duration}
    (hdue : ∀ deadline, agent.wait.deadline? = some deadline → now < deadline → moment ≤ deadline) :
    agent.horizon moment ≤ max moment (agent.horizon now) := by
  rcases waiting with hidle | ⟨deadline, hdeadline, hless⟩
  · rw [horizon_of_idle hidle]
    exact Nat.le_max_left _ _
  · rw [horizon_of_deadline hdeadline (hdue deadline hdeadline hless),
      ← horizon_of_deadline hdeadline (Nat.le_of_lt hless)]
    exact Nat.le_max_right _ _

lemma Waiting.over (waiting : agent.Waiting now) (hend : agent.horizon now ≤ now) :
    agent.isIdle := by
  rcases waiting with hidle | ⟨deadline, hdeadline, hless⟩
  · exact hidle
  · rw [horizon_of_deadline hdeadline (Nat.le_of_lt hless)] at hend
    exact absurd (Nat.le_trans (Act.le_end _ _ _) hend) (Nat.not_le_of_lt hless)

end Agent

end ChatLoad
