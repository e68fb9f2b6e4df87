import ChatLoad.Proofs.Client.Move

/-! The turn of an agent is a list of moves, and what was noted before a turn makes no difference to it. -/

namespace ChatLoad

namespace Turn

variable {σ : Type}

/-! ### What was noted before -/

def noting (before : List Incident) (turn : Turn σ) : Turn σ :=
  { turn with incidents := before ++ turn.incidents }

section

variable (before : List Incident) (turn : Turn σ) (now : Duration)

lemma emit_noting (incident : Incident) :
    (turn.noting before).emit incident = (turn.emit incident).noting before := by
  simp [noting, emit]

lemma connect_noting (limit : Duration) :
    (turn.noting before).connect now limit =
      ((turn.connect now limit).1.noting before, (turn.connect now limit).2) := by
  unfold connect
  cases hr : turn.net.attempt.1 with
  | unreachable | refuses => simp [noting, emit, connectFailed, hr]
  | accepts | silent =>
    by_cases hl : limit = 0 <;>
      simp [noting, emit, connectFailed, connected, become, hr, hl]

lemma sendAuth_noting :
    (turn.noting before).sendAuth now =
      ((turn.sendAuth now).1.noting before, (turn.sendAuth now).2) := by
  unfold sendAuth
  cases hw : turn.client.writer with
  | none => simp [noting, Client.drawId, hw]
  | some conn =>
    simp only [noting, Client.drawId, hw]
    split <;> rfl

lemma pollAuth_noting (deadline : Duration) :
    (turn.noting before).pollAuth now deadline =
      ((turn.pollAuth now deadline).1.noting before, (turn.pollAuth now deadline).2) := by
  unfold pollAuth
  cases hr : turn.client.reader with
  | none => simp [noting, authFailed, emit, hr]
  | some reader =>
    simp only [noting, hr]
    split
    · simp [emit]
    · simp [emit, authFailed]
    · simp [emit, authFailed]
    · simp [emit, authFailed]
    · split <;> simp [emit, authFailed]

lemma authenticate_noting :
    (turn.noting before).authenticate now =
      ((turn.authenticate now).1.noting before, (turn.authenticate now).2) := by
  unfold authenticate
  by_cases hs : turn.client.state = .connected
  · have hs' : (turn.noting before).client.state = .connected := hs
    rw [if_neg (not_not.mpr hs), if_neg (not_not.mpr hs'), sendAuth_noting]
    rcases turn.sendAuth now with ⟨sent, cause | _⟩
    · simp [noting, authFailed, emit]
    · have hasty' : (turn.noting before).client.hasty (turn.noting before).net =
          turn.client.hasty turn.net := rfl
      rw [hasty']
      cases turn.client.hasty turn.net with
      | true => simp [noting, authFailed, emit]
      | false => exact pollAuth_noting before sent now _
  · have hs' : (turn.noting before).client.state ≠ .connected := hs
    rw [if_pos hs, if_pos hs', emit_noting]

lemma sendChat_noting (message : Int64 → Chat) :
    (turn.noting before).sendChat now message = (turn.sendChat now message).noting before := by
  unfold sendChat
  cases ha : turn.client.isAuthenticated with
  | false => simp [noting, emit, ha]
  | true =>
    cases hw : turn.client.writer with
    | none => simp [noting, emit, ha, hw]
    | some conn =>
      simp only [noting, ha, hw]
      split <;> simp [emit]

lemma beat_noting (conn : ConnId) :
    (turn.noting before).beat now conn = (turn.beat now conn).noting before := by
  unfold beat
  simp only [noting]
  split <;> simp [emit]

lemma heartbeat_noting :
    (turn.noting before).heartbeat now = (turn.heartbeat now).noting before := by
  unfold heartbeat
  cases hw : turn.client.writer with
  | none => simp [noting, emit, hw]
  | some conn =>
    have hw' : (turn.noting before).client.writer = some conn := hw
    simp only [hw']
    exact beat_noting before turn now conn

lemma start_noting (interval : Duration) :
    (turn.noting before).start now interval = (turn.start now interval).noting before := by
  unfold start
  simp only [noting]
  split <;> simp [emit, become]

lemma stop_noting : (turn.noting before).stop = turn.stop.noting before := by
  simp [stop, noting, become, emit]

lemma begin_noting (act : Act) :
    (turn.noting before).begin now act =
      ((turn.begin now act).1.noting before, (turn.begin now act).2) := by
  cases act with
  | connect limit => simp only [begin, connect_noting]
  | authenticate =>
    simp only [begin, authenticate_noting]
    rfl
  | start interval => simp only [begin, start_noting]
  | single target content =>
    simp only [begin, single, sendChat_noting]
    rfl
  | group session content =>
    simp only [begin, group, sendChat_noting]
    rfl
  | heartbeat => simp only [begin, heartbeat_noting]
  | stop => simp only [begin, stop_noting]
  | pause span => rfl
  | pauseUntil moment => rfl

lemma resume_noting (wait : Wait) :
    (turn.noting before).resume now wait =
      ((turn.resume now wait).1.noting before, (turn.resume now wait).2) := by
  cases wait with
  | nothing => rfl
  | clock moment => rfl
  | connection deadline limit =>
    unfold resume
    by_cases hd : deadline ≤ now
    · simp [hd, connectFailed, emit_noting]
    · simp [hd]
  | auth deadline => simp only [resume, pollAuth_noting]

lemma runHeartbeat_noting (session : Nat) :
    (turn.noting before).runHeartbeat now session =
      (turn.runHeartbeat now session).noting before := by
  unfold runHeartbeat
  cases hl : turn.client.heartbeat? session with
  | none => simp [noting, hl]
  | some loop =>
    have hl' : (turn.noting before).client.heartbeat? session = some loop := hl
    by_cases hd : now < loop.due
    · simp [hl', hd]
    · simp only [hl', hd, if_false, beat_noting]
      by_cases hs : (turn.beat now loop.conn).client.state = .running
      · have hs' : ((turn.beat now loop.conn).noting before).client.state = .running := hs
        rw [if_pos hs, if_pos hs']
        rfl
      · have hs' : ((turn.beat now loop.conn).noting before).client.state ≠ .running := hs
        rw [if_neg hs, if_neg hs']
        rfl

lemma runReceiver_noting (session : Nat) :
    (turn.noting before).runReceiver now session =
      (turn.runReceiver now session).noting before := by
  unfold runReceiver
  cases hl : turn.client.receiver? session with
  | none => simp [noting, hl]
  | some loop =>
    simp only [noting, hl]
    split <;> simp [emit]

lemma move_noting (wait : Wait) (move : Move) :
    (turn.noting before).move now wait move =
      ((turn.move now wait move).1.noting before, (turn.move now wait move).2) := by
  cases move with
  | «begin» act =>
    by_cases hw : wait = .nothing
    · simp only [Turn.move, hw, if_true, begin_noting]
    · simp only [Turn.move, hw, if_false]
  | resume => simp only [Turn.move, resume_noting]
  | beat session => simp only [Turn.move, runHeartbeat_noting]
  | receive session => simp only [Turn.move, runReceiver_noting]

end

/-! ### Lists of moves -/

def play (now : Duration) (turn : Turn σ) (wait : Wait) : List Move → Turn σ × Wait
  | [] => (turn, wait)
  | move :: moves => (turn.move now wait move).1.play now (turn.move now wait move).2 moves

/-- What `f` sees, one move after the other. -/
def trace {α : Type} (f : Client → Net σ → Duration → Wait → Move → List α) (now : Duration)
    (turn : Turn σ) (wait : Wait) : List Move → List α
  | [] => []
  | move :: moves =>
      f turn.client turn.net now wait move ++
        trace f now (turn.move now wait move).1 (turn.move now wait move).2 moves

/-- The acts of a routine that are begun before it has to wait. -/
def begins (now : Duration) (turn : Turn σ) : List Act → List Act
  | [] => []
  | act :: acts =>
      match turn.begin now act with
      | (turn, .done true) => act :: turn.begins now acts
      | _ => [act]

section

variable (now : Duration) (turn : Turn σ)

lemma play_append (wait : Wait) (moves later : List Move) :
    turn.play now wait (moves ++ later) =
      (turn.play now wait moves).1.play now (turn.play now wait moves).2 later := by
  induction moves generalizing turn wait with
  | nil => rfl
  | cons move moves ih => exact ih _ _

lemma play_noting (before : List Incident) (wait : Wait) (moves : List Move) :
    (turn.noting before).play now wait moves =
      ((turn.play now wait moves).1.noting before, (turn.play now wait moves).2) := by
  induction moves generalizing turn wait with
  | nil => rfl
  | cons move moves ih =>
    rw [play, move_noting, ih]
    rfl

lemma play_beats (wait : Wait) (sessions : List Nat) :
    turn.play now wait (sessions.map .beat) =
      (sessions.foldl (·.runHeartbeat now ·) turn, wait) := by
  induction sessions generalizing turn with
  | nil => rfl
  | cons session sessions ih => exact ih _

lemma play_receives (wait : Wait) (sessions : List Nat) :
    turn.play now wait (sessions.map .receive) =
      (sessions.foldl (·.runReceiver now ·) turn, wait) := by
  induction sessions generalizing turn with
  | nil => rfl
  | cons session sessions ih => exact ih _

lemma move_begin (act : Act) :
    turn.move now .nothing (.begin act) =
      ((turn.begin now act).1, (turn.begin now act).2.wait) := by
  simp only [Turn.move, if_true]

lemma perform_play (acts : List Act) :
    turn.play now .nothing ((turn.begins now acts).map .begin) =
      ((turn.perform now acts).1, (turn.perform now acts).2.2) := by
  induction acts generalizing turn with
  | nil => rfl
  | cons act acts ih =>
    have hmove := turn.move_begin now act
    rw [perform, begins]
    rcases hb : turn.begin now act with ⟨begun, (_ | _) | wait⟩
    · rw [hb] at hmove
      simp only [List.map_cons, play, hmove]
      rfl
    · rw [hb] at hmove
      simp only [List.map_cons, play, hmove]
      exact ih begun
    · rw [hb] at hmove
      simp only [List.map_cons, play, hmove]
      rfl

section

variable {α : Type} (f : Client → Net σ → Duration → Wait → Move → List α)

lemma trace_append (wait : Wait) (moves later : List Move) :
    turn.trace f now wait (moves ++ later) =
      turn.trace f now wait moves ++
        (turn.play now wait moves).1.trace f now (turn.play now wait moves).2 later := by
  induction moves generalizing turn wait with
  | nil => rfl
  | cons move moves ih => simp only [List.cons_append, trace, play, ih, List.append_assoc]

lemma trace_noting (before : List Incident) (wait : Wait) (moves : List Move) :
    (turn.noting before).trace f now wait moves = turn.trace f now wait moves := by
  induction moves generalizing turn wait with
  | nil => rfl
  | cons move moves ih =>
    rw [trace, trace, move_noting, ih]
    rfl

lemma trace_eq_nil {moves : List Move} {wait : Wait}
    (h : ∀ move ∈ moves, ∀ client net wait, f client net now wait move = []) :
    turn.trace f now wait moves = [] := by
  induction moves generalizing turn wait with
  | nil => rfl
  | cons move moves ih =>
    rw [trace, h move List.mem_cons_self,
      ih _ fun other ho => h other (List.mem_cons_of_mem _ ho), List.append_nil]

end

end

end Turn

namespace Agent

variable {σ : Type} (agent : Agent) (now : Duration) (net : Net σ)

/-- The part of a turn that comes before the routine. -/
def looped : Turn σ :=
  (agent.client.turnOn net).runLoops now

section

variable {agent now net} {resumed : Turn σ}

lemma turn_of_succeeded
    (h : (agent.looped now net).resume now agent.wait = (resumed, .done true)) :
    agent.turn now net =
      ({ client := (resumed.perform now agent.acts).1.client
         acts := (resumed.perform now agent.acts).2.1
         wait := (resumed.perform now agent.acts).2.2 },
        (resumed.perform now agent.acts).1.net, (resumed.perform now agent.acts).1.incidents) := by
  rw [looped, Client.turnOn] at h
  rw [turn]
  simp only [h]

lemma turn_of_failed
    (h : (agent.looped now net).resume now agent.wait = (resumed, .done false)) :
    agent.turn now net =
      ({ client := resumed.client, acts := [], wait := .nothing }, resumed.net,
        resumed.incidents) := by
  rw [looped, Client.turnOn] at h
  rw [turn]
  simp only [h]

lemma turn_of_waits {wait : Wait}
    (h : (agent.looped now net).resume now agent.wait = (resumed, .waits wait)) :
    agent.turn now net =
      ({ client := resumed.client, acts := agent.acts, wait }, resumed.net,
        resumed.incidents) := by
  rw [looped, Client.turnOn] at h
  rw [turn]
  simp only [h]

end

/-- The moves of a turn before anything is begun. -/
def looks : List Move :=
  let start := agent.client.turnOn net
  let beaten := start.runHeartbeats now
  (start.client.heartbeats.map (·.session)).map .beat ++
    (beaten.client.receivers.map (·.session)).map .receive ++ [.resume]

def moves : List Move :=
  agent.looks now net ++
    match (agent.looped now net).resume now agent.wait with
    | (resumed, .done true) => (resumed.begins now agent.acts).map .begin
    | _ => []

lemma looks_play :
    (agent.client.turnOn net).play now agent.wait (agent.looks now net) =
      (((agent.looped now net).resume now agent.wait).1,
        ((agent.looped now net).resume now agent.wait).2.wait) := by
  let start := agent.client.turnOn net
  let beaten := start.runHeartbeats now
  have hlooped : start.play now agent.wait
      ((start.client.heartbeats.map (·.session)).map .beat ++
        (beaten.client.receivers.map (·.session)).map .receive) =
      (agent.looped now net, agent.wait) := by
    rw [Turn.play_append, Turn.play_beats]
    exact Turn.play_receives now beaten agent.wait _
  rw [looks, Turn.play_append, hlooped]
  rfl

/-- The turn of an agent consists of moves. -/
theorem turn_play :
    ∃ played wait,
      (agent.client.turnOn net).play now agent.wait (agent.moves now net) = (played, wait) ∧
      (agent.turn now net).1.client = played.client ∧ (agent.turn now net).1.wait = wait ∧
      (agent.turn now net).2 = (played.net, played.incidents) := by
  have hlooks := agent.looks_play now net
  rw [moves, Turn.play_append, hlooks]
  rcases hr : (agent.looped now net).resume now agent.wait with ⟨resumed, (_ | _) | wait⟩
  · rw [turn_of_failed hr]
    exact ⟨_, _, rfl, rfl, rfl, rfl⟩
  · rw [turn_of_succeeded hr]
    exact ⟨_, _, resumed.perform_play now agent.acts, rfl, rfl, rfl⟩
  · rw [turn_of_waits hr]
    exact ⟨_, _, rfl, rfl, rfl, rfl⟩

end Agent

end ChatLoad
