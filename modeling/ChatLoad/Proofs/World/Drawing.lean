import ChatLoad.Proofs.Client.Standing
import ChatLoad.Proofs.World.Correlation
import ChatLoad.Proofs.World.Takedown

/-! The request ids that a client draws one after the other. The counter has 2 ^ 32 values and an id only
2 ^ 32 - 1, so that the last value of the counter and the first one give the same id. -/

namespace ChatLoad

namespace Client

variable {σ : Type}

def draws (client : Client) (_net : Net σ) (_now : Duration) (wait : Wait) (move : Move) : List UInt64 :=
  client.chatIds wait move ++ client.authIds wait move

lemma mod_counter {n : Nat} : n % 2 ^ 32 % 0xFFFFFFFF = if n % 2 ^ 32 = 0xFFFFFFFF then 0 else n % 2 ^ 32 := by
  split
  · next h => rw [h]
  · exact Nat.mod_eq_of_lt (by omega)

lemma requestId_eq_iff (id : UInt64) {i j : Nat} (hij : i < j) (hclose : j - i < 2 ^ 32 - 1) :
    requestId id (UInt32.ofNat i) = requestId id (UInt32.ofNat j) ↔ j = i + 1 ∧ 2 ^ 32 ∣ j := by
  rw [← UInt64.toNat_inj, toNat_requestId, toNat_requestId, UInt32.toNat_ofNat', UInt32.toNat_ofNat',
    mod_counter, mod_counter]
  -- only the last value of the counter and the first one have the same remainder
  split <;> split <;> omega

lemma getElem?_issued (id : UInt64) {n k : Nat} (hk : k < n) :
    (issued id n)[k]? = some (requestId id (UInt32.ofNat k)) := by
  simp [issued, hk]

end Client

namespace World

variable {σ : Type} {world : World σ} {position : Nat} {happenings : List Happening} {agent : Agent}

def drawn (world : World σ) (position : Nat) (happenings : List Happening) : List UInt64 :=
  world.trace (ofMovesBy position Client.draws) happenings

structure Drawing (world : World σ) (position : Nat) (happenings : List Happening) (agent : Agent) :
    Prop where
  wired : agent.client.Wired agent.wait
  counter : agent.client.drawn = UInt32.ofNat (world.drawn position happenings).length
  drawn : world.drawn position happenings =
    Client.issued agent.client.id (world.drawn position happenings).length

lemma Drawing.move (drawing : world.Drawing position happenings agent)
    (h : (world.run happenings).agents[position]? = some agent) (move : Move) :
    world.Drawing position (happenings ++ [.client position move])
      (agent.moved (world.run happenings).net (world.run happenings).now move) := by
  have hmoved := agent.client.moved (world.run happenings).net (world.run happenings).now agent.wait
    move
  have hconcat : world.drawn position (happenings ++ [.client position move]) =
      world.drawn position happenings ++
        (agent.client.chatIds agent.wait move ++ agent.client.authIds agent.wait move) := by
    rw [World.drawn, trace_concat, ofMovesBy_self h]
    rfl
  obtain ⟨hid, hdraws⟩ := hmoved.draws drawing.wired
  have hid : (agent.moved (world.run happenings).net (world.run happenings).now move).client.id =
      agent.client.id := hid
  refine ⟨hmoved.wired drawing.wired, ?_, ?_⟩
  · rcases hdraws with ⟨hnone, hsame⟩ | ⟨hone, hnext⟩
    · rw [hconcat, hnone, List.append_nil]
      exact hsame.trans drawing.counter
    · rw [hconcat, hone, List.length_append, List.length_singleton, UInt32.ofNat_add, ← drawing.counter]
      exact hnext
  · rw [hid, hconcat]
    rcases hdraws with ⟨hnone, -⟩ | ⟨hone, -⟩
    · rw [hnone, List.append_nil]
      exact drawing.drawn
    · rw [hone, List.length_append, List.length_singleton, Client.issued_succ, ← drawing.drawn,
        ← drawing.counter]
      rfl

lemma Drawing.other (drawing : world.Drawing position happenings agent) {happening : Happening}
    (hby : happening.isBy (· == position) = false) :
    world.Drawing position (happenings ++ [happening]) agent := by
  have hsame : world.drawn position (happenings ++ [happening]) = world.drawn position happenings := by
    rw [World.drawn, trace_concat, ofMovesBy_other hby, List.append_nil]
    rfl
  exact ⟨drawing.wired, hsame ▸ drawing.counter, hsame ▸ drawing.drawn⟩

theorem Fresh.run_drawing (fresh : world.Fresh) (happenings : List Happening) :
    ∀ agent, (world.run happenings).agents[position]? = some agent →
      world.Drawing position happenings agent := by
  refine run_position (fun agent h => ?_) (fun before agent move h drawing => drawing.move h move)
    (fun before agent happening hby drawing => drawing.other hby) happenings
  obtain ⟨id, settings, hc⟩ := fresh.client agent (List.mem_of_getElem? h)
  refine ⟨fresh.wired (List.mem_of_getElem? h), ?_, rfl⟩
  rw [hc]
  rfl

/-- A client draws the ids of its counter one after the other. Two of them that are drawn fewer than 2 ^ 32 - 1
draws apart are the same if and only if the counter starts over with the second of them, right after the
first. -/
theorem ids_repeat_iff (fresh : world.Fresh) (happenings : List Happening)
    (h : (world.run happenings).agents[position]? = some agent) :
    world.drawn position happenings =
      Client.issued agent.client.id (world.drawn position happenings).length ∧
    ∀ i j, i < j → j < (world.drawn position happenings).length → j - i < 2 ^ 32 - 1 →
      ((world.drawn position happenings)[i]? = (world.drawn position happenings)[j]? ↔
        j = i + 1 ∧ 2 ^ 32 ∣ j) := by
  have drawing := fresh.run_drawing happenings agent h
  refine ⟨drawing.drawn, fun i j hij hj hclose => ?_⟩
  rw [drawing.drawn, Client.getElem?_issued _ (hij.trans hj), Client.getElem?_issued _ hj,
    Option.some.injEq]
  exact Client.requestId_eq_iff _ hij hclose

theorem letters_ids_differ :
    lone.Fresh ∧ lone.drawn 0 letters = [30064771073, 30064771074, 30064771075] ∧
    (lone.drawn 0 letters)[1]? ≠ (lone.drawn 0 letters)[2]? := by
  have hend : (lone.run letters).agents[0]?.any (fun agent => agent.client.id = 7) = true := by decide
  have hids : lone.drawn 0 letters = [30064771073, 30064771074, 30064771075] := by decide
  obtain ⟨agent, h, -⟩ := (Option.any_eq_true _ _).mp hend
  obtain ⟨-, hrepeat⟩ := ids_repeat_iff lone_fresh letters h
  refine ⟨lone_fresh, hids, fun hsame => ?_⟩
  obtain ⟨-, hwrap⟩ := (hrepeat 1 2 (by decide) (by rw [hids]; decide) (by decide)).mp hsame
  exact absurd hwrap (by decide)

/-! ### A client that talks on -/

lemma sendChat_state (turn : Turn σ) (now : Duration) (message : Int64 → Chat) :
    (turn.sendChat now message).client.state = turn.client.state := by
  rw [Turn.sendChat]
  split
  · dsimp only
    split <;> rfl
  · rfl

lemma moved_single (hwait : agent.wait = .nothing) (net : Net σ) (now : Duration) (target : Int64)
    (content : String) :
    (agent.moved net now (.begin (.single target content))).client.state = agent.client.state ∧
      (agent.moved net now (.begin (.single target content))).wait = .nothing := by
  rw [Agent.moved, Turn.move, if_pos hwait]
  exact ⟨sendChat_state _ now _, rfl⟩

def chatter (count : Nat) : List Happening :=
  [.client 0 (.begin (.connect 5)), .peer (.deliver 0 (Frame.encode .ack 1 [])),
    .client 0 (.begin .authenticate)] ++
  List.replicate count (.client 0 (.begin (.single 2 "hello")))

lemma chatter_succ (count : Nat) :
    chatter (count + 1) = chatter count ++ [.client 0 (.begin (.single 2 "hello"))] := by
  rw [chatter, List.replicate_succ', ← List.append_assoc]
  rfl

lemma chatter_draws (count : Nat) : (lone.drawn 0 (chatter count)).length = count + 1 ∧
    ∃ agent, (lone.run (chatter count)).agents[0]? = some agent ∧ agent.wait = .nothing ∧
      agent.client.isAuthenticated ∧ agent.client.id = 7 := by
  induction count with
  | zero =>
    have hend : (lone.run (chatter 0)).agents[0]?.any (fun agent => agent.wait = .nothing ∧
        agent.client.isAuthenticated ∧ agent.client.id = 7) = true := by
      decide
    obtain ⟨agent, h, hknown⟩ := (Option.any_eq_true _ _).mp hend
    exact ⟨by decide, agent, h, of_decide_eq_true hknown⟩
  | succ count ih =>
    obtain ⟨hlength, agent, h, hwait, hauth, hid⟩ := ih
    have hdraws : agent.client.draws (lone.run (chatter count)).net (lone.run (chatter count)).now
        agent.wait (.begin (.single 2 "hello")) = [agent.client.drawId.1] := by
      simp [Client.draws, Client.chatIds, Client.authIds, hwait, hauth, Client.message?]
    obtain ⟨hkept, hwait'⟩ := moved_single hwait (lone.run (chatter count)).net
      (lone.run (chatter count)).now 2 "hello"
    obtain ⟨hlt, -⟩ := List.getElem?_eq_some_iff.mp h
    refine ⟨?_, _, ?_, hwait', ?_, ?_⟩
    · rw [chatter_succ, drawn, trace_concat, ofMovesBy_self h, hdraws, List.length_append]
      exact congrArg (· + 1) hlength
    · rw [chatter_succ, run_append, run_cons, run_nil, step_client h, agents_moved,
        List.getElem?_set_self hlt]
    · rw [Client.isAuthenticated, hkept]
      exact hauth
    · have hmoved := agent.client.moved (lone.run (chatter count)).net (lone.run (chatter count)).now
        agent.wait (.begin (.single 2 "hello"))
      exact hmoved.owner.1.trans hid

/-- The last id before the counter starts over is drawn again right after. -/
theorem ids_repeat_at_wrap :
    (lone.drawn 0 (chatter (2 ^ 32))).length = 2 ^ 32 + 1 ∧
    (lone.drawn 0 (chatter (2 ^ 32)))[2 ^ 32 - 1]? = some 30064771073 ∧
    (lone.drawn 0 (chatter (2 ^ 32)))[2 ^ 32]? = some 30064771073 := by
  obtain ⟨hlength, agent, h, -, -, hid⟩ := chatter_draws (2 ^ 32)
  have hdrawn := (lone_fresh.run_drawing _ agent h).drawn
  rw [hlength, hid] at hdrawn
  refine ⟨hlength, ?_, ?_⟩
  · rw [hdrawn, Client.getElem?_issued 7 (by decide)]
    decide
  · rw [hdrawn, Client.getElem?_issued 7 (by decide)]
    decide

end World

end ChatLoad
