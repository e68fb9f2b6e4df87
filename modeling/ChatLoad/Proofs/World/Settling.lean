import ChatLoad.Proofs.Client.Settled
import ChatLoad.Proofs.Net.Agenda
import ChatLoad.Proofs.World.Hearing
import ChatLoad.Proofs.World.Rounds

/-! Before time goes on, everything complete has been taken in: clients that have settled have nothing
left to read for their receive loops. -/

namespace ChatLoad

namespace World

variable {σ : Type}

lemma Fresh.run_agents {world : World σ} (fresh : world.Fresh) {p : Client → Wait → Prop}
    (start : ∀ id settings, p { id, settings } .nothing)
    (next : ∀ {now : Duration} {client client' : Client} {net net' : Net σ} {wait wait' : Wait}
      {move : Move} {incidents : List Incident},
      Client.Moved now client net wait move client' net' wait' incidents → p client wait →
        p client' wait')
    (happenings : List Happening) :
    ∀ agent ∈ (world.run happenings).agents, p agent.client agent.wait := by
  refine World.run_agents ?_ next happenings
  intro agent ha
  obtain ⟨id, settings, hc⟩ := fresh.client agent ha
  rw [hc, fresh.wait agent ha]
  exact start id settings

/-- What is known of the connections and the loops of all clients. -/
structure Orderly (world : World σ) : Prop where
  sound : world.net.Sound
  tidy : ∀ agent ∈ world.agents, agent.client.Tidy world.net.links.length
  apart : world.agents.Pairwise fun agent other =>
    ∀ conn ∈ agent.client.conns, conn ∉ other.client.conns
  paced : ∀ agent ∈ world.agents, agent.client.Paced

lemma Fresh.orderly {start world : World σ} (fresh : start.Fresh) (h : start.Reaches world) :
    world.Orderly := by
  obtain ⟨happenings, hsame⟩ := h
  have followed := fresh.run_followed happenings
  have paced := fresh.run_agents (p := fun client _ => client.Paced)
    (fun _ _ => ⟨List.nodup_nil, by simp [Client.beating]⟩) (fun h => h.paced) happenings
  have hagent {position : Nat} {agent : Agent} (ha : world.agents[position]? = some agent) :=
    hsame.symm.agent ha
  refine ⟨hsame.net ▸ followed.sound, ?_, ?_, ?_⟩
  · intro agent ha
    obtain ⟨position, hp⟩ := List.getElem?_of_mem ha
    obtain ⟨agent', ha', hclient, _⟩ := hagent hp
    rw [← hsame.net, ← hclient]
    exact followed.tidy position agent' ha'
  · apply List.pairwise_iff_getElem.mpr
    intro i j hi hj hlt conn hc hc'
    obtain ⟨first, hfirst, hclient, _⟩ := hagent (List.getElem?_eq_getElem hi)
    obtain ⟨second, hsecond, hclient', _⟩ := hagent (List.getElem?_eq_getElem hj)
    rw [← hclient] at hc
    rw [← hclient'] at hc'
    exact Nat.ne_of_lt hlt (followed.apart i j first second hfirst hsecond conn hc hc')
  · intro agent ha
    obtain ⟨position, hp⟩ := List.getElem?_of_mem ha
    obtain ⟨agent', ha', hclient, _⟩ := hagent hp
    rw [← hclient]
    exact paced agent' (List.mem_of_getElem? ha')

/-! ### Turns without progress -/

section

variable (now : Duration)

def left (agents : List Agent) : Nat :=
  agents.foldr (fun agent rest => agent.remaining + rest) 0

lemma turns_left_le (waiting : List Agent) (net : Net σ) :
    left (turns now waiting net).1 ≤ left waiting := by
  induction waiting generalizing net with
  | nil => exact Nat.le_refl _
  | cons agent waiting ih =>
    rw [(turns_cons now agent waiting net).1]
    exact Nat.add_le_add (agent.turn_remaining_le now net) (ih _)

lemma stuck_of_cons {agent : Agent} {waiting : List Agent} {net : Net σ}
    (hstuck : left (turns now (agent :: waiting) net).1 = left (agent :: waiting)) :
    (agent.turn now net).1.remaining = agent.remaining ∧
      left (turns now waiting (agent.turn now net).2.1).1 = left waiting := by
  have hone := agent.turn_remaining_le now net
  have hrest := turns_left_le now waiting (agent.turn now net).2.1
  rw [(turns_cons now agent waiting net).1] at hstuck
  simp only [left, List.foldr_cons] at hstuck hrest ⊢
  omega

variable {now}

lemma turns_rested {waiting : List Agent} {net : Net σ}
    (paced : ∀ agent ∈ waiting, agent.client.Paced)
    (hstuck : left (turns now waiting net).1 = left waiting) :
    ∀ agent ∈ (turns now waiting net).1, agent.client.Rested now := by
  induction waiting generalizing net with
  | nil => exact fun _ ha => absurd ha List.not_mem_nil
  | cons agent waiting ih =>
    obtain ⟨hone, hrest⟩ := stuck_of_cons now hstuck
    rw [(turns_cons now agent waiting net).1, List.forall_mem_cons]
    exact ⟨agent.turn_rested (paced agent List.mem_cons_self) hone,
      ih (fun other ho => paced other (List.mem_cons_of_mem _ ho)) hrest⟩

lemma turns_attentive {waiting : List Agent} {net : Net σ} (sound : net.Sound)
    (tidy : ∀ agent ∈ waiting, agent.client.Tidy net.links.length)
    (apart : waiting.Pairwise fun agent other =>
      ∀ conn ∈ agent.client.conns, conn ∉ other.client.conns)
    (rested : ∀ agent ∈ waiting, agent.client.Rested now)
    (hstuck : left (turns now waiting net).1 = left waiting) :
    net.Read (turns now waiting net).2.1 (waiting.flatMap (·.client.conns)) ∧
      ∀ agent ∈ (turns now waiting net).1, agent.client.Attentive (turns now waiting net).2.1 := by
  induction waiting generalizing net with
  | nil => exact ⟨.refl net _, fun _ ha => absurd ha List.not_mem_nil⟩
  | cons agent waiting ih =>
    obtain ⟨hone, hrest⟩ := stuck_of_cons now hstuck
    obtain ⟨hsound, hkeeps, hattentive⟩ := agent.turn_attentive sound
      (tidy agent List.mem_cons_self) (rested agent List.mem_cons_self) hone
    obtain ⟨hapart, hothers⟩ := List.pairwise_cons.mp apart
    obtain ⟨hread, hall⟩ := ih hsound
      (fun other ho => hkeeps.read.links ▸ tidy other (List.mem_cons_of_mem _ ho)) hothers
      (fun other ho => rested other (List.mem_cons_of_mem _ ho)) hrest
    obtain ⟨hagents, hnet⟩ := turns_cons now agent waiting net
    rw [hagents, hnet, List.flatMap_cons, List.forall_mem_cons]
    have hfirst : net.Read (agent.turn now net).2.1
        (agent.client.conns ++ waiting.flatMap (·.client.conns)) :=
      (Net.Read.refl net _).trans hkeeps.read (List.subset_append_left _ _)
    refine ⟨hfirst.trans hread (List.subset_append_right _ _), ?_, hall⟩
    intro loop hl
    obtain ⟨hnil, hbuffer⟩ := hattentive loop hl
    have hmine := hkeeps.conns (Client.mem_conns_of_receiver hl)
    have hnot : loop.reader.conn ∉ waiting.flatMap (·.client.conns) := by
      intro hmem
      obtain ⟨other, ho, hc⟩ := List.mem_flatMap.mp hmem
      exact hapart other ho _ hmine hc
    exact ⟨(hread.others _ hnot).trans hnil, hbuffer⟩

end

/-! ### Rounds without progress -/

lemma punctual_run {world : World σ} {happenings : List Happening}
    (hprompt : ∀ happening ∈ happenings, happening.isPrompt)
    (h : world.net.Punctual world.now) : (world.run happenings).net.Punctual world.now := by
  induction happenings generalizing world with
  | nil => exact h
  | cons happening later ih =>
    have hnow := now_step (hprompt happening List.mem_cons_self) world
    have hstep : (world.step happening).net.Punctual world.now := by
      cases happening with
      | agenda => exact Net.punctual_runAgenda _ _
      | client position move =>
        cases ha : world.agents[position]? with
        | none => simpa only [step, ha] using h
        | some agent =>
          rw [net_step_client ha]
          exact (agent.client.moved world.net world.now agent.wait move).punctual h
      | _ => cases hprompt _ List.mem_cons_self
    have hrest := @ih (world.step happening)
      (fun other ho => hprompt other (List.mem_cons_of_mem _ ho)) (hnow ▸ hstep)
    rw [run_cons, ← hnow]
    exact hrest

lemma round_punctual (world : World σ) : world.round.net.Punctual world.now := by
  have hstart : (world.step .agenda).net.Punctual (world.step .agenda).now :=
    Net.punctual_runAgenda _ _
  have hend := punctual_run
    (fun happening h => world.roundMoves_prompt happening (List.mem_cons_of_mem _ h)) hstart
  rw [← run_cons, ← roundMoves, world.round_run.net] at hend
  exact hend

lemma round_remaining_le (world : World σ) : world.round.remaining ≤ world.remaining :=
  turns_left_le _ _ _

lemma round_rested {world : World σ} (orderly : world.Orderly)
    (hstuck : world.round.remaining = world.remaining) :
    ∀ agent ∈ world.round.agents, agent.client.Rested world.now :=
  turns_rested orderly.paced hstuck

lemma round_attentive {world : World σ} (orderly : world.Orderly)
    (rested : ∀ agent ∈ world.agents, agent.client.Rested world.now)
    (punctual : world.net.Punctual world.now) (hstuck : world.round.remaining = world.remaining) :
    ∀ agent ∈ world.round.agents, agent.client.Attentive world.round.net := by
  have hround : world.round.agents = (turns world.now world.agents world.net).1 ∧
      world.round.net = (turns world.now world.agents world.net).2.1 := by
    rw [round]
    rw [Net.runAgenda_of_punctual punctual]
    exact ⟨rfl, rfl⟩
  have hleft : left (turns world.now world.agents world.net).1 = left world.agents := by
    rw [← hround.1]
    exact hstuck
  rw [hround.1, hround.2]
  exact (turns_attentive orderly.sound orderly.tidy orderly.apart rested hleft).2

/-- Clients that have settled have nothing left to read for their receive loops. -/
theorem Fresh.settle_attentive {start world : World σ} (fresh : start.Fresh)
    (h : start.Reaches world) :
    ∀ agent ∈ world.settle.agents, agent.client.Attentive world.settle.net := by
  induction world using settle.induct with
  | case1 world next hless ih =>
    rw [settle, if_pos hless]
    exact ih (h.trans (world.round_comes.trans world.round.round_comes).reaches)
  | case2 world next hmore =>
    have hfirst := world.round_remaining_le
    have hsecond := world.round.round_remaining_le
    have hnext : world.round.round.remaining ≥ world.remaining := Nat.le_of_not_lt hmore
    have hnow : world.round.now = world.now := rfl
    have rested := round_rested (fresh.orderly h) (by omega)
    rw [settle, if_neg hmore]
    exact round_attentive (fresh.orderly (h.trans world.round_comes.reaches)) rested
      world.round_punctual (by omega)

end World

end ChatLoad
