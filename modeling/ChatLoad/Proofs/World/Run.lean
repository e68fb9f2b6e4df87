import ChatLoad.World
import ChatLoad.Proofs.Client.Move

/-! Runs of a world: anything may happen next, be it that the peer acts, that time passes, or that some
client makes some move. -/

namespace ChatLoad

inductive Happening
  | peer (action : Action)
  /-- what the peer has put off is done as far as it is due -/
  | agenda
  | pass (span : Duration)
  | client (position : Nat) (move : Move)

def Agent.moved {σ : Type} (agent : Agent) (net : Net σ) (now : Duration) (move : Move) : Agent :=
  let (turn, wait) := (agent.client.turnOn net).move now agent.wait move
  { agent with client := turn.client, wait }

namespace World

variable {σ : Type}

def moved (world : World σ) (position : Nat) (agent : Agent) (move : Move) : World σ :=
  let (turn, _) := (agent.client.turnOn world.net).move world.now agent.wait move
  record
    { world with
      agents := world.agents.set position (agent.moved world.net world.now move)
      net := turn.net }
    (turn.incidents.map (.client agent.client.id))

def step (world : World σ) : Happening → World σ
  | .peer action => { world with net := world.net.apply action }
  | .agenda => { world with net := world.net.runAgenda world.now }
  | .pass span => { world with now := world.now + span }
  | .client position move =>
      match world.agents[position]? with
      | some agent => world.moved position agent move
      | none => world

def client? (world : World σ) (position : Nat) : Option Client :=
  world.agents[position]?.map fun agent => agent.client

def run (world : World σ) (happenings : List Happening) : World σ :=
  happenings.foldl step world

/-- Before anything has happened: new clients, no connections, empty statistics. -/
structure Fresh (world : World σ) : Prop where
  client : ∀ agent ∈ world.agents, ∃ id settings, agent.client = { id, settings }
  wait : ∀ agent ∈ world.agents, agent.wait = .nothing
  links : world.net.links = []
  counters : world.stats.counters = {}
  latencies : world.stats.latencies = #[]

lemma fresh_of_new {world : World σ} (ids : List UInt64)
    (hagents : world.agents = ids.map fun id => { client := { id } }) (hlinks : world.net.links = [])
    (hcounters : world.stats.counters = {}) (hlatencies : world.stats.latencies = #[]) :
    world.Fresh := by
  refine ⟨fun agent ha => ?_, fun agent ha => ?_, hlinks, hcounters, hlatencies⟩
  all_goals
    rw [hagents] at ha
    obtain ⟨id, -, rfl⟩ := List.mem_map.mp ha
  · exact ⟨id, {}, rfl⟩
  · rfl

/-! ### Traces -/

variable {α : Type}

/-- What `f` sees, one happening after the other. -/
def trace (f : World σ → Happening → List α) (world : World σ) : List Happening → List α
  | [] => []
  | happening :: later => f world happening ++ trace f (world.step happening) later

def ofMoves (f : Client → Net σ → Duration → Wait → Move → List α) (world : World σ) :
    Happening → List α
  | .client position move =>
      match world.agents[position]? with
      | some agent => f agent.client world.net world.now agent.wait move
      | none => []
  | _ => []

/-! ### Steps -/

lemma step_client {world : World σ} {position : Nat} {agent : Agent}
    (h : world.agents[position]? = some agent) (move : Move) :
    world.step (.client position move) = world.moved position agent move := by
  simp only [step, h]

lemma ofMoves_client {world : World σ} {position : Nat} {agent : Agent}
    (h : world.agents[position]? = some agent)
    (f : Client → Net σ → Duration → Wait → Move → List α) (move : Move) :
    world.ofMoves f (.client position move) =
      f agent.client world.net world.now agent.wait move := by
  simp only [ofMoves, h]

/-- A step is the move of an agent or it passes all agents by. -/
lemma step_cases (world : World σ) (happening : Happening) :
    (∃ position agent move, happening = .client position move ∧
      world.agents[position]? = some agent) ∨
    ((world.step happening).agents = world.agents ∧ (world.step happening).stats = world.stats ∧
      ∀ {α : Type} (f : Client → Net σ → Duration → Wait → Move → List α),
        world.ofMoves f happening = []) := by
  cases happening with
  | client position move =>
    cases h : world.agents[position]? with
    | none => exact .inr ⟨by simp [step, h], by simp [step, h], by simp [ofMoves, h]⟩
    | some agent => exact .inl ⟨position, agent, move, rfl, h⟩
  | peer | agenda | pass => exact .inr ⟨rfl, rfl, fun _ => rfl⟩

lemma agents_moved (world : World σ) (position : Nat) (agent : Agent) (move : Move) :
    (world.moved position agent move).agents =
      world.agents.set position (agent.moved world.net world.now move) := rfl

lemma net_step_client {world : World σ} {position : Nat} {agent : Agent}
    (h : world.agents[position]? = some agent) (move : Move) :
    (world.step (.client position move)).net =
      ((agent.client.turnOn world.net).move world.now agent.wait move).1.net := by
  rw [step_client h]
  rfl

lemma agents_step_client {world : World σ} {position : Nat} {agent : Agent}
    (h : world.agents[position]? = some agent) {move : Move} {other : Nat} {after : Agent}
    (ha : (world.step (.client position move)).agents[other]? = some after) :
    other = position ∧ after = agent.moved world.net world.now move ∨
      other ≠ position ∧ world.agents[other]? = some after := by
  rw [step_client h, agents_moved, List.getElem?_set] at ha
  by_cases heq : position = other
  · obtain ⟨hlt, _⟩ := List.getElem?_eq_some_iff.mp h
    rw [if_pos heq, if_pos hlt, Option.some.injEq] at ha
    exact .inl ⟨heq.symm, ha.symm⟩
  · rw [if_neg heq] at ha
    exact .inr ⟨Ne.symm heq, ha⟩

lemma step_alone {world : World σ} {agent : Agent} (alone : world.agents = [agent])
    (happening : Happening) :
    (∃ position move, happening = .client position move ∧
      world.agents[position]? = some agent ∧
      (world.step happening).agents = [agent.moved world.net world.now move]) ∨
    ((world.step happening).agents = [agent] ∧ (world.step happening).stats = world.stats ∧
      ∀ {α : Type} (f : Client → Net σ → Duration → Wait → Move → List α),
        world.ofMoves f happening = []) := by
  rcases step_cases world happening with ⟨position, other, move, rfl, h⟩ | ⟨hagents, hrest⟩
  · have hother : other = agent := by
      have hmem := List.mem_of_getElem? h
      rw [alone] at hmem
      exact List.mem_singleton.mp hmem
    rw [hother] at h
    have hposition : position = 0 := by
      rw [alone] at h
      exact Nat.lt_one_iff.mp (List.getElem?_eq_some_iff.mp h).1
    refine .inl ⟨position, move, rfl, h, ?_⟩
    rw [step_client h, agents_moved, alone, hposition]
    rfl
  · exact .inr ⟨hagents.trans alone, hrest⟩

/-! ### Runs -/

@[simp] lemma run_nil (world : World σ) : world.run [] = world := rfl

@[simp] lemma run_cons (world : World σ) (happening : Happening) (later : List Happening) :
    world.run (happening :: later) = (world.step happening).run later := rfl

lemma run_append (world : World σ) (before after : List Happening) :
    world.run (before ++ after) = (world.run before).run after :=
  List.foldl_append

lemma trace_append (f : World σ → Happening → List α) (world : World σ)
    (before after : List Happening) :
    world.trace f (before ++ after) = world.trace f before ++ (world.run before).trace f after := by
  induction before generalizing world with
  | nil => rfl
  | cons happening before ih => simp [trace, ih]

lemma trace_concat (f : World σ → Happening → List α) (world : World σ)
    (before : List Happening) (happening : Happening) :
    world.trace f (before ++ [happening]) = world.trace f before ++ f (world.run before) happening := by
  simp [trace_append, trace]

/-- What holds at first and is kept by whatever happens, holds after every run. -/
lemma run_induction {world : World σ} {motive : List Happening → World σ → Prop}
    (start : motive [] world)
    (next : ∀ before happening, motive before (world.run before) →
      motive (before ++ [happening]) ((world.run before).step happening))
    (happenings : List Happening) : motive happenings (world.run happenings) := by
  induction happenings using List.reverseRecOn with
  | nil => exact start
  | append_singleton before happening ih =>
    rw [run_append]
    exact next before happening ih

/-- What every client keeps in every move holds of all clients after every run. -/
lemma run_agents {world : World σ} {p : Client → Wait → Prop}
    (start : ∀ agent ∈ world.agents, p agent.client agent.wait)
    (next : ∀ {now : Duration} {client client' : Client} {net net' : Net σ} {wait wait' : Wait}
      {move : Move} {incidents : List Incident},
      Client.Moved now client net wait move client' net' wait' incidents → p client wait →
        p client' wait')
    (happenings : List Happening) :
    ∀ agent ∈ (world.run happenings).agents, p agent.client agent.wait := by
  refine run_induction (motive := fun _ after => ∀ agent ∈ after.agents, p agent.client agent.wait)
    start ?_ happenings
  intro before happening hall agent' ha'
  rcases step_cases (world.run before) happening with ⟨position, agent, move, rfl, h⟩ | ⟨hsame, _⟩
  · obtain ⟨other, hother⟩ := List.getElem?_of_mem ha'
    rcases agents_step_client h hother with ⟨_, rfl⟩ | ⟨_, hold⟩
    · have hmoved := agent.client.moved (world.run before).net (world.run before).now agent.wait
        move
      exact next hmoved (hall agent (List.mem_of_getElem? h))
    · exact hall agent' (List.mem_of_getElem? hold)
  · rw [hsame] at ha'
    exact hall agent' ha'

end World

end ChatLoad
