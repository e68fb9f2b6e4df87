import ChatLoad.Client.Routine

/-! Many clients, one network, shared statistics and one clock. At each moment the clients take turns
until nobody has anything left to do; only then does time go on, to the next moment at which something
is due. -/

namespace ChatLoad

inductive Event
  | client (id : UInt64) (incident : Incident)
  | note (line : LogLine)
  deriving Repr, DecidableEq

namespace Event

def updates : Event → List StatsUpdate
  | client _ incident => incident.updates
  | note _ => []

def line? : Event → Option LogLine
  | client id incident => incident.line? id
  | note line => some line

end Event

/-- A run is interrupted after the text `awaited` came up in the log, as soon as it has to wait. -/
structure World (σ : Type) where
  net : Net σ
  now : Duration := 0
  settings : Settings := {}
  agents : List Agent := []
  stats : Stats := {}
  events : List Event := []
  awaited : Option String := none
  /-- whether the awaited text was logged -/
  called : Bool := false
  interrupted : Bool := false

namespace World

variable {σ : Type}

def mentions (part : List Char) : List Char → Bool
  | [] => part.isEmpty
  | c :: rest => part.isPrefixOf (c :: rest) || mentions part rest

def heeds (world : World σ) (event : Event) : Bool :=
  match world.awaited, event.line? with
  | some part, some line => mentions part.toList line.text.toList
  | _, _ => false

def record (world : World σ) (events : List Event) : World σ :=
  { world with
    events := world.events ++ events
    stats := (events.flatMap Event.updates).foldl StatsUpdate.apply world.stats
    called := world.called || events.any world.heeds }

def note (world : World σ) (level : Level) (text : String) : World σ :=
  world.record [.note ⟨level, text⟩]

/-! ### One moment -/

def turns (now : Duration) : List Agent → Net σ → List Agent × Net σ × List Event
  | [], net => ([], net, [])
  | agent :: agents, net =>
      let (agent, net, incidents) := agent.turn now net
      let (agents, net, events) := turns now agents net
      (agent :: agents, net, incidents.map (.client agent.client.id) ++ events)

def round (world : World σ) : World σ :=
  let (agents, net, events) := turns world.now world.agents (world.net.runAgenda world.now)
  record { world with agents, net } events

def remaining (world : World σ) : Nat :=
  world.agents.foldr (fun agent rest => agent.remaining + rest) 0

/-- Goes on until routines come no further. The second round lets everybody see what the first has
brought. -/
def settle (world : World σ) : World σ :=
  let next := world.round.round
  if next.remaining < world.remaining then next.settle else next
termination_by world.remaining

/-! ### Time -/

def isIdle (world : World σ) : Bool :=
  world.agents.all Agent.isIdle

def nextDue? (world : World σ) : Option Duration :=
  ((world.agents.flatMap Agent.dues ++ world.net.agenda.map (·.1)).filter (world.now < ·)).min?

/-- Lets time pass from `now` to `limit`, but not beyond the moment at which `stop` holds. A run that
was called off is interrupted instead of waiting. -/
def pass (stop : World σ → Bool) (limit now : Duration) (world : World σ) : World σ :=
  let world := settle { world with now }
  let moment := match world.nextDue? with
    | some due => min due limit
    | none => limit
  if stop world || limit ≤ now then world
  else if world.called && !world.interrupted then { world with interrupted := true }
  else if _ahead : now < moment ∧ moment ≤ limit then pass stop limit moment world
  else world
termination_by limit - now
decreasing_by exact Nat.sub_lt_sub_left (Nat.lt_of_lt_of_le _ahead.1 _ahead.2) _ahead.1

def rest (world : World σ) (span : Duration) : World σ :=
  if world.interrupted then world else world.pass (fun _ => false) (world.now + span) world.now

def horizon (world : World σ) : Duration :=
  (world.agents.map (·.horizon world.now)).foldl max world.now

def finish (world : World σ) : World σ :=
  if world.interrupted then world else world.pass isIdle world.horizon world.now

/-- Gives routines to agents, by their position, and waits until they are over. -/
def assign (world : World σ) (routine : Nat → Agent → List Act) : World σ :=
  if world.interrupted then world
  else
    let agents := world.agents.mapIdx fun i agent =>
      { agent with acts := agent.acts ++ routine i agent }
    finish { world with agents }

def peerActs (world : World σ) (actions : List Action) : World σ :=
  settle { world with net := actions.foldl Net.apply world.net }

end World

end ChatLoad
