import ChatLoad.Scenario.Basic

/-! The life of a scenario's clients: they are connected in batches, started, and in the end closed. -/

namespace ChatLoad.World

variable {σ : Type}

def dismiss (world : World σ) : World σ :=
  let held := world.agents.flatMap (·.client.held)
  { world with agents := [], net := held.foldl Net.close world.net }

def populate (world : World σ) (count : Nat) : World σ :=
  let agents := (List.range count).map fun i =>
    { client := { id := UInt64.ofNat (i + 1), settings := world.settings } : Agent }
  { world.dismiss with agents }

def noteUnlessInterrupted (world : World σ) (level : Level) (text : String) : World σ :=
  if world.interrupted then world else world.note level text

def authenticatedCount (world : World σ) : Nat :=
  world.agents.countP (·.client.isAuthenticated)

/-- Connects and authenticates one batch and waits for all of it. -/
def connectBatch (count : Nat) (world : World σ) (range : Nat × Nat) : World σ :=
  let settings := world.settings
  let routine := [.connect settings.connectTimeout, .pause settings.connectStagger, .authenticate]
  let world := world.assign fun i _ => if range.1 ≤ i ∧ i < range.2 then routine else []
  world.noteUnlessInterrupted .info s!"   Connected: {range.2}/{count}"

def startAuthenticated (world : World σ) : World σ :=
  world.assign fun _ agent =>
    if agent.client.isAuthenticated then [.start world.settings.heartbeatInterval] else []

/-- Creates and connects the clients, batch after batch, and starts all that got authenticated. -/
def setUp (world : World σ) (count : Nat) : World σ × List Nat :=
  if world.interrupted then (world, [])
  else
    let ranges := batchRanges count (min world.settings.batchSize count)
    let world := (world.note .info s!"Creating {count} client connections...").populate count
    let world := (ranges.foldl (connectBatch count) world).startAuthenticated
    (world.noteUnlessInterrupted .info
      s!"{world.authenticatedCount} of {count} clients authenticated",
      ranges.map fun range => range.2 - range.1)

/-- Drops all routines and stops all clients, also after an interruption. -/
def tearDown (world : World σ) : World σ :=
  let world := world.note .info s!"Closing {world.agents.length} connections..."
  let agents := world.agents.map fun agent => { agent.cancel with acts := [.stop] }
  settle { world with agents }

end ChatLoad.World
