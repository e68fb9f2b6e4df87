import ChatLoad.Scenario.Population
import ChatLoad.Scenario.Schedule

/-! What the clients of each workload do between setting up and tearing down. -/

namespace ChatLoad.World

variable {σ : Type}

def sendPaused (count : Nat) (pause : Duration) (message : Nat → Option Act) : List Act :=
  (List.range count).flatMap fun i => (message i).toList ++ [.pause pause]

def assignAuthenticated (world : World σ) (routine : Nat → Client → List Act) : World σ :=
  world.assign fun i agent => if agent.client.isAuthenticated then routine i agent.client else []

/-! ### Direct messages and group messages -/

def singleRoutine (draws : Draws) (settings : Settings) (params : RunParams) (client : Client) :
    List Act :=
  if params.clients < 2 then []
  else
    sendPaused params.messagesPerClient settings.sendInterval fun i =>
      (randomPeer? (draws client.id i) client.id params.clients).map fun target =>
        .single (Int64.ofNat target) s!"Hello from {client.id.toNat}, msg #{i}"

def runSingleChat (draws : Draws) (params : RunParams) (world : World σ) : World σ :=
  let world := world.note .info
    s!"[SingleChat] Sending {params.messagesPerClient} messages per client"
  world.assignAuthenticated fun _ client => singleRoutine draws world.settings params client

def groupRoutine (draws : Draws) (settings : Settings) (params : RunParams) (client : Client) :
    List Act :=
  sendPaused params.messagesPerClient settings.sendInterval fun i =>
    some (.group (Int64.ofNat (randomSession (draws client.id i) params.groups))
      s!"Group msg from {client.id.toNat}, msg #{i}")

def runGroupChat (draws : Draws) (params : RunParams) (world : World σ) : World σ :=
  if params.groups = 0 then world.note .warn "[GroupChat] No groups configured, nothing to send"
  else
    let world := world.note .info
      s!"[GroupChat] {params.groups} groups, {params.messagesPerClient} messages per client"
    world.assignAuthenticated fun _ client => groupRoutine draws world.settings params client

/-! ### Heartbeats -/

def runHeartbeat (params : RunParams) (world : World σ) : World σ :=
  let world := world.note .info
    s!"[Heartbeat] Holding {world.authenticatedCount} connections for {Duration.text params.duration}"
  (world.rest params.duration).noteUnlessInterrupted .info "[Heartbeat] Done"

/-! ### Messages to clients that are offline -/

/-- The clients that are taken offline are those from the split on. -/
def split (world : World σ) : Nat :=
  offlineSplit world.agents.length

def disconnectOffline (world : World σ) : World σ :=
  let split := world.split
  let world := world.noteUnlessInterrupted .info
    s!"[OfflineMessage] Disconnecting {world.agents.length - split} clients"
  world.assign fun i _ => if split ≤ i then [.stop] else []

def offlineRoutine (draws : Draws) (settings : Settings) (params : RunParams) (clients : Nat)
    (client : Client) : List Act :=
  sendPaused params.messagesPerClient settings.sendInterval fun i =>
    some (.single (Int64.ofNat (randomOffline (draws client.id i) clients))
      s!"Offline msg from {client.id.toNat}, msg #{i}")

def messageOffline (draws : Draws) (params : RunParams) (world : World σ) : World σ :=
  let clients := world.agents.length
  let split := world.split
  if clients = split then
    world.noteUnlessInterrupted .warn
      "[OfflineMessage] Population too small to take anyone offline"
  else
    let world := world.noteUnlessInterrupted .info "[OfflineMessage] Sending to offline clients"
    world.assignAuthenticated fun i client =>
      if i < split then offlineRoutine draws world.settings params clients client else []

def reconnectOffline (world : World σ) : World σ :=
  let split := world.split
  let settings := world.settings
  let world := world.noteUnlessInterrupted .info
    s!"[OfflineMessage] Reconnecting {world.agents.length - split} clients"
  world.assign fun i _ =>
    if split ≤ i then
      [.connect settings.connectTimeout, .authenticate, .start settings.heartbeatInterval]
    else []

def runOfflineMessage (draws : Draws) (params : RunParams) (world : World σ) : World σ :=
  let settle := world.settings.offlineSettle
  let world := world.disconnectOffline.rest settle
  let world := (world.messageOffline draws params).rest settle
  let world := world.reconnectOffline.noteUnlessInterrupted .info
    "[OfflineMessage] Waiting for offline delivery"
  world.rest world.settings.offlineDeliveryWait

/-! ### Stress -/

def stressRoutine (draws : Draws) (params : RunParams) (schedule : Schedule) (start : Duration)
    (lane count : Nat) (client : Client) : List Act :=
  (List.range count).flatMap fun k =>
    .pauseUntil (start + schedule.offset lane k) ::
      ((randomPeer? (draws client.id k) client.id params.clients).map fun target =>
        Act.single (Int64.ofNat target) s!"Stress test msg #{schedule.number lane k}").toList

/-- The lane of each authenticated client, in the order of the clients. -/
def lane (world : World σ) (position : Nat) : Nat :=
  (world.agents.take position).countP (·.client.isAuthenticated)

/-- Nothing is returned if some lane never ends. -/
def runStress (draws : Draws) (params : RunParams) (world : World σ) : Option (World σ) :=
  let active := world.authenticatedCount
  match laneGap? active params.targetRate with
  | none =>
      some (world.note .warn
        "[Stress] No authenticated clients or zero target rate, skipping")
  | some gap => do
      let schedule : Schedule := ⟨active, gap, params.duration⟩
      let counts ← (List.range active).mapM schedule.count?
      let before := world.note .info
        s!"[Stress] {Duration.text params.duration} at {params.targetRate} msg/s across {active} clients"
      let after := before.assignAuthenticated fun i client =>
        let lane := before.lane i
        stressRoutine draws params schedule before.now lane (counts.getD lane 0) client
      let sent := after.stats.counters.messagesSent - before.stats.counters.messagesSent
      some (after.noteUnlessInterrupted .info s!"[Stress] Finished: {sent} messages sent")

end ChatLoad.World

namespace ChatLoad.Scenario

variable {σ : Type}

def setUp (scenario : Scenario) (world : World σ) : Scenario × World σ :=
  let (world, batchSizes) := world.setUp scenario.params.clients
  ({ scenario with batchSizes }, world)

/-- Nothing is returned if the run never ends. -/
def run (scenario : Scenario) (draws : Draws) (world : World σ) : Option (World σ) :=
  if world.interrupted then some world
  else
    match scenario.workload with
    | .singleChat => some (world.runSingleChat draws scenario.params)
    | .groupChat => some (world.runGroupChat draws scenario.params)
    | .heartbeat => some (world.runHeartbeat scenario.params)
    | .offlineMessage => some (world.runOfflineMessage draws scenario.params)
    | .stress => world.runStress draws scenario.params

end ChatLoad.Scenario
