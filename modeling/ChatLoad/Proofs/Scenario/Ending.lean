import ChatLoad.CommandLine.Run
import ChatLoad.Proofs.World.Stopping

/-! How scenarios end. Whatever a workload does is a run of the clients that were set up for it, so that
tearing down leaves all of them at rest. -/

namespace ChatLoad

namespace World

variable {σ : Type} (world : World σ)

lemma note_reached (level : Level) (text : String) : world.Reaches (world.note level text) :=
  Same.reaches ⟨rfl, rfl, rfl, rfl⟩

lemma noteUnlessInterrupted_reached (level : Level) (text : String) :
    world.Reaches (world.noteUnlessInterrupted level text) := by
  rw [noteUnlessInterrupted]
  split
  · exact .refl world
  · exact world.note_reached level text

/-! ### Setting up -/

lemma connectBatch_reached (count : Nat) (range : Nat × Nat) :
    world.Reaches (world.connectBatch count range) :=
  (world.assign_reached _).trans (noteUnlessInterrupted_reached _ _ _)

lemma batches_reached (count : Nat) (ranges : List (Nat × Nat)) :
    world.Reaches (ranges.foldl (connectBatch count) world) := by
  induction ranges generalizing world with
  | nil => exact .refl world
  | cons range ranges ih => exact (world.connectBatch_reached count range).trans (ih _)

lemma startAuthenticated_reached : world.Reaches world.startAuthenticated :=
  world.assign_reached _

variable {world} in
lemma setUp_led (led : ∀ agent ∈ world.agents, agent.client.Led) (count : Nat) :
    ∀ agent ∈ (world.setUp count).1.agents, agent.client.Led := by
  rw [setUp]
  split
  · exact led
  · -- those who were there before are dismissed
    let populated := (world.note .info s!"Creating {count} client connections...").populate count
    have hconnected := populated.batches_reached count
      (batchRanges count (min world.settings.batchSize count))
    have hstarted := hconnected.trans (startAuthenticated_reached _)
    exact (hstarted.trans (noteUnlessInterrupted_reached _ _ _)).led (populate_unused _ count).led

/-! ### Workloads -/

variable (draws : Draws) (params : RunParams)

lemma runSingleChat_reached : world.Reaches (world.runSingleChat draws params) :=
  (world.note_reached _ _).trans (assign_reached _ _)

lemma runGroupChat_reached : world.Reaches (world.runGroupChat draws params) := by
  rw [runGroupChat]
  split
  · exact world.note_reached _ _
  · exact (world.note_reached _ _).trans (assign_reached _ _)

lemma runHeartbeat_reached : world.Reaches (world.runHeartbeat params) :=
  ((world.note_reached _ _).trans (rest_reached _ _)).trans (noteUnlessInterrupted_reached _ _ _)

lemma disconnectOffline_reached : world.Reaches world.disconnectOffline :=
  (world.noteUnlessInterrupted_reached _ _).trans (assign_reached _ _)

lemma messageOffline_reached : world.Reaches (world.messageOffline draws params) := by
  rw [messageOffline]
  split
  · exact world.noteUnlessInterrupted_reached _ _
  · exact (world.noteUnlessInterrupted_reached _ _).trans (assign_reached _ _)

lemma reconnectOffline_reached : world.Reaches world.reconnectOffline :=
  (world.noteUnlessInterrupted_reached _ _).trans (assign_reached _ _)

lemma runOfflineMessage_reached : world.Reaches (world.runOfflineMessage draws params) := by
  have hdisconnected := world.disconnectOffline_reached.trans
    (rest_reached _ world.settings.offlineSettle)
  have hsent := (hdisconnected.trans (messageOffline_reached _ draws params)).trans
    (rest_reached _ world.settings.offlineSettle)
  exact ((hsent.trans (reconnectOffline_reached _)).trans (noteUnlessInterrupted_reached _ _ _)).trans
    (rest_reached _ _)

variable {world} {draws params}

lemma runStress_reached {after : World σ} (h : world.runStress draws params = some after) :
    world.Reaches after := by
  rw [runStress] at h
  split at h
  · cases h
    exact world.note_reached _ _
  · obtain ⟨counts, _, h⟩ := Option.bind_eq_some_iff.mp h
    cases h
    exact ((world.note_reached _ _).trans (assign_reached _ _)).trans
      (noteUnlessInterrupted_reached _ _ _)

theorem run_reached {scenario : Scenario} {after : World σ}
    (h : scenario.run draws world = some after) : world.Reaches after := by
  rw [Scenario.run] at h
  split at h
  · cases h
    exact .refl world
  · split at h
    · cases h
      exact world.runSingleChat_reached _ _
    · cases h
      exact world.runGroupChat_reached _ _
    · cases h
      exact world.runHeartbeat_reached _
    · cases h
      exact world.runOfflineMessage_reached _ _
    · exact runStress_reached h

end World

/-! ### Whole scenarios -/

namespace CommandLine

open World

variable {σ : Type} {draws : Draws} {params : RunParams} {world ended : World σ}

lemma runScenario_resting {workload : Workload} (resting : world.Resting fun _ => true)
    (h : runScenario draws params world workload = some ended) : ended.Resting fun _ => true := by
  obtain ⟨after, hafter, h⟩ := Option.bind_eq_some_iff.mp h
  cases h
  have led : ∀ agent ∈ (announce workload world).agents, agent.client.Led := by
    intro agent ha
    obtain ⟨position, hp⟩ := List.getElem?_of_mem ha
    exact (resting position agent rfl hp).1.led
  exact tearDown_resting ((run_reached hafter).led (setUp_led led params.clients))

/-- Whatever scenarios do to their clients, and wherever an interruption ends them, all clients are at
rest when they are over. -/
theorem runAll_resting {workloads : List Workload} (resting : world.Resting fun _ => true)
    (h : runAll draws params workloads world = some ended) : ended.Resting fun _ => true := by
  induction workloads generalizing world with
  | nil =>
    cases h
    exact resting
  | cons workload later ih =>
    obtain ⟨after, hafter, h⟩ := Option.bind_eq_some_iff.mp h
    have hresting := runScenario_resting resting hafter
    split at h
    · cases h
      exact hresting
    · exact ih hresting h

end CommandLine

end ChatLoad
