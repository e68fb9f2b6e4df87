import ChatLoad.CommandLine.Help
import ChatLoad.Scenario.Run
import ChatLoad.Settings.File
import ChatLoad.Stats.Report

/-! From arguments to the report: the settings are loaded, the scenarios run one after the other on
shared statistics, and an interruption tears down the one that is running and skips the others. -/

namespace ChatLoad

structure Result where
  code : Nat
  stdout : String := ""
  stderr : String := ""
  deriving Repr, DecidableEq

namespace CommandLine

variable {σ : Type}

def defaultFile : String := "config"

/-- The files that a name may stand for: itself, or with the ending of settings files. -/
def candidates (name : String) : List String :=
  [name, name ++ ".toml"]

def override (options : Options) (settings : Settings) : Settings :=
  { settings with
    host := options.host.getD settings.host
    port := options.port.getD settings.port }

/-- The files that may hold the settings, the first that exists before the others. -/
def files (options : Options) : List String :=
  candidates (options.config.getD defaultFile)

def loadSettings (options : Options) (file? : String → Option String) :
    Except SettingsError Settings := do
  let settings ← Settings.load options.config.isSome ((files options).findSome? file?)
  return override options settings

def announce (workload : Workload) (world : World σ) : World σ :=
  ((world.note .info Report.ruler).note .info s!"Starting scenario: {workload.name}").note .info
    Report.ruler

def runScenario (draws : Draws) (params : RunParams) (world : World σ) (workload : Workload) :
    Option (World σ) := do
  let (scenario, world) := Scenario.setUp { workload, params } (announce workload world)
  return (← scenario.run draws world).tearDown

/-- The scenarios in turn, up to an interruption. Nothing is returned if one of them never ends. -/
def runAll (draws : Draws) (params : RunParams) : List Workload → World σ → Option (World σ)
  | [], world => some world
  | workload :: later, world => do
      let world ← runScenario draws params world workload
      if world.interrupted then
        return world.note .warn "Interrupted, skipping remaining scenarios"
      runAll draws params later world

def reportText (options : Options) (world : World σ) : String :=
  let stats := world.stats.finish world.now
  let report := Report.ofSnapshot (stats.snapshot world.now)
  if options.json then report.json else report.text

/-- Runs what the options ask for on a given network. `awaited` is a text in the log on which the run
gets interrupted. -/
def runOptions (draws : Draws) (net : Net σ) (awaited : Option String) (options : Options)
    (settings : Settings) : Option String := do
  let params := options.params
  let world : World σ := { net, settings, awaited }
  let world := world.note .info
    s!"Target {settings.address} | {params.clients} clients | scenario {options.selection.label}"
  let world ← runAll draws params options.selection.workloads world
  return reportText options world

/-- The whole program. Nothing is returned if it never ends. -/
def run (draws : Draws) (net : Net σ) (awaited : Option String) (file? : String → Option String)
    (args : List String) : Option Result :=
  match Options.parse args with
  | .help => some { code := 0, stdout := Help.text ++ "\n" }
  | .usage fault => some { code := 2, stderr := fault.message }
  | .run options =>
      match loadSettings options file? with
      | .error _ => some { code := 1 }
      | .ok settings => do
          return { code := 0, stdout := (← runOptions draws net awaited options settings) ++ "\n" }

end CommandLine

end ChatLoad
