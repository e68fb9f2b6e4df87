import ChatLoad.CommandLine.Options

/-! The help text. -/

namespace ChatLoad.Help

def programName : String := "cicada-bench"

def about : String := "Concurrent load generator for the binary chat protocol"

def defaults : RunParams := {}

def purpose : OptionName → String
  | .host => "Server host, overrides the config file"
  | .port => "Server port, overrides the config file"
  | .clients => s!"Simulated clients per scenario [default: {defaults.clients}]"
  | .messages =>
      s!"Messages per client (single, group, offline) [default: {defaults.messagesPerClient}]"
  | .groups => s!"Number of group sessions [default: {defaults.groups}]"
  | .duration =>
      let secs := defaults.duration / Duration.ofSecs 1
      s!"Duration in seconds (heartbeat, stress) [default: {secs}]"
  | .qps => s!"Target messages per second (stress) [default: {defaults.targetRate}]"
  | .scenario =>
      let choices := ", ".intercalate (Selection.named.map Prod.fst)
      s!"[default: all] [possible values: {choices}]"
  | .config => "Settings file, defaults to ./config.toml when present"

/-- The options in the order of the help text, with what they are for. -/
def entries : List (String × String) :=
  let valued (options : List OptionName) :=
    options.map fun option => (s!"    {option.shown}", purpose option)
  valued [.host, .port, .clients, .messages, .groups, .duration, .qps, .scenario] ++
    [("    --json", "Print the report as JSON")] ++
    valued [.config] ++
    [("-h, --help", "Print help")]

def entryLine (width : Nat) (entry : String × String) : String :=
  "  " ++ entry.1 ++ String.ofList (List.replicate (width - entry.1.length + 2) ' ') ++ entry.2

def text : String :=
  let width := (entries.map (·.1.length)).foldl max 0
  "\n".intercalate
    ([about, "", s!"Usage: {programName} [OPTIONS]", "", "Options:"] ++
      entries.map (entryLine width))

end ChatLoad.Help
