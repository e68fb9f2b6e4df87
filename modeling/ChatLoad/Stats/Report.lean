import ChatLoad.Stats.Basic
import ChatLoad.Stats.Latency

/-! The numbers of a run, and the report as text and as JSON. -/

namespace ChatLoad

/-- The share of attempts that succeeded; no attempt counts as one. -/
def successRate (succeeded attempted : Nat) : Float :=
  succeeded.toUInt64.toFloat / (max attempted 1).toUInt64.toFloat

/-- Events per second; a run shorter than a second counts as one second. -/
def perSecond (count : Nat) (secs : Float) : Float :=
  count.toUInt64.toFloat / (if 1.0 < secs then secs else 1.0)

structure Report where
  durationSecs : Float
  counters : Counters
  connectionSuccessRate : Float
  authSuccessRate : Float
  sendRate : Float
  receiveRate : Float
  latency : Option Latency.Summary

namespace Report

def ofSnapshot (snapshot : Snapshot) : Report :=
  let c := snapshot.counters
  let secs := Duration.toSecs snapshot.elapsed
  { durationSecs := secs
    counters := c
    connectionSuccessRate := successRate c.connectionsSucceeded c.connectionsAttempted
    authSuccessRate := successRate c.authSucceeded (c.authSucceeded + c.authFailed)
    sendRate := perSecond c.messagesSent secs
    receiveRate := perSecond c.messagesReceived secs
    latency := Latency.summary? snapshot.latencies }

/-! ### Text -/

def ruler : String :=
  String.ofList (List.replicate 60 '=')

def title : String :=
  let text := "Load Test Report"
  let blanks := 60 - text.length
  String.ofList (List.replicate (blanks / 2) ' ') ++ text ++
    String.ofList (List.replicate (blanks - blanks / 2) ' ')

def hundredths (x : Float) : String :=
  Decimal.fixed 2 x

def latencyLines (s : Latency.Summary) : List String :=
  let hundredths (bits : UInt64) := hundredths (Float.ofBits bits)
  ["",
    s!"Latency (ms, {s.samples} samples):",
    s!"   min:    {hundredths s.min}",
    s!"   max:    {hundredths s.max}",
    s!"   mean:   {hundredths s.mean}",
    s!"   median: {hundredths s.median}",
    s!"   P95:    {hundredths s.p95}",
    s!"   P99:    {hundredths s.p99}"]

def lines (r : Report) : List String :=
  let c := r.counters
  [ruler,
    title,
    ruler,
    s!"Duration: {hundredths r.durationSecs} s",
    "",
    "Connections:",
    s!"   attempted: {c.connectionsAttempted}",
    s!"   succeeded: {c.connectionsSucceeded}",
    s!"   failed:    {c.connectionsFailed}",
    s!"   success rate: {hundredths (r.connectionSuccessRate * 100.0)}%",
    "",
    "Authentication:",
    s!"   succeeded: {c.authSucceeded}",
    s!"   failed:    {c.authFailed}",
    s!"   success rate: {hundredths (r.authSuccessRate * 100.0)}%",
    "",
    "Messages:",
    s!"   sent:     {c.messagesSent}",
    s!"   received: {c.messagesReceived}",
    s!"   send QPS:    {hundredths r.sendRate}",
    s!"   receive QPS: {hundredths r.receiveRate}",
    "",
    "Heartbeats:",
    s!"   sent:     {c.heartbeatsSent}",
    s!"   received: {c.heartbeatsReceived}"] ++
  (match r.latency with
    | some s => latencyLines s
    | none => []) ++
  ["",
    s!"Errors: {c.errors}",
    ruler]

def text (r : Report) : String :=
  "\n".intercalate r.lines

/-! ### JSON -/

/-- An object, its members on lines of their own behind two blanks for every level of nesting. -/
def jsonObject (depth : Nat) (members : List (String × String)) : String :=
  let indent (depth : Nat) := String.ofList (List.replicate (2 * depth) ' ')
  let line (member : String × String) :=
    indent (depth + 1) ++ "\"" ++ member.1 ++ "\": " ++ member.2
  "\x7b\n" ++ ",\n".intercalate (members.map line) ++ "\n" ++ indent depth ++ "\x7d"

def latencyJson : Option Latency.Summary → String
  | none => "null"
  | some s =>
      let number (bits : UInt64) := Decimal.json (Float.ofBits bits)
      jsonObject 1 [
        ("samples", toString s.samples),
        ("min", number s.min),
        ("max", number s.max),
        ("mean", number s.mean),
        ("median", number s.median),
        ("p95", number s.p95),
        ("p99", number s.p99)]

def json (r : Report) : String :=
  jsonObject 0 (
    [("duration_secs", Decimal.json r.durationSecs)] ++
    Counter.all.map (fun c => (c.name, toString (r.counters.get c))) ++
    [("connection_success_rate", Decimal.json r.connectionSuccessRate),
      ("auth_success_rate", Decimal.json r.authSuccessRate),
      ("send_qps", Decimal.json r.sendRate),
      ("receive_qps", Decimal.json r.receiveRate),
      ("latency_ms", latencyJson r.latency)])

end Report

end ChatLoad
