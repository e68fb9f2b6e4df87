import ChatLoad.Stats.Counter
import ChatLoad.Duration

/-! The statistics that all clients of a run share: counters, latency samples in the order of their
arrival, and the moments of start and end. -/

namespace ChatLoad

structure Stats where
  counters : Counters := {}
  /-- in milliseconds, each as the bits of a double -/
  latencies : Array UInt64 := #[]
  startedAt : Duration := 0
  finishedAt : Option Duration := none

structure Snapshot where
  counters : Counters
  latencies : List UInt64
  elapsed : Duration

namespace Stats

def increase (stats : Stats) (counter : Counter) (delta : Nat) : Stats :=
  { stats with counters := stats.counters.add counter delta }

def increment (stats : Stats) (counter : Counter) : Stats :=
  stats.increase counter 1

def addLatency (stats : Stats) (ms : UInt64) : Stats :=
  { stats with latencies := stats.latencies.push ms }

def latencyCount (stats : Stats) : Nat :=
  stats.latencies.size

/-- Marks the end of the run; only the first mark counts. -/
def finish (stats : Stats) (now : Duration) : Stats :=
  { stats with finishedAt := some (stats.finishedAt.getD now) }

/-- The time from the start to the end, or to `now` as long as the run goes on. -/
def elapsed (stats : Stats) (now : Duration) : Duration :=
  stats.finishedAt.getD now - stats.startedAt

def snapshot (stats : Stats) (now : Duration) : Snapshot where
  counters := stats.counters
  latencies := stats.latencies.toList
  elapsed := stats.elapsed now

end Stats

inductive StatsUpdate
  | increase (counter : Counter) (delta : Nat)
  | latency (ms : UInt64)

namespace StatsUpdate

def apply (stats : Stats) : StatsUpdate → Stats
  | increase counter delta => stats.increase counter delta
  | latency ms => stats.addLatency ms

end StatsUpdate

end ChatLoad
