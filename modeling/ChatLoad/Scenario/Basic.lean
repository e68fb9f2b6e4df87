import ChatLoad.World

/-! The workloads and their parameters, the batches in which clients connect, and the random choices
that workloads make. -/

namespace ChatLoad

structure RunParams where
  clients : Nat := 100
  messagesPerClient : Nat := 10
  groups : Nat := 5
  duration : Duration := .ofSecs 30
  targetRate : Nat := 1000
  deriving Repr, DecidableEq

inductive Workload
  | singleChat
  | groupChat
  | heartbeat
  | offlineMessage
  | stress
  deriving Repr, DecidableEq

namespace Workload

def name : Workload → String
  | singleChat => "SingleChat"
  | groupChat => "GroupChat"
  | heartbeat => "Heartbeat"
  | offlineMessage => "OfflineMessage"
  | stress => "Stress"

/-- What is run when everything is asked for. Stress runs only when it is asked for by name. -/
def all : List Workload :=
  [singleChat, groupChat, heartbeat, offlineMessage]

end Workload

/-- A workload, its parameters, and the sizes of the batches in which its clients were connected. -/
structure Scenario where
  workload : Workload
  params : RunParams := {}
  batchSizes : List Nat := []
  deriving Repr, DecidableEq

/-- Cuts the numbers below `total` into consecutive ranges of at most `size`, given by their first
number and the one after their last. -/
def batchRanges (total size : Nat) : List (Nat × Nat) :=
  let size := max size 1
  (List.range ((total + size - 1) / size)).map fun i => (i * size, min ((i + 1) * size) total)

/-- How many clients stay online; the rest is taken offline. -/
def offlineSplit (clients : Nat) : Nat :=
  clients / 2

/-! ### Random choices -/

/-- The number drawn for a message of a client. Whatever is drawn is brought into the range asked
for. -/
abbrev Draws := UInt64 → Nat → Nat

/-- One of the clients `1, …, count` other than `self`. -/
def randomPeer? (draw : Nat) (self : UInt64) (count : Nat) : Option Nat :=
  if count < 2 then none
  else
    let target := 1 + draw % (count - 1)
    some (if self.toNat ≤ target then target + 1 else target)

def randomSession (draw groups : Nat) : Nat :=
  1 + draw % groups

def randomOffline (draw clients : Nat) : Nat :=
  offlineSplit clients + 1 + draw % (clients - offlineSplit clients)

end ChatLoad
