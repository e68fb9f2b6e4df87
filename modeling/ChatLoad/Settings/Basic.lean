import ChatLoad.Duration

/-! What all clients and scenarios of a run have in common. Times are kept in the units of the
settings file. -/

namespace ChatLoad

structure Settings where
  host : String := "127.0.0.1"
  port : Nat := 9090
  connectTimeoutMs : Nat := 10000
  authTimeoutMs : Nat := 5000
  receiveTimeoutMs : Nat := 60000
  heartbeatIntervalMs : Nat := 30000
  batchSize : Nat := 500
  connectStaggerMs : Nat := 10
  sendIntervalMs : Nat := 50
  offlineSettleMs : Nat := 1000
  offlineDeliveryWaitMs : Nat := 5000
  progressIntervalSecs : Nat := 5
  deriving Repr, DecidableEq

namespace Settings

def address (s : Settings) : String :=
  s!"{s.host}:{s.port}"

def connectTimeout (s : Settings) : Duration :=
  .ofMillis s.connectTimeoutMs

def authTimeout (s : Settings) : Duration :=
  .ofMillis s.authTimeoutMs

def receiveTimeout (s : Settings) : Duration :=
  .ofMillis s.receiveTimeoutMs

def heartbeatInterval (s : Settings) : Duration :=
  .ofMillis s.heartbeatIntervalMs

def connectStagger (s : Settings) : Duration :=
  .ofMillis s.connectStaggerMs

def sendInterval (s : Settings) : Duration :=
  .ofMillis s.sendIntervalMs

def offlineSettle (s : Settings) : Duration :=
  .ofMillis s.offlineSettleMs

def offlineDeliveryWait (s : Settings) : Duration :=
  .ofMillis s.offlineDeliveryWaitMs

/-- At least a second. -/
def progressInterval (s : Settings) : Duration :=
  .ofSecs (max s.progressIntervalSecs 1)

end Settings

end ChatLoad
