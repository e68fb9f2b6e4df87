import ChatLoad.Net.Peer

/-! Why an operation of a client failed, and how the log words it. -/

namespace ChatLoad

inductive ClientError
  | connect (address : String) (cause : IoError)
  | auth (reason : String)
  | send (cause : IoError)
  | timeout (waitingFor : String) (after : Duration)
  | frame (fault : WireError)
  | notConnected
  deriving Repr, DecidableEq

namespace ClientError

def message : ClientError → String
  | connect address cause => s!"connect to {address} failed: {cause.message}"
  | auth reason => s!"authentication failed: {reason}"
  | send cause => s!"send failed: {cause.message}"
  | timeout waitingFor after => s!"{waitingFor} timed out after {Duration.text after}"
  | frame fault => fault.message
  | notConnected => "client is not connected"

end ClientError

inductive Level
  | info
  | warn
  | error
  deriving Repr, DecidableEq

structure LogLine where
  level : Level
  text : String
  deriving Repr, DecidableEq

namespace Level

def name : Level → String
  | info => "INFO"
  | warn => "WARN"
  | error => "ERROR"

end Level

end ChatLoad
