/-! The commands of the protocol and their bytes. -/

namespace ChatLoad

inductive Command
  | unknown
  | heartbeat
  | auth
  | singleChat
  | groupChat
  | ack
  | error
  deriving Repr, DecidableEq, Inhabited

namespace Command

def code : Command → UInt8
  | unknown => 0
  | heartbeat => 1
  | auth => 2
  | singleChat => 3
  | groupChat => 4
  | ack => 5
  | error => 6

/-- A byte that belongs to no command stands for `unknown`. -/
def ofCode (code : UInt8) : Command :=
  if code = 1 then heartbeat
  else if code = 2 then auth
  else if code = 3 then singleChat
  else if code = 4 then groupChat
  else if code = 5 then ack
  else if code = 6 then error
  else unknown

def name : Command → String
  | unknown => "UNKNOWN"
  | heartbeat => "HEARTBEAT"
  | auth => "AUTH"
  | singleChat => "SINGLE_CHAT"
  | groupChat => "GROUP_CHAT"
  | ack => "ACK"
  | error => "ERROR"

/-- The commands of responses that may carry the id of a request in flight. -/
def isChatResponse : Command → Bool
  | singleChat | groupChat | ack => true
  | _ => false

theorem ofCode_code (command : Command) : ofCode command.code = command := by
  cases command <;> rfl

end Command

end ChatLoad
