import ChatLoad.Wire.Field
import ChatLoad.Wire.Command

/-! The body of SINGLE_CHAT, GROUP_CHAT, ACK and ERROR frames, fields 1 to 8 in the order of
declaration. -/

namespace ChatLoad

structure Chat where
  command : Command := .unknown
  sessionId : Int64 := 0
  senderId : Int64 := 0
  targetId : Int64 := 0
  content : String := ""
  contentType : String := ""
  timestamp : Int64 := 0
  extra : String := ""
  deriving Repr, DecidableEq

namespace Chat

def plainText : String := "text"

/-- A direct message, written at `clock`. -/
def single (clock senderId targetId : Int64) (content : String) : Chat where
  command := .singleChat
  senderId
  targetId
  content
  contentType := plainText
  timestamp := clock

/-- A message to a group session, written at `clock`. -/
def group (clock senderId sessionId : Int64) (content : String) : Chat where
  command := .groupChat
  sessionId
  senderId
  content
  contentType := plainText
  timestamp := clock

/-- A message without a timestamp gets that of the clock. -/
def stamped (clock : Int64) (chat : Chat) : Chat :=
  if chat.timestamp = 0 then { chat with timestamp := clock } else chat

def fields (chat : Chat) : Bytes :=
  Field.putUnsigned 1 chat.command.code.toUInt64 ++
    Field.putSigned 2 chat.sessionId ++
    Field.putSigned 3 chat.senderId ++
    Field.putSigned 4 chat.targetId ++
    Field.putText 5 chat.content ++
    Field.putText 6 chat.contentType ++
    Field.putSigned 7 chat.timestamp ++
    Field.putText 8 chat.extra

def encode (clock : Int64) (chat : Chat) : Bytes :=
  (chat.stamped clock).fields

def fieldsLength (chat : Chat) : Nat :=
  Field.unsignedLength 1 chat.command.code.toUInt64 +
    Field.unsignedLength 2 chat.sessionId.toUInt64 +
    Field.unsignedLength 3 chat.senderId.toUInt64 +
    Field.unsignedLength 4 chat.targetId.toUInt64 +
    Field.textLength 5 chat.content +
    Field.textLength 6 chat.contentType +
    Field.unsignedLength 7 chat.timestamp.toUInt64 +
    Field.textLength 8 chat.extra

/-- Takes over one field. Of a command only the lowest byte counts; fields with other numbers are
skipped. -/
def set (chat : Chat) (field : Field) : Except WireError Chat :=
  match field.number.toNat with
  | 1 => do return { chat with command := .ofCode (← field.number?).toUInt8 }
  | 2 => do return { chat with sessionId := (← field.number?).toInt64 }
  | 3 => do return { chat with senderId := (← field.number?).toInt64 }
  | 4 => do return { chat with targetId := (← field.number?).toInt64 }
  | 5 => do return { chat with content := ← field.text? }
  | 6 => do return { chat with contentType := ← field.text? }
  | 7 => do return { chat with timestamp := (← field.number?).toInt64 }
  | 8 => do return { chat with extra := ← field.text? }
  | _ => .ok chat

def decode (body : Bytes) : Except WireError Chat :=
  Field.fold set {} body

end Chat

end ChatLoad
