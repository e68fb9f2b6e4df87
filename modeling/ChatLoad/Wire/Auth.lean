import ChatLoad.Wire.Field

/-! The body of an AUTH frame: the token is field 1 and the device id field 2. -/

namespace ChatLoad

structure Auth where
  token : String := ""
  deviceId : String := ""
  deriving Repr, DecidableEq

namespace Auth

def encode (auth : Auth) : Bytes :=
  Field.putText 1 auth.token ++ Field.putText 2 auth.deviceId

/-- Takes over one field; fields with other numbers are skipped. -/
def set (auth : Auth) (field : Field) : Except WireError Auth :=
  if field.number = 1 then do return { auth with token := ← field.text? }
  else if field.number = 2 then do return { auth with deviceId := ← field.text? }
  else .ok auth

def decode (body : Bytes) : Except WireError Auth :=
  Field.fold set {} body

def ofClient (id : UInt64) : Auth where
  token := s!"user:{id.toNat}"
  deviceId := s!"device_{id.toNat}"

end Auth

end ChatLoad
