import ChatLoad.Wire.Bytes

/-! What can be wrong with bytes that should hold frames or fields, and how it is worded. -/

namespace ChatLoad

inductive WireError
  | invalidMagic (found : UInt16)
  | truncated (needed available : Nat)
  | bodyTooLarge (length : UInt32)
  | varintOverflow
  | wireType (field : UInt32) (code : UInt8)
  | utf8 (field : UInt32)
  | connectionClosed
  | io (text : String)
  deriving Repr, DecidableEq

namespace WireError

def hex4 (n : UInt16) : String :=
  let digits := (Nat.toDigits 16 n.toNat).map Char.toUpper
  String.ofList (List.replicate (4 - digits.length) '0' ++ digits)

def message : WireError → String
  | invalidMagic found => s!"invalid magic 0x{hex4 found}"
  | truncated needed available => s!"truncated input: need {needed} bytes, have {available}"
  | bodyTooLarge length => s!"frame body of {length.toNat} bytes exceeds the limit"
  | varintOverflow => "varint does not fit in 64 bits"
  | wireType field code => s!"unsupported wire type {code.toNat} on field {field.toNat}"
  | utf8 field => s!"field {field.toNat} is not valid UTF-8"
  | connectionClosed => "connection closed"
  | io text => s!"io error: {text}"

end WireError

end ChatLoad
