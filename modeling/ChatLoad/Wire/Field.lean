import ChatLoad.Wire.Varint

/-! Numbered fields. A field is a varint tag, its number times eight plus its wire type, and a value
of that type. Writers leave out zeros and empty texts, so a missing field means just that. -/

namespace ChatLoad

inductive WireType
  | varint
  | fixed64
  | bytes
  | fixed32
  deriving Repr, DecidableEq

namespace WireType

def code : WireType → UInt8
  | varint => 0
  | fixed64 => 1
  | bytes => 2
  | fixed32 => 5

def ofCode? (code : UInt8) : Option WireType :=
  if code = 0 then some varint
  else if code = 1 then some fixed64
  else if code = 2 then some bytes
  else if code = 5 then some fixed32
  else none

end WireType

inductive FieldValue
  | varint (value : UInt64)
  | fixed64 (value : UInt64)
  | bytes (raw : Bytes)
  | fixed32 (value : UInt32)
  deriving Repr, DecidableEq

structure Field where
  number : UInt32
  value : FieldValue
  deriving Repr, DecidableEq

namespace FieldValue

def wireType : FieldValue → WireType
  | varint _ => .varint
  | fixed64 _ => .fixed64
  | bytes _ => .bytes
  | fixed32 _ => .fixed32

end FieldValue

namespace Field

def number? (field : Field) : Except WireError UInt64 :=
  match field.value with
  | .varint value => .ok value
  | .fixed64 value => .ok value
  | .fixed32 value => .ok value.toUInt64
  | .bytes _ => .error (.wireType field.number WireType.bytes.code)

def text? (field : Field) : Except WireError String :=
  match field.value with
  | .bytes raw =>
      match Bytes.text? raw with
      | some text => .ok text
      | none => .error (.utf8 field.number)
  | value => .error (.wireType field.number value.wireType.code)

/-! ### Writing -/

/-- Tags are made in 32 bits, so the three highest bits of the number are lost. -/
def tag (number : UInt32) (type : WireType) : UInt64 :=
  ((number <<< 3) ||| type.code.toUInt32).toUInt64

def putUnsigned (number : UInt32) (value : UInt64) : Bytes :=
  if value = 0 then []
  else Varint.encode (tag number .varint) ++ Varint.encode value

/-- A signed value is written as its two's complement. -/
def putSigned (number : UInt32) (value : Int64) : Bytes :=
  putUnsigned number value.toUInt64

def putText (number : UInt32) (text : String) : Bytes :=
  if text.isEmpty then []
  else
    let raw := Bytes.ofText text
    Varint.encode (tag number .bytes) ++ Varint.encode (UInt64.ofNat raw.length) ++ raw

def unsignedLength (number : UInt32) (value : UInt64) : Nat :=
  if value = 0 then 0 else Varint.length (number <<< 3).toUInt64 + Varint.length value

def textLength (number : UInt32) (text : String) : Nat :=
  if text.isEmpty then 0
  else
    Varint.length (number <<< 3).toUInt64 + Varint.length (UInt64.ofNat text.utf8ByteSize) +
      text.utf8ByteSize

/-! ### Reading -/

def takeVarint (bytes : Bytes) : Except WireError (UInt64 × Bytes) :=
  match Varint.decode bytes with
  | .ok (value, used) => .ok (value, bytes.drop used)
  | .error e => .error e

def takeBytes (count : Nat) (bytes : Bytes) : Except WireError (Bytes × Bytes) :=
  if bytes.length < count then .error (.truncated count bytes.length)
  else .ok (bytes.take count, bytes.drop count)

/-- Reads a value and says what is left unread. A failure leaves all but the complete varints
before it. -/
def takeValue (type : WireType) (bytes : Bytes) : Except WireError FieldValue × Bytes :=
  match type with
  | .varint =>
      match takeVarint bytes with
      | .ok (value, rest) => (.ok (.varint value), rest)
      | .error e => (.error e, bytes)
  | .fixed64 =>
      match takeBytes 8 bytes with
      | .ok (raw, rest) => (.ok (.fixed64 (UInt64.ofNat (Bytes.ofLittleEndian raw))), rest)
      | .error e => (.error e, bytes)
  | .bytes =>
      match takeVarint bytes with
      | .error e => (.error e, bytes)
      | .ok (count, rest) =>
          match takeBytes count.toNat rest with
          | .ok (raw, rest') => (.ok (.bytes raw), rest')
          | .error e => (.error e, rest)
  | .fixed32 =>
      match takeBytes 4 bytes with
      | .ok (raw, rest) => (.ok (.fixed32 (UInt32.ofNat (Bytes.ofLittleEndian raw))), rest)
      | .error e => (.error e, bytes)

/-- Reads the next field, if any bytes are left, and says what is left unread. -/
def next (bytes : Bytes) : Except WireError (Option Field) × Bytes :=
  if bytes.isEmpty then (.ok none, bytes)
  else
    match takeVarint bytes with
    | .error e => (.error e, bytes)
    | .ok (tag, rest) =>
        let number := (tag >>> 3).toUInt32
        let code := (tag &&& 7).toUInt8
        match WireType.ofCode? code with
        | none => (.error (.wireType number code), rest)
        | some type =>
            match takeValue type rest with
            | (.ok value, rest') => (.ok (some ⟨number, value⟩), rest')
            | (.error e, rest') => (.error e, rest')

theorem takeVarint_length {bytes rest : Bytes} {value : UInt64}
    (h : takeVarint bytes = .ok (value, rest)) : rest.length < bytes.length := by
  unfold takeVarint at h
  split at h
  · next used decoded =>
      have := Varint.decode_used decoded
      simp only [Except.ok.injEq, Prod.mk.injEq] at h
      simp only [← h.2, List.length_drop]
      omega
  · cases h

theorem takeBytes_length {count : Nat} {bytes raw rest : Bytes}
    (h : takeBytes count bytes = .ok (raw, rest)) : rest.length ≤ bytes.length := by
  unfold takeBytes at h
  split at h
  · cases h
  · simp only [Except.ok.injEq, Prod.mk.injEq] at h
    simp [← h.2]

theorem takeValue_length (type : WireType) (bytes : Bytes) :
    (takeValue type bytes).2.length ≤ bytes.length := by
  unfold takeValue
  split
  · split
    · next taken => exact Nat.le_of_lt (takeVarint_length taken)
    · exact Nat.le_refl _
  · split
    · next taken => exact takeBytes_length taken
    · exact Nat.le_refl _
  · split
    · exact Nat.le_refl _
    · next taken =>
        have shorter := takeVarint_length taken
        split
        · next taken' => exact Nat.le_trans (takeBytes_length taken') (Nat.le_of_lt shorter)
        · exact Nat.le_of_lt shorter
  · split
    · next taken => exact takeBytes_length taken
    · exact Nat.le_refl _

theorem next_length {bytes rest : Bytes} {field : Field}
    (h : next bytes = (.ok (some field), rest)) : rest.length < bytes.length := by
  unfold next at h
  split at h
  · cases h
  · split at h
    · cases h
    · next taken =>
        have shorter := takeVarint_length taken
        simp only at h
        split at h
        · cases h
        · next unread _ type _ =>
            split at h
            · next took =>
                have bounded := takeValue_length type unread
                rw [took] at bounded
                simp only [Prod.mk.injEq] at h
                rw [← h.2]
                exact Nat.lt_of_le_of_lt bounded shorter
            · cases h

/-- Runs through the fields from the front, up to the end or the first failure, be it of reading
or of `step`. -/
def fold {α : Type} (step : α → Field → Except WireError α) (start : α) (bytes : Bytes) :
    Except WireError α :=
  match _read : next bytes with
  | (.error e, _) => .error e
  | (.ok none, _) => .ok start
  | (.ok (some field), rest) =>
      match step start field with
      | .error e => .error e
      | .ok start' => fold step start' rest
termination_by bytes.length
decreasing_by exact next_length _read

end Field

end ChatLoad
