import ChatLoad.Proofs.Wire.Decoding

/-! Fields and the payloads made of them are read back as they were written, and take the bytes foretold. A
zero or an empty text is not written, and its field keeps the value it has when nothing is read. -/

namespace ChatLoad

namespace Bytes

lemma length_ofText (text : String) : (ofText text).length = text.utf8ByteSize := by
  rw [← String.size_toByteArray]
  rfl

lemma utf8ByteSize_le (text : String) : text.utf8ByteSize ≤ 4 * text.length := by
  have hlist : ∀ chars : List Char, String.utf8Len chars ≤ 4 * chars.length := by
    intro chars
    induction chars with
    | nil => exact Nat.le_refl _
    | cons c chars ih =>
      have hc := c.utf8Size_le_four
      simp only [String.utf8Len_cons, List.length_cons]
      omega
  have hsize := String.utf8ByteSize_ofList text.toList
  rw [String.ofList_toList] at hsize
  rw [hsize, ← String.length_toList]
  exact hlist _

lemma ofText_ne_nil {text : String} (h : text ≠ "") : ofText text ≠ [] := by
  rw [← List.length_pos_iff_ne_nil, length_ofText, Nat.pos_iff_ne_zero, ne_eq,
    String.utf8ByteSize_eq_zero_iff]
  exact h

end Bytes

/-- What is never written. -/
def FieldValue.IsBlank : FieldValue → Prop
  | varint value => value = 0
  | fixed64 value => value = 0
  | bytes raw => raw = []
  | fixed32 value => value = 0

namespace Field

/-! ### Tags -/

lemma toNat_shift (number : UInt32) : (number <<< 3).toNat = 8 * (number.toNat % 2 ^ 29) := by
  rw [UInt32.toNat_shiftLeft]
  change number.toNat <<< 3 % 2 ^ 32 = _
  rw [Nat.shiftLeft_eq]
  omega

lemma toNat_tag (number : UInt32) (type : WireType) :
    (tag number type).toNat = 8 * (number.toNat % 2 ^ 29) + type.code.toNat := by
  have hcode := type.code_toNat_lt
  have hshift : (number <<< 3).toNat = (number.toNat % 2 ^ 29) <<< 3 := by
    rw [toNat_shift, Nat.shiftLeft_eq, Nat.mul_comm]
  rw [tag, UInt32.toNat_toUInt64, UInt32.toNat_or, UInt8.toNat_toUInt32, hshift,
    ← Nat.shiftLeft_add_eq_or_of_lt hcode, Nat.shiftLeft_eq, Nat.mul_comm]

/-! ### Single fields -/

def ofUnsigned (number : UInt32) (value : UInt64) : List Field :=
  if value = 0 then [] else [⟨number, .varint value⟩]

def ofSigned (number : UInt32) (value : Int64) : List Field :=
  ofUnsigned number value.toUInt64

def ofText (number : UInt32) (text : String) : List Field :=
  if text = "" then [] else [⟨number, .bytes (Bytes.ofText text)⟩]

lemma toUInt64_eq_zero {value : Int64} : value.toUInt64 = 0 ↔ value = 0 :=
  ⟨fun h => congrArg UInt64.toInt64 h, fun h => congrArg Int64.toUInt64 h⟩

variable {number : UInt32}

lemma spelled_tagged (hnumber : number.toNat < 2 ^ 29) {value : FieldValue} {raw : Bytes}
    (hvalue : value.Spelled raw) :
    Spelled (Varint.encode (tag number value.wireType) ++ raw) ⟨number, value⟩ := by
  have htag := toNat_tag number value.wireType
  have hcode := value.wireType.code_toNat_lt
  rw [Nat.mod_eq_of_lt hnumber] at htag
  have hread : UInt32.ofNat ((tag number value.wireType).toNat / 8) = number := by
    have hdiv : (tag number value.wireType).toNat / 8 = number.toNat := by omega
    rw [hdiv, UInt32.ofNat_toNat]
  have hspelled := Spelled.mk (Varint.spells_encode (tag number value.wireType)) (by omega) hvalue
  rwa [hread] at hspelled

lemma written_putUnsigned (hnumber : number.toNat < 2 ^ 29) (value : UInt64) :
    Written (putUnsigned number value) (ofUnsigned number value) := by
  by_cases hzero : value = 0
  · rw [putUnsigned, ofUnsigned, if_pos hzero, if_pos hzero]
    exact .nil
  · have hspelled := spelled_tagged hnumber (.varint (Varint.spells_encode value))
    rw [putUnsigned, ofUnsigned, if_neg hzero, if_neg hzero]
    exact .single hspelled

lemma written_putText (hnumber : number.toNat < 2 ^ 29) {text : String}
    (hshort : text.utf8ByteSize < 2 ^ 64) :
    Written (putText number text) (ofText number text) := by
  by_cases hempty : text = ""
  · simp [putText, ofText, hempty, Written.nil]
  · have hcount : (UInt64.ofNat (Bytes.ofText text).length).toNat = (Bytes.ofText text).length := by
      rw [UInt64.toNat_ofNat', Bytes.length_ofText]
      exact Nat.mod_eq_of_lt hshort
    have hspelled := spelled_tagged hnumber (.bytes (Varint.spells_encode _) hcount)
    rw [← List.append_assoc] at hspelled
    simpa [putText, ofText, hempty, FieldValue.wireType] using Written.single hspelled

lemma length_tag (number : UInt32) (type : WireType) :
    (Varint.encode (tag number type)).length = Varint.length (number <<< 3).toUInt64 := by
  have htag := toNat_tag number type
  have hcode := type.code_toNat_lt
  have hshift := toNat_shift number
  rw [Varint.length_encode]
  apply Varint.length_congr
  rw [UInt32.toNat_toUInt64]
  omega

theorem length_putUnsigned (number : UInt32) (value : UInt64) :
    (putUnsigned number value).length = unsignedLength number value := by
  rw [putUnsigned, unsignedLength]
  split
  · rfl
  · rw [List.length_append, length_tag, Varint.length_encode]

theorem length_putText (number : UInt32) (text : String) :
    (putText number text).length = textLength number text := by
  rw [putText, textLength]
  split
  · rfl
  · simp only [List.length_append, length_tag, Bytes.length_ofText]
    rw [Varint.length_encode]

lemma length_ofText_le (number : UInt32) (text : String) :
    text.utf8ByteSize ≤ (putText number text).length := by
  rw [length_putText, textLength]
  split
  · next h => simp [String.isEmpty_iff.mp h]
  · omega

lemma length_putText_le (number : UInt32) (text : String) :
    (putText number text).length ≤ 20 + 4 * text.length := by
  have htag := Varint.length_encode_le (tag number .bytes)
  have hcount := Varint.length_encode_le (UInt64.ofNat (Bytes.ofText text).length)
  have htext := Bytes.utf8ByteSize_le text
  rw [← Bytes.length_ofText] at htext
  rw [putText]
  split
  · exact Nat.zero_le _
  · simp only [List.length_append]
    omega

lemma eq_of_mem_ofUnsigned {value : UInt64} {field : Field} (h : field ∈ ofUnsigned number value) :
    field = ⟨number, .varint value⟩ := by
  rw [ofUnsigned] at h
  split at h
  · cases h
  · exact List.mem_singleton.mp h

lemma eq_of_mem_ofText {text : String} {field : Field} (h : field ∈ ofText number text) :
    field = ⟨number, .bytes (Bytes.ofText text)⟩ := by
  rw [ofText] at h
  split at h
  · cases h
  · exact List.mem_singleton.mp h

lemma ofUnsigned_telling {value : UInt64} {field : Field} (h : field ∈ ofUnsigned number value) :
    ¬ field.value.IsBlank := by
  rw [ofUnsigned] at h
  split at h
  · cases h
  · next hzero =>
    rw [List.mem_singleton.mp h]
    exact hzero

lemma ofText_telling {text : String} {field : Field} (h : field ∈ ofText number text) :
    ¬ field.value.IsBlank := by
  rw [ofText] at h
  split at h
  · cases h
  · next hempty =>
    rw [List.mem_singleton.mp h]
    exact Bytes.ofText_ne_nil hempty

/-- The bytes are fields, and none of them is a zero or an empty text. -/
structure Sparse (bytes : Bytes) : Prop where
  written : ∃ fields, Written bytes fields
  telling : ∀ fields, Written bytes fields → ∀ field ∈ fields, ¬ field.value.IsBlank

lemma sparse_of_written {bytes : Bytes} {fields : List Field} (hwritten : Written bytes fields)
    (htelling : ∀ field ∈ fields, ¬ field.value.IsBlank) : Sparse bytes :=
  ⟨⟨fields, hwritten⟩, fun _ hother => hwritten.unique hother ▸ htelling⟩

section

variable {β : Type} (other : UInt32) (read : FieldValue → β) (start : β)

lemma member_ofUnsigned (value : UInt64) :
    member other read start (ofUnsigned number value) =
      if number = other ∧ value ≠ 0 then read (.varint value) else start := by
  by_cases hzero : value = 0 <;> simp [ofUnsigned, hzero, member_single]

lemma member_ofSigned (value : Int64) :
    member other read start (ofSigned number value) =
      if number = other ∧ value ≠ 0 then read (.varint value.toUInt64) else start := by
  simp only [ofSigned, member_ofUnsigned, ne_eq, toUInt64_eq_zero]

lemma member_ofText (text : String) :
    member other read start (ofText number text) =
      if number = other ∧ text ≠ "" then read (.bytes (Bytes.ofText text)) else start := by
  by_cases hempty : text = "" <;> simp [ofText, hempty, member_single]

end

end Field

/-! ### Payloads -/

namespace Auth

/-- The lengths of the texts are numbers of 64 bits, as all lengths in memory are. -/
structure Fits (auth : Auth) : Prop where
  token : auth.token.utf8ByteSize < 2 ^ 64
  deviceId : auth.deviceId.utf8ByteSize < 2 ^ 64

def entries (auth : Auth) : List Field :=
  Field.ofText 1 auth.token ++ Field.ofText 2 auth.deviceId

variable {auth : Auth}

lemma fits_of_length (h : auth.encode.length < 2 ^ 64) : auth.Fits := by
  have htoken := Field.length_ofText_le 1 auth.token
  have hdevice := Field.length_ofText_le 2 auth.deviceId
  rw [encode, List.length_append] at h
  exact ⟨by omega, by omega⟩

lemma written_encode (fits : auth.Fits) : Field.Written auth.encode auth.entries :=
  (Field.written_putText (by decide) fits.token).append
    (Field.written_putText (by decide) fits.deviceId)

lemma accepts_entries (auth : Auth) : ∀ field ∈ auth.entries, Accepts field := by
  intro field hfield _
  rcases List.mem_append.mp hfield with h | h <;> exact ⟨_, congrArg _ (Field.eq_of_mem_ofText h)⟩

lemma update_entries (auth : Auth) : ({} : Auth).update auth.entries = auth := by
  obtain ⟨token, deviceId⟩ := auth
  by_cases htoken : token = "" <;> by_cases hdevice : deviceId = "" <;>
    simp [update, entries, Field.member_append, Field.member_ofText, htoken, hdevice]

theorem decode_encode (fits : auth.Fits) : decode auth.encode = .ok auth :=
  decode_eq_ok_iff.mpr
    ⟨_, written_encode fits, accepts_entries auth, (update_entries auth).symm⟩

lemma sparse_encode (fits : auth.Fits) : Field.Sparse auth.encode := by
  apply Field.sparse_of_written (written_encode fits)
  intro field hfield
  rcases List.mem_append.mp hfield with h | h <;> exact Field.ofText_telling h

lemma length_encode_ofClient_le (id : UInt64) : (ofClient id).encode.length ≤ 300 := by
  have hdigits : (Nat.repr id.toNat).length ≤ 20 :=
    Nat.repr_length _ _ (by norm_num) (Nat.lt_trans id.toNat_lt (by norm_num))
  have htoken := Field.length_putText_le 1 (ofClient id).token
  have hdevice := Field.length_putText_le 2 (ofClient id).deviceId
  have htoken' : (ofClient id).token.length = 5 + (Nat.repr id.toNat).length := by
    rw [ofClient, String.length_append]
    rfl
  have hdevice' : (ofClient id).deviceId.length = 7 + (Nat.repr id.toNat).length := by
    rw [ofClient, String.length_append]
    rfl
  rw [encode, List.length_append]
  omega

end Auth

namespace Chat

structure Fits (chat : Chat) : Prop where
  content : chat.content.utf8ByteSize < 2 ^ 64
  contentType : chat.contentType.utf8ByteSize < 2 ^ 64
  extra : chat.extra.utf8ByteSize < 2 ^ 64

def entries (chat : Chat) : List Field :=
  Field.ofUnsigned 1 chat.command.code.toUInt64 ++ Field.ofSigned 2 chat.sessionId ++
    Field.ofSigned 3 chat.senderId ++ Field.ofSigned 4 chat.targetId ++
    Field.ofText 5 chat.content ++ Field.ofText 6 chat.contentType ++
    Field.ofSigned 7 chat.timestamp ++ Field.ofText 8 chat.extra

/-- Takes each member from the later payload, unless it is zero or empty there. -/
def overlay (chat later : Chat) : Chat where
  command := if later.command = .unknown then chat.command else later.command
  sessionId := if later.sessionId = 0 then chat.sessionId else later.sessionId
  senderId := if later.senderId = 0 then chat.senderId else later.senderId
  targetId := if later.targetId = 0 then chat.targetId else later.targetId
  content := if later.content = "" then chat.content else later.content
  contentType := if later.contentType = "" then chat.contentType else later.contentType
  timestamp := if later.timestamp = 0 then chat.timestamp else later.timestamp
  extra := if later.extra = "" then chat.extra else later.extra

variable {chat : Chat}

lemma fits_of_length (h : chat.fields.length < 2 ^ 64) : chat.Fits := by
  have hcontent := Field.length_ofText_le 5 chat.content
  have htype := Field.length_ofText_le 6 chat.contentType
  have hextra := Field.length_ofText_le 8 chat.extra
  simp only [fields, List.length_append] at h
  exact ⟨by omega, by omega, by omega⟩

lemma fits_stamped (fits : chat.Fits) (clock : Int64) : (chat.stamped clock).Fits := by
  rw [stamped]
  split
  · exact ⟨fits.content, fits.contentType, fits.extra⟩
  · exact fits

lemma written_fields (fits : chat.Fits) : Field.Written chat.fields chat.entries :=
  (((((((Field.written_putUnsigned (by decide) _).append
    (Field.written_putUnsigned (by decide) _)).append
    (Field.written_putUnsigned (by decide) _)).append
    (Field.written_putUnsigned (by decide) _)).append
    (Field.written_putText (by decide) fits.content)).append
    (Field.written_putText (by decide) fits.contentType)).append
    (Field.written_putUnsigned (by decide) _)).append
    (Field.written_putText (by decide) fits.extra)

lemma exists_entry {field : Field} (h : field ∈ chat.entries) :
    (∃ number ∈ numbers, ∃ value, field ∈ Field.ofUnsigned number value) ∨
      ∃ number ∈ texts, ∃ text, field ∈ Field.ofText number text := by
  simp only [entries, Field.ofSigned, List.mem_append] at h
  rcases h with ((((((h | h) | h) | h) | h) | h) | h) | h
  · exact .inl ⟨1, by decide, _, h⟩
  · exact .inl ⟨2, by decide, _, h⟩
  · exact .inl ⟨3, by decide, _, h⟩
  · exact .inl ⟨4, by decide, _, h⟩
  · exact .inr ⟨5, by decide, _, h⟩
  · exact .inr ⟨6, by decide, _, h⟩
  · exact .inl ⟨7, by decide, _, h⟩
  · exact .inr ⟨8, by decide, _, h⟩

lemma accepts_entries (chat : Chat) : ∀ field ∈ chat.entries, Accepts field := by
  intro field hfield
  rcases exists_entry hfield with ⟨number, hnumber, value, h⟩ | ⟨number, htext, text, h⟩
  · obtain rfl := Field.eq_of_mem_ofUnsigned h
    refine ⟨fun _ raw hraw => ?_, fun htext => (notMem_texts hnumber htext).elim⟩
    cases hraw
  · obtain rfl := Field.eq_of_mem_ofText h
    exact ⟨fun hnumber => (notMem_texts hnumber htext).elim, fun _ => ⟨text, rfl⟩⟩

lemma update_entries (chat later : Chat) : chat.update later.entries = chat.overlay later := by
  have hunknown : later.command.code.toUInt64 = 0 ↔ later.command = .unknown := by
    cases later.command <;> decide
  simp [update, overlay, entries, Field.member_append, Field.member_ofText,
    Field.member_ofUnsigned, Field.member_ofSigned, Command.ofCode_code, hunknown]

lemma overlay_default (chat : Chat) : ({} : Chat).overlay chat = chat := by
  obtain ⟨command, sessionId, senderId, targetId, content, contentType, timestamp, extra⟩ := chat
  have hkeep : ∀ {β : Type} (start value : β) [Decidable (value = start)],
      (if value = start then start else value) = value := by
    intro β start value _
    split
    · next h => exact h.symm
    · rfl
  simp only [overlay, hkeep]

theorem decode_fields (fits : chat.Fits) : decode chat.fields = .ok chat := by
  apply decode_eq_ok_iff.mpr
  refine ⟨_, written_fields fits, accepts_entries chat, ?_⟩
  rw [update_entries, overlay_default]

lemma sparse_fields (fits : chat.Fits) : Field.Sparse chat.fields := by
  apply Field.sparse_of_written (written_fields fits)
  intro field hfield
  rcases exists_entry hfield with ⟨_, _, _, h⟩ | ⟨_, _, _, h⟩
  · exact Field.ofUnsigned_telling h
  · exact Field.ofText_telling h

lemma length_fields (chat : Chat) : chat.fields.length = chat.fieldsLength := by
  simp only [fields, fieldsLength, Field.putSigned, List.length_append, Field.length_putUnsigned,
    Field.length_putText]

end Chat

/-- Payloads are decoded to what was encoded, a timestamp of zero having become the clock's. No zero and no
empty text is written, and the bytes written are as many as foretold. -/
theorem payloads_round_trip :
    (∀ (clock : Int64) (chat : Chat), chat.Fits →
      (chat.timestamp ≠ 0 → Chat.decode (chat.encode clock) = .ok chat) ∧
      (chat.timestamp = 0 →
        Chat.decode (chat.encode clock) = .ok { chat with timestamp := clock }) ∧
      Field.Sparse (chat.encode clock) ∧
      (chat.encode clock).length = (chat.stamped clock).fieldsLength) ∧
    ∀ auth : Auth, auth.Fits →
      Auth.decode auth.encode = .ok auth ∧ Field.Sparse auth.encode ∧
      auth.encode.length = Field.textLength 1 auth.token + Field.textLength 2 auth.deviceId := by
  constructor
  · intro clock chat fits
    have fits' := Chat.fits_stamped fits clock
    have hdecode : Chat.decode (chat.encode clock) = .ok (chat.stamped clock) :=
      Chat.decode_fields fits'
    refine ⟨fun hset => ?_, fun hunset => ?_, Chat.sparse_fields fits', Chat.length_fields _⟩
    · rw [hdecode, Chat.stamped, if_neg hset]
    · rw [hdecode, Chat.stamped, if_pos hunset]
  · intro auth fits
    refine ⟨Auth.decode_encode fits, Auth.sparse_encode fits, ?_⟩
    rw [Auth.encode, List.length_append, Field.length_putText, Field.length_putText]

/-- All numbers of the payload have the highest bit set, and nothing else is set but the command. -/
def negative : Chat where
  command := .ack
  sessionId := Int64.minValue
  senderId := -1
  targetId := -7

theorem negative_round_trip :
    negative.Fits ∧ negative.timestamp = 0 ∧
    Chat.decode (negative.encode (-2)) = .ok { negative with timestamp := -2 } ∧
    { negative with timestamp := -2 }.Fits ∧ { negative with timestamp := -2 }.timestamp ≠ 0 ∧
    Chat.decode ({ negative with timestamp := -2 }.encode 5) = .ok { negative with timestamp := -2 } ∧
    (Auth.ofClient 42).Fits ∧ Auth.decode (Auth.ofClient 42).encode = .ok (Auth.ofClient 42) := by
  have fits : negative.Fits := ⟨by decide, by decide, by decide⟩
  have fits' : { negative with timestamp := -2 }.Fits := ⟨by decide, by decide, by decide⟩
  have fitsAuth : (Auth.ofClient 42).Fits := ⟨by decide, by decide⟩
  have unset : negative.timestamp = 0 := rfl
  have set : { negative with timestamp := -2 }.timestamp ≠ 0 := by decide
  exact ⟨fits, unset, (payloads_round_trip.1 (-2) negative fits).2.1 unset, fits', set,
    (payloads_round_trip.1 5 _ fits').1 set, fitsAuth, (payloads_round_trip.2 _ fitsAuth).1⟩

end ChatLoad
