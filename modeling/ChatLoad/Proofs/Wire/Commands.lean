import ChatLoad.Proofs.Wire.Decoding
import ChatLoad.Proofs.Wire.Walk

/-! Commands in chat bodies. A command is a number of up to 64 bits there, of which the lowest eight tell which
command it is, so that a number beyond those is as good as a lower one. -/

namespace ChatLoad

/-- The number that a value carries, in any of its three forms. -/
inductive FieldValue.Carries : FieldValue → UInt64 → Prop
  | varint {number : UInt64} : Carries (.varint number) number
  | fixed64 {number : UInt64} : Carries (.fixed64 number) number
  | fixed32 {number : UInt32} : Carries (.fixed32 number) number.toUInt64

lemma Field.carries_of_isNumber {field : Field} (h : field.IsNumber) :
    field.value.Carries field.value.toNumber := by
  obtain ⟨number, value⟩ := field
  cases value with
  | varint => exact .varint
  | fixed64 => exact .fixed64
  | fixed32 => exact .fixed32
  | bytes raw => exact (h raw rfl).elim

lemma Field.exists_last {number : UInt32} {fields : List Field} {value : FieldValue}
    (h : last? number fields = some value) : (⟨number, value⟩ : Field) ∈ fields := by
  obtain ⟨field, hlast, rfl⟩ := Option.map_eq_some_iff.mp h
  obtain ⟨hmem, hnumber⟩ := List.mem_filter.mp (List.mem_of_getLast? hlast)
  rwa [← of_decide_eq_true hnumber]

lemma Command.toNat_code_ofCode (code : UInt8) :
    (ofCode code).code.toNat = if code.toNat ≤ 6 then code.toNat else 0 := by
  have hcases : ∀ n : Fin 256,
      (ofCode (UInt8.ofNat n)).code.toNat = if n.val ≤ 6 then n.val else 0 := by decide +kernel
  simpa using hcases ⟨code.toNat, code.toNat_lt⟩

/-- The command of a body is the one with the number that the last field 1 carries modulo 256, or else
unknown. It is the one with that very number, or unknown if there is none, just if the number has no
more than eight bits or its lowest eight are no command's. -/
theorem command_by_lowest_byte {body : Bytes} {chat : Chat} (h : Chat.decode body = .ok chat) :
    (Field.last? 1 (Field.walk body).fields = none → chat.command = .unknown) ∧
    ∀ value, Field.last? 1 (Field.walk body).fields = some value → ∃ number, value.Carries number ∧
      chat.command.code.toNat = (if number.toNat % 256 ≤ 6 then number.toNat % 256 else 0) ∧
      (chat.command.code.toNat = (if number.toNat ≤ 6 then number.toNat else 0) ↔
        number.toNat < 256 ∨ number.toNat % 256 ∉ Set.Icc 1 6) := by
  obtain ⟨fields, hwritten, haccepted, rfl⟩ := Chat.decode_eq_ok_iff.mp h
  rw [Field.walk, (hwritten.walked 0).1]
  constructor
  · intro hnone
    rw [Chat.update, Field.member, hnone]
    rfl
  · intro value hlast
    have hnumber := (haccepted _ (Field.exists_last hlast)).1 (show (1 : UInt32) ∈ Chat.numbers by decide)
    have hcode : (({} : Chat).update fields).command.code.toNat =
        if value.toNumber.toNat % 256 ≤ 6 then value.toNumber.toNat % 256 else 0 := by
      rw [Chat.update, Field.member, hlast]
      exact (Command.toNat_code_ofCode _).trans (by rw [UInt64.toNat_toUInt8])
    refine ⟨value.toNumber, Field.carries_of_isNumber hnumber, hcode, ?_⟩
    rw [hcode, Set.mem_Icc]
    split_ifs <;> omega

/-- The bytes of command 259, which there is none of. -/
def undefinedCommand : Bytes :=
  [0x08, 0x83, 0x02]

theorem overlong_command_by_lowest_byte :
    Chat.decode [0x08, 7, 0x08, 0x85, 0x80, 0] = .ok { command := .ack } ∧
    Field.last? 1 (Field.walk [0x08, 7, 0x08, 0x85, 0x80, 0]).fields = some (.varint 5) ∧
    ∃ number, (FieldValue.varint 5).Carries number ∧
      Command.ack.code.toNat = (if number.toNat % 256 ≤ 6 then number.toNat % 256 else 0) := by
  have decoded : Chat.decode [0x08, 7, 0x08, 0x85, 0x80, 0] = .ok { command := .ack } := by
    decide +kernel
  have last : Field.last? 1 (Field.walk [0x08, 7, 0x08, 0x85, 0x80, 0]).fields = some (.varint 5) := by
    decide +kernel
  obtain ⟨number, hcarries, hcode, -⟩ := (command_by_lowest_byte decoded).2 _ last
  exact ⟨decoded, last, number, hcarries, hcode⟩

/-- A number that no command has is taken for a message to a single receiver. -/
theorem undefined_command_taken :
    Field.last? 1 (Field.walk undefinedCommand).fields = some (.varint 259) ∧
    (FieldValue.varint 259).Carries 259 ∧ (259 : UInt64).toNat ∉ Set.Icc 1 6 ∧
    Chat.decode undefinedCommand = .ok { command := .singleChat } ∧
    Command.singleChat ≠ .unknown := by
  have last : Field.last? 1 (Field.walk undefinedCommand).fields = some (.varint 259) := by
    decide +kernel
  have decoded : Chat.decode undefinedCommand = .ok { command := .singleChat } := by
    decide +kernel
  exact ⟨last, .varint, by decide, decoded, by decide⟩

end ChatLoad
