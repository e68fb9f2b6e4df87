import ChatLoad.Proofs.Wire.Payload
import ChatLoad.Proofs.Wire.Walk

/-! Fields written one after the other. A walk finds just what was written, zeros and empty texts left out,
and every writing takes the bytes foretold. -/

namespace ChatLoad.Field

/-- A number or a text to be written as a field. Texts in memory have lengths of 64 bits. -/
inductive Write
  | unsigned (number : UInt32) (value : UInt64)
  | signed (number : UInt32) (value : Int64)
  | text (number : UInt32) (content : String) (fits : content.utf8ByteSize < 2 ^ 64)

namespace Write

def number : Write → UInt32
  | unsigned number _ => number
  | signed number _ => number
  | text number _ _ => number

def bytes : Write → Bytes
  | unsigned number value => putUnsigned number value
  | signed number value => putSigned number value
  | text number content _ => putText number content

/-- How many bytes are foretold. -/
def length : Write → Nat
  | unsigned number value => unsignedLength number value
  | signed number value => unsignedLength number value.toUInt64
  | text number content _ => textLength number content

/-- What there is to be read. A signed number is read modulo `2 ^ 64`. -/
def field? : Write → Option Field
  | unsigned number value => if value = 0 then none else some ⟨number, .varint value⟩
  | signed number value =>
      if value = 0 then none else some ⟨number, .varint (UInt64.ofInt value.toInt)⟩
  | text number content _ =>
      if content = "" then none else some ⟨number, .bytes (Bytes.ofText content)⟩

lemma ofInt_toInt (value : Int64) : UInt64.ofInt value.toInt = value.toUInt64 := by
  have hsigned : value.toInt = (value.toUInt64.toNat : Int).bmod (2 ^ 64) :=
    BitVec.toInt_eq_toNat_bmod value.toBitVec
  have hmod : (value.toInt % 2 ^ 64).toNat = value.toUInt64.toNat := by
    have hlt := value.toUInt64.toNat_lt
    have hbmod := Int.bmod_emod (x := (value.toUInt64.toNat : Int)) (m := 2 ^ 64)
    rw [hsigned]
    omega
  rw [UInt64.ofInt, hmod, UInt64.ofNat_toNat]

lemma written (write : Write) (hnumber : write.number.toNat < 2 ^ 29) :
    Written write.bytes write.field?.toList := by
  cases write with
  | unsigned number value =>
    have hwritten := written_putUnsigned hnumber value
    by_cases hzero : value = 0 <;> simpa [Write.number, bytes, field?, ofUnsigned, hzero] using hwritten
  | signed number value =>
    have hwritten := written_putUnsigned hnumber value.toUInt64
    by_cases hzero : value = 0 <;>
      simpa [Write.number, bytes, field?, putSigned, ofUnsigned, toUInt64_eq_zero, ofInt_toInt,
        hzero] using hwritten
  | text number content fits =>
    have hwritten := written_putText hnumber fits
    by_cases hempty : content = "" <;> simpa [Write.number, bytes, field?, ofText, hempty] using hwritten

lemma written_all {writes : List Write} (h : ∀ write ∈ writes, write.number.toNat < 2 ^ 29) :
    Written (writes.flatMap bytes) (writes.filterMap field?) := by
  induction writes with
  | nil => exact .nil
  | cons write writes ih =>
    have hfields : (write :: writes).filterMap field? = write.field?.toList ++ writes.filterMap field? := by
      cases hfield : write.field? <;> simp [hfield]
    rw [List.flatMap_cons, hfields]
    exact (write.written (h _ List.mem_cons_self)).append
      (ih fun write hwrite => h write (List.mem_cons_of_mem _ hwrite))

end Write

/-- Whatever is written in a row is found by a walk in the same order, but for zeros and empty texts, and
then there is nothing more. Whatever the number of its field, a writing takes the bytes foretold. -/
theorem writes_found :
    (∀ writes : List Write, (∀ write ∈ writes, write.number.toNat < 2 ^ 29) →
      (walk (writes.flatMap Write.bytes)).fields = writes.filterMap Write.field? ∧
      (walk (writes.flatMap Write.bytes)).outcome = .ok ()) ∧
    ∀ write : Write, write.bytes.length = write.length := by
  refine ⟨fun writes h => (Write.written_all h).walked 0, fun write => ?_⟩
  cases write with
  | unsigned number value => exact length_putUnsigned number value
  | signed number value => exact length_putUnsigned number value.toUInt64
  | text number content _ => exact length_putText number content

/-- The highest field number there is, a negative number, a text beyond ASCII, and what is not written. -/
def assorted : List Write :=
  [.unsigned 536870911 18446744073709551615, .unsigned 4 0, .signed 3 (-2), .text 8 "" (by decide),
    .text 5 "hé" (by decide)]

theorem assorted_found :
    (∀ write ∈ assorted, write.number.toNat < 2 ^ 29) ∧
    (walk (assorted.flatMap Write.bytes)).fields =
      [⟨536870911, .varint 18446744073709551615⟩, ⟨3, .varint 18446744073709551614⟩,
        ⟨5, .bytes [0x68, 0xC3, 0xA9]⟩] ∧
    (walk (assorted.flatMap Write.bytes)).outcome = .ok () := by
  have numbers : ∀ write ∈ assorted, write.number.toNat < 2 ^ 29 := by
    simp [assorted, Write.number]
  obtain ⟨hfields, houtcome⟩ := writes_found.1 assorted numbers
  exact ⟨numbers, hfields.trans (by cbv), houtcome⟩

end ChatLoad.Field
