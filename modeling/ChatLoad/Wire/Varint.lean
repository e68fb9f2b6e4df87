import ChatLoad.Wire.Error

/-! Base-128 varints: groups of seven bits, the lowest first, the high bit set on every byte but the
last. A value has at most 64 bits, so a varint has at most ten bytes and the tenth is at most one. -/

namespace ChatLoad.Varint

def groups (n : Nat) : Bytes :=
  if n < 128 then [UInt8.ofNat n] else UInt8.ofNat (n % 128 + 128) :: groups (n / 128)

def encode (value : UInt64) : Bytes :=
  groups value.toNat

/-- One byte for every seven bits begun; zero takes one byte. -/
def length (value : UInt64) : Nat :=
  (value.toNat ||| 1).log2 / 7 + 1

/-- Reads on after `used` bytes whose groups add up to `low`. -/
def decodeFrom (used low : Nat) : Bytes → Except WireError (UInt64 × Nat)
  | [] => .error (.truncated (used + 1) used)
  | b :: rest =>
      if 9 ≤ used ∧ 1 < b.toNat then .error .varintOverflow
      else
        let sum := low + b.toNat % 128 * Nat.pow 128 used
        if b.toNat < 128 then .ok (UInt64.ofNat sum, used + 1) else decodeFrom (used + 1) sum rest

/-- The varint at the front, and how many bytes it takes. -/
def decode (bytes : Bytes) : Except WireError (UInt64 × Nat) :=
  decodeFrom 0 0 bytes

theorem decodeFrom_used {used low : Nat} {bytes : Bytes} {value : UInt64} {total : Nat}
    (h : decodeFrom used low bytes = .ok (value, total)) :
    used < total ∧ total ≤ used + bytes.length := by
  induction bytes generalizing used low with
  | nil => simp [decodeFrom] at h
  | cons b rest ih =>
      simp only [decodeFrom] at h
      split at h
      · cases h
      · split at h
        · simp only [Except.ok.injEq, Prod.mk.injEq] at h
          simp only [List.length_cons]
          omega
        · have := ih h
          simp only [List.length_cons]
          omega

theorem decode_used {bytes : Bytes} {value : UInt64} {used : Nat}
    (h : decode bytes = .ok (value, used)) : 0 < used ∧ used ≤ bytes.length := by
  simpa using decodeFrom_used h

end ChatLoad.Varint
