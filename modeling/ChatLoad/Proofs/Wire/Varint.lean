import Mathlib
import ChatLoad.Wire.Varint

/-! The grammar of varints. Whatever spells a number of 64 bits is read, and all else fails; a number is
written as one of the byte strings that spell it, of the length foretold. -/

namespace ChatLoad.Varint

/-- The number that groups of seven bits make up, the lowest first. -/
def sum : Bytes → Nat
  | [] => 0
  | b :: rest => b.toNat % 128 + 128 * sum rest

/-- All the bytes of one varint, not necessarily the fewest for its value. -/
inductive Spells : Bytes → UInt64 → Prop
  | mk {more : Bytes} {last : UInt8} {value : UInt64} : (∀ b ∈ more, 128 ≤ b.toNat) →
      last.toNat < 128 → more.length < 10 → sum (more ++ [last]) = value.toNat →
      Spells (more ++ [last]) value

/-- What is wrong with bytes that do not begin with a varint. -/
inductive Fails : Bytes → WireError → Prop
  | truncated {bytes : Bytes} : (∀ b ∈ bytes, 128 ≤ b.toNat) → bytes.length < 10 →
      Fails bytes (.truncated (bytes.length + 1) bytes.length)
  | overflow {more rest : Bytes} {tenth : UInt8} : (∀ b ∈ more, 128 ≤ b.toNat) →
      more.length = 9 → 1 < tenth.toNat → Fails (more ++ tenth :: rest) .varintOverflow

lemma sum_append (more rest : Bytes) :
    sum (more ++ rest) = sum more + sum rest * 128 ^ more.length := by
  induction more with
  | nil => simp [sum]
  | cons b more ih =>
    rw [List.cons_append, sum, sum, ih, List.length_cons, pow_succ]
    ring

lemma sum_concat (more : Bytes) {last : UInt8} (hlast : last.toNat < 128) :
    sum (more ++ [last]) = sum more + last.toNat * 128 ^ more.length := by
  rw [sum_append, sum, sum, Nat.mul_zero, Nat.add_zero, Nat.mod_eq_of_lt hlast]

lemma sum_lt (bytes : Bytes) : sum bytes < 128 ^ bytes.length := by
  induction bytes with
  | nil => simp [sum]
  | cons b rest ih =>
    have hb : b.toNat % 128 < 128 := Nat.mod_lt _ (by norm_num)
    rw [sum, List.length_cons, pow_succ]
    omega

/-- Ten groups are too much just if the last of them is more than one bit. -/
lemma sum_lt_iff {more : Bytes} {last : UInt8} (hlast : last.toNat < 128)
    (hshort : more.length < 10) :
    sum (more ++ [last]) < 2 ^ 64 ↔ ¬ (9 ≤ more.length ∧ 1 < last.toNat) := by
  rcases Nat.lt_or_ge more.length 9 with height | hnine
  · have hlt : sum (more ++ [last]) < 2 ^ 64 :=
      calc sum (more ++ [last]) < 128 ^ (more ++ [last]).length := sum_lt _
        _ ≤ 128 ^ 9 := Nat.pow_le_pow_right (by norm_num) (by simpa using height)
        _ < 2 ^ 64 := by norm_num
    exact iff_of_true hlt (by omega)
  · have hnine' : more.length = 9 := by omega
    have hlow := sum_lt more
    rw [hnine'] at hlow
    rw [sum_concat more hlast, hnine']
    omega

lemma fits_of_sum {more : Bytes} {last : UInt8} {value : UInt64} (hlast : last.toNat < 128)
    (hshort : more.length < 10) (hsum : sum (more ++ [last]) = value.toNat) :
    ¬ (9 ≤ more.length ∧ 1 < last.toNat) := by
  apply (sum_lt_iff hlast hshort).mp
  rw [hsum]
  exact value.toNat_lt

lemma Spells.of_fits {more : Bytes} {last : UInt8} (hmore : ∀ b ∈ more, 128 ≤ b.toNat)
    (hlast : last.toNat < 128) (hshort : more.length < 10)
    (hfits : ¬ (9 ≤ more.length ∧ 1 < last.toNat)) :
    Spells (more ++ [last]) (UInt64.ofNat (sum (more ++ [last]))) := by
  apply Spells.mk hmore hlast hshort
  rw [UInt64.toNat_ofNat']
  exact (Nat.mod_eq_of_lt ((sum_lt_iff hlast hshort).mpr hfits)).symm

/-! ### Reading -/

lemma decodeFrom_more {more : Bytes} (hmore : ∀ b ∈ more, 128 ≤ b.toNat) (used low : Nat)
    (rest : Bytes) (hshort : used + more.length ≤ 9) :
    decodeFrom used low (more ++ rest) =
      decodeFrom (used + more.length) (low + sum more * 128 ^ used) rest := by
  induction more generalizing used low with
  | nil => simp [sum]
  | cons b more ih =>
    rw [List.length_cons] at hshort
    have hb := hmore b List.mem_cons_self
    have hmore' : ∀ b ∈ more, 128 ≤ b.toNat := fun b hb => hmore b (List.mem_cons_of_mem _ hb)
    have hearly : ¬ (9 ≤ used ∧ 1 < b.toNat) := by omega
    have hsum : low + b.toNat % 128 * Nat.pow 128 used + sum more * 128 ^ (used + 1) =
        low + sum (b :: more) * 128 ^ used := by
      rw [Nat.pow_eq, sum, pow_succ]
      ring
    rw [List.cons_append, decodeFrom, if_neg hearly, if_neg (Nat.not_lt.mpr hb),
      ih hmore' _ _ (by omega), hsum, List.length_cons, Nat.add_assoc, Nat.add_comm 1]

lemma Spells.decode {bytes : Bytes} {value : UInt64} (h : Spells bytes value) (rest : Bytes) :
    decode (bytes ++ rest) = .ok (value, bytes.length) := by
  obtain @⟨more, last, _, hmore, hlast, hshort, hsum⟩ := h
  have hfits : ¬ (9 ≤ 0 + more.length ∧ 1 < last.toNat) := by
    rw [Nat.zero_add]
    exact fits_of_sum hlast hshort hsum
  rw [sum_concat more hlast] at hsum
  rw [List.append_assoc, Varint.decode, decodeFrom_more hmore 0 0 _ (by omega),
    List.singleton_append, decodeFrom, if_neg hfits, if_pos hlast]
  simp [Nat.mod_eq_of_lt hlast, hsum]

lemma Spells.ne_nil {bytes : Bytes} {value : UInt64} (h : Spells bytes value) : bytes ≠ [] := by
  cases h
  simp

lemma Spells.byte {b : UInt8} (h : b.toNat < 128) : Spells [b] b.toUInt64 :=
  @Spells.mk [] b _ (by simp) h (by decide) (by simp [sum, Nat.mod_eq_of_lt h])

lemma Fails.decode {bytes : Bytes} {e : WireError} (h : Fails bytes e) :
    decode bytes = .error e := by
  cases h with
  | truncated hmore hshort =>
    have hdecode := decodeFrom_more hmore 0 0 [] (by omega)
    rw [List.append_nil] at hdecode
    rw [Varint.decode, hdecode, decodeFrom, Nat.zero_add]
  | overflow hmore hnine hlarge =>
    rw [Varint.decode, decodeFrom_more hmore 0 0 _ (by omega), decodeFrom,
      if_pos ⟨by omega, hlarge⟩]

lemma exists_more (bytes : Bytes) : ∃ more rest, bytes = more ++ rest ∧
    (∀ b ∈ more, 128 ≤ b.toNat) ∧ ∀ b ∈ rest.head?, b.toNat < 128 := by
  induction bytes with
  | nil => exact ⟨[], [], rfl, by simp, by simp⟩
  | cons b bytes ih =>
    obtain ⟨more, rest, rfl, hmore, hrest⟩ := ih
    by_cases hb : b.toNat < 128
    · exact ⟨[], b :: (more ++ rest), rfl, by simp, by simpa using hb⟩
    · refine ⟨b :: more, rest, rfl, ?_, hrest⟩
      intro c hc
      rcases List.mem_cons.mp hc with rfl | hc
      · exact Nat.le_of_not_lt hb
      · exact hmore c hc

lemma spells_or_fails (bytes : Bytes) :
    (∃ front value rest, bytes = front ++ rest ∧ Spells front value) ∨ ∃ e, Fails bytes e := by
  obtain ⟨more, rest, rfl, hmore, hrest⟩ := exists_more bytes
  rcases Nat.lt_or_ge more.length 10 with hshort | hlong
  · cases rest with
    | nil =>
      rw [List.append_nil]
      exact .inr ⟨_, .truncated hmore hshort⟩
    | cons last rest =>
      have hlast : last.toNat < 128 := hrest last rfl
      by_cases hlarge : 9 ≤ more.length ∧ 1 < last.toNat
      · exact .inr ⟨_, .overflow hmore (by omega) hlarge.2⟩
      · exact .inl ⟨more ++ [last], _, rest, by simp, .of_fits hmore hlast hshort hlarge⟩
  · -- the tenth byte goes on, whatever comes after it
    have hnine : more = more.take 9 ++ more[9] :: more.drop 10 := by
      rw [List.getElem_cons_drop, List.take_append_drop]
    have htenth := hmore more[9] (List.getElem_mem _)
    refine .inr ⟨.varintOverflow, ?_⟩
    rw [hnine, List.append_assoc, List.cons_append]
    exact .overflow (fun b hb => hmore b (List.mem_of_mem_take hb)) (by simp; omega) (by omega)

theorem decode_eq_ok_iff {bytes : Bytes} {value : UInt64} {used : Nat} :
    decode bytes = .ok (value, used) ↔
      ∃ front rest, bytes = front ++ rest ∧ used = front.length ∧ Spells front value := by
  constructor
  · intro h
    rcases spells_or_fails bytes with ⟨front, value', rest, rfl, hfront⟩ | ⟨e, he⟩
    · rw [hfront.decode, Except.ok.injEq, Prod.mk.injEq] at h
      obtain ⟨rfl, rfl⟩ := h
      exact ⟨front, rest, rfl, rfl, hfront⟩
    · rw [he.decode] at h
      cases h
  · rintro ⟨front, rest, rfl, rfl, h⟩
    exact h.decode rest

theorem decode_eq_error_iff {bytes : Bytes} {e : WireError} :
    decode bytes = .error e ↔ Fails bytes e := by
  constructor
  · intro h
    rcases spells_or_fails bytes with ⟨front, value, rest, rfl, hfront⟩ | ⟨e', he⟩
    · rw [hfront.decode] at h
      cases h
    · rw [he.decode, Except.error.injEq] at h
      rwa [← h]
  · exact Fails.decode

/-! ### Writing -/

lemma sum_groups (n : Nat) : sum (groups n) = n := by
  induction n using groups.induct with
  | case1 n hsmall =>
    have hb : (UInt8.ofNat n).toNat = n := by
      rw [UInt8.toNat_ofNat']
      omega
    rw [groups, if_pos hsmall, sum, sum, hb]
    omega
  | case2 n hlarge ih =>
    have hb : (UInt8.ofNat (n % 128 + 128)).toNat = n % 128 + 128 := by
      rw [UInt8.toNat_ofNat']
      omega
    rw [groups, if_neg hlarge, sum, ih, hb]
    omega

lemma exists_groups (n : Nat) : ∃ more last, groups n = more ++ [last] ∧
    (∀ b ∈ more, 128 ≤ b.toNat) ∧ last.toNat < 128 := by
  induction n using groups.induct with
  | case1 n hsmall =>
    refine ⟨[], UInt8.ofNat n, by rw [groups, if_pos hsmall, List.nil_append], by simp, ?_⟩
    rw [UInt8.toNat_ofNat']
    omega
  | case2 n hlarge ih =>
    obtain ⟨more, last, hgroups, hmore, hlast⟩ := ih
    refine ⟨UInt8.ofNat (n % 128 + 128) :: more, last, ?_, ?_, hlast⟩
    · rw [groups, if_neg hlarge, hgroups, List.cons_append]
    · intro b hb
      rcases List.mem_cons.mp hb with rfl | hb
      · rw [UInt8.toNat_ofNat']
        omega
      · exact hmore b hb

lemma length_groups_le {n width : Nat} (hn : n < 128 ^ (width + 1)) :
    (groups n).length ≤ width + 1 := by
  induction n using groups.induct generalizing width with
  | case1 n hsmall => simp [groups, hsmall]
  | case2 n hlarge ih =>
    cases width with
    | zero =>
      rw [zero_add, pow_one] at hn
      omega
    | succ width =>
      have hlt : n / 128 < 128 ^ (width + 1) := by
        rw [pow_succ] at hn
        omega
      have hle := ih hlt
      rw [groups, if_neg hlarge, List.length_cons]
      omega

lemma length_encode_le (value : UInt64) : (encode value).length ≤ 10 :=
  length_groups_le (Nat.lt_trans value.toNat_lt (by norm_num))

lemma spells_encode (value : UInt64) : Spells (encode value) value := by
  obtain ⟨more, last, hgroups, hmore, hlast⟩ := exists_groups value.toNat
  have hlength := length_encode_le value
  have hsum := sum_groups value.toNat
  rw [hgroups] at hsum
  rw [encode, hgroups] at hlength ⊢
  exact .mk hmore hlast (by simpa using hlength) hsum

theorem decode_encode (value : UInt64) (tail : Bytes) :
    decode (encode value ++ tail) = .ok (value, (encode value).length) :=
  (spells_encode value).decode tail

lemma log2_or_one {n : Nat} (hn : n ≠ 0) : (n ||| 1).log2 = n.log2 := by
  have hor : n ||| 1 ≠ 0 := Nat.ne_of_gt (Nat.lt_of_lt_of_le Nat.one_pos Nat.right_le_or)
  apply (Nat.log2_eq_iff hor).mpr
  constructor
  · exact Nat.le_trans (Nat.log2_self_le hn) Nat.left_le_or
  · exact Nat.or_lt_two_pow Nat.lt_log2_self (Nat.one_lt_two_pow (Nat.succ_ne_zero _))

lemma length_groups (n : Nat) : (groups n).length = (n ||| 1).log2 / 7 + 1 := by
  induction n using groups.induct with
  | case1 n hsmall =>
    have hor : n ||| 1 ≠ 0 := Nat.ne_of_gt (Nat.lt_of_lt_of_le Nat.one_pos Nat.right_le_or)
    have hbits : (n ||| 1).log2 < 7 :=
      (Nat.log2_lt hor).mpr (Nat.or_lt_two_pow hsmall (by norm_num))
    rw [groups, if_pos hsmall, Nat.div_eq_of_lt hbits]
    rfl
  | case2 n hlarge ih =>
    have hdiv : (n / 128).log2 = n.log2 - 7 := by
      rw [Nat.log2_eq_log_two, Nat.log2_eq_log_two]
      exact Nat.log_div_base_pow 2 n 7
    have hseven : 7 ≤ n.log2 := (Nat.le_log2 (by omega)).mpr (by omega)
    rw [log2_or_one (by omega), hdiv] at ih
    rw [groups, if_neg hlarge, List.length_cons, ih, log2_or_one (by omega)]
    omega

theorem length_encode (value : UInt64) : (encode value).length = length value :=
  length_groups value.toNat

/-- The length hangs on the highest bits only. -/
lemma length_congr {value value' : UInt64} (h : value.toNat / 8 = value'.toNat / 8) :
    length value = length value' := by
  have hlong : ∀ n, ¬ n < 128 → (groups n).length = (groups (n / 128)).length + 1 := by
    intro n hn
    rw [groups, if_neg hn, List.length_cons]
  rw [← length_encode, ← length_encode, encode, encode]
  by_cases hsmall : value.toNat < 128
  · rw [groups, if_pos hsmall, groups, if_pos (by omega)]
    rfl
  · have hdiv : value.toNat / 128 = value'.toNat / 128 := by omega
    rw [hlong value.toNat hsmall, hdiv, ← hlong value'.toNat (by omega)]

end ChatLoad.Varint
