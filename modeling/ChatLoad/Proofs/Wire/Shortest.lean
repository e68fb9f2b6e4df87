import ChatLoad.Proofs.Wire.Varint

/-! Varints byte by byte. Which bytes are read as a varint hangs on the highest bits of the first ten of them,
and which number they are read as on the other bits. Many byte strings are read as one number; the one
that is written is the shortest of them. -/

namespace ChatLoad.Varint

/-- The first `used` bytes are a varint of at most 64 bits. -/
structure Complete (bytes : Bytes) (used : Nat) : Prop where
  pos : 0 < used
  le_ten : used ≤ 10
  le_length : used ≤ bytes.length
  continued : ∀ i < used - 1, 128 ≤ (bytes.getD i 0).toNat
  last : (bytes.getD (used - 1) 0).toNat < 128
  tenth : used = 10 → (bytes.getD 9 0).toNat ≤ 1

/-- All there is of the bytes belongs to a varint that goes on. -/
def Unfinished (bytes : Bytes) : Prop :=
  bytes.length < 10 ∧ ∀ b ∈ bytes, 128 ≤ b.toNat

lemma sum_eq (bytes : Bytes) :
    sum bytes = ∑ i ∈ Finset.range bytes.length, (bytes.getD i 0).toNat % 128 * 128 ^ i := by
  induction bytes with
  | nil => rfl
  | cons b rest ih =>
    rw [sum, ih, List.length_cons, Finset.sum_range_succ', Finset.mul_sum]
    simp only [List.getD_cons_succ, List.getD_cons_zero, pow_zero, mul_one, pow_succ]
    rw [Nat.add_comm]
    congr 1
    exact Finset.sum_congr rfl fun i _ => by ring

lemma sum_front (front rest : Bytes) :
    ∑ i ∈ Finset.range front.length, ((front ++ rest).getD i 0).toNat % 128 * 128 ^ i = sum front := by
  rw [sum_eq]
  refine Finset.sum_congr rfl fun i hi => ?_
  rw [List.getD_append _ _ _ _ (Finset.mem_range.mp hi)]

lemma complete_append_iff {more rest : Bytes} {last : UInt8} :
    Complete (more ++ last :: rest) (more.length + 1) ↔
      (∀ b ∈ more, 128 ≤ b.toNat) ∧ last.toNat < 128 ∧ more.length < 10 ∧
        ¬ (9 ≤ more.length ∧ 1 < last.toNat) := by
  have hlast : (more ++ last :: rest).getD more.length 0 = last := by
    rw [List.getD_append_right _ _ _ _ (Nat.le_refl _), Nat.sub_self, List.getD_cons_zero]
  have hmore : ∀ i (hi : i < more.length), (more ++ last :: rest).getD i 0 = more[i] := fun i hi => by
    rw [List.getD_append _ _ _ _ hi, List.getD_eq_getElem _ _ hi]
  constructor
  · intro h
    refine ⟨fun b hb => ?_, hlast ▸ h.last, h.le_ten, fun ⟨hnine, hlarge⟩ => ?_⟩
    · obtain ⟨i, hi, rfl⟩ := List.mem_iff_getElem.mp hb
      rw [← hmore i hi]
      exact h.continued i hi
    · have hnine' : more.length = 9 := by
        have := h.le_ten
        omega
      have htenth := h.tenth (by omega)
      rw [← hnine', hlast] at htenth
      omega
  · rintro ⟨hhigh, hlow, hshort, hfits⟩
    refine ⟨Nat.succ_pos _, hshort, by simp, fun i hi => ?_, ?_, fun hten => ?_⟩
    · rw [hmore i hi]
      exact hhigh _ (List.getElem_mem _)
    · rw [Nat.add_sub_cancel, hlast]
      exact hlow
    · have hnine : more.length = 9 := Nat.succ.inj hten
      rw [← hnine, hlast]
      omega

lemma Complete.exists_last {bytes : Bytes} {used : Nat} (h : Complete bytes used) :
    ∃ more last rest, bytes = more ++ last :: rest ∧ used = more.length + 1 := by
  have hpos := h.pos
  have hlength := h.le_length
  refine ⟨bytes.take (used - 1), bytes[used - 1], bytes.drop used, ?_, ?_⟩
  · have hdrop := List.getElem_cons_drop (show used - 1 < bytes.length by omega)
    rw [Nat.sub_add_cancel hpos] at hdrop
    rw [hdrop, List.take_append_drop]
  · rw [List.length_take]
    omega

lemma complete_iff {bytes : Bytes} {used : Nat} :
    Complete bytes used ↔ ∃ value, decode bytes = .ok (value, used) := by
  simp only [decode_eq_ok_iff]
  constructor
  · intro h
    obtain ⟨more, last, rest, rfl, rfl⟩ := h.exists_last
    obtain ⟨hmore, hlast, hshort, hfits⟩ := complete_append_iff.mp h
    exact ⟨_, more ++ [last], rest, by simp, by simp, .of_fits hmore hlast hshort hfits⟩
  · rintro ⟨value, front, rest, rfl, rfl, hfront⟩
    obtain @⟨more, last, _, hmore, hlast, hshort, hsum⟩ := hfront
    rw [List.append_assoc, List.singleton_append, List.length_append, List.length_singleton]
    exact complete_append_iff.mpr ⟨hmore, hlast, hshort, fits_of_sum hlast hshort hsum⟩

lemma sum_of_decode {bytes : Bytes} {value : UInt64} {used : Nat}
    (h : decode bytes = .ok (value, used)) :
    ∑ i ∈ Finset.range used, (bytes.getD i 0).toNat % 128 * 128 ^ i = value.toNat := by
  obtain ⟨front, rest, rfl, rfl, hfront⟩ := decode_eq_ok_iff.mp h
  obtain @⟨more, last, _, _, _, _, hsum⟩ := hfront
  rw [sum_front, hsum]

lemma decode_front {bytes : Bytes} {value : UInt64} {used : Nat}
    (h : decode bytes = .ok (value, used)) (tail : Bytes) :
    decode (bytes.take used ++ tail) = .ok (value, used) := by
  obtain ⟨front, rest, rfl, rfl, hfront⟩ := decode_eq_ok_iff.mp h
  rw [List.take_left]
  exact hfront.decode tail

lemma decode_truncated_iff {bytes : Bytes} {needed available : Nat} :
    decode bytes = .error (.truncated needed available) ↔
      needed = bytes.length + 1 ∧ available = bytes.length ∧ Unfinished bytes := by
  rw [decode_eq_error_iff]
  constructor
  · rintro ⟨hmore, hshort⟩
    exact ⟨rfl, rfl, hshort, hmore⟩
  · rintro ⟨rfl, rfl, hshort, hmore⟩
    exact .truncated hmore hshort

lemma decode_overflow_iff {bytes : Bytes} :
    decode bytes = .error .varintOverflow ↔ ¬ Unfinished bytes ∧ ∀ used, ¬ Complete bytes used := by
  constructor
  · intro h
    refine ⟨fun hunfinished => ?_, fun used hcomplete => ?_⟩
    · rw [decode_truncated_iff.mpr ⟨rfl, rfl, hunfinished⟩] at h
      cases h
    · obtain ⟨value, hvalue⟩ := complete_iff.mp hcomplete
      rw [hvalue] at h
      cases h
  · rintro ⟨hfinished, hcomplete⟩
    rcases spells_or_fails bytes with ⟨front, value, rest, rfl, hfront⟩ | ⟨e, he⟩
    · exact (hcomplete _ (complete_iff.mpr ⟨value, hfront.decode rest⟩)).elim
    · cases he with
      | truncated hmore hshort => exact (hfinished ⟨hshort, hmore⟩).elim
      | overflow hmore hnine hlarge => exact (Fails.overflow hmore hnine hlarge).decode

/-! ### Lengths -/

lemma eq_of_sum_eq {more more' : Bytes} {last last' : UInt8} (hmore : ∀ b ∈ more, 128 ≤ b.toNat)
    (hmore' : ∀ b ∈ more', 128 ≤ b.toNat) (hlast : last.toNat < 128) (hlast' : last'.toNat < 128)
    (hlength : more.length = more'.length) (hsum : sum (more ++ [last]) = sum (more' ++ [last'])) :
    more ++ [last] = more' ++ [last'] := by
  induction more generalizing more' with
  | nil =>
    obtain rfl := List.length_eq_zero_iff.mp hlength.symm
    have hsame : last.toNat = last'.toNat := by
      simpa [sum, Nat.mod_eq_of_lt hlast, Nat.mod_eq_of_lt hlast'] using hsum
    rw [UInt8.toNat_inj.mp hsame]
  | cons b more ih =>
    obtain ⟨b', more', rfl⟩ := List.exists_cons_of_length_eq_add_one hlength.symm
    have hb := hmore b List.mem_cons_self
    have hb' := hmore' b' List.mem_cons_self
    have hlt := b.toNat_lt
    have hlt' := b'.toNat_lt
    rw [List.cons_append, List.cons_append, sum, sum] at hsum
    have hsame : b.toNat = b'.toNat := by omega
    have hrest := ih (fun b hb => hmore b (List.mem_cons_of_mem _ hb))
      (fun b hb => hmore' b (List.mem_cons_of_mem _ hb)) (Nat.succ.inj hlength) (by omega)
    rw [List.cons_append, List.cons_append, UInt8.toNat_inj.mp hsame, hrest]

lemma Spells.eq_of_length {bytes bytes' : Bytes} {value : UInt64} (h : Spells bytes value)
    (h' : Spells bytes' value) (hlength : bytes.length = bytes'.length) : bytes = bytes' := by
  obtain @⟨more, last, _, hmore, hlast, _, hsum⟩ := h
  obtain @⟨more', last', _, hmore', hlast', _, hsum'⟩ := h'
  simp only [List.length_append, List.length_singleton, Nat.add_right_cancel_iff] at hlength
  exact eq_of_sum_eq hmore hmore' hlast hlast' hlength (hsum.trans hsum'.symm)

lemma Spells.length_encode_le {bytes : Bytes} {value : UInt64} (h : Spells bytes value) :
    (encode value).length ≤ bytes.length := by
  obtain @⟨more, last, _, _, _, _, hsum⟩ := h
  have hlt := sum_lt (more ++ [last])
  rw [hsum, List.length_append] at hlt
  rw [List.length_append]
  exact length_groups_le hlt

lemma length_encode_lt {bytes : Bytes} {value : UInt64}
    (h : decode bytes = .ok (value, bytes.length)) (hother : bytes ≠ encode value) :
    (encode value).length < bytes.length := by
  obtain ⟨front, rest, hbytes, hlength, hfront⟩ := decode_eq_ok_iff.mp h
  have hwhole : bytes = front := by
    have hrest : rest = [] := by
      rw [hbytes, List.length_append] at hlength
      exact List.length_eq_zero_iff.mp (by omega)
    rw [hbytes, hrest, List.append_nil]
  rw [← hwhole] at hfront
  refine Nat.lt_of_le_of_ne hfront.length_encode_le fun hsame => hother ?_
  exact hfront.eq_of_length (spells_encode value) hsame.symm

/-- Just the varints of at most 64 bits are read, each as the sum of its groups and whatever stands behind
it. Too few bytes are truncated if they might go on to be one, and all else overflows. A number is read
back from what is written for it, which has the length foretold and is shorter than whatever else is
read as that number. -/
theorem decode_exact_encode_shortest :
    (∀ (bytes : Bytes) (used : Nat),
      (∃ value, decode bytes = .ok (value, used)) ↔ Complete bytes used) ∧
    (∀ (bytes : Bytes) (value : UInt64) (used : Nat), decode bytes = .ok (value, used) →
      ∑ i ∈ Finset.range used, (bytes.getD i 0).toNat % 128 * 128 ^ i = value.toNat ∧
      value.toNat < 2 ^ 64 ∧ ∀ tail, decode (bytes.take used ++ tail) = .ok (value, used)) ∧
    (∀ (bytes : Bytes) (needed available : Nat),
      decode bytes = .error (.truncated needed available) ↔
        needed = bytes.length + 1 ∧ available = bytes.length ∧ Unfinished bytes) ∧
    (∀ bytes : Bytes, decode bytes = .error .varintOverflow ↔
      ¬ Unfinished bytes ∧ ∀ used, ¬ Complete bytes used) ∧
    (∀ (value : UInt64) (tail : Bytes), decode (encode value ++ tail) = .ok (value, length value)) ∧
    ∀ value : UInt64, (encode value).length = length value ∧
      ∀ bytes, decode bytes = .ok (value, bytes.length) → bytes ≠ encode value →
        (encode value).length < bytes.length := by
  refine ⟨fun _ _ => complete_iff.symm, fun bytes value used h => ?_, fun _ _ _ => decode_truncated_iff,
    fun _ => decode_overflow_iff, fun value tail => ?_,
    fun value => ⟨length_encode value, fun _ => length_encode_lt⟩⟩
  · exact ⟨sum_of_decode h, value.toNat_lt, decode_front h⟩
  · rw [← length_encode]
    exact decode_encode value tail

theorem overlong_zero_decoded :
    decode [0x80, 0, 0xFF] = .ok (0, 2) ∧ decode ([0x80, 0] ++ [7]) = .ok (0, 2) ∧
    decode [0x80, 0] = .ok (0, 2) ∧ [0x80, 0] ≠ encode 0 ∧ (encode 0).length < 2 ∧
    Unfinished [0x80] ∧ decode [0x80] = .error (.truncated 2 1) ∧
    Complete (List.replicate 9 0x80 ++ [1]) 10 ∧
    ∃ value, decode (List.replicate 9 0x80 ++ [1]) = .ok (value, 10) := by
  obtain ⟨hcomplete, hread, htruncated, -, -, hshortest⟩ := decode_exact_encode_shortest
  have zero : decode [0x80, 0, 0xFF] = .ok (0, 2) := by decide
  have whole : decode [0x80, 0] = .ok (0, 2) := by decide
  have other : [0x80, 0] ≠ encode 0 := by simp [encode, groups]
  have unfinished : Unfinished [0x80] := ⟨by decide, by simp⟩
  have complete : Complete (List.replicate 9 0x80 ++ [1]) 10 :=
    ⟨by decide, by decide, by decide, by decide, by decide, by decide⟩
  exact ⟨zero, (hread _ _ _ zero).2.2 [7], whole, other, (hshortest 0).2 _ whole other, unfinished,
    (htruncated _ _ _).mpr ⟨rfl, rfl, unfinished⟩, complete, (hcomplete _ _).mpr complete⟩

end ChatLoad.Varint
