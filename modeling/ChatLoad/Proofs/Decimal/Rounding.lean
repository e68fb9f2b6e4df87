import Mathlib
import ChatLoad.Decimal.Double

/-! What doubles come out of whole numbers and of quotients. As long as a result is neither too small
nor too large for a full mantissa, it is off by less than one unit in its last place. -/

namespace ChatLoad.Double

open Float.Model Float.Model.UnpackedFloat

/-! ### Normal doubles -/

/-- A mantissa of 53 bits, and an exponent that goes with it. -/
structure Normal (mantissa : Nat) (exponent : Int) : Prop where
  least : 2 ^ 52 ≤ mantissa
  greatest : mantissa < 2 ^ 53
  low : -1074 ≤ exponent
  high : exponent ≤ 971

namespace Normal

variable {m : Nat} {e : Int}

lemma pos (h : Normal m e) : 0 < m :=
  Nat.lt_of_lt_of_le (by decide) h.least

lemma log2 (h : Normal m e) : m.log2 = 52 :=
  (Nat.log2_eq_iff h.pos.ne').mpr ⟨h.least, h.greatest⟩

/-- The double with this mantissa and exponent. -/
def unpacked (h : Normal m e) : UnpackedFloat :=
  .finite .positive m e h.pos

lemma pack_eq (h : Normal m e) :
    UnpackedFloat.pack Format.binary64 h.unpacked =
      packComponents Format.binary64 .positive (BitVec.ofNat 11 (e + 1075).toNat)
        (BitVec.ofNat 52 m) := by
  have hbias : (e + (Format.binary64.exponentBias : Int) + (52 : Nat)).toNat = (e + 1075).toNat := by
    simp only [Format.exponentBias]
    omega
  have hlow := h.low
  have hhigh := h.high
  have hfits : ¬2 ^ 11 ≤ (e + 1075).toNat + 1 := by omega
  simp only [unpacked, UnpackedFloat.pack, hbias, if_neg hfits, h.log2]
  rfl

/-- The bits of a normal double: its exponent above its mantissa without the leading bit. -/
lemma pack_toNat (h : Normal m e) :
    (UnpackedFloat.pack Format.binary64 h.unpacked).toNat =
      (e + 1075).toNat * 2 ^ 52 + (m - 2 ^ 52) := by
  obtain ⟨hleast, hgreatest, hlow, hhigh⟩ := h
  have hexponent : (BitVec.ofNat 11 (e + 1075).toNat).toNat = (e + 1075).toNat :=
    Nat.mod_eq_of_lt (by omega)
  have hmantissa : (BitVec.ofNat 52 m).toNat = m - 2 ^ 52 := by
    rw [BitVec.toNat_ofNat]
    omega
  rw [pack_eq, packComponents, BitVec.toNat_append, BitVec.toNat_append, hexponent, hmantissa,
    ← Nat.shiftLeft_add_eq_or_of_lt (by omega), Nat.shiftLeft_eq]
  simp [Sign.toBitVec]

lemma ofBits_pack (h : Normal m e) :
    ofBits (UInt64.ofBitVec (UnpackedFloat.pack Format.binary64 h.unpacked)) = .finite false m e := by
  have hbits := h.pack_toNat
  obtain ⟨hleast, hgreatest, hlow, hhigh⟩ := h
  have hsign : decide (0x8000000000000000 ≤ (e + 1075).toNat * 2 ^ 52 + (m - 2 ^ 52)) = false := by
    rw [decide_eq_false_iff_not]
    omega
  have hbiased : ((e + 1075).toNat * 2 ^ 52 + (m - 2 ^ 52)) % 0x8000000000000000 / 0x10000000000000 =
      (e + 1075).toNat := by
    omega
  have hfraction : ((e + 1075).toNat * 2 ^ 52 + (m - 2 ^ 52)) % 0x10000000000000 = m - 2 ^ 52 := by
    omega
  have hfinite : (e + 1075).toNat ≠ 2047 := by omega
  have hnormal : (e + 1075).toNat ≠ 0 := by omega
  simp only [ofBits, UInt64.toNat_ofBitVec, signBit, leadingBit, hbits, hsign, hbiased, hfraction,
    if_neg hfinite, if_neg hnormal, finite.injEq, true_and]
  omega

lemma unpackSign_pack (e : BitVec 11) (m : BitVec 52) :
    unpackSign (packComponents Format.binary64 .positive e m) = 0#1 := by
  simp only [unpackSign, packComponents, BitVec.extractLsb]
  rw [BitVec.extractLsb'_append_eq_of_le (by omega), BitVec.extractLsb'_append_eq_of_le (by omega)]
  rfl

lemma unpack_pack (h : Normal m e) :
    UnpackedFloat.unpack Format.binary64 (UnpackedFloat.pack Format.binary64 h.unpacked) =
      h.unpacked := by
  have hpack := h.pack_eq
  obtain ⟨hleast, hgreatest, hlow, hhigh⟩ := h
  have hbiased : (BitVec.ofNat 11 (e + 1075).toNat).toNat = (e + 1075).toNat :=
    Nat.mod_eq_of_lt (by omega)
  have hfinite : BitVec.ofNat 11 (e + 1075).toNat ≠ -1#11 := by
    rw [ne_eq, ← BitVec.toNat_inj, hbiased]
    simp
    omega
  have hnormal : BitVec.ofNat 11 (e + 1075).toNat ≠ 0#11 := by
    rw [ne_eq, ← BitVec.toNat_inj, hbiased]
    simp
    omega
  have hmantissa : (1#1 ++ BitVec.ofNat 52 m).toNat = m := by
    rw [BitVec.toNat_append, ← Nat.shiftLeft_add_eq_or_of_lt (BitVec.isLt _), BitVec.toNat_ofNat,
      Nat.shiftLeft_eq]
    simp
    omega
  have hexponent : ((e + 1075).toNat : Int) -
      ((Format.binary64.exponentBias : Int) + (52 : Nat)) = e := by
    simp only [Format.exponentBias]
    omega
  rw [hpack, UnpackedFloat.unpack]
  simp only [unpackMantissa_packComponents, unpackExponent_packComponents, unpackSign_pack, hbiased,
    if_neg hfinite, if_neg hnormal, hmantissa, hexponent]
  rfl

end Normal

/-! ### Rounding -/

def value (mantissa : Nat) (exponent : Int) : ℚ :=
  mantissa * 2 ^ exponent

/-- Off by at most the unit in the last place of a full mantissa. -/
def Close (x y : ℚ) : Prop :=
  |y - x| ≤ x / 2 ^ 52

lemma shiftRight_mantissa (em : ExtendedMantissa) (n : Nat) :
    (em >>> n).mantissa = em.mantissa / 2 ^ n := by
  change (n.repeat ExtendedMantissa.shiftRightOne em).mantissa = _
  induction n with
  | zero => simp [Nat.repeat]
  | succ n ih =>
    rw [Nat.repeat, ExtendedMantissa.shiftRightOne, ih, Nat.div_div_eq_div_mul, ← Nat.pow_succ]

lemma ofMantissaAndAccuracy_mantissa (m : Nat) (accuracy : Accuracy) :
    (ExtendedMantissa.ofMantissaAndAccuracy m accuracy).mantissa = m := by
  rcases accuracy with _ | _ | _ | _ <;> rfl

lemma roundedMantissa_bounds (em : ExtendedMantissa) :
    em.mantissa ≤ em.roundedMantissa ∧ em.roundedMantissa ≤ em.mantissa + 1 := by
  obtain ⟨m, _ | _, _ | _⟩ := em <;>
    simp only [ExtendedMantissa.roundedMantissa, ExtendedMantissa.accuracy,
      Accuracy.roundToNearestEven] <;> omega

section

variable {m : Nat} {e : Int}

/-- A mantissa that is long enough only loses what it has too much. -/
lemma shiftToTargetExponent_eq (accuracy : Accuracy) (hm : 52 ≤ m.log2) (he : -1074 ≤ e) :
    shiftToTargetExponent Format.binary64 m e accuracy =
      (ExtendedMantissa.ofMantissaAndAccuracy m accuracy >>> (m.log2 - 52),
        e + (m.log2 - 52 : Nat)) := by
  have hshift : (Format.binary64.targetExponent (totalExponent m e) - e).toNat = m.log2 - 52 := by
    simp only [Format.targetExponent, totalExponent, Format.mantissaBits, Format.minExponent]
    omega
  rw [shiftToTargetExponent, shiftToExponent, hshift]

lemma close_of_le {a r : Nat} {t : Int} {x : ℚ} (ha : 2 ^ 52 ≤ a) (hr : a ≤ r) (hr' : r ≤ a + 1)
    (hx : (a : ℚ) * 2 ^ t ≤ x) (hx' : x ≤ (a + 1 : ℚ) * 2 ^ t) : Close x (r * 2 ^ t) := by
  have hunit : (0 : ℚ) < 2 ^ t := by positivity
  have hra : (a : ℚ) ≤ r := by exact_mod_cast hr
  have hra' : (r : ℚ) ≤ a + 1 := by exact_mod_cast hr'
  have hlow : (a : ℚ) * 2 ^ t ≤ r * 2 ^ t := mul_le_mul_of_nonneg_right hra hunit.le
  have hhigh : (r : ℚ) * 2 ^ t ≤ (a + 1) * 2 ^ t := mul_le_mul_of_nonneg_right hra' hunit.le
  -- the unit in the last place is a small part of the whole
  have hulp : (2 : ℚ) ^ t ≤ x / 2 ^ 52 := by
    have hfull : (2 : ℚ) ^ 52 ≤ a := by exact_mod_cast ha
    rw [le_div_iff₀ (by positivity)]
    calc (2 : ℚ) ^ t * 2 ^ 52 ≤ 2 ^ t * a := mul_le_mul_of_nonneg_left hfull hunit.le
      _ = a * 2 ^ t := mul_comm _ _
      _ ≤ x := hx
  rw [Close, abs_le]
  constructor <;> linarith

/-- A full mantissa that rounding up has made one bit too long is a power of two, so that no more is
lost when that bit goes. -/
lemma shiftToTargetExponent_rounded {r : Nat} (hr : 2 ^ 52 ≤ r) (hr' : r ≤ 2 ^ 53) (he : -1074 ≤ e)
    (hhigh : e ≤ 970) :
    ∃ M E, Normal M E ∧ e ≤ E ∧ E ≤ e + 1 ∧ value M E = r * 2 ^ e ∧
      (shiftToTargetExponent Format.binary64 r e .exact).1.mantissa = M ∧
      (shiftToTargetExponent Format.binary64 r e .exact).2 = E := by
  rcases hr'.lt_or_eq with hlt | rfl
  · have hlog : r.log2 = 52 := (Nat.log2_eq_iff (by omega)).mpr ⟨hr, hlt⟩
    refine ⟨r, e, ⟨hr, hlt, he, by omega⟩, le_rfl, by omega, rfl, ?_⟩
    rw [shiftToTargetExponent_eq .exact hlog.ge he, shiftRight_mantissa,
      ofMantissaAndAccuracy_mantissa, hlog]
    simp
  · have hlog : (2 ^ 53).log2 = 53 := Nat.log2_two_pow
    refine ⟨2 ^ 52, e + 1, ⟨le_rfl, by decide, by omega, by omega⟩, by omega, le_rfl, ?_, ?_⟩
    · rw [value, zpow_add_one₀ two_ne_zero]
      push_cast
      ring
    · rw [shiftToTargetExponent_eq .exact (by omega) he, shiftRight_mantissa,
        ofMantissaAndAccuracy_mantissa, hlog]
      simp

/-- What rounds to a normal double is off by less than one unit in its last place. -/
lemma roundWithAccuracy_close (accuracy : Accuracy) (hm : 52 ≤ m.log2) (he : -1074 ≤ e)
    (hhigh : e + m.log2 ≤ 1000) :
    ∃ M E, ∃ h : Normal M E,
      roundWithAccuracy Format.binary64 .positive m e accuracy = h.unpacked ∧
      e ≤ E ∧ E ≤ e + m.log2 - 51 ∧
      ∀ x : ℚ, m * 2 ^ e ≤ x → x ≤ (m + 1) * 2 ^ e → Close x (value M E) := by
  obtain ⟨cut, hcut⟩ := Nat.exists_eq_add_of_le hm
  have hm0 : m ≠ 0 := by
    rintro rfl
    simp at hm
  obtain ⟨hlow, hbelow⟩ := (Nat.log2_eq_iff hm0).mp hcut
  have ha : 2 ^ 52 ≤ m / 2 ^ cut := by
    rw [Nat.le_div_iff_mul_le (by positivity), ← Nat.pow_add]
    exact hlow
  have ha' : m / 2 ^ cut < 2 ^ 53 := by
    rw [Nat.div_lt_iff_lt_mul (by positivity), ← Nat.pow_add]
    exact Nat.lt_of_lt_of_eq hbelow (congrArg _ (by omega))
  let em := ExtendedMantissa.ofMantissaAndAccuracy m accuracy >>> cut
  have hem : em.mantissa = m / 2 ^ cut := by
    rw [shiftRight_mantissa, ofMantissaAndAccuracy_mantissa]
  obtain ⟨hr, hr'⟩ := roundedMantissa_bounds em
  rw [hem] at hr hr'
  obtain ⟨M, E, normal, hE, hE', hvalue, hmantissa, hexponent⟩ :=
    @shiftToTargetExponent_rounded (e + cut) em.roundedMantissa (by omega) (by omega) (by omega)
      (by omega)
  refine ⟨M, E, normal, ?_, by omega, by omega, fun x hx hx' => ?_⟩
  · have hshift := shiftToTargetExponent_eq accuracy hm he
    rw [hcut, Nat.add_sub_cancel_left] at hshift
    simp only [roundWithAccuracy, hshift]
    simp only [em] at hmantissa hexponent
    simp only [hmantissa, hexponent, dif_neg normal.pos.ne']
    rfl
  · rw [hvalue]
    have hpow : (2 : ℚ) ^ (e + (cut : Int)) = 2 ^ cut * 2 ^ e := by
      rw [zpow_add₀ two_ne_zero, zpow_natCast, mul_comm]
    have hunit : (0 : ℚ) < 2 ^ e := by positivity
    refine close_of_le ha hr hr' (le_trans ?_ hx) (hx'.trans ?_)
    · rw [hpow, ← mul_assoc]
      refine mul_le_mul_of_nonneg_right ?_ hunit.le
      exact_mod_cast Nat.div_mul_le_self m (2 ^ cut)
    · rw [hpow, ← mul_assoc]
      refine mul_le_mul_of_nonneg_right ?_ hunit.le
      exact_mod_cast Nat.succ_le_of_lt (Nat.lt_div_mul_add (Nat.two_pow_pos cut) |>.trans_eq
        (Nat.succ_mul _ _).symm)

end

/-! ### Whole numbers and quotients -/

lemma log2_shiftLeft {n : Nat} (hn : n ≠ 0) (k : Nat) : (n <<< k).log2 = n.log2 + k := by
  obtain ⟨hlow, hhigh⟩ := (Nat.log2_eq_iff hn).mp rfl
  rw [Nat.shiftLeft_eq, Nat.log2_eq_iff (Nat.mul_ne_zero hn (Nat.two_pow_pos k).ne')]
  constructor
  · rw [Nat.pow_add]
    exact Nat.mul_le_mul_right _ hlow
  · rw [Nat.add_right_comm, Nat.pow_add]
    exact Nat.mul_lt_mul_of_pos_right hhigh (Nat.two_pow_pos k)

lemma ofUInt64_close {n : UInt64} (hn : 0 < n.toNat) :
    ∃ M E, ∃ h : Normal M E, UnpackedFloat.ofUInt64 Format.binary64 n = h.unpacked ∧
      -52 ≤ E ∧ E ≤ 13 ∧ Close n.toNat (value M E) := by
  have hlog : n.toNat.log2 < 64 := (Nat.log2_lt hn.ne').mpr n.toNat_lt
  let shift := 52 - n.toNat.log2
  have hshift : (0 - Format.binary64.targetExponent (totalExponent n.toNat 0)).toNat = shift := by
    simp only [Format.targetExponent, totalExponent, Format.mantissaBits, Format.minExponent]
    omega
  have hlong : (n.toNat <<< shift).log2 = n.toNat.log2 + shift := log2_shiftLeft hn.ne' shift
  obtain ⟨M, E, normal, hround, hlow, hhigh, hclose⟩ :=
    @roundWithAccuracy_close (n.toNat <<< shift) (0 - shift) .exact (by omega) (by omega) (by omega)
  have hsign : compare (n.toNat : Int) 0 = .gt := Int.compare_eq_gt.mpr (by omega)
  -- the shift loses nothing
  have hvalue : ((n.toNat <<< shift : Nat) : ℚ) * 2 ^ (0 - shift : Int) = n.toNat := by
    rw [Nat.shiftLeft_eq, zero_sub, zpow_neg, zpow_natCast]
    push_cast
    rw [mul_inv_cancel_right₀ (by positivity)]
  refine ⟨M, E, normal, ?_, by omega, by omega, hclose _ hvalue.le ?_⟩
  · simp only [← hround, UnpackedFloat.ofUInt64, UnpackedFloat.ofNat, UnpackedFloat.ofInt,
      UnpackedFloat.normalize, hsign, UnpackedFloat.round, decreaseExponent, Int.toNat_natCast,
      hshift]
  · rw [add_mul, hvalue]
    exact le_add_of_nonneg_right (by positivity)

lemma div_close {m₁ m₂ : Nat} {e₁ e₂ : Int} (h₁ : Normal m₁ e₁) (h₂ : Normal m₂ e₂)
    (hlow : -900 ≤ e₁ - e₂) (hhigh : e₁ - e₂ ≤ 900) :
    ∃ M E, ∃ h : Normal M E,
      UnpackedFloat.div Format.binary64 h₁.unpacked h₂.unpacked = h.unpacked ∧
      Close (value m₁ e₁ / value m₂ e₂) (value M E) := by
  have htarget : min (e₁ - e₂) (Format.binary64.targetExponent
      (totalExponent m₁ e₁ - totalExponent m₂ e₂)) = e₁ - e₂ - 53 := by
    simp only [Format.targetExponent, totalExponent, Format.mantissaBits, Format.minExponent,
      h₁.log2, h₂.log2]
    omega
  have hcore : divCore Format.binary64 m₁ e₁ m₂ e₂ =
      (m₁ <<< 53 / m₂, e₁ - e₂ - 53, accuracyOfFraction (m₁ <<< 53 % m₂) m₂) := by
    have hshift : (e₁ - e₂ - (e₁ - e₂ - 53)).toNat = 53 := by omega
    rw [divCore, htarget, hshift]
  have hm₁ := h₁.least
  have hm₁' := h₁.greatest
  have hm₂ := h₂.least
  have hm₂' := h₂.greatest
  have hleast : 2 ^ 52 ≤ m₁ <<< 53 / m₂ := by
    rw [Nat.le_div_iff_mul_le h₂.pos, Nat.shiftLeft_eq]
    omega
  have hgreatest : m₁ <<< 53 / m₂ < 2 ^ 55 := by
    rw [Nat.div_lt_iff_lt_mul h₂.pos, Nat.shiftLeft_eq]
    omega
  have hlog : 52 ≤ (m₁ <<< 53 / m₂).log2 := (Nat.le_log2 (by omega)).mpr hleast
  have hlog' : (m₁ <<< 53 / m₂).log2 < 55 := (Nat.log2_lt (by omega)).mpr hgreatest
  obtain ⟨M, E, normal, hround, -, -, hclose⟩ :=
    @roundWithAccuracy_close _ (e₁ - e₂ - 53) (accuracyOfFraction (m₁ <<< 53 % m₂) m₂) hlog
      (by omega) (by omega)
  have hpos : (0 : ℚ) < m₂ := by exact_mod_cast h₂.pos
  have hquotient : value m₁ e₁ / value m₂ e₂ =
      ((m₁ <<< 53 : Nat) : ℚ) / m₂ * 2 ^ (e₁ - e₂ - 53) := by
    rw [value, value, Nat.shiftLeft_eq, zpow_sub₀ two_ne_zero, zpow_sub₀ two_ne_zero]
    push_cast
    field_simp
  have hunit : (0 : ℚ) < 2 ^ (e₁ - e₂ - 53) := by positivity
  refine ⟨M, E, normal, ?_, hclose _ ?_ ?_⟩
  · rw [← hround]
    simp only [Normal.unpacked, UnpackedFloat.div, hcore]
    rfl
  · rw [hquotient]
    exact mul_le_mul_of_nonneg_right Nat.cast_div_le hunit.le
  · rw [hquotient]
    refine mul_le_mul_of_nonneg_right ?_ hunit.le
    rw [div_le_iff₀ hpos]
    exact_mod_cast (Nat.lt_mul_of_div_lt (Nat.lt_succ_self _) h₂.pos).le

/-- The errors of two numbers and of their quotient add up to a few units in the last place. -/
lemma Close.div {x x' y y' q : ℚ} (hx : Close x x') (hy : Close y y') (hq : Close (x' / y') q)
    (hx0 : 0 < x) (hy0 : 0 < y) : |q - x / y| ≤ x / y / 2 ^ 49 := by
  obtain ⟨hxl, hxu⟩ := abs_le.mp hx
  obtain ⟨hyl, hyu⟩ := abs_le.mp hy
  obtain ⟨hql, hqu⟩ := abs_le.mp hq
  have hr : 0 < x / y := div_pos hx0 hy0
  have hupper : x' / y' ≤ x / y * ((1 + 1 / 2 ^ 52) / (1 - 1 / 2 ^ 52)) := by
    rw [div_mul_div_comm]
    apply div_le_div₀ <;> linarith
  have hlower : x / y * ((1 - 1 / 2 ^ 52) / (1 + 1 / 2 ^ 52)) ≤ x' / y' := by
    rw [div_mul_div_comm]
    apply div_le_div₀ <;> linarith
  rw [abs_le]
  constructor <;> norm_num at * <;> linarith

lemma ofFloat_div_close {a b : UInt64} (ha : 0 < a.toNat) (hb : 0 < b.toNat) :
    ∃ M E, ofFloat (a.toFloat / b.toFloat) = .finite false M E ∧
      |value M E - a.toNat / b.toNat| ≤ (a.toNat / b.toNat : ℚ) / 2 ^ 49 := by
  obtain ⟨m₁, e₁, h₁, hfirst, hlow₁, hhigh₁, hclose₁⟩ := ofUInt64_close ha
  obtain ⟨m₂, e₂, h₂, hsecond, hlow₂, hhigh₂, hclose₂⟩ := ofUInt64_close hb
  obtain ⟨M, E, normal, hdiv, hclose⟩ := div_close h₁ h₂ (by omega) (by omega)
  have hbits : (a.toFloat / b.toFloat).toBits =
      UInt64.ofBitVec (UnpackedFloat.pack Format.binary64 normal.unpacked) := by
    rw [← hdiv, ← h₁.unpack_pack, ← h₂.unpack_pack, ← hfirst, ← hsecond]
    rfl
  refine ⟨M, E, ?_, hclose₁.div hclose₂ hclose (by exact_mod_cast ha) (by exact_mod_cast hb)⟩
  rw [ofFloat, hbits, normal.ofBits_pack]

end ChatLoad.Double
