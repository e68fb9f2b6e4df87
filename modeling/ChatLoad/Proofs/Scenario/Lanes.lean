import Mathlib
import ChatLoad.Scenario.Run
import ChatLoad.Proofs.Decimal.Rounding
import ChatLoad.Proofs.Scenario.Schedule

/-! When the loops of the stress workload come to an end. A lane counts its messages in 32 bits and
stops at the first deadline that is not before the end of the run; without a gap between deadlines, or
with too small a one, it never gets there. -/

namespace ChatLoad

/-! ### The gap -/

/-- Rounding to a whole number is off by one half at most. -/
lemma roundDiv_bounds (tie : Tie) (num : Nat) {den : Nat} (hden : 0 < den) :
    2 * (den * roundDiv tie num den) ≤ 2 * num + den ∧
      2 * num ≤ 2 * (den * roundDiv tie num den) + den := by
  have hdiv := Nat.div_add_mod num den
  have hmod := Nat.mod_lt num hden
  simp only [roundDiv]
  split
  · omega
  · split
    · rw [Nat.mul_succ]
      omega
    · cases tie with
      | away =>
        simp only [Nat.mul_succ]
        omega
      | toEven =>
        rcases Nat.mod_two_eq_zero_or_one (num / den) with heven | hodd
        · simp only [heven, Nat.add_zero]
          omega
        · simp only [hodd, Nat.mul_succ]
          omega

lemma roundDiv_close (tie : Tie) (num : Nat) {den : Nat} (hden : 0 < den) :
    |(roundDiv tie num den : ℚ) - num / den| ≤ 1 / 2 := by
  obtain ⟨hupper, hlower⟩ := roundDiv_bounds tie num hden
  have hupper' : 2 * (den * roundDiv tie num den : ℚ) ≤ 2 * num + den := by exact_mod_cast hupper
  have hlower' : 2 * (num : ℚ) ≤ 2 * (den * roundDiv tie num den) + den := by exact_mod_cast hlower
  have hden' : (0 : ℚ) < den := by exact_mod_cast hden
  have hnum : (num : ℚ) = num / den * den := (div_mul_cancel₀ _ hden'.ne').symm
  rw [abs_le]
  constructor <;> nlinarith

lemma ratio_eq (mantissa : Nat) (exponent : Int) :
    ((Double.ratio mantissa exponent).1 : ℚ) / (Double.ratio mantissa exponent).2 =
      Double.value mantissa exponent := by
  rw [Double.ratio, Double.value]
  obtain ⟨size, rfl | rfl⟩ := exponent.eq_nat_or_neg
  · simp
  · simp [div_eq_mul_inv]

/-- In whole nanoseconds a gap is off by half of one, and by next to nothing for the doubles it was
computed with. -/
lemma laneGap?_close {active rate : Nat} (hactive : 0 < active) (hactive' : active < 2 ^ 64)
    (hrate : 0 < rate) (hrate' : rate < 2 ^ 64) :
    ∃ gap, laneGap? active rate = some gap ∧
      |(gap : ℚ) - 1000000000 * (active / rate)| ≤ 1 / 2 + 1000000000 * (active / rate) / 2 ^ 49 := by
  have ha : active.toUInt64.toNat = active := Nat.mod_eq_of_lt hactive'
  have hr : rate.toUInt64.toNat = rate := Nat.mod_eq_of_lt hrate'
  obtain ⟨M, E, hdouble, hclose⟩ :=
    @Double.ofFloat_div_close active.toUInt64 rate.toUInt64 (by omega) (by omega)
  rw [ha, hr] at hclose
  have hden : 0 < (Double.ratio M E).2 := Nat.pow_pos (by decide)
  refine ⟨roundDiv .toEven ((Double.ratio M E).1 * 1000000000) (Double.ratio M E).2, ?_, ?_⟩
  · rw [laneGap?, if_neg (by omega), hdouble]
  · have hround := roundDiv_close .toEven ((Double.ratio M E).1 * 1000000000) hden
    rw [Nat.cast_mul, mul_div_right_comm, ratio_eq] at hround
    obtain ⟨hlow, hhigh⟩ := abs_le.mp hclose
    obtain ⟨hlow', hhigh'⟩ := abs_le.mp hround
    rw [abs_le]
    push_cast at hlow' hhigh'
    constructor <;> linarith

lemma laneGap?_pos {active rate gap : Nat} (hrate : 0 < rate) (hslow : rate ≤ 1999999999 * active)
    (hgap : |(gap : ℚ) - 1000000000 * (active / rate)| ≤
      1 / 2 + 1000000000 * (active / rate) / 2 ^ 49) : 0 < gap := by
  have hrate' : (0 : ℚ) < rate := by exact_mod_cast hrate
  have hquotient : (1 / 1999999999 : ℚ) ≤ active / rate := by
    rw [div_le_div_iff₀ (by norm_num) hrate']
    have : (rate : ℚ) ≤ 1999999999 * active := by exact_mod_cast hslow
    linarith
  obtain ⟨hlow, -⟩ := abs_le.mp hgap
  have : (0 : ℚ) < gap := by linarith
  exact_mod_cast this

lemma laneGap?_zero {active rate gap : Nat} (hrate : 0 < rate) (hfast : 2000000001 * active ≤ rate)
    (hgap : |(gap : ℚ) - 1000000000 * (active / rate)| ≤
      1 / 2 + 1000000000 * (active / rate) / 2 ^ 49) : gap = 0 := by
  have hrate' : (0 : ℚ) < rate := by exact_mod_cast hrate
  have hquotient : (active / rate : ℚ) ≤ 1 / 2000000001 := by
    rw [div_le_div_iff₀ hrate' (by norm_num)]
    have : (2000000001 * active : ℚ) ≤ rate := by exact_mod_cast hfast
    linarith
  obtain ⟨-, hhigh⟩ := abs_le.mp hgap
  have : (gap : ℚ) < 1 := by linarith
  exact Nat.lt_one_iff.mp (by exact_mod_cast this)

/-! ### The loop of a lane -/

namespace Schedule

/-- The loop of a lane with its counter at `k` sends `n` messages more and is over. -/
inductive Leaves (s : Schedule) (lane : Nat) : UInt32 → Nat → Prop
  | ended {k : UInt32} (late : s.duration ≤ s.offset lane k.toNat) : Leaves s lane k 0
  | again {k : UInt32} {n : Nat} (due : s.offset lane k.toNat < s.duration)
      (later : Leaves s lane (k + 1) n) : Leaves s lane k (n + 1)

variable {s : Schedule} {lane n : Nat} {k : UInt32}

lemma toNat_succ {k : UInt32} (h : k.toNat + 1 < counterSize) : (k + 1).toNat = k.toNat + 1 := by
  rw [UInt32.toNat_add]
  exact Nat.mod_eq_of_lt h

/-- The deadline of the last number is the latest that there is. -/
lemma offset_le_last (s : Schedule) (lane : Nat) (k : UInt32) :
    s.offset lane k.toNat ≤ s.offset lane (counterSize - 1) :=
  s.offset_mono lane (Nat.le_sub_one_of_lt k.toNat_lt)

lemma Leaves.room (h : s.Leaves lane k n) : s.duration ≤ s.offset lane (counterSize - 1) := by
  induction h with
  | ended late => exact Nat.le_trans late (s.offset_le_last lane _)
  | again _ _ ih => exact ih

/-- As its counter never starts over, a lane that ends counts up to its end. -/
lemma Leaves.spec (h : s.Leaves lane k n) :
    k.toNat + n < counterSize ∧ s.duration ≤ s.offset lane (k.toNat + n) ∧
      ∀ j, k.toNat ≤ j → j < k.toNat + n → s.offset lane j < s.duration := by
  induction h with
  | ended late => exact ⟨UInt32.toNat_lt _, late, fun j hj hj' => by omega⟩
  | @again k n due later ih =>
    have hnext : k.toNat + 1 < counterSize := by
      have hlt : k.toNat < counterSize := k.toNat_lt
      by_contra hlast
      have hk : k.toNat = counterSize - 1 := by omega
      rw [hk] at due
      exact Nat.not_lt_of_le later.room due
    rw [toNat_succ hnext, Nat.add_right_comm] at ih
    obtain ⟨hfits, hlate, hdue⟩ := ih
    refine ⟨hfits, hlate, fun j hj hj' => ?_⟩
    rcases hj.eq_or_lt with rfl | hlt
    · exact due
    · exact hdue j hlt hj'

lemma leaves_of_spec (hfits : k.toNat + n < counterSize)
    (hlate : s.duration ≤ s.offset lane (k.toNat + n))
    (hdue : ∀ j, k.toNat ≤ j → j < k.toNat + n → s.offset lane j < s.duration) :
    s.Leaves lane k n := by
  induction n generalizing k with
  | zero => exact .ended hlate
  | succ n ih =>
    refine .again (hdue _ (Nat.le_refl _) (by omega)) (ih ?_ ?_ ?_) <;>
      rw [toNat_succ (by omega), Nat.add_right_comm]
    · exact hfits
    · exact hlate
    · exact fun j hj hj' => hdue j (Nat.le_of_succ_le hj) hj'

lemma leaves_zero_iff : s.Leaves lane 0 n ↔ n < counterSize ∧ s.duration ≤ s.offset lane n ∧
    ∀ j < n, s.offset lane j < s.duration := by
  constructor
  · intro h
    simpa using h.spec
  · rintro ⟨hfits, hlate, hdue⟩
    exact leaves_of_spec (by simpa using hfits) (by simpa using hlate) (by simpa using hdue)

/-- A lane ends if its counter has a number for a deadline that is not before the end. -/
lemma exists_leaves_iff :
    (∃ n, s.Leaves lane 0 n) ↔ s.duration ≤ s.offset lane (counterSize - 1) := by
  constructor
  · rintro ⟨n, h⟩
    exact h.room
  · intro hroom
    have hend : ∃ n, s.duration ≤ s.offset lane n := ⟨_, hroom⟩
    classical
    refine ⟨Nat.find hend, leaves_zero_iff.mpr ⟨?_, Nat.find_spec hend, fun j hj => ?_⟩⟩
    · exact Nat.lt_of_le_of_lt (Nat.find_min' hend hroom) (by decide)
    · exact Nat.lt_of_not_le (Nat.find_min hend hj)

/-- Without a gap every message is due at once, and there is always one more. -/
lemma not_leaves (hgap : s.gap = 0) (hduration : 0 < s.duration) : ¬s.Leaves lane k n := by
  intro h
  have hroom := h.room
  rw [offset, step, hgap, Nat.zero_div, Nat.zero_mul, Nat.zero_mul] at hroom
  exact Nat.not_le_of_lt hduration hroom

/-- The number of messages is computed as the loop counts them. -/
lemma count?_eq_some_iff : s.count? lane = some n ↔ s.Leaves lane 0 n := by
  rw [leaves_zero_iff, count?]
  by_cases hfirst : s.duration ≤ s.step * lane
  · rw [if_pos hfirst, Option.some.injEq]
    constructor
    · rintro rfl
      exact ⟨by decide, hfirst, fun j hj => absurd hj (Nat.not_lt_zero j)⟩
    · rintro ⟨-, -, hdue⟩
      by_contra hn
      exact Nat.not_le_of_lt (hdue 0 (Nat.pos_of_ne_zero (Ne.symm hn))) hfirst
  rw [if_neg hfirst]
  have hfirst' := Nat.lt_of_not_le hfirst
  by_cases hgap : s.gap = 0
  · rw [if_pos hgap]
    refine iff_of_false (by simp) fun h => hfirst ?_
    simpa [offset, hgap] using h.2.1
  · rw [if_neg hgap]
    have hfits (k : Nat) : k < (s.duration - 1 - s.step * lane) / s.gap + 1 ↔
        s.offset lane k < s.duration := lt_fits_iff (Nat.pos_of_ne_zero hgap) hfirst'
    generalize (s.duration - 1 - s.step * lane) / s.gap + 1 = count at hfits
    simp only [← hfits, ← Nat.not_lt, Option.ite_none_right_eq_some, Option.some.injEq]
    constructor
    · rintro ⟨hlt, rfl⟩
      exact ⟨hlt, Nat.lt_irrefl _, fun j hj => hj⟩
    · rintro ⟨hlt, hlate, hdue⟩
      have hn := Nat.le_antisymm (Nat.le_of_not_lt hlate)
        (Nat.le_of_not_lt fun hmore => Nat.lt_irrefl _ (hdue _ hmore))
      exact ⟨hn ▸ hlt, hn⟩

end Schedule

/-! ### The run -/

lemma exists_mapM_iff {α β : Type} (f : α → Option β) (xs : List α) :
    (∃ ys, xs.mapM f = some ys) ↔ ∀ x ∈ xs, ∃ y, f x = some y := by
  induction xs with
  | nil => simp
  | cons x xs ih =>
    rw [List.forall_mem_cons, ← ih, List.mapM_cons]
    cases f x <;> cases xs.mapM f <;> simp

namespace World

variable {σ : Type} {world : World σ} {draws : Draws} {params : RunParams} {active gap : Nat}

/-- The run ends if all of its lanes do. -/
lemma exists_runStress_iff (hactive : world.authenticatedCount = active)
    (hgap : laneGap? active params.targetRate = some gap) :
    (∃ after, world.runStress draws params = some after) ↔
      ∀ lane < active, ∃ n, (⟨active, gap, params.duration⟩ : Schedule).Leaves lane 0 n := by
  simp only [← Schedule.count?_eq_some_iff, ← List.mem_range, ← exists_mapM_iff]
  simp only [runStress, hactive, hgap, Option.bind_eq_bind]
  cases (List.range active).mapM (Schedule.count? ⟨active, gap, params.duration⟩) <;> simp

end World

/-- When stress ends. The gap of a lane is `active / rate` seconds in whole nanoseconds; from about two
thousand million messages per second and client on there is none. A lane leaves its loop just if the last
deadline that its counter can name is not before the end of the run; so without a gap no lane ever
leaves, and all do with one if the run is short enough. The run ends if all of its lanes do. -/
theorem stress_ends_iff {active rate : Nat} (hactive : 0 < active) (hactive' : active < 2 ^ 64)
    (hrate : 0 < rate) (hrate' : rate < 2 ^ 64) :
    ∃ gap, laneGap? active rate = some gap ∧
      |(gap : ℚ) - 1000000000 * (active / rate)| ≤ 1 / 2 + 1000000000 * (active / rate) / 2 ^ 49 ∧
      (rate ≤ 1999999999 * active → 0 < gap) ∧ (2000000001 * active ≤ rate → gap = 0) ∧
      ∀ duration, let s : Schedule := ⟨active, gap, duration⟩
        (∀ lane < active,
          ((∃ n, s.Leaves lane 0 n) ↔ duration ≤ s.offset lane (2 ^ 32 - 1)) ∧
          ∀ n, s.Leaves lane 0 n ↔ s.count? lane = some n) ∧
        (0 < duration → gap = 0 → ∀ lane < active, ∀ n, ¬s.Leaves lane 0 n) ∧
        (duration ≤ gap * (2 ^ 32 - 1) → ∀ lane < active, ∃ n, s.Leaves lane 0 n) ∧
        ∀ {σ : Type} (world : World σ) (draws : Draws) (params : RunParams),
          world.authenticatedCount = active → params.targetRate = rate → params.duration = duration →
          ((∃ after, world.runStress draws params = some after) ↔
            ∀ lane < active, ∃ n, s.Leaves lane 0 n) := by
  obtain ⟨gap, hgap, hclose⟩ := laneGap?_close hactive hactive' hrate hrate'
  refine ⟨gap, hgap, hclose, fun hslow => laneGap?_pos hrate hslow hclose,
    fun hfast => laneGap?_zero hrate hfast hclose, fun duration => ?_⟩
  intro s
  refine ⟨fun lane _ => ⟨Schedule.exists_leaves_iff, fun n => Schedule.count?_eq_some_iff.symm⟩,
    fun hduration hzero lane _ n => Schedule.not_leaves hzero hduration, fun hshort lane _ => ?_, ?_⟩
  · exact Schedule.exists_leaves_iff.mpr (Nat.le_trans hshort (Nat.le_add_left _ _))
  · rintro σ world draws params hcount rfl rfl
    exact World.exists_runStress_iff hcount hgap

/-- Three clients at seven messages per second are done after a second, and after twenty years. -/
theorem sevenths_end :
    ∃ gap, laneGap? 3 7 = some gap ∧ 0 < gap ∧
      ∀ lane < 3, (∃ n, (⟨3, gap, .ofSecs 1⟩ : Schedule).Leaves lane 0 n) ∧
        ∃ n, (⟨3, gap, .ofSecs 630720000⟩ : Schedule).Leaves lane 0 n := by
  obtain ⟨gap, hgap, -, hpos, -, hall⟩ :=
    @stress_ends_iff 3 7 (by decide) (by decide) (by decide) (by decide)
  have hvalue : gap = 428571429 := by
    have : laneGap? 3 7 = some 428571429 := by decide +kernel
    exact Option.some.inj (hgap.symm.trans this)
  refine ⟨gap, hgap, hpos (by decide), fun lane hlane => ⟨?_, ?_⟩⟩
  · exact (hall _).2.2.1 (by subst hvalue; decide) lane hlane
  · exact (hall _).2.2.1 (by subst hvalue; decide) lane hlane

namespace World

/-- One client, authenticated. -/
def loner : World Unit where
  net := { peer := Peer.quiet, memory := (), links := [{}] }
  agents := [
    { client := { id := 1, state := .authenticated, writer := some 0, reader := some { conn := 0 } } }]

def stressed (rate : Nat) (duration : Duration) : RunParams where
  clients := 1
  duration := duration
  targetRate := rate

/-- A quarter of a nanosecond is no gap, and the run never ends; with a gap of one nanosecond the counter
starts over after less than five seconds. -/
theorem endless_stress :
    (laneGap? 1 4000000000 = some 0 ∧ (∀ n, ¬(⟨1, 0, 10000000⟩ : Schedule).Leaves 0 0 n) ∧
      ¬∃ after, loner.runStress (fun _ k => k) (stressed 4000000000 10000000) = some after) ∧
    (laneGap? 1 1000000000 = some 1 ∧ (∀ n, ¬(⟨1, 1, .ofSecs 5⟩ : Schedule).Leaves 0 0 n) ∧
      ¬∃ after, loner.runStress (fun _ k => k) (stressed 1000000000 (.ofSecs 5)) = some after) := by
  have hactive : loner.authenticatedCount = 1 := by decide
  have hnone : laneGap? 1 4000000000 = some 0 := by decide +kernel
  have hone : laneGap? 1 1000000000 = some 1 := by decide +kernel
  have hnever : ∀ n, ¬(⟨1, 0, 10000000⟩ : Schedule).Leaves 0 0 n :=
    fun n => Schedule.not_leaves rfl (by decide)
  have hlong : ∀ n, ¬(⟨1, 1, .ofSecs 5⟩ : Schedule).Leaves 0 0 n :=
    fun n h => absurd h.room (by decide)
  refine ⟨⟨hnone, hnever, ?_⟩, ⟨hone, hlong, ?_⟩⟩
  · rw [exists_runStress_iff hactive hnone]
    exact fun h => (h 0 Nat.one_pos).elim hnever
  · rw [exists_runStress_iff hactive hone]
    exact fun h => (h 0 Nat.one_pos).elim hlong

end World

end ChatLoad
