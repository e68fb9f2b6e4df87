import Mathlib
import ChatLoad.Scenario.Schedule

/-! The arithmetic of the lanes: their messages, numbered across all lanes, come in the order of their
numbers and without a gap. -/

namespace ChatLoad.Schedule

/-- There are lanes, time goes on between the messages of each, and none needs more messages than its
counter has numbers. -/
structure Bounded (s : Schedule) : Prop where
  lanes : 0 < s.lanes
  gap : 0 < s.gap
  room : ∀ lane < s.lanes, s.duration ≤ s.offset lane (counterSize - 1)

/-- When the message of a number is due, in whichever lane it is. -/
def moment (s : Schedule) (m : Nat) : Duration :=
  s.offset (m % s.lanes) (m / s.lanes)

def counts (s : Schedule) (lane : Nat) : Nat :=
  (s.count? lane).getD 0

variable {s : Schedule} {lane other k : Nat}

/-! ### One lane -/

/-- How often a gap fits before the end, the first time at once. -/
lemma lt_fits_iff {first gap last : Nat} (hgap : 0 < gap) (hfirst : first < last) :
    k < (last - 1 - first) / gap + 1 ↔ first + gap * k < last := by
  rw [Nat.lt_succ_iff, Nat.le_div_iff_mul_le hgap, Nat.mul_comm k]
  omega

lemma count?_eq_counts (bounded : s.Bounded) (h : lane < s.lanes) :
    s.count? lane = some (s.counts lane) := by
  suffices hsome : ∃ count, s.count? lane = some count by
    obtain ⟨count, hcount⟩ := hsome
    rw [counts, hcount, Option.getD_some]
  by_cases hfirst : s.duration ≤ s.step * lane
  · exact ⟨0, by simp only [count?, hfirst, if_true]⟩
  · refine ⟨(s.duration - 1 - s.step * lane) / s.gap + 1, ?_⟩
    have hroom : ¬counterSize - 1 < (s.duration - 1 - s.step * lane) / s.gap + 1 := by
      rw [lt_fits_iff bounded.gap (Nat.lt_of_not_le hfirst)]
      exact Nat.not_lt_of_le (bounded.room lane h)
    have hcount : (s.duration - 1 - s.step * lane) / s.gap + 1 < counterSize :=
      Nat.lt_of_le_of_lt (Nat.le_of_not_lt hroom) (by decide)
    simp only [count?, hfirst, bounded.gap.ne', hcount, if_true, if_false]

lemma mapM_count? (bounded : s.Bounded) {lanes : List Nat} (h : ∀ lane ∈ lanes, lane < s.lanes) :
    lanes.mapM s.count? = some (lanes.map s.counts) := by
  induction lanes with
  | nil => rfl
  | cons lane lanes ih =>
    obtain ⟨hone, hrest⟩ := List.forall_mem_cons.mp h
    rw [List.mapM_cons, count?_eq_counts bounded hone, ih hrest]
    rfl

/-- A lane sends as long as its messages are due before the end. -/
lemma lt_counts_iff (bounded : s.Bounded) (h : lane < s.lanes) :
    k < s.counts lane ↔ s.offset lane k < s.duration := by
  have hcount := count?_eq_counts bounded h
  simp only [count?, bounded.gap.ne', if_false] at hcount
  by_cases hfirst : s.duration ≤ s.step * lane
  · rw [if_pos hfirst, Option.some.injEq] at hcount
    have hlate : s.duration ≤ s.offset lane k := Nat.le_trans hfirst (Nat.le_add_right _ _)
    rw [← hcount]
    exact iff_of_false (Nat.not_lt_zero k) (Nat.not_lt_of_le hlate)
  · rw [if_neg hfirst] at hcount
    split at hcount
    · rw [Option.some.injEq] at hcount
      rw [← hcount]
      exact lt_fits_iff bounded.gap (Nat.lt_of_not_le hfirst)
    · cases hcount

/-! ### All lanes -/

lemma step_mul_le (s : Schedule) (h : lane ≤ s.lanes) : s.step * lane ≤ s.gap :=
  Nat.le_trans (Nat.mul_le_mul_left s.step h) (Nat.div_mul_le_self s.gap s.lanes)

/-- A round of messages is over before the next one begins. -/
lemma offset_le_succ (s : Schedule) (h : lane ≤ s.lanes) :
    s.offset lane k ≤ s.offset other (k + 1) := by
  calc s.step * lane + s.gap * k ≤ s.gap + s.gap * k := Nat.add_le_add_right (s.step_mul_le h) _
    _ = s.gap * (k + 1) := by rw [Nat.mul_succ, Nat.add_comm]
    _ ≤ s.step * other + s.gap * (k + 1) := Nat.le_add_left _ _

lemma number_div_mod (h : lane < s.lanes) :
    s.number lane k / s.lanes = k ∧ s.number lane k % s.lanes = lane := by
  rw [Nat.div_mod_unique (Nat.zero_lt_of_lt h), number, Nat.mul_comm, Nat.add_comm]
  exact ⟨rfl, h⟩

lemma moment_number (h : lane < s.lanes) : s.moment (s.number lane k) = s.offset lane k := by
  obtain ⟨hdiv, hmod⟩ := @number_div_mod s lane k h
  rw [moment, hdiv, hmod]

lemma number_mod_div (s : Schedule) (m : Nat) : s.number (m % s.lanes) (m / s.lanes) = m :=
  Nat.div_add_mod' m s.lanes

lemma offset_mono (s : Schedule) (lane : Nat) : Monotone (s.offset lane) :=
  fun _ _ h => Nat.add_le_add_left (Nat.mul_le_mul_left s.gap h) _

lemma moment_mono (h : 0 < s.lanes) : Monotone s.moment := by
  intro m m' hle
  have hlane := Nat.mod_lt m h
  rcases (Nat.div_le_div_right hle : m / s.lanes ≤ m' / s.lanes).eq_or_lt with hsame | hless
  · -- in the same round the lanes come one after the other
    have hm := Nat.div_add_mod m s.lanes
    have hm' := Nat.div_add_mod m' s.lanes
    rw [hsame] at hm
    have hlanes : m % s.lanes ≤ m' % s.lanes := by omega
    rw [moment, moment, hsame]
    exact Nat.add_le_add_right (Nat.mul_le_mul_left s.step hlanes) _
  · calc s.moment m ≤ s.offset (m' % s.lanes) (m / s.lanes + 1) := s.offset_le_succ hlane.le
      _ ≤ s.moment m' := s.offset_mono _ hless

lemma offset_le_of_number_le (h : lane < s.lanes) (h' : other < s.lanes) {k' : Nat}
    (hle : s.number lane k ≤ s.number other k') : s.offset lane k ≤ s.offset other k' := by
  rw [← moment_number h, ← moment_number h']
  exact moment_mono (Nat.zero_lt_of_lt h) hle

lemma counts_le_succ (bounded : s.Bounded) (h : lane < s.lanes) (h' : other < s.lanes) :
    s.counts lane ≤ s.counts other + 1 := by
  by_contra hmore
  have hlast := (lt_counts_iff bounded h).mp (Nat.lt_of_not_le hmore)
  have hdue : s.offset other (s.counts other) < s.duration :=
    Nat.lt_of_le_of_lt (s.offset_le_succ h'.le) hlast
  exact Nat.lt_irrefl _ ((lt_counts_iff bounded h').mpr hdue)

/-! ### All messages -/

lemma exists_total (bounded : s.Bounded) : ∃ total, ∀ m, m < total ↔ s.moment m < s.duration := by
  have hend : ∃ m, s.duration ≤ s.moment m := by
    refine ⟨s.number 0 s.duration, ?_⟩
    rw [moment_number bounded.lanes, offset, Nat.mul_zero, Nat.zero_add]
    exact Nat.le_mul_of_pos_left _ bounded.gap
  classical
  refine ⟨Nat.find hend, fun m => ?_⟩
  rw [Nat.lt_find_iff]
  constructor
  · intro hbefore
    exact Nat.lt_of_not_le (hbefore m (Nat.le_refl m))
  · intro hdue earlier hle hend'
    exact Nat.not_le_of_lt hdue (Nat.le_trans hend' (moment_mono bounded.lanes hle))

def numbers (s : Schedule) : List Nat :=
  (List.range s.lanes).flatMap fun lane => (List.range (s.counts lane)).map (s.number lane)

lemma mem_numbers (bounded : s.Bounded) {m : Nat} :
    m ∈ s.numbers ↔ s.moment m < s.duration := by
  simp only [numbers, List.mem_flatMap, List.mem_map, List.mem_range]
  constructor
  · rintro ⟨lane, h, k, hk, rfl⟩
    rw [moment_number h]
    exact (lt_counts_iff bounded h).mp hk
  · intro hdue
    have hlane := Nat.mod_lt m bounded.lanes
    exact ⟨m % s.lanes, hlane, m / s.lanes, (lt_counts_iff bounded hlane).mpr hdue,
      s.number_mod_div m⟩

lemma numbers_nodup (s : Schedule) : s.numbers.Nodup := by
  have hback {lane : Nat} (h : lane ∈ List.range s.lanes) (k : Nat) :=
    @number_div_mod s lane k (List.mem_range.mp h)
  rw [numbers, List.nodup_flatMap]
  refine ⟨fun lane h => ?_, List.nodup_range.pairwise_of_forall_ne fun lane h other h' hne => ?_⟩
  · refine List.nodup_range.map_on fun k _ k' _ heq => ?_
    rw [← (hback h k).1, heq, (hback h k').1]
  · intro m hm hm'
    obtain ⟨k, _, rfl⟩ := List.mem_map.mp hm
    obtain ⟨k', _, heq⟩ := List.mem_map.mp hm'
    apply hne
    rw [← (hback h k).2, ← heq, (hback h' k').2]

lemma numbers_perm (bounded : s.Bounded) {total : Nat}
    (htotal : ∀ m, m < total ↔ s.moment m < s.duration) : s.numbers.Perm (List.range total) := by
  rw [List.perm_ext_iff_of_nodup s.numbers_nodup List.nodup_range]
  intro m
  rw [mem_numbers bounded, List.mem_range, htotal]

/-! ### The rate -/

section

variable {total : Nat}

lemma duration_le_total (htotal : ∀ m, m < total ↔ s.moment m < s.duration) :
    s.duration * s.lanes ≤ total * s.gap := by
  have hend : s.duration ≤ s.moment total :=
    Nat.le_of_not_lt fun h => Nat.lt_irrefl total ((htotal total).mpr h)
  calc s.duration * s.lanes ≤ s.moment total * s.lanes := Nat.mul_le_mul_right _ hend
    _ = s.step * s.lanes * (total % s.lanes) + total / s.lanes * s.lanes * s.gap := by
      rw [moment, offset]
      ring
    _ ≤ s.gap * (total % s.lanes) + total / s.lanes * s.lanes * s.gap :=
      Nat.add_le_add_right (Nat.mul_le_mul_right _ (s.step_mul_le (Nat.le_refl _))) _
    _ = (total / s.lanes * s.lanes + total % s.lanes) * s.gap := by ring
    _ = total * s.gap := by rw [Nat.div_add_mod']

lemma total_lt_duration (bounded : s.Bounded) (htotal : ∀ m, m < total ↔ s.moment m < s.duration) :
    total * s.gap < s.duration * s.lanes + s.lanes * s.gap := by
  have hround : 0 < s.lanes * s.gap := Nat.mul_pos bounded.lanes bounded.gap
  cases total with
  | zero => omega
  | succ last =>
    have hlast : s.gap * (last / s.lanes) < s.duration :=
      Nat.lt_of_le_of_lt (Nat.le_add_left _ _) ((htotal last).mp (Nat.lt_succ_self last))
    have hless : last + 1 ≤ last / s.lanes * s.lanes + s.lanes := by
      have hmod := Nat.mod_lt last bounded.lanes
      have hdiv := Nat.div_add_mod' last s.lanes
      omega
    calc (last + 1) * s.gap ≤ (last / s.lanes * s.lanes + s.lanes) * s.gap :=
        Nat.mul_le_mul_right _ hless
      _ = s.gap * (last / s.lanes) * s.lanes + s.lanes * s.gap := by ring
      _ < s.duration * s.lanes + s.lanes * s.gap :=
        Nat.add_lt_add_right (Nat.mul_lt_mul_of_pos_right hlast bounded.lanes) _

end

end ChatLoad.Schedule
