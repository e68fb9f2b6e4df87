import ChatLoad.Stats.Latency
import Mathlib.Data.List.Sort

/-! Summaries look at samples in the total order of doubles only, and in that order no two different
doubles share a place: what a summary says does not depend on the order in which samples arrived. -/

namespace ChatLoad.Latency

lemma place_injective : Function.Injective place := by
  intro a b h
  have ha := a.toNat_lt
  have hb := b.toNat_lt
  -- the sign of the place is the sign bit, and then its size is all the other bits
  simp only [place, Double.signBit] at h
  apply UInt64.toNat_inj.mp
  omega

lemma sort_perm {α : Type} [Sample α] (samples : List α) : (sort samples).Perm samples :=
  List.mergeSort_perm samples _

lemma sort_pairwise {α : Type} [Sample α] (samples : List α) :
    (sort samples).Pairwise fun a b => rank a ≤ rank b := by
  have h : (sort samples).Pairwise fun a b => decide (rank a ≤ rank b) :=
    List.pairwise_mergeSort
      (fun a b c hab hbc => by
        simp only [decide_eq_true_eq] at *
        exact hab.trans hbc)
      (fun a b => by
        simp only [Bool.or_eq_true, decide_eq_true_eq]
        exact Int.le_total _ _)
      samples
  simpa only [decide_eq_true_eq] using h

/-- Ties are the same double, so there is only one way to put samples in order. -/
theorem sort_congr {samples others : List UInt64} (h : samples.Perm others) :
    sort samples = sort others := by
  have hp : (sort samples).Perm (sort others) :=
    (sort_perm samples).trans (h.trans (sort_perm others).symm)
  refine hp.eq_of_pairwise (fun a b _ _ hab hba => ?_) (sort_pairwise samples)
    (sort_pairwise others)
  exact place_injective (Int.le_antisymm hab hba)

theorem summary_congr {samples others : List UInt64} (h : samples.Perm others) :
    summary? samples = summary? others := by
  simp only [summary?, sort_congr h]

end ChatLoad.Latency
