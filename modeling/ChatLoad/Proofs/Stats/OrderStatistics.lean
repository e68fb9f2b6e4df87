import ChatLoad.Proofs.Stats.Ranking

/-! What a summary says of its samples. Everything in it but the mean is a sample that stands at a
known place of the order, or half the sum of two that stand side by side. -/

namespace ChatLoad.Latency

variable {α : Type} [Sample α]

/-! ### Samples at a place of the order -/

def below (samples : List α) (x : α) : Nat :=
  samples.countP fun other => rank other < rank x

/-- NaN with its sign set comes first and NaN without it last, and -0.0 before 0.0. -/
example : sort [0x7ff8000000000000, 0, 0x8000000000000000, (0xfff8000000000000 : UInt64)] =
    [0xfff8000000000000, 0x8000000000000000, 0, 0x7ff8000000000000] := by
  cbv

end ChatLoad.Latency
