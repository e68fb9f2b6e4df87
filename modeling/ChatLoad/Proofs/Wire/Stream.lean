import ChatLoad.Proofs.Wire.Grammar

/-! What one request takes off a stream, whatever pieces the stream arrives in. The bytes at hand are
those in the buffer and those that can still be read. -/

namespace ChatLoad

namespace Delivery

/-- The bytes before the end of a stream. Faults take none of them away. -/
def bytes : List Delivery → Bytes
  | [] => []
  | .chunk bytes' :: later => bytes' ++ bytes later
  | .fault _ :: later => bytes later
  | .finish :: _ => []

def faults : List Delivery → List String
  | [] => []
  | .chunk _ :: later => faults later
  | .fault text :: later => text :: faults later
  | .finish :: _ => []

def Ended (stream : List Delivery) : Prop :=
  .finish ∈ stream

lemma append_of_ended {stream : List Delivery} (h : Ended stream) (more : List Delivery) :
    bytes (stream ++ more) = bytes stream ∧ faults (stream ++ more) = faults stream := by
  induction stream with
  | nil => simp [Ended] at h
  | cons delivery later ih =>
    cases delivery with
    | chunk piece =>
      have hl : Ended later := by simpa [Ended] using h
      simp [bytes, faults, ih hl]
    | fault text =>
      have hl : Ended later := by simpa [Ended] using h
      simp [bytes, faults, ih hl]
    | finish => simp [bytes, faults]

lemma append_of_not_ended {stream : List Delivery} (h : ¬ Ended stream) (more : List Delivery) :
    bytes (stream ++ more) = bytes stream ++ bytes more ∧
      faults (stream ++ more) = faults stream ++ faults more := by
  induction stream with
  | nil => simp [bytes, faults]
  | cons delivery later ih =>
    cases delivery with
    | chunk piece =>
      have hl : ¬ Ended later := by simpa [Ended] using h
      simp [bytes, faults, ih hl]
    | fault text =>
      have hl : ¬ Ended later := by simpa [Ended] using h
      simp [bytes, faults, ih hl]
    | finish => simp [Ended] at h

/-- Whoever reads on comes to the end of the stream, or to a fault. -/
def Halting (stream : List Delivery) : Prop :=
  Ended stream ∨ faults stream ≠ []

lemma Halting.append {stream : List Delivery} (h : Halting stream) (more : List Delivery) :
    Halting (stream ++ more) := by
  by_cases hend : Ended stream
  · exact .inl (List.mem_append_left _ hend)
  · refine .inr ?_
    rw [(append_of_not_ended hend more).2]
    exact List.append_ne_nil_of_left_ne_nil (h.resolve_left hend) _

/-- Nothing comes after the end of a stream. -/
def Sound (stream : List Delivery) : Prop :=
  ∀ before later, stream = before ++ .finish :: later → later = []

lemma sound_nil : Sound [] := by
  intro before later heq
  simp at heq

lemma Sound.suffix {stream rest : List Delivery} (h : Sound stream) (hs : rest <:+ stream) :
    Sound rest := by
  obtain ⟨read, rfl⟩ := hs
  intro before later heq
  exact h (read ++ before) later (by rw [heq, List.append_assoc])

lemma sound_concat {stream : List Delivery} (h : ¬ Ended stream) (delivery : Delivery) :
    Sound (stream ++ [delivery]) := by
  intro before later heq
  rcases List.eq_nil_or_concat later with rfl | ⟨between, last, rfl⟩
  · rfl
  · rw [List.concat_eq_append, ← List.cons_append, ← List.append_assoc] at heq
    obtain ⟨rfl, _⟩ := List.append_inj' heq rfl
    exact absurd (List.mem_append_right _ List.mem_cons_self) h

lemma Sound.cases {stream : List Delivery} (h : Sound stream) :
    ¬ Ended stream ∨ ∃ before, ¬ Ended before ∧ stream = before ++ [.finish] := by
  by_cases hend : Ended stream
  · obtain ⟨before, later, heq, hbefore⟩ := List.eq_append_cons_of_mem hend
    rw [h before later heq] at heq
    exact .inr ⟨before, hbefore, heq⟩
  · exact .inl hend

lemma Sound.not_ended {stream : List Delivery} (h : Sound stream)
    (hlast : stream.getLast? ≠ some .finish) : ¬ Ended stream := by
  rcases h.cases with hend | ⟨before, _, rfl⟩
  · exact hend
  · simp at hlast

end Delivery

namespace Polled

def items : Polled → List Item
  | item found => [found]
  | _ => []

def faults : Polled → List String
  | fault text => [text]
  | _ => []

end Polled

namespace Inbound

open Item Delivery

/-- How a request is answered, by what is in the buffer and what comes first on the stream. -/
inductive Polls : Bytes → List Delivery → Polled × Bytes × List Delivery → Prop
  | item {buffer : Bytes} (stream : List Delivery) {found : Item} {rest : Bytes} :
      Cut buffer found rest → Polls buffer stream (.item found, rest, stream)
  | pending {buffer : Bytes} : Unfinished buffer → Polls buffer [] (.pending, buffer, [])
  | chunk {buffer piece : Bytes} {later : List Delivery} {polled : Polled × Bytes × List Delivery} :
      Unfinished buffer → Polls (buffer ++ piece) later polled →
      Polls buffer (.chunk piece :: later) polled
  | fault {buffer : Bytes} (text : String) (later : List Delivery) :
      Unfinished buffer → Polls buffer (.fault text :: later) (.fault text, buffer, later)
  | closed {buffer : Bytes} (later : List Delivery) :
      Unfinished buffer → Polls buffer (.finish :: later) (.closed, buffer, .finish :: later)

theorem polls_poll (buffer : Bytes) (stream : List Delivery) :
    Polls buffer stream (poll buffer stream) := by
  induction buffer, stream using poll.induct with
  | case1 stream buffer item rest h =>
    rw [poll.eq_def, h]
    exact .item stream (split?_eq_some_iff.mp h)
  | case2 buffer h =>
    rw [poll.eq_def, h]
    exact .pending (split?_eq_none_iff.mp h)
  | case3 buffer h piece later ih =>
    rw [poll.eq_def, h]
    exact .chunk (split?_eq_none_iff.mp h) ih
  | case4 buffer h text later =>
    rw [poll.eq_def, h]
    exact .fault text later (split?_eq_none_iff.mp h)
  | case5 buffer h later =>
    rw [poll.eq_def, h]
    exact .closed later (split?_eq_none_iff.mp h)

section

variable {buffer : Bytes} {stream : List Delivery} {polled : Polled × Bytes × List Delivery}

theorem Polls.cuts (h : Polls buffer stream polled) :
    Cuts (buffer ++ bytes stream) polled.1.items (polled.2.1 ++ bytes polled.2.2) := by
  induction h with
  | item stream hcut => exact .cons (hcut.append _) (.nil _)
  | chunk _ _ ih => simpa only [bytes, List.append_assoc] using ih
  | pending | fault | closed => exact .nil _

/-- Only a request that finds no complete item in what came before goes without one. -/
theorem Polls.unfinished (h : Polls buffer stream polled) (hitems : polled.1.items = []) :
    Unfinished polled.2.1 := by
  induction h with
  | item => cases hitems
  | chunk _ _ ih => exact ih hitems
  | pending hrest | fault _ _ hrest | closed _ hrest => exact hrest

theorem Polls.faults_eq (h : Polls buffer stream polled) :
    faults stream = polled.1.faults ++ faults polled.2.2 := by
  induction h with
  | chunk _ _ ih => exact ih
  | item | pending | fault | closed => rfl

theorem Polls.ended_iff (h : Polls buffer stream polled) : Ended polled.2.2 ↔ Ended stream := by
  induction h with
  | chunk _ _ ih => simpa [Ended] using ih
  | fault => simp [Ended]
  | item | pending | closed => rfl

theorem Polls.last (h : Polls buffer stream polled) :
    (polled.1 = .pending → polled.2.2 = []) ∧
      (polled.1 = .closed → ∃ later, polled.2.2 = .finish :: later) := by
  induction h with
  | chunk _ _ ih => exact ih
  | item | pending | fault | closed => simp

/-- A request waits as long as no item is complete and the stream goes on. -/
theorem Polls.pending_iff (h : Polls buffer stream polled) :
    polled.1 = .pending ↔ Unfinished (buffer ++ bytes stream) ∧ ¬ Halting stream := by
  have hcuts := h.cuts
  have hlast := h.last
  have hended := h.ended_iff
  have hfaults := h.faults_eq
  constructor
  · intro hpending
    have hunfinished := h.unfinished (by rw [hpending]; rfl)
    rw [hpending, hlast.1 hpending, bytes, List.append_nil] at hcuts
    rw [hlast.1 hpending] at hended
    rw [hpending, hlast.1 hpending] at hfaults
    rw [hcuts.eq_of_nil] at hunfinished
    refine ⟨hunfinished, ?_⟩
    rintro (hend | hfault)
    · exact List.not_mem_nil (hended.mpr hend)
    · exact hfault hfaults
  · rintro ⟨hunfinished, hgoes⟩
    cases ha : polled.1 with
    | pending => rfl
    | item found =>
      have hnil := hcuts.eq_nil_of_unfinished hunfinished
      rw [ha] at hnil
      cases hnil
    | closed =>
      obtain ⟨later, hlater⟩ := hlast.2 ha
      rw [hlater] at hended
      exact absurd (.inl (hended.mp List.mem_cons_self)) hgoes
    | fault text =>
      rw [ha] at hfaults
      exact absurd (.inr (hfaults ▸ List.cons_ne_nil _ _)) hgoes

theorem Polls.suffix (h : Polls buffer stream polled) : polled.2.2 <:+ stream := by
  induction h with
  | chunk _ _ ih => exact ih.trans (List.suffix_cons _ _)
  | fault => exact List.suffix_cons _ _
  | item | pending | closed => exact List.suffix_rfl

end

/-! ### Draining -/

/-- What comes of asking on until a stream has no more to give, delivery by delivery. -/
inductive Drains : Bytes → List Delivery → List Item × Polled × Bytes × List Delivery → Prop
  | pending {buffer rest : Bytes} {items : List Item} :
      Cuts buffer items rest → Unfinished rest → Drains buffer [] (items, .pending, rest, [])
  | chunk {buffer rest piece : Bytes} {items items' : List Item} {later : List Delivery}
      {last : Polled × Bytes × List Delivery} :
      Cuts buffer items rest → Drains (rest ++ piece) later (items', last) →
      Drains buffer (.chunk piece :: later) (items ++ items', last)
  | fault {buffer rest : Bytes} {items : List Item} (text : String) (later : List Delivery) :
      Cuts buffer items rest → Unfinished rest →
      Drains buffer (.fault text :: later) (items, .fault text, rest, later)
  | closed {buffer rest : Bytes} {items : List Item} (later : List Delivery) :
      Cuts buffer items rest → Unfinished rest →
      Drains buffer (.finish :: later) (items, .closed, rest, .finish :: later)

theorem drains_drain (buffer : Bytes) (stream : List Delivery) :
    Drains buffer stream (drain buffer stream) := by
  induction stream generalizing buffer with
  | nil => exact .pending (parse_cuts buffer).1 (parse_cuts buffer).2
  | cons delivery later ih =>
    cases delivery with
    | chunk piece => exact .chunk (parse_cuts buffer).1 (ih _)
    | fault text => exact .fault text later (parse_cuts buffer).1 (parse_cuts buffer).2
    | finish => exact .closed later (parse_cuts buffer).1 (parse_cuts buffer).2

section

variable {buffer : Bytes} {stream : List Delivery}
  {drained : List Item × Polled × Bytes × List Delivery}

theorem Drains.cuts (h : Drains buffer stream drained) :
    Cuts (buffer ++ bytes stream) drained.1 (drained.2.2.1 ++ bytes drained.2.2.2) := by
  induction h with
  | chunk hcuts _ ih =>
    rw [List.append_assoc] at ih
    exact (hcuts.append _).trans ih
  | pending hcuts | fault _ _ hcuts | closed _ hcuts => exact hcuts.append _

theorem Drains.unfinished (h : Drains buffer stream drained) : Unfinished drained.2.2.1 := by
  induction h with
  | chunk _ _ ih => exact ih
  | pending _ hrest | fault _ _ _ hrest | closed _ _ hrest => exact hrest

theorem Drains.ended_iff (h : Drains buffer stream drained) :
    Ended drained.2.2.2 ↔ Ended stream := by
  induction h with
  | chunk _ _ ih => simpa [Ended] using ih
  | fault => simp [Ended]
  | pending | closed => rfl

theorem Drains.faults_eq (h : Drains buffer stream drained) :
    faults stream = drained.2.1.faults ++ faults drained.2.2.2 := by
  induction h with
  | chunk _ _ ih => exact ih
  | pending | fault | closed => rfl

theorem Drains.suffix (h : Drains buffer stream drained) : drained.2.2.2 <:+ stream := by
  induction h with
  | chunk _ _ ih => exact ih.trans (List.suffix_cons _ _)
  | fault => exact List.suffix_cons _ _
  | pending | closed => exact List.suffix_rfl

theorem Drains.last (h : Drains buffer stream drained) :
    (drained.2.1 = .pending ∧ drained.2.2.2 = []) ∨
      (drained.2.1 = .closed ∧ ∃ later, drained.2.2.2 = .finish :: later) ∨
      ∃ text, drained.2.1 = .fault text := by
  induction h with
  | chunk _ _ ih => exact ih
  | pending | fault | closed => simp

end

end Inbound

end ChatLoad
