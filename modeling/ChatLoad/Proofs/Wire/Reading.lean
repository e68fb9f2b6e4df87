import ChatLoad.Proofs.Wire.Stream

/-! Readers over time: deliveries and requests in any order, a request that finds nothing being given
up at once. Cuts, delays and faults make no difference to the items that are read. -/

namespace ChatLoad.Inbound

open Item Delivery

inductive Input
  | arrival (delivery : Delivery)
  | request

def arrivals : List Input → List Delivery
  | [] => []
  | .arrival delivery :: inputs => delivery :: arrivals inputs
  | .request :: inputs => arrivals inputs

def replies (buffer : Bytes) (stream : List Delivery) :
    List Input → List Polled × Bytes × List Delivery
  | [] => ([], buffer, stream)
  | .arrival delivery :: inputs => replies buffer (stream ++ [delivery]) inputs
  | .request :: inputs =>
      let polled := poll buffer stream
      let later := replies polled.2.1 polled.2.2 inputs
      (polled.1 :: later.1, later.2)

def answers (inputs : List Input) : List Polled :=
  (replies [] [] inputs).1

def held (inputs : List Input) : Bytes :=
  (replies [] [] inputs).2.1 ++ bytes (replies [] [] inputs).2.2

/-- The answers that tell of an item or of the end. -/
def told (answers : List Polled) : List Polled :=
  answers.filter fun answer => answer matches .item _ | .closed

variable (buffer : Bytes) (stream : List Delivery) (inputs : List Input)

lemma replies_append (more : List Input) :
    replies buffer stream (inputs ++ more) =
      ((replies buffer stream inputs).1 ++
        (replies (replies buffer stream inputs).2.1 (replies buffer stream inputs).2.2 more).1,
      (replies (replies buffer stream inputs).2.1 (replies buffer stream inputs).2.2 more).2) := by
  induction inputs generalizing buffer stream with
  | nil => rfl
  | cons input inputs ih =>
    cases input with
    | arrival delivery => exact ih _ _
    | request => simp [replies, ih]

lemma arrivals_append (more : List Input) : arrivals (inputs ++ more) = arrivals inputs ++ arrivals more := by
  induction inputs with
  | nil => rfl
  | cons input inputs ih => cases input <;> simp [arrivals, ih]

lemma arrivals_requests (n : Nat) : arrivals (List.replicate n .request) = [] := by
  induction n with
  | zero => rfl
  | succ n ih => exact ih

lemma bytes_append_congr {stream stream' : List Delivery} (h : Ended stream' ↔ Ended stream)
    (more : List Delivery) : ∃ extra extra',
      bytes (stream ++ more) = bytes stream ++ extra ∧
        bytes (stream' ++ more) = bytes stream' ++ extra ∧
      faults (stream ++ more) = faults stream ++ extra' ∧
        faults (stream' ++ more) = faults stream' ++ extra' := by
  by_cases he : Ended stream
  · have h1 := append_of_ended he more
    have h2 := append_of_ended (h.mpr he) more
    exact ⟨[], [], by simp [h1], by simp [h2], by simp [h1], by simp [h2]⟩
  · have h1 := append_of_not_ended he more
    have h2 := append_of_not_ended (h.not.mpr he) more
    exact ⟨_, _, h1.1, h2.1, h1.2, h2.2⟩

theorem replies_cuts :
    Cuts (buffer ++ bytes (stream ++ arrivals inputs))
      ((replies buffer stream inputs).1.flatMap Polled.items)
      ((replies buffer stream inputs).2.1 ++ bytes (replies buffer stream inputs).2.2) := by
  induction inputs generalizing buffer stream with
  | nil => simpa [replies, arrivals] using Cuts.nil _
  | cons input inputs ih =>
    cases input with
    | arrival delivery => simpa [replies, arrivals] using ih buffer (stream ++ [delivery])
    | request =>
      obtain ⟨extra, _, h1, h2, _, _⟩ :=
        bytes_append_congr (polls_poll buffer stream).ended_iff (arrivals inputs)
      have hp := (polls_poll buffer stream).cuts.append extra
      rw [List.append_assoc, ← h1, List.append_assoc, ← h2] at hp
      exact hp.trans (ih _ _)

theorem replies_faults :
    faults (stream ++ arrivals inputs) =
      (replies buffer stream inputs).1.flatMap Polled.faults ++
        faults (replies buffer stream inputs).2.2 := by
  induction inputs generalizing buffer stream with
  | nil => simp [replies, arrivals]
  | cons input inputs ih =>
    cases input with
    | arrival delivery => simpa [replies, arrivals] using ih buffer (stream ++ [delivery])
    | request =>
      obtain ⟨_, extra, _, _, h1, h2⟩ :=
        bytes_append_congr (polls_poll buffer stream).ended_iff (arrivals inputs)
      have hi := ih (poll buffer stream).2.1 (poll buffer stream).2.2
      rw [h2] at hi
      rw [arrivals, h1, (polls_poll buffer stream).faults_eq, List.append_assoc, hi, replies,
        List.flatMap_cons, List.append_assoc]

theorem replies_ended :
    Ended (replies buffer stream inputs).2.2 ↔ Ended (stream ++ arrivals inputs) := by
  induction inputs generalizing buffer stream with
  | nil => simp [replies, arrivals]
  | cons input inputs ih =>
    cases input with
    | arrival delivery => simpa [replies, arrivals] using ih buffer (stream ++ [delivery])
    | request =>
      have hp := (polls_poll buffer stream).ended_iff
      rw [replies, ih]
      simp only [Ended, List.mem_append, arrivals] at hp ⊢
      rw [hp]

/-! ### The order of answers -/

/-- Nothing but the end is left to tell of. -/
def Over (buffer : Bytes) (stream : List Delivery) : Prop :=
  Unfinished buffer ∧ ∃ later, stream = .finish :: later

lemma Over.bytes {buffer : Bytes} {stream : List Delivery} (h : Over buffer stream) :
    bytes stream = [] := by
  obtain ⟨_, later, rfl⟩ := h
  rfl

lemma poll_over {buffer : Bytes} {stream : List Delivery} (h : Over buffer stream) :
    poll buffer stream = (.closed, buffer, stream) := by
  obtain ⟨hu, later, rfl⟩ := h
  rw [poll.eq_def, split?_eq_none_iff.mpr hu]

lemma over_of_closed {buffer : Bytes} {stream : List Delivery}
    (h : (poll buffer stream).1 = .closed) :
    Over (poll buffer stream).2.1 (poll buffer stream).2.2 :=
  ⟨(polls_poll buffer stream).unfinished (by rw [h]; rfl), (polls_poll buffer stream).last.2 h⟩

lemma replies_over {buffer : Bytes} {stream : List Delivery} (h : Over buffer stream) :
    Over (replies buffer stream inputs).2.1 (replies buffer stream inputs).2.2 ∧
      ∃ k, (replies buffer stream inputs).1 = List.replicate k .closed := by
  induction inputs generalizing stream with
  | nil => exact ⟨h, 0, rfl⟩
  | cons input inputs ih =>
    cases input with
    | arrival delivery =>
      obtain ⟨hu, later, rfl⟩ := h
      exact ih ⟨hu, later ++ [delivery], rfl⟩
    | request =>
      obtain ⟨ho, k, hk⟩ := ih h
      simp only [replies, poll_over h]
      exact ⟨ho, k + 1, by rw [hk, List.replicate_succ]⟩

theorem told_replies : ∃ k,
    told (replies buffer stream inputs).1 =
        ((replies buffer stream inputs).1.flatMap Polled.items).map .item ++
          List.replicate k .closed ∧
      (.closed ∈ (replies buffer stream inputs).1 ↔ 0 < k) ∧
      (0 < k → Over (replies buffer stream inputs).2.1 (replies buffer stream inputs).2.2) := by
  induction inputs generalizing buffer stream with
  | nil => exact ⟨0, by simp [replies, told]⟩
  | cons input inputs ih =>
    cases input with
    | arrival delivery => exact ih _ _
    | request =>
      cases ha : (poll buffer stream).1 with
      | closed =>
        obtain ⟨ho, k, hk⟩ := replies_over inputs (over_of_closed ha)
        exact ⟨k + 1, by simp [replies, ha, told, hk, Polled.items, List.replicate_succ], by
          simp [replies, ha], fun _ => ho⟩
      | item found =>
        obtain ⟨k, ht, hk, ho⟩ := ih (poll buffer stream).2.1 (poll buffer stream).2.2
        refine ⟨k, ?_, by simpa [replies, ha] using hk, ho⟩
        simpa [replies, ha, told, Polled.items] using ht
      | pending =>
        obtain ⟨k, ht, hk, ho⟩ := ih (poll buffer stream).2.1 (poll buffer stream).2.2
        refine ⟨k, ?_, by simpa [replies, ha] using hk, ho⟩
        simpa [replies, ha, told, Polled.items] using ht
      | fault text =>
        obtain ⟨k, ht, hk, ho⟩ := ih (poll buffer stream).2.1 (poll buffer stream).2.2
        refine ⟨k, ?_, by simpa [replies, ha] using hk, ho⟩
        simpa [replies, ha, told, Polled.items] using ht

/-! ### Asking on -/

/-- How many requests are still answered by an item or a fault. -/
def due : Nat :=
  (parse (buffer ++ bytes stream)).1.length + (faults stream).length

lemma due_poll :
    due (poll buffer stream).2.1 (poll buffer stream).2.2 = due buffer stream - 1 := by
  have hpolls := polls_poll buffer stream
  have hc := hpolls.cuts
  have hf := congrArg List.length hpolls.faults_eq
  obtain ⟨hp, hend⟩ := parse_cuts (buffer ++ bytes stream)
  obtain ⟨later, hi, hl⟩ := hc.suffix hp hend
  have hrest := parse_eq_iff.mpr ⟨hl, hend⟩
  have hn := congrArg List.length hi
  simp only [List.length_append] at hf hn
  cases ha : (poll buffer stream).1 with
  | item found =>
    simp only [ha, Polled.items, Polled.faults, List.length_nil, List.length_cons] at hf hn
    simp only [due, hrest]
    omega
  | fault text =>
    simp only [ha, Polled.items, Polled.faults, List.length_nil, List.length_cons] at hf hn
    simp only [due, hrest]
    omega
  | pending =>
    have hs := hpolls.last.1 ha
    have hu : Unfinished (poll buffer stream).2.1 := hpolls.unfinished (by rw [ha]; rfl)
    simp only [hs, bytes, List.append_nil, parse_of_unfinished hu, Prod.mk.injEq] at hrest
    simp only [ha, hs, ← hrest.1, Polled.items, Polled.faults, faults, List.length_nil] at hf hn
    simp only [due, hs, bytes, faults, List.append_nil, parse_of_unfinished hu, List.length_nil]
    omega
  | closed =>
    have ho := over_of_closed ha
    simp only [ho.bytes, List.append_nil, parse_of_unfinished ho.1, Prod.mk.injEq] at hrest
    obtain ⟨hu, rest, hs⟩ := ho
    simp only [ha, hs, ← hrest.1, Polled.items, Polled.faults, faults, List.length_nil] at hf hn
    simp only [due, hs, bytes, faults, List.append_nil, parse_of_unfinished hu, List.length_nil]
    omega

lemma due_requests (n : Nat) :
    due (replies buffer stream (List.replicate n .request)).2.1
      (replies buffer stream (List.replicate n .request)).2.2 = due buffer stream - n := by
  induction n generalizing buffer stream with
  | zero => rfl
  | succ n ih =>
    rw [List.replicate_succ, replies, ih, due_poll]
    omega

lemma unfinished_of_due {buffer : Bytes} {stream : List Delivery} (h : due buffer stream = 0) :
    Unfinished (buffer ++ bytes stream) := by
  have hp : (parse (buffer ++ bytes stream)).1 = [] := by
    rw [← List.length_eq_zero_iff]
    rw [due] at h
    omega
  obtain ⟨hc, hend⟩ := parse_cuts (buffer ++ bytes stream)
  rw [hp] at hc
  rwa [hc.eq_of_nil] at hend

lemma poll_of_due {buffer : Bytes} {stream : List Delivery} (h : due buffer stream = 0)
    (hend : Ended stream) : (poll buffer stream).1 = .closed := by
  have hpolls := polls_poll buffer stream
  have hc := hpolls.cuts
  have hf := hpolls.faults_eq
  have hu := unfinished_of_due h
  cases ha : (poll buffer stream).1 with
  | closed => rfl
  | item found =>
    rw [ha, Polled.items] at hc
    cases hc with
    | cons hcut _ => exact (hu _ _ hcut).elim
  | fault text =>
    rw [ha] at hf
    simp [due, hf, Polled.faults] at h
  | pending =>
    have hs := hpolls.last.1 ha
    rw [← hpolls.ended_iff, hs] at hend
    cases hend

lemma error_of_cut {bytes rest : Bytes} {item : Item} (h : Cut bytes item rest) {e : WireError}
    (he : (Polled.item item).error? = some e) :
    (∃ magic, magic ≠ Header.magicNumber ∧ e = .invalidMagic magic) ∨
      ∃ length : UInt32, Header.maxBody < length.toNat ∧ e = .bodyTooLarge length := by
  cases h with
  | badMagic hm _ =>
    cases he
    exact .inl ⟨_, (magic_iff _ _).not.mpr hm, rfl⟩
  | @tooLong _ _ _ _ size _ _ hsize hmax =>
    cases he
    have hlt : Bytes.ofBigEndian size < 4294967296 := by simpa [hsize] using ofBigEndian_lt size
    refine .inr ⟨_, ?_, rfl⟩
    rwa [UInt32.toNat_ofNat', Nat.mod_eq_of_lt hlt]
  | frame => cases he

lemma exists_cut_of_mem {bytes rest : Bytes} {items : List Item} (h : Cuts bytes items rest)
    {item : Item} (hi : item ∈ items) : ∃ front back, Cut front item back := by
  induction h with
  | nil _ => cases hi
  | cons hc _ ih =>
    rcases List.mem_cons.mp hi with rfl | hi
    · exact ⟨_, _, hc⟩
    · exact ih hi

/-! ### The reference -/

lemma answers_cuts : Cuts (bytes (arrivals inputs)) ((answers inputs).flatMap Polled.items)
    (held inputs) :=
  replies_cuts [] [] inputs

lemma answers_faults : faults (arrivals inputs) =
    (answers inputs).flatMap Polled.faults ++ faults (replies [] [] inputs).2.2 :=
  replies_faults [] [] inputs

lemma answers_ended : Ended (replies [] [] inputs).2.2 ↔ Ended (arrivals inputs) :=
  replies_ended [] [] inputs

lemma ended_of_over (h : Over (replies [] [] inputs).2.1 (replies [] [] inputs).2.2) :
    Ended (arrivals inputs) := by
  obtain ⟨_, later, hs⟩ := h
  rw [← answers_ended, hs]
  exact List.mem_cons_self

lemma told_prefix : ∃ k,
    told (answers inputs) <+:
        (parse (bytes (arrivals inputs))).1.map Polled.item ++ List.replicate k .closed ∧
      (0 < k → Ended (arrivals inputs)) := by
  obtain ⟨k, htold, _, hover⟩ := told_replies [] [] inputs
  obtain ⟨hp, hend⟩ := parse_cuts (bytes (arrivals inputs))
  obtain ⟨later, hi, hl⟩ := (answers_cuts inputs).suffix hp hend
  refine ⟨k, ?_, fun hk => ended_of_over inputs (hover hk)⟩
  rw [answers, htold, hi, List.map_append]
  cases Nat.eq_zero_or_pos k with
  | inl hk =>
    subst hk
    simp [answers]
  | inr hk =>
    have ho := hover hk
    have hu : Unfinished (held inputs) := by
      rw [held, ho.bytes, List.append_nil]
      exact ho.1
    obtain rfl := hl.eq_nil_of_unfinished hu
    simp [answers]

lemma due_le (inputs : List Input) :
    due (replies [] [] inputs).2.1 (replies [] [] inputs).2.2 ≤
      (parse (bytes (arrivals inputs))).1.length + (faults (arrivals inputs)).length := by
  obtain ⟨hp, hend⟩ := parse_cuts (bytes (arrivals inputs))
  obtain ⟨later, hi, hl⟩ := (answers_cuts inputs).suffix hp hend
  have hh : (parse (held inputs)).1 = later := by rw [parse_eq_iff.mpr ⟨hl, hend⟩]
  have hn := congrArg List.length hi
  have hf := congrArg List.length (answers_faults inputs)
  simp only [List.length_append] at hn hf
  rw [due, ← held, hh]
  omega

/-- Whoever asks often enough reads everything. -/
lemma told_requests {n : Nat}
    (hn : (parse (bytes (arrivals inputs))).1.length + (faults (arrivals inputs)).length < n) :
    ∃ k, told (answers (inputs ++ List.replicate n .request)) =
        (parse (bytes (arrivals inputs))).1.map Polled.item ++ List.replicate k .closed ∧
      (0 < k ↔ Ended (arrivals inputs)) := by
  obtain ⟨m, rfl⟩ : ∃ m, n = m + 1 := ⟨n - 1, by omega⟩
  have hle := due_le inputs
  have hsent : arrivals (inputs ++ List.replicate (m + 1) .request) = arrivals inputs := by
    rw [arrivals_append, arrivals_requests, List.append_nil]
  have hdue : due (replies [] [] (inputs ++ List.replicate (m + 1) .request)).2.1
      (replies [] [] (inputs ++ List.replicate (m + 1) .request)).2.2 = 0 := by
    rw [replies_append, due_requests]
    omega
  obtain ⟨k, htold, hk, hover⟩ := told_replies [] [] (inputs ++ List.replicate (m + 1) .request)
  have hall : parse (bytes (arrivals inputs)) =
      ((answers (inputs ++ List.replicate (m + 1) .request)).flatMap Polled.items,
        held (inputs ++ List.replicate (m + 1) .request)) := by
    rw [parse_eq_iff, ← hsent]
    exact ⟨answers_cuts _, unfinished_of_due hdue⟩
  refine ⟨k, by rw [answers, htold, hall, answers], fun h => ?_, fun h => ?_⟩
  · rw [← hsent]
    exact ended_of_over _ (hover h)
  · apply hk.mp
    -- the last request comes when nothing else is due
    rw [List.replicate_succ', replies_append, replies_append]
    apply List.mem_append_right
    apply List.mem_append_right
    have hdone := due_requests (replies [] [] inputs).2.1 (replies [] [] inputs).2.2 m
    rw [Nat.sub_eq_zero_of_le (by omega)] at hdone
    have hlast := poll_of_due hdone
      (by rwa [replies_ended, arrivals_requests, List.append_nil, answers_ended])
    simp [replies, hlast]

/-- However a stream is cut into deliveries, and whenever it is asked for items, the items read are
those of its bytes, in order, and then its end; asking on brings all of them. -/
theorem answers_follow_reference (inputs : List Input) :
    let sent := arrivals inputs
    let reference := (parse (bytes sent)).1.map Polled.item
    (Cuts (bytes sent) (parse (bytes sent)).1 (parse (bytes sent)).2 ∧
      Unfinished (parse (bytes sent)).2) ∧
    (∃ k, told (answers inputs) <+: reference ++ List.replicate k .closed ∧
      (0 < k → Ended sent)) ∧
    (∀ n, reference.length + (faults sent).length < n → ∃ k,
      told (answers (inputs ++ List.replicate n .request)) =
        reference ++ List.replicate k .closed ∧ (0 < k ↔ Ended sent)) ∧
    Cuts (bytes sent) ((answers inputs).flatMap Polled.items) (held inputs) ∧
    ∀ answer ∈ answers inputs, ∀ e, answer.error? = some e →
      (∃ magic, magic ≠ Header.magicNumber ∧ e = .invalidMagic magic) ∨
        (∃ length : UInt32, Header.maxBody < length.toNat ∧ e = .bodyTooLarge length) ∨
        (e = .connectionClosed ∧ Ended sent) ∨ ∃ text ∈ faults sent, e = .io text := by
  refine ⟨parse_cuts _, told_prefix inputs, fun n hn => ?_, answers_cuts inputs, ?_⟩
  · rw [List.length_map] at hn
    exact told_requests inputs hn
  · intro answer ha e he
    cases answer with
    | pending => cases he
    | item found =>
      have hi : found ∈ (answers inputs).flatMap Polled.items :=
        List.mem_flatMap.mpr ⟨_, ha, List.mem_singleton_self _⟩
      obtain ⟨front, back, hc⟩ := exists_cut_of_mem (answers_cuts inputs) hi
      rcases error_of_cut hc he with h | h
      · exact .inl h
      · exact .inr (.inl h)
    | closed =>
      cases he
      obtain ⟨k, _, hk, hover⟩ := told_replies [] [] inputs
      exact .inr (.inr (.inl ⟨rfl, ended_of_over inputs (hover (hk.mp ha))⟩))
    | fault text =>
      cases he
      refine .inr (.inr (.inr ⟨text, ?_, rfl⟩))
      rw [answers_faults]
      exact List.mem_append_left _ (List.mem_flatMap.mpr ⟨_, ha, List.mem_singleton_self _⟩)

end ChatLoad.Inbound
