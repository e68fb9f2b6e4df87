import ChatLoad.Proofs.Wire.Fields
import ChatLoad.Wire.Auth
import ChatLoad.Wire.Chat

/-! Reading on, field after field, whatever the calls before have answered. A call that returns a field takes
all its bytes, and one that fails takes the complete varints it has read and nothing of what it stopped at.
So at most half as many calls as there are bytes return a field, and a loop over the fields ends with the
call after them. -/

namespace ChatLoad

lemma FieldValue.Spelled.ne_nil {raw : Bytes} {value : FieldValue} (h : value.Spelled raw) :
    raw ≠ [] := by
  cases h with
  | varint hvalue => exact hvalue.ne_nil
  | fixed64 hlength | fixed32 hlength =>
    rintro rfl
    cases hlength
  | bytes hcount => simp [hcount.ne_nil]

namespace Field

lemma Spelled.two_le_length {front : Bytes} {field : Field} (h : Spelled front field) :
    2 ≤ front.length := by
  obtain ⟨htag, -, hvalue⟩ := h
  have hfront := List.length_pos_of_ne_nil htag.ne_nil
  have hraw := List.length_pos_of_ne_nil hvalue.ne_nil
  rw [List.length_append]
  omega

/-! ### One call -/

/-- Bytes that are read, what the call answers, and what it leaves unread. -/
inductive Reads : Bytes → Except WireError (Option Field) → Bytes → Prop
  | nothing : Reads [] (.ok none) []
  | field {front rest : Bytes} {field : Field} : Spelled front field →
      Reads (front ++ rest) (.ok (some field)) rest
  | stops {varints : List Bytes} {rest : Bytes} {e : WireError} : Stops varints rest e →
      Reads (varints.flatten ++ rest) (.error e) rest

lemma reads_next (bytes : Bytes) : Reads bytes (next bytes).1 (next bytes).2 := by
  rcases begins bytes with rfl | ⟨front, field, rest, rfl, hfield⟩ | ⟨e, he⟩
  · exact .nothing
  · rw [next_spelled hfield]
    exact .field hfield
  · obtain ⟨varints, rest, rfl, hstops⟩ := he.stops
    rw [next_stops hstops]
    exact .stops hstops

lemma Reads.suffix {bytes rest : Bytes} {answer : Except WireError (Option Field)}
    (h : Reads bytes answer rest) : rest <:+ bytes := by
  cases h with
  | nothing => exact List.suffix_refl _
  | field | stops => exact List.suffix_append _ _

lemma next_none_iff {bytes : Bytes} : (next bytes).1 = .ok none ↔ bytes = [] := by
  constructor
  · intro h
    have hreads := reads_next bytes
    rw [h] at hreads
    generalize (next bytes).2 = rest at hreads
    cases hreads
    rfl
  · rintro rfl
    rfl

lemma next_field_iff {bytes : Bytes} {field : Field} : (next bytes).1 = .ok (some field) ↔
    ∃ front, Spelled front field ∧ bytes = front ++ (next bytes).2 := by
  constructor
  · intro h
    have hreads := reads_next bytes
    rw [h] at hreads
    generalize (next bytes).2 = rest at hreads ⊢
    cases hreads with
    | field hfield => exact ⟨_, hfield, rfl⟩
  · rintro ⟨front, hfield, hbytes⟩
    rw [hbytes, next_spelled hfield]

lemma next_error_iff {bytes : Bytes} {e : WireError} : (next bytes).1 = .error e ↔
    ∃ varints, Stops varints (next bytes).2 e ∧ bytes = varints.flatten ++ (next bytes).2 := by
  constructor
  · intro h
    have hreads := reads_next bytes
    rw [h] at hreads
    generalize (next bytes).2 = rest at hreads ⊢
    cases hreads with
    | stops hstops => exact ⟨_, hstops, rfl⟩
  · rintro ⟨varints, hstops, hbytes⟩
    rw [hbytes, next_stops hstops]

lemma next_stuck {bytes : Bytes} {e : WireError} (hsome : bytes ≠ [])
    (h : Varint.decode bytes = .error e) : next bytes = (.error e, bytes) :=
  next_stops (.tag hsome (Varint.decode_eq_error_iff.mp h))

/-! ### Call after call -/

/-- What is left unread after so many calls, whatever they have answered. -/
def unread (bytes : Bytes) : Nat → Bytes
  | 0 => bytes
  | calls + 1 => (next (unread bytes calls)).2

/-- What the next call answers after so many calls. -/
def answer (bytes : Bytes) (calls : Nat) : Except WireError (Option Field) :=
  (next (unread bytes calls)).1

def returned (bytes : Bytes) (calls : Nat) : List Field :=
  (List.range calls).filterMap fun call => (answer bytes call).toOption.join

lemma reads_answer (bytes : Bytes) (calls : Nat) :
    Reads (unread bytes calls) (answer bytes calls) (unread bytes (calls + 1)) :=
  reads_next _

lemma unread_suffix (bytes : Bytes) (calls : Nat) : unread bytes calls <:+ bytes := by
  induction calls with
  | zero => exact List.suffix_refl _
  | succ calls ih => exact (reads_answer bytes calls).suffix.trans ih

lemma unread_of_fixed {bytes : Bytes} {calls later : Nat} (hlater : calls ≤ later)
    (h : (next (unread bytes calls)).2 = unread bytes calls) :
    unread bytes later = unread bytes calls := by
  induction later, hlater using Nat.le_induction with
  | base => rfl
  | succ later _ ih => rw [unread, ih, h]

lemma Reads.uses {bytes rest : Bytes} {answer : Except WireError (Option Field)}
    (h : Reads bytes answer rest) :
    2 * answer.toOption.join.toList.length + rest.length ≤ bytes.length := by
  cases h with
  | nothing => exact Nat.le_refl _
  | field hfield =>
    have hlength := hfield.two_le_length
    rw [List.length_append]
    exact Nat.add_le_add_right hlength _
  | stops =>
    rw [List.length_append]
    exact Nat.add_le_add_right (Nat.zero_le _) _

lemma returned_unread_le (bytes : Bytes) (calls : Nat) :
    2 * (returned bytes calls).length + (unread bytes calls).length ≤ bytes.length := by
  induction calls with
  | zero => exact Nat.le_of_eq (Nat.zero_add _)
  | succ calls ih =>
    have hone : (returned bytes (calls + 1)).length =
        (returned bytes calls).length + (answer bytes calls).toOption.join.toList.length := by
      rw [returned, List.range_succ, List.filterMap_append, List.length_append]
      cases h : (answer bytes calls).toOption.join <;> simp [returned, h]
    have huses := (reads_answer bytes calls).uses
    omega

/-! ### Loops over fields -/

/-- The loop of a fold that gives up after so many calls. -/
def foldWithin {α : Type} (step : α → Field → Except WireError α) :
    Nat → α → Bytes → Option (Except WireError α)
  | 0, _, _ => none
  | calls + 1, start, bytes =>
      match next bytes with
      | (.error e, _) => some (.error e)
      | (.ok none, _) => some (.ok start)
      | (.ok (some field), rest) =>
          match step start field with
          | .error e => some (.error e)
          | .ok start' => foldWithin step calls start' rest

lemma foldWithin_eq_fold {α : Type} (step : α → Field → Except WireError α) (start : α)
    {calls : Nat} {bytes : Bytes} (h : bytes.length < 2 * calls) :
    foldWithin step calls start bytes = some (fold step start bytes) := by
  induction calls generalizing start bytes with
  | zero => omega
  | succ calls ih =>
    rcases begins bytes with rfl | ⟨front, field, rest, rfl, hfield⟩ | ⟨e, he⟩
    · rw [fold_nil]
      rfl
    · have hlength := hfield.two_le_length
      rw [List.length_append] at h
      rw [fold_spelled hfield]
      simp only [foldWithin, next_spelled hfield]
      cases step start field with
      | error e => rfl
      | ok start' => exact ih start' (show rest.length < 2 * calls by omega)
    · rw [fold_broken he]
      obtain ⟨varints, rest, rfl, hstops⟩ := he.stops
      rw [foldWithin, next_stops hstops]

/-- However often it is called, the reader is at a suffix of the bytes. A field is returned just if its bytes,
at least two, come next, and these are read; a failure reads just the complete varints before what is wrong.
At most half as many calls as there are bytes return a field, so that loops over the fields end. Once there is
nothing left there is nothing ever after, and once a tag cannot be read all later calls fail on it. -/
theorem calls_progress_or_stop (bytes : Bytes) :
    (∀ calls, unread bytes calls <:+ bytes ∧
      (∀ field, answer bytes calls = .ok (some field) ↔ ∃ front, Spelled front field ∧
        2 ≤ front.length ∧ unread bytes calls = front ++ unread bytes (calls + 1)) ∧
      (∀ e, answer bytes calls = .error e ↔ ∃ varints, Stops varints (unread bytes (calls + 1)) e ∧
        unread bytes calls = varints.flatten ++ unread bytes (calls + 1)) ∧
      (answer bytes calls = .ok none ↔ unread bytes calls = []) ∧
      ∀ later, calls ≤ later →
        (answer bytes calls = .ok none → answer bytes later = .ok none) ∧
        ∀ e, unread bytes calls ≠ [] → Varint.decode (unread bytes calls) = .error e →
          answer bytes later = .error e ∧ unread bytes later = unread bytes calls) ∧
    (∀ calls, (returned bytes calls).length ≤ bytes.length / 2) ∧
    ∀ calls, bytes.length / 2 < calls →
      foldWithin Chat.set calls {} bytes = some (Chat.decode bytes) ∧
      foldWithin Auth.set calls {} bytes = some (Auth.decode bytes) := by
  refine ⟨fun calls => ⟨unread_suffix bytes calls, fun field => ?_, fun e => next_error_iff,
    next_none_iff, fun later hlater => ⟨fun hnone => ?_, fun e hsome he => ?_⟩⟩,
    fun calls => ?_, fun calls hcalls => ?_⟩
  · rw [answer, next_field_iff]
    constructor
    · rintro ⟨front, hfield, hbytes⟩
      exact ⟨front, hfield, hfield.two_le_length, hbytes⟩
    · rintro ⟨front, hfield, -, hbytes⟩
      exact ⟨front, hfield, hbytes⟩
  · have hnil := next_none_iff.mp hnone
    have hlast : unread bytes later = [] := by
      rw [unread_of_fixed hlater (by rw [hnil]; rfl), hnil]
    exact next_none_iff.mpr hlast
  · have hstuck := next_stuck hsome he
    have hlast := unread_of_fixed hlater (congrArg Prod.snd hstuck)
    rw [answer, hlast, hstuck]
    exact ⟨rfl, rfl⟩
  · have hle := returned_unread_le bytes calls
    omega
  · have henough : bytes.length < 2 * calls := by omega
    exact ⟨foldWithin_eq_fold Chat.set {} henough, foldWithin_eq_fold Auth.set {} henough⟩

/-- A session, a content of which one byte is missing, a wire type that there is not, and half a tag. -/
def stumbling : Bytes :=
  [0x10, 7, 0x2A, 3, 0x0F, 0x80]

theorem stumbling_calls :
    answer stumbling 0 = .ok (some ⟨2, .varint 7⟩) ∧
    answer stumbling 1 = .error (.truncated 3 2) ∧ answer stumbling 2 = .error (.wireType 1 7) ∧
    unread stumbling 3 ≠ [] ∧ Varint.decode (unread stumbling 3) = .error (.truncated 2 1) ∧
    answer stumbling 1000 = .error (.truncated 2 1) ∧ unread stumbling 1000 = [0x80] ∧
    answer [0x10, 7] 1 = .ok none ∧ answer [0x10, 7] 1000 = .ok none ∧
    stumbling.length / 2 < 4 ∧
    foldWithin Chat.set 4 {} stumbling = some (Chat.decode stumbling) := by
  have left : unread stumbling 3 = [0x80] := by decide
  have broken : Varint.decode (unread stumbling 3) = .error (.truncated 2 1) := by decide
  have some_left : unread stumbling 3 ≠ [] := by simp [left]
  have ended : answer [0x10, 7] 1 = .ok none := by decide
  obtain ⟨hcalls, -, hloop⟩ := calls_progress_or_stop stumbling
  obtain ⟨-, -, -, -, hlater⟩ := hcalls 3
  obtain ⟨hanswer, hunread⟩ := (hlater 1000 (by decide)).2 _ some_left broken
  obtain ⟨-, -, -, -, hlater'⟩ := (calls_progress_or_stop [0x10, 7]).1 1
  exact ⟨by decide, by decide, by decide, some_left, broken, hanswer, hunread.trans left, ended,
    (hlater' 1000 (by decide)).1 ended, by decide, (hloop 4 (by decide)).1⟩

end Field

end ChatLoad
