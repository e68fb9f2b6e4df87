import ChatLoad.Proofs.Wire.Decoding
import ChatLoad.Proofs.Wire.Walk

/-! Bodies that are cut off. What is left of a field that the cut goes through begins like a field and wants
for bytes, whether the cut goes through its tag, its length or its value. So a walk finds the fields
before the cut as they are and tells a cut between fields from one through a field. -/

namespace ChatLoad

lemma Varint.Spells.cut {bytes : Bytes} {value : UInt64} (h : Spells bytes value) {k : Nat}
    (hk : k < bytes.length) : Fails (bytes.take k) (.truncated (k + 1) k) := by
  obtain @⟨more, last, _, hmore, -, hshort, -⟩ := h
  rw [List.length_append, List.length_singleton] at hk
  have htake : (more ++ [last]).take k = more.take k := List.take_append_of_le_length (by omega)
  have hlength : (more.take k).length = k := by
    rw [List.length_take]
    omega
  have hfails := Fails.truncated (fun b hb => hmore b (List.mem_of_mem_take hb))
    (show (more.take k).length < 10 by omega)
  rw [hlength] at hfails
  rwa [htake]

lemma FieldValue.Spelled.cut {raw : Bytes} {value : FieldValue} (h : value.Spelled raw) {k : Nat}
    (hk : k < raw.length) : ∃ needed available,
      value.wireType.Wanting (raw.take k) (.truncated needed available) := by
  cases h with
  | varint hvalue => exact ⟨_, _, .varint (hvalue.cut hk)⟩
  | fixed64 hlength =>
    refine ⟨_, _, .fixed64 ?_⟩
    rw [List.length_take]
    omega
  | @bytes count raw length hcount hlength =>
    rcases Nat.lt_or_ge k count.length with hinside | hbehind
    · rw [List.take_append_of_le_length (Nat.le_of_lt hinside)]
      exact ⟨_, _, .count (hcount.cut hinside)⟩
    · rw [List.take_append, List.take_of_length_le hbehind]
      refine ⟨_, _, .bytes hcount ?_⟩
      rw [List.length_append] at hk
      rw [List.length_take]
      omega
  | fixed32 hlength =>
    refine ⟨_, _, .fixed32 ?_⟩
    rw [List.length_take]
    omega

namespace Field

lemma Spelled.cut {front : Bytes} {field : Field} (h : Spelled front field) {k : Nat} (hpos : 0 < k)
    (hk : k < front.length) : ∃ needed available,
      Broken (front.take k) (.truncated needed available) := by
  obtain @⟨front, raw, tag, value, htag, htype, hvalue⟩ := h
  rw [List.length_append] at hk
  -- the cut goes through the tag or through the value
  rcases Nat.lt_or_ge k front.length with hinside | hbehind
  · rw [List.take_append_of_le_length (Nat.le_of_lt hinside)]
    refine ⟨_, _, .tag ?_ (htag.cut hinside)⟩
    rw [ne_eq, List.take_eq_nil_iff, not_or]
    exact ⟨by omega, htag.ne_nil⟩
  · obtain ⟨needed, available, hwanting⟩ := hvalue.cut (show k - front.length < raw.length by omega)
    rw [List.take_append, List.take_of_length_le hbehind]
    exact ⟨needed, available, .value htag htype hwanting⟩

/-! ### Walks -/

namespace Walk

/-- The fields that lie wholly in the first `k` bytes. -/
def upTo (walk : Walk) (k : Nat) : List Placed :=
  walk.found.filter (·.stop ≤ k)

/-- A walk that begins at `start` is cut off at `stop`. It finds the fields up to there and comes to the end
between two fields, and else wants for more bytes. -/
structure CutOff (start stop : Nat) (whole cut : Walk) : Prop where
  found : cut.found = whole.upTo stop
  between : stop ∈ start :: whole.found.map (·.stop) → cut.outcome = .ok ()
  inside : stop ∉ start :: whole.found.map (·.stop) →
    ∃ needed available, cut.outcome = .error (.truncated needed available)

namespace CutOff

variable {start stop : Nat} {whole cut : Walk}

lemma upTo_eq_nil (h : ∀ placed ∈ whole.found, stop < placed.stop) : whole.upTo stop = [] := by
  rw [upTo, List.filter_eq_nil_iff]
  intro placed hplaced
  simpa using h placed hplaced

lemma at_start (h : ∀ placed ∈ whole.found, start < placed.stop) :
    CutOff start start whole ⟨[], .ok ()⟩ where
  found := (upTo_eq_nil h).symm
  between _ := rfl
  inside hborder := (hborder List.mem_cons_self).elim

lemma in_first (hstart : start < stop) (h : ∀ placed ∈ whole.found, stop < placed.stop)
    (needed available : Nat) : CutOff start stop whole ⟨[], .error (.truncated needed available)⟩ where
  found := (upTo_eq_nil h).symm
  between hborder := by
    rcases List.mem_cons.mp hborder with hfirst | hlater
    · omega
    · obtain ⟨placed, hplaced, hstop⟩ := List.mem_map.mp hlater
      have := h placed hplaced
      omega
  inside _ := ⟨needed, available, rfl⟩

lemma behind {placed : Placed} (hstart : start < placed.stop) (hstop : placed.stop ≤ stop)
    (h : CutOff placed.stop stop whole cut) :
    CutOff start stop ⟨placed :: whole.found, whole.outcome⟩ ⟨placed :: cut.found, cut.outcome⟩ := by
  have hborders : stop ∈ start :: (placed :: whole.found).map (·.stop) ↔
      stop ∈ placed.stop :: whole.found.map (·.stop) := by
    rw [List.mem_cons, List.map_cons]
    exact or_iff_right (by omega)
  refine ⟨?_, fun hborder => h.between (hborders.mp hborder),
    fun hborder => h.inside (hborders.not.mp hborder)⟩
  rw [upTo, List.filter_cons_of_pos (by simpa using hstop), h.found]
  rfl

end CutOff

end Walk

variable {bytes : Bytes} {fields : List Field}

lemma Written.lt_stop (h : Written bytes fields) (start : Nat) :
    ∀ placed ∈ (walkFrom start bytes).found, start < placed.stop := by
  induction h generalizing start with
  | nil => simp
  | @cons front rest field fields hfield _ ih =>
    have hfront := List.length_pos_of_ne_nil hfield.ne_nil
    rw [walkFrom_spelled hfield]
    intro placed hplaced
    rcases List.mem_cons.mp hplaced with rfl | hplaced
    · exact Nat.lt_add_of_pos_right hfront
    · have := ih _ placed hplaced
      omega

lemma Written.cutOff (h : Written bytes fields) (start : Nat) {k : Nat} (hk : k ≤ bytes.length) :
    Walk.CutOff start (start + k) (walkFrom start bytes) (walkFrom start (bytes.take k)) := by
  induction h generalizing start k with
  | nil =>
    obtain rfl := Nat.eq_zero_of_le_zero hk
    rw [List.take_nil, walkFrom_nil]
    exact .at_start (by simp)
  | @cons front rest field fields hfield hrest ih =>
    rcases Nat.eq_zero_or_pos k with rfl | hpos
    · rw [List.take_zero, walkFrom_nil]
      exact .at_start ((Written.cons hfield hrest).lt_stop start)
    rw [List.length_append] at hk
    rw [walkFrom_spelled hfield]
    rcases Nat.lt_or_ge k front.length with hinside | hbehind
    · -- no field ends before the cut, so that both sides find none
      obtain ⟨needed, available, hbroken⟩ := hfield.cut hpos hinside
      rw [List.take_append_of_le_length (Nat.le_of_lt hinside), walkFrom_broken hbroken]
      refine .in_first (by omega) (fun placed hplaced => ?_) needed available
      rcases List.mem_cons.mp hplaced with rfl | hplaced
      · exact Nat.add_lt_add_left hinside start
      · have := hrest.lt_stop _ placed hplaced
        omega
    · have hlater := ih (start + front.length) (show k - front.length ≤ rest.length by omega)
      have hstop : start + front.length + (k - front.length) = start + k := by omega
      rw [hstop] at hlater
      rw [List.take_append, List.take_of_length_le hbehind, walkFrom_spelled hfield]
      exact .behind (Nat.lt_add_of_pos_right (List.length_pos_of_ne_nil hfield.ne_nil))
        (Nat.add_le_add_left hbehind start) hlater

variable {α : Type} {step : α → Field → Except WireError α} {accepts : Field → Prop}
  {refuses : Field → WireError → Prop} {take : α → Field → α}

lemma Taking.fold_cutOff (taking : Taking step accepts refuses take) (hwritten : Written bytes fields)
    (haccepted : ∀ field ∈ fields, accepts field) (start : α) {k : Nat} (hk : k ≤ bytes.length) :
    (k ∈ (walk bytes).borders → fold step start (bytes.take k) =
      .ok ((((walk bytes).upTo k).map (·.field)).foldl take start)) ∧
    (k ∉ (walk bytes).borders → ∃ needed available,
      fold step start (bytes.take k) = .error (.truncated needed available)) := by
  have hcut := hwritten.cutOff 0 hk
  rw [Nat.zero_add] at hcut
  have hfields : (walk (bytes.take k)).fields = ((walk bytes).upTo k).map (·.field) :=
    congrArg _ hcut.found
  have haccepted' : ∀ field ∈ (walk (bytes.take k)).fields, accepts field := by
    rw [hfields]
    intro field hfield
    obtain ⟨placed, hplaced, rfl⟩ := List.mem_map.mp hfield
    apply haccepted
    rw [← (hwritten.walked 0).1]
    exact List.mem_map_of_mem (List.mem_of_mem_filter hplaced)
  rw [taking.fold_walk haccepted', hfields]
  constructor
  · intro hborder
    have houtcome : (walk (bytes.take k)).outcome = .ok () := hcut.between hborder
    rw [houtcome]
    rfl
  · intro hborder
    obtain ⟨needed, available, he⟩ := hcut.inside hborder
    have houtcome : (walk (bytes.take k)).outcome = _ := he
    rw [houtcome]
    exact ⟨needed, available, rfl⟩

end Field

/-- Of bytes that are fields, any first part is read as the fields that lie wholly in it. It is read to its
end if it is cut off between two fields, and is truncated if it is cut off in one. A payload that is
accepted is therefore cut off to one made of the fields before the cut, or is truncated. -/
theorem cut_off_never_misread (bytes : Bytes) {k : Nat} (hk : k ≤ bytes.length) :
    ((Field.walk bytes).outcome = .ok () →
      Field.Walk.CutOff 0 k (Field.walk bytes) (Field.walk (bytes.take k))) ∧
    (∀ chat, Chat.decode bytes = .ok chat →
      (k ∈ (Field.walk bytes).borders → Chat.decode (bytes.take k) =
        .ok (({} : Chat).update (((Field.walk bytes).upTo k).map (·.field)))) ∧
      (k ∉ (Field.walk bytes).borders → ∃ needed available,
        Chat.decode (bytes.take k) = .error (.truncated needed available))) ∧
    ∀ auth, Auth.decode bytes = .ok auth →
      (k ∈ (Field.walk bytes).borders → Auth.decode (bytes.take k) =
        .ok (({} : Auth).update (((Field.walk bytes).upTo k).map (·.field)))) ∧
      (k ∉ (Field.walk bytes).borders → ∃ needed available,
        Auth.decode (bytes.take k) = .error (.truncated needed available)) := by
  refine ⟨fun houtcome => ?_, fun chat hchat => ?_, fun auth hauth => ?_⟩
  · have hcut := (Field.written_walk houtcome).cutOff 0 hk
    rwa [Nat.zero_add] at hcut
  · obtain ⟨fields, hwritten, haccepted, -⟩ := Chat.decode_eq_ok_iff.mp hchat
    rw [← Chat.foldl_update]
    exact Chat.taking.fold_cutOff hwritten haccepted {} hk
  · obtain ⟨fields, hwritten, haccepted, -⟩ := Auth.decode_eq_ok_iff.mp hauth
    rw [← Auth.foldl_update]
    exact Auth.taking.fold_cutOff hwritten haccepted {} hk

/-- A session, and a content of two letters. -/
def greeting : Bytes :=
  [0x10, 7, 0x2A, 2, 0x68, 0x69]

/-- A token and a device id of one letter each. -/
def credentials : Bytes :=
  [0x0A, 1, 0x61, 0x12, 1, 0x62]

theorem greeting_cut_off :
    2 ≤ greeting.length ∧ 5 ≤ greeting.length ∧ (Field.walk greeting).outcome = .ok () ∧
    Field.Walk.CutOff 0 5 (Field.walk greeting) (Field.walk [0x10, 7, 0x2A, 2, 0x68]) ∧
    Chat.decode greeting = .ok { sessionId := 7, content := "hi" } ∧
    2 ∈ (Field.walk greeting).borders ∧ Chat.decode [0x10, 7] = .ok { sessionId := 7 } ∧
    5 ∉ (Field.walk greeting).borders ∧ (∃ needed available,
      Chat.decode [0x10, 7, 0x2A, 2, 0x68] = .error (.truncated needed available)) ∧
    3 ≤ credentials.length ∧ Auth.decode credentials = .ok { token := "a", deviceId := "b" } ∧
    3 ∈ (Field.walk credentials).borders ∧ Auth.decode [0x0A, 1, 0x61] = .ok { token := "a" } := by
  have ended : (Field.walk greeting).outcome = .ok () := by cbv
  have decoded : Chat.decode greeting = .ok { sessionId := 7, content := "hi" } := by decide +kernel
  have between : 2 ∈ (Field.walk greeting).borders := by decide +kernel
  have inside : 5 ∉ (Field.walk greeting).borders := by decide +kernel
  have fields : ((Field.walk greeting).upTo 2).map (·.field) = [⟨2, .varint 7⟩] := by decide +kernel
  have accepted : Auth.decode credentials = .ok { token := "a", deviceId := "b" } := by decide +kernel
  have between' : 3 ∈ (Field.walk credentials).borders := by decide +kernel
  have fields' : ((Field.walk credentials).upTo 3).map (·.field) = [⟨1, .bytes [0x61]⟩] := by
    decide +kernel
  have short : 2 ≤ greeting.length ∧ 5 ≤ greeting.length ∧ 3 ≤ credentials.length := by decide
  obtain ⟨hwalk, hchat, -⟩ := cut_off_never_misread greeting short.2.1
  have hshorter := ((cut_off_never_misread greeting short.1).2.1 _ decoded).1 between
  have hauth := ((cut_off_never_misread credentials short.2.2).2.2 _ accepted).1 between'
  rw [fields] at hshorter
  rw [fields'] at hauth
  exact ⟨short.1, short.2.1, ended, hwalk ended, decoded, between, hshorter, inside,
    (hchat _ decoded).2 inside, short.2.2, accepted, between', hauth⟩

end ChatLoad
