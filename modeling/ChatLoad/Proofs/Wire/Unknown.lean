import ChatLoad.Proofs.Wire.Decoding

/-! Fields with numbers that a payload does not know. Such a field may stand anywhere among the others and
makes no difference. A tag has room for numbers of 61 bits, but a field is known by the lowest 32 of
them, so that a number beyond those is as good as a lower one. -/

namespace ChatLoad

namespace Field

/-- All the bytes of a field, and the tag it begins with. -/
inductive Tagged : Bytes → UInt64 → FieldValue → Prop
  | mk {front raw : Bytes} {tag : UInt64} {value : FieldValue} : Varint.Spells front tag →
      tag.toNat % 8 = value.wireType.code.toNat → value.Spelled raw → Tagged (front ++ raw) tag value

lemma Tagged.spelled {extra : Bytes} {tag : UInt64} {value : FieldValue} (h : Tagged extra tag value) :
    Spelled extra ⟨UInt32.ofNat (tag.toNat / 8), value⟩ := by
  obtain ⟨hfront, htype, hraw⟩ := h
  exact .mk hfront htype hraw

section

variable {α : Type} {step : α → Field → Except WireError α} {before extra extra' after after' : Bytes}
  {earlier : List Field} {field : Field}

lemma fold_congr (hbefore : Written before earlier)
    (h : ∀ start, fold step start after = fold step start after') (start : α) :
    fold step start (before ++ after) = fold step start (before ++ after') := by
  induction hbefore generalizing start with
  | nil => exact h start
  | cons hfield _ ih =>
    simp only [List.append_assoc, fold_spelled hfield, ih]

lemma fold_insert (hbefore : Written before earlier) (hextra : Spelled extra field)
    (hskip : ∀ start, step start field = .ok start) (start : α) :
    fold step start (before ++ (extra ++ after)) = fold step start (before ++ after) := by
  refine fold_congr hbefore (fun start => ?_) start
  rw [fold_spelled hextra, hskip]
  rfl

lemma fold_respell (hbefore : Written before earlier) (hextra : Spelled extra field)
    (hextra' : Spelled extra' field) (start : α) :
    fold step start (before ++ (extra' ++ after)) = fold step start (before ++ (extra ++ after)) :=
  fold_congr hbefore (fun _ => by rw [fold_spelled hextra', fold_spelled hextra]) start

end

lemma ofNat_mem_iff {n bound : Nat} {numbers : List UInt32}
    (h : ∀ number : UInt32, number ∈ numbers ↔ number.toNat ∈ Set.Icc 1 bound) :
    UInt32.ofNat n ∈ numbers ↔ n % 2 ^ 32 ∈ Set.Icc 1 bound := by
  rw [h, UInt32.toNat_ofNat']

end Field

namespace Chat

lemma mem_numbers_or_texts (number : UInt32) :
    number ∈ numbers ++ texts ↔ number.toNat ∈ Set.Icc 1 8 := by
  simp only [numbers, texts, List.cons_append, List.nil_append, List.mem_cons, List.not_mem_nil, or_false,
    ← UInt32.toNat_inj, Set.mem_Icc, UInt32.reduceToNat]
  omega

end Chat

namespace Auth

lemma mem_texts (number : UInt32) : number ∈ texts ↔ number.toNat ∈ Set.Icc 1 2 := by
  simp only [texts, List.mem_cons, List.not_mem_nil, or_false, ← UInt32.toNat_inj, Set.mem_Icc,
    UInt32.reduceToNat]
  omega

lemma set_unknown (auth : Auth) {field : Field} (h : field.number ∉ texts) :
    auth.set field = .ok auth := by
  simp only [texts, List.mem_cons, List.not_mem_nil, or_false, not_or] at h
  simp [set, h]

end Auth

/-- A field that is no member of the payload does not count, wherever it stands. Of the number in its tag only
the lowest 32 bits tell whether it is one, and which. -/
theorem unknown_fields_skipped {before extra : Bytes} {earlier : List Field} {tag : UInt64}
    {value : FieldValue} (hbefore : Field.Written before earlier)
    (hextra : Field.Tagged extra tag value) (after : Bytes) :
    (tag.toNat / 8 % 2 ^ 32 ∉ Set.Icc 1 8 →
      Chat.decode (before ++ (extra ++ after)) = Chat.decode (before ++ after)) ∧
    (tag.toNat / 8 % 2 ^ 32 ∉ Set.Icc 1 2 →
      Auth.decode (before ++ (extra ++ after)) = Auth.decode (before ++ after)) ∧
    ∀ (extra' : Bytes) (tag' : UInt64), Field.Tagged extra' tag' value →
      tag'.toNat / 8 % 2 ^ 32 = tag.toNat / 8 % 2 ^ 32 →
      Chat.decode (before ++ (extra' ++ after)) = Chat.decode (before ++ (extra ++ after)) ∧
      Auth.decode (before ++ (extra' ++ after)) = Auth.decode (before ++ (extra ++ after)) := by
  refine ⟨fun hchat => ?_, fun hauth => ?_, fun extra' tag' hextra' hsame => ?_⟩
  · rw [← Field.ofNat_mem_iff Chat.mem_numbers_or_texts, List.mem_append, not_or] at hchat
    exact Field.fold_insert hbefore hextra.spelled
      (fun chat => chat.set_unknown hchat.1 hchat.2) _
  · rw [← Field.ofNat_mem_iff Auth.mem_texts] at hauth
    exact Field.fold_insert hbefore hextra.spelled (fun auth => auth.set_unknown hauth) _
  · have hnumber : UInt32.ofNat (tag'.toNat / 8) = UInt32.ofNat (tag.toNat / 8) := by
      rw [← UInt32.toNat_inj, UInt32.toNat_ofNat', UInt32.toNat_ofNat', hsame]
    have hspelled := hextra'.spelled
    rw [hnumber] at hspelled
    exact ⟨Field.fold_respell hbefore hextra.spelled hspelled _,
      Field.fold_respell hbefore hextra.spelled hspelled _⟩

lemma Field.Tagged.bytes {front value : UInt8} (hfront : front.toNat < 128)
    (htype : front.toUInt64.toNat % 8 = 0) (hvalue : value.toNat < 128) :
    Tagged [front, value] front.toUInt64 (.varint value.toUInt64) :=
  @Tagged.mk [front] [value] _ _ (.byte hfront) htype (.varint (.byte hvalue))

/-- The bytes of field 4294967298 with the value 9. -/
def distant : Bytes :=
  [0x90, 0x80, 0x80, 0x80, 0x80, 0x01, 9]

lemma tagged_distant : Field.Tagged distant 34359738384 (.varint 9) :=
  @Field.Tagged.mk [0x90, 0x80, 0x80, 0x80, 0x80, 0x01] [9] 34359738384 (.varint 9)
    (@Varint.Spells.mk [0x90, 0x80, 0x80, 0x80, 0x80] 0x01 _ (by simp) (by decide) (by decide)
      (by decide)) rfl (.varint (.byte (by decide)))

lemma Field.written_session {session : UInt8} (h : session.toNat < 128) :
    Written [0x10, session] [⟨2, .varint session.toUInt64⟩] :=
  .single (Tagged.bytes (by decide) rfl h).spelled

namespace Chat

lemma decode_session {session : UInt8} (h : session.toNat < 128) :
    decode [0x10, session] = .ok { sessionId := session.toUInt64.toInt64 } :=
  decode_eq_ok_iff.mpr ⟨_, Field.written_session h, by simp [Accepts, numbers, texts, Field.IsNumber], rfl⟩

end Chat

theorem fifteenth_field_skipped :
    Chat.decode ([0x10, 7] ++ ([0x78, 5] ++ [])) = .ok { sessionId := 7 } ∧
    Auth.decode ([0x10, 7] ++ ([0x78, 5] ++ [])) = Auth.decode [0x10, 7] ∧
    Chat.decode ([] ++ (distant ++ [])) = .ok { sessionId := 9 } := by
  have fifteenth : Field.Tagged [0x78, 5] 120 (.varint 5) := .bytes (by decide) rfl (by decide)
  have second : Field.Tagged [0x10, 9] 16 (.varint 9) := .bytes (by decide) rfl (by decide)
  obtain ⟨hchat, hauth, -⟩ :=
    unknown_fields_skipped (@Field.written_session 7 (by decide)) fifteenth []
  obtain ⟨-, -, hsame⟩ := unknown_fields_skipped .nil second []
  refine ⟨?_, hauth (by decide), ?_⟩
  · exact (hchat (by decide)).trans (Chat.decode_session (by decide))
  · exact (hsame distant _ tagged_distant (by decide)).1.trans (Chat.decode_session (by decide))

/-- A field with a number that no member has is taken for the session. -/
theorem distant_field_counts :
    Chat.decode [0x10, 7] = .ok { sessionId := 7 } ∧
    Field.Written [0x10, 7] [⟨2, .varint 7⟩] ∧ Field.Tagged distant 34359738384 (.varint 9) ∧
    (34359738384 : UInt64).toNat / 8 ∉ Set.Icc 1 8 ∧
    Chat.decode ([0x10, 7] ++ distant) = .ok { sessionId := 9 } := by
  have written : Field.Written ([0x10, 7] ++ distant) [⟨2, .varint 7⟩, ⟨2, .varint 9⟩] :=
    (Field.written_session (by decide)).append (.single tagged_distant.spelled)
  have decoded : Chat.decode ([0x10, 7] ++ distant) = .ok { sessionId := 9 } :=
    Chat.decode_eq_ok_iff.mpr
      ⟨_, written, by simp [Chat.Accepts, Chat.numbers, Chat.texts, Field.IsNumber], rfl⟩
  exact ⟨Chat.decode_session (by decide), Field.written_session (by decide), tagged_distant, by decide,
    decoded⟩

end ChatLoad
