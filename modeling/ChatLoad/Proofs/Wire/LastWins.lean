import ChatLoad.Proofs.Wire.Payload

/-! Bodies that hold fields more than once. Neither the order of fields with different numbers nor an earlier
field with the same number makes a difference, and bodies written one after the other are read as the
first with the members of the second laid over it. -/

namespace ChatLoad

namespace Field

lemma last?_congr {fields fields' : List Field} {number : UInt32}
    (h : fields.filter (·.number = number) = fields'.filter (·.number = number)) :
    last? number fields = last? number fields' := by
  rw [last?, last?, h]

lemma mem_of_filter {fields fields' : List Field}
    (h : ∀ number, fields.filter (·.number = number) = fields'.filter (·.number = number))
    {field : Field} (hfield : field ∈ fields) : field ∈ fields' := by
  have hmem : field ∈ fields.filter (·.number = field.number) := by simp [hfield]
  rw [h] at hmem
  exact (List.mem_filter.mp hmem).1

/-- A field does not count if one with its number comes later. -/
lemma last?_insert {field : Field} {later : List Field}
    (hlater : ∃ other ∈ later, other.number = field.number) (earlier : List Field) (number : UInt32) :
    last? number (earlier ++ field :: later) = last? number (earlier ++ later) := by
  by_cases hnumber : field.number = number
  · obtain ⟨other, hother, hsame⟩ := hlater
    have hsome : later.filter (·.number = number) ≠ [] :=
      List.ne_nil_of_mem (List.mem_filter.mpr ⟨hother, by simp [hsame, hnumber]⟩)
    obtain ⟨last, hlast⟩ := Option.ne_none_iff_exists'.mp
      (fun h => hsome (List.getLast?_eq_none_iff.mp h))
    simp [last?, hnumber, List.getLast?_append, List.getLast?_cons, hlast]
  · simp [last?, hnumber]

end Field

namespace Chat

lemma update_congr (chat : Chat) {fields fields' : List Field}
    (h : ∀ number, Field.last? number fields = Field.last? number fields') :
    chat.update fields = chat.update fields' := by
  simp only [update, Field.member, h]

lemma decode_append {a : Bytes} {chat : Chat} (ha : decode a = .ok chat) (b : Bytes) :
    decode (a ++ b) = Field.fold set chat b := by
  obtain ⟨fields, hwritten, haccepted, rfl⟩ := decode_eq_ok_iff.mp ha
  exact fold_accepted {} hwritten haccepted b

lemma decode_append_written {a b : Bytes} {chat : Chat} (ha : decode a = .ok chat)
    {fields : List Field} (hwritten : Field.Written b fields)
    (haccepted : ∀ field ∈ fields, Accepts field) :
    decode (a ++ b) = .ok (chat.update fields) := by
  have hfold := fold_accepted chat hwritten haccepted []
  rw [List.append_nil, Field.fold_nil] at hfold
  rw [decode_append ha, hfold]

lemma decode_append_error {a b : Bytes} {chat : Chat} {e : WireError} (ha : decode a = .ok chat)
    (hb : decode b = .error e) : decode (a ++ b) = .error e := by
  rw [decode_append ha]
  exact taking.fold_eq_error_iff.mpr (decode_eq_error_iff.mp hb)

/-- A body is accepted if it is a row of fields with the right kinds of values, and else fails for the first
that is not. Of the fields with one number the last counts. -/
theorem last_occurrence_wins :
    (∀ (body : Bytes) (chat : Chat), decode body = .ok chat ↔ ∃ fields, Field.Written body fields ∧
      (∀ field ∈ fields, Accepts field) ∧ chat = ({} : Chat).update fields) ∧
    (∀ (body : Bytes) (e : WireError), decode body = .error e ↔ ∃ before fields after,
      body = before ++ after ∧ Field.Written before fields ∧ (∀ field ∈ fields, Accepts field) ∧
        Field.Offends Refuses after e) ∧
    (∀ (body body' : Bytes) (fields fields' : List Field), Field.Written body fields →
      Field.Written body' fields' →
      (∀ number, fields.filter (·.number = number) = fields'.filter (·.number = number)) →
      ∀ chat, decode body = .ok chat → decode body' = .ok chat) ∧
    (∀ (before extra after : Bytes) (earlier later : List Field) (field : Field),
      Field.Written before earlier → Field.Spelled extra field → Field.Written after later →
      Accepts field → (∃ other ∈ later, other.number = field.number) →
      ∀ chat, decode (before ++ after) = .ok chat → decode (before ++ (extra ++ after)) = .ok chat) ∧
    (∀ (a b : Bytes) (chat : Chat), decode a = .ok chat →
      decode (a ++ b) = Field.fold set chat b ∧
      (∀ fields, Field.Written b fields → (∀ field ∈ fields, Accepts field) →
        decode (a ++ b) = .ok (chat.update fields)) ∧
      ∀ e, decode b = .error e → decode (a ++ b) = .error e) ∧
    ∀ (clock clock' : Int64) (p q : Chat), p.Fits → q.Fits → p.timestamp ≠ 0 → q.timestamp ≠ 0 →
      decode (p.encode clock ++ q.encode clock') = .ok (p.overlay q) := by
  refine ⟨fun _ _ => decode_eq_ok_iff, fun _ _ => decode_eq_error_iff, ?_, ?_, ?_, ?_⟩
  · intro body body' fields fields' hwritten hwritten' hsame chat hbody
    obtain ⟨found, hfound, haccepted, rfl⟩ := decode_eq_ok_iff.mp hbody
    obtain rfl := hfound.unique hwritten
    have haccepted' : ∀ field ∈ fields', Accepts field := fun field hfield =>
      haccepted field (Field.mem_of_filter (fun number => (hsame number).symm) hfield)
    exact decode_eq_ok_iff.mpr ⟨fields', hwritten', haccepted',
      update_congr _ fun number => Field.last?_congr (hsame number)⟩
  · intro before extra after earlier later field hbefore hextra hafter haccepts hlater chat hbody
    obtain ⟨found, hfound, haccepted, rfl⟩ := decode_eq_ok_iff.mp hbody
    obtain rfl := hfound.unique (hbefore.append hafter)
    refine decode_eq_ok_iff.mpr ⟨earlier ++ field :: later, hbefore.append (.cons hextra hafter), ?_,
      update_congr _ fun number => (Field.last?_insert hlater earlier number).symm⟩
    intro other hother
    rcases List.mem_append.mp hother with h | h
    · exact haccepted other (List.mem_append_left _ h)
    · rcases List.mem_cons.mp h with rfl | h
      · exact haccepts
      · exact haccepted other (List.mem_append_right _ h)
  · intro a b chat ha
    exact ⟨decode_append ha b, fun fields => decode_append_written ha, fun e => decode_append_error ha⟩
  · intro clock clock' p q hp hq hpset hqset
    have hfirst : decode (p.encode clock) = .ok p := by
      rw [encode, stamped, if_neg hpset]
      exact decode_fields hp
    rw [← update_entries]
    apply decode_append_written hfirst _ (accepts_entries q)
    rw [encode, stamped, if_neg hqset]
    exact written_fields hq

/-- The fields of these bytes say session 5 and sender 300, the number of the sender in fixed width. -/
def addressed : Bytes :=
  [0x10, 5, 0x19, 0x2C, 1, 0, 0, 0, 0, 0, 0]

def addressedFields : List Field :=
  [⟨2, .varint 5⟩, ⟨3, .fixed64 300⟩]

lemma spelled_session (session : UInt8) (h : session.toNat < 128) :
    Field.Spelled [0x10, session] ⟨2, .varint session.toUInt64⟩ :=
  @Field.Spelled.mk [0x10] [session] 16 (.varint session.toUInt64) (.byte (by decide)) rfl
    (.varint (.byte h))

lemma spelled_sender : Field.Spelled [0x19, 0x2C, 1, 0, 0, 0, 0, 0, 0] ⟨3, .fixed64 300⟩ :=
  @Field.Spelled.mk [0x19] [0x2C, 1, 0, 0, 0, 0, 0, 0] 25 (.fixed64 300)
    (@Varint.Spells.mk [] 0x19 25 (by simp) (by decide) (by decide) rfl) rfl
    (@FieldValue.Spelled.fixed64 [0x2C, 1, 0, 0, 0, 0, 0, 0] rfl)

/-- A session that is a text. -/
lemma offends_session : Field.Offends Refuses [0x12, 0] (.wireType 2 2) :=
  .inr ⟨[0x12, 0], ⟨2, .bytes []⟩, [], rfl,
    @Field.Spelled.mk [0x12] [0] 18 (.bytes [])
      (@Varint.Spells.mk [] 0x12 18 (by simp) (by decide) (by decide) rfl) rfl
      (@FieldValue.Spelled.bytes [0] [] 0
        (@Varint.Spells.mk [] 0 0 (by simp) (by decide) (by decide) rfl) rfl),
    .inl ⟨by decide, .bytes⟩⟩

theorem addressed_last_wins :
    Field.Written addressed addressedFields ∧
    decode addressed = .ok { sessionId := 5, senderId := 300 } ∧
    decode [0x19, 0x2C, 1, 0, 0, 0, 0, 0, 0, 0x10, 5] = .ok { sessionId := 5, senderId := 300 } ∧
    decode (0x10 :: 9 :: addressed) = .ok { sessionId := 5, senderId := 300 } ∧
    decode (addressed ++ [0x10, 7]) = .ok { sessionId := 7, senderId := 300 } ∧
    decode (addressed ++ [0x12, 0]) = .error (.wireType 2 2) ∧
    (single 4 1 2 "hi").Fits ∧ (group 6 3 8 "all").Fits ∧
    decode ((single 4 1 2 "hi").encode 0 ++ (group 6 3 8 "all").encode 0) =
      .ok { group 6 3 8 "all" with targetId := 2 } := by
  obtain ⟨haccept, hfail, horder, hinsert, hgo, hencoded⟩ := last_occurrence_wins
  have five := spelled_session 5 (by decide)
  have written : Field.Written addressed addressedFields := .cons five (.single spelled_sender)
  have accepts : ∀ value, (∀ raw, value ≠ .bytes raw) → Accepts ⟨2, value⟩ ∧ Accepts ⟨3, value⟩ :=
    fun value h => ⟨⟨fun _ => h, fun htext => absurd htext (by simp [texts])⟩,
      ⟨fun _ => h, fun htext => absurd htext (by simp [texts])⟩⟩
  have accepted : ∀ field ∈ addressedFields, Accepts field := by
    intro field hfield
    simp only [addressedFields, List.mem_cons, List.not_mem_nil, or_false] at hfield
    rcases hfield with rfl | rfl
    · exact (accepts _ (by simp)).1
    · exact (accepts _ (by simp)).2
  have decoded : decode addressed = .ok { sessionId := 5, senderId := 300 } :=
    (haccept _ _).mpr ⟨addressedFields, written, accepted, rfl⟩
  have same : ∀ number, addressedFields.filter (·.number = number) =
      [⟨3, .fixed64 300⟩, ⟨2, .varint 5⟩].filter (·.number = number) := by
    intro number
    by_cases hsession : 2 = number
    · subst hsession
      rfl
    · by_cases hsender : 3 = number <;> simp [addressedFields, hsession, hsender]
  have failed : decode [0x12, 0] = .error (.wireType 2 2) :=
    (hfail _ _).mpr ⟨[], [], [0x12, 0], rfl, .nil, by simp, offends_session⟩
  have seven : Field.Written [0x10, 7] [⟨2, .varint 7⟩] := .single (spelled_session 7 (by decide))
  have fits : (single 4 1 2 "hi").Fits := ⟨by decide, by decide, by decide⟩
  have fits' : (group 6 3 8 "all").Fits := ⟨by decide, by decide, by decide⟩
  refine ⟨written, decoded, ?_, ?_, ?_, ?_, fits, fits', ?_⟩
  · exact horder addressed _ addressedFields _ written (.cons spelled_sender (.single five)) same _ decoded
  · exact hinsert [] [0x10, 9] addressed [] addressedFields ⟨2, .varint 9⟩ .nil
      (spelled_session 9 (by decide)) written (accepts _ (by simp)).1
      ⟨⟨2, .varint 5⟩, List.mem_cons_self, rfl⟩ _ decoded
  · exact (hgo addressed [0x10, 7] _ decoded).2.1 _ seven (by simp [(accepts _ _).1])
  · exact (hgo addressed [0x12, 0] _ decoded).2.2 _ failed
  · exact hencoded 0 0 _ _ fits fits' (by decide) (by decide)

end Chat

end ChatLoad
