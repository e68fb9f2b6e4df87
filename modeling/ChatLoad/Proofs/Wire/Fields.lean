import ChatLoad.Proofs.Wire.Varint
import ChatLoad.Wire.Field

/-! The grammar of bodies: fields, one after the other. Bytes are fields up to their end or up to the first
place where no field begins, and there the reader stops with what is wrong. -/

namespace ChatLoad

/-- All the bytes of a value. -/
inductive FieldValue.Spelled : Bytes → FieldValue → Prop
  | varint {raw : Bytes} {value : UInt64} : Varint.Spells raw value → Spelled raw (.varint value)
  | fixed64 {raw : Bytes} : raw.length = 8 →
      Spelled raw (.fixed64 (UInt64.ofNat (Bytes.ofLittleEndian raw)))
  | bytes {count raw : Bytes} {length : UInt64} : Varint.Spells count length →
      length.toNat = raw.length → Spelled (count ++ raw) (.bytes raw)
  | fixed32 {raw : Bytes} : raw.length = 4 →
      Spelled raw (.fixed32 (UInt32.ofNat (Bytes.ofLittleEndian raw)))

/-- What is wrong with bytes that do not begin with a value of the type. -/
inductive WireType.Wanting : WireType → Bytes → WireError → Prop
  | varint {bytes : Bytes} {e : WireError} : Varint.Fails bytes e → Wanting .varint bytes e
  | fixed64 {bytes : Bytes} : bytes.length < 8 →
      Wanting .fixed64 bytes (.truncated 8 bytes.length)
  | count {bytes : Bytes} {e : WireError} : Varint.Fails bytes e → Wanting .bytes bytes e
  | bytes {count rest : Bytes} {length : UInt64} : Varint.Spells count length →
      rest.length < length.toNat →
      Wanting .bytes (count ++ rest) (.truncated length.toNat rest.length)
  | fixed32 {bytes : Bytes} : bytes.length < 4 →
      Wanting .fixed32 bytes (.truncated 4 bytes.length)

/-- What is read of a value that fails: the complete varints, what is left unread, and what is wrong. -/
inductive WireType.Halts : WireType → List Bytes → Bytes → WireError → Prop
  | varint {rest : Bytes} {e : WireError} : Varint.Fails rest e → Halts .varint [] rest e
  | fixed64 {rest : Bytes} : rest.length < 8 → Halts .fixed64 [] rest (.truncated 8 rest.length)
  | count {rest : Bytes} {e : WireError} : Varint.Fails rest e → Halts .bytes [] rest e
  | bytes {count rest : Bytes} {length : UInt64} : Varint.Spells count length →
      rest.length < length.toNat →
      Halts .bytes [count] rest (.truncated length.toNat rest.length)
  | fixed32 {rest : Bytes} : rest.length < 4 → Halts .fixed32 [] rest (.truncated 4 rest.length)

namespace Field

/-- All the bytes of a field. Of the number in its tag only the lowest 32 bits count. -/
inductive Spelled : Bytes → Field → Prop
  | mk {front raw : Bytes} {tag : UInt64} {value : FieldValue} : Varint.Spells front tag →
      tag.toNat % 8 = value.wireType.code.toNat → value.Spelled raw →
      Spelled (front ++ raw) ⟨UInt32.ofNat (tag.toNat / 8), value⟩

/-- What is wrong with bytes, if there are any, that do not begin with a field. -/
inductive Broken : Bytes → WireError → Prop
  | tag {bytes : Bytes} {e : WireError} : bytes ≠ [] → Varint.Fails bytes e → Broken bytes e
  | type {front rest : Bytes} {tag : UInt64} : Varint.Spells front tag →
      tag.toNat % 8 ∉ [0, 1, 2, 5] →
      Broken (front ++ rest)
        (.wireType (UInt32.ofNat (tag.toNat / 8)) (UInt8.ofNat (tag.toNat % 8)))
  | value {front rest : Bytes} {tag : UInt64} {type : WireType} {e : WireError} :
      Varint.Spells front tag → tag.toNat % 8 = type.code.toNat → type.Wanting rest e →
      Broken (front ++ rest) e

/-- What is read of a field that fails: the complete varints, what is left unread, and what is wrong. -/
inductive Stops : List Bytes → Bytes → WireError → Prop
  | tag {rest : Bytes} {e : WireError} : rest ≠ [] → Varint.Fails rest e → Stops [] rest e
  | type {front rest : Bytes} {tag : UInt64} : Varint.Spells front tag →
      tag.toNat % 8 ∉ [0, 1, 2, 5] →
      Stops [front] rest
        (.wireType (UInt32.ofNat (tag.toNat / 8)) (UInt8.ofNat (tag.toNat % 8)))
  | value {front rest : Bytes} {tag : UInt64} {type : WireType} {varints : List Bytes}
      {e : WireError} : Varint.Spells front tag → tag.toNat % 8 = type.code.toNat →
      type.Halts varints rest e → Stops (front :: varints) rest e

inductive Written : Bytes → List Field → Prop
  | nil : Written [] []
  | cons {front rest : Bytes} {field : Field} {fields : List Field} : Spelled front field →
      Written rest fields → Written (front ++ rest) (field :: fields)

end Field

/-! ### Values -/

lemma WireType.code_toNat_lt (type : WireType) : type.code.toNat < 8 := by
  cases type <;> decide

lemma WireType.ofCode?_code (type : WireType) : ofCode? type.code = some type := by
  cases type <;> rfl

namespace Field

lemma takeVarint_spells {front : Bytes} {value : UInt64} (h : Varint.Spells front value)
    (rest : Bytes) : takeVarint (front ++ rest) = .ok (value, rest) := by
  simp [takeVarint, h.decode]

lemma takeVarint_fails {bytes : Bytes} {e : WireError} (h : Varint.Fails bytes e) :
    takeVarint bytes = .error e := by
  simp [takeVarint, h.decode]

lemma takeBytes_append {raw : Bytes} {count : Nat} (h : raw.length = count) (rest : Bytes) :
    takeBytes count (raw ++ rest) = .ok (raw, rest) := by
  simp [takeBytes, ← h]

lemma takeBytes_short {bytes : Bytes} {count : Nat} (h : bytes.length < count) :
    takeBytes count bytes = .error (.truncated count bytes.length) := by
  simp [takeBytes, h]

lemma takeValue_spelled {raw : Bytes} {value : FieldValue} (h : value.Spelled raw) (rest : Bytes) :
    takeValue value.wireType (raw ++ rest) = (.ok value, rest) := by
  cases h with
  | varint hvalue => simp [FieldValue.wireType, takeValue, takeVarint_spells hvalue]
  | fixed64 hlength => simp [FieldValue.wireType, takeValue, takeBytes_append hlength]
  | bytes hcount hlength =>
    simp [FieldValue.wireType, takeValue, takeVarint_spells hcount, takeBytes_append hlength.symm]
  | fixed32 hlength => simp [FieldValue.wireType, takeValue, takeBytes_append hlength]

lemma takeValue_halts {type : WireType} {varints : List Bytes} {rest : Bytes} {e : WireError}
    (h : type.Halts varints rest e) :
    takeValue type (varints.flatten ++ rest) = (.error e, rest) := by
  cases h with
  | varint hfails => simp [takeValue, takeVarint_fails hfails]
  | fixed64 hshort => simp [takeValue, takeBytes_short hshort]
  | count hfails => simp [takeValue, takeVarint_fails hfails]
  | bytes hcount hshort => simp [takeValue, takeVarint_spells hcount, takeBytes_short hshort]
  | fixed32 hshort => simp [takeValue, takeBytes_short hshort]

lemma halts_of_wanting {type : WireType} {bytes : Bytes} {e : WireError} (h : type.Wanting bytes e) :
    ∃ varints rest, bytes = varints.flatten ++ rest ∧ type.Halts varints rest e := by
  cases h with
  | varint hfails => exact ⟨[], bytes, rfl, .varint hfails⟩
  | fixed64 hshort => exact ⟨[], bytes, rfl, .fixed64 hshort⟩
  | count hfails => exact ⟨[], bytes, rfl, .count hfails⟩
  | @bytes count rest _ hcount hshort => exact ⟨[count], rest, by simp, .bytes hcount hshort⟩
  | fixed32 hshort => exact ⟨[], bytes, rfl, .fixed32 hshort⟩

lemma exists_take {count : Nat} {bytes : Bytes} (h : ¬ bytes.length < count) :
    ∃ raw rest, bytes = raw ++ rest ∧ raw.length = count :=
  ⟨bytes.take count, bytes.drop count, (List.take_append_drop _ _).symm, by simp; omega⟩

lemma spelled_or_wanting (type : WireType) (bytes : Bytes) :
    (∃ raw value rest, bytes = raw ++ rest ∧ FieldValue.wireType value = type ∧
      value.Spelled raw) ∨ ∃ e, type.Wanting bytes e := by
  cases type with
  | varint =>
    rcases Varint.spells_or_fails bytes with ⟨front, value, rest, rfl, hfront⟩ | ⟨e, he⟩
    · exact .inl ⟨front, _, rest, rfl, rfl, .varint hfront⟩
    · exact .inr ⟨e, .varint he⟩
  | fixed64 =>
    by_cases hshort : bytes.length < 8
    · exact .inr ⟨_, .fixed64 hshort⟩
    · obtain ⟨raw, rest, rfl, hraw⟩ := exists_take hshort
      exact .inl ⟨raw, _, rest, rfl, rfl, .fixed64 hraw⟩
  | bytes =>
    rcases Varint.spells_or_fails bytes with ⟨count, length, rest, rfl, hcount⟩ | ⟨e, he⟩
    · by_cases hshort : rest.length < length.toNat
      · exact .inr ⟨_, .bytes hcount hshort⟩
      · obtain ⟨raw, rest, rfl, hraw⟩ := exists_take hshort
        exact .inl ⟨count ++ raw, _, rest, by simp, rfl, .bytes hcount hraw.symm⟩
    · exact .inr ⟨e, .count he⟩
  | fixed32 =>
    by_cases hshort : bytes.length < 4
    · exact .inr ⟨_, .fixed32 hshort⟩
    · obtain ⟨raw, rest, rfl, hraw⟩ := exists_take hshort
      exact .inl ⟨raw, _, rest, rfl, rfl, .fixed32 hraw⟩

/-! ### Single fields -/

lemma shift_tag (tag : UInt64) : (tag >>> 3).toUInt32 = UInt32.ofNat (tag.toNat / 8) := by
  apply UInt32.toNat_inj.mp
  rw [UInt64.toNat_toUInt32, UInt64.toNat_shiftRight, UInt32.toNat_ofNat']
  change tag.toNat >>> 3 % 2 ^ 32 = _
  rw [Nat.shiftRight_eq_div_pow]

lemma mask_tag (tag : UInt64) : (tag &&& 7).toUInt8 = UInt8.ofNat (tag.toNat % 8) := by
  apply UInt8.toNat_inj.mp
  rw [UInt64.toNat_toUInt8, UInt64.toNat_and, UInt8.toNat_ofNat']
  change (tag.toNat &&& (2 ^ 3 - 1)) % 2 ^ 8 = _
  rw [Nat.and_two_pow_sub_one_eq_mod]

lemma next_tag {front : Bytes} {tag : UInt64} (htag : Varint.Spells front tag) (rest : Bytes) :
    next (front ++ rest) =
      match WireType.ofCode? (UInt8.ofNat (tag.toNat % 8)) with
      | none =>
          (.error (.wireType (UInt32.ofNat (tag.toNat / 8)) (UInt8.ofNat (tag.toNat % 8))), rest)
      | some type =>
          match takeValue type rest with
          | (.ok value, rest') => (.ok (some ⟨UInt32.ofNat (tag.toNat / 8), value⟩), rest')
          | (.error e, rest') => (.error e, rest') := by
  have hsome : (front ++ rest).isEmpty = false := by simp [htag.ne_nil]
  rw [next, hsome, takeVarint_spells htag]
  simp only [shift_tag, mask_tag]
  rfl

lemma ofCode?_of_mod {tag : UInt64} {type : WireType} (h : tag.toNat % 8 = type.code.toNat) :
    WireType.ofCode? (UInt8.ofNat (tag.toNat % 8)) = some type := by
  rw [h, UInt8.ofNat_toNat, WireType.ofCode?_code]

lemma type_or_none (tag : UInt64) : (∃ type : WireType, tag.toNat % 8 = type.code.toNat) ∨
    tag.toNat % 8 ∉ [0, 1, 2, 5] := by
  by_cases h : tag.toNat % 8 ∈ [0, 1, 2, 5]
  · simp only [List.mem_cons, List.not_mem_nil, or_false] at h
    rcases h with h | h | h | h
    · exact .inl ⟨.varint, h⟩
    · exact .inl ⟨.fixed64, h⟩
    · exact .inl ⟨.bytes, h⟩
    · exact .inl ⟨.fixed32, h⟩
  · exact .inr h

lemma ofCode?_eq_none {tag : UInt64} (h : tag.toNat % 8 ∉ [0, 1, 2, 5]) :
    WireType.ofCode? (UInt8.ofNat (tag.toNat % 8)) = none := by
  have hcodes : ∀ code : Fin 8, code.val ∉ [0, 1, 2, 5] →
      WireType.ofCode? (UInt8.ofNat code) = none := by decide
  exact hcodes ⟨tag.toNat % 8, Nat.mod_lt _ (by norm_num)⟩ h

lemma next_spelled {front : Bytes} {field : Field} (h : Spelled front field) (rest : Bytes) :
    next (front ++ rest) = (.ok (some field), rest) := by
  obtain ⟨htag, htype, hvalue⟩ := h
  rw [List.append_assoc, next_tag htag, ofCode?_of_mod htype]
  simp only [takeValue_spelled hvalue]

lemma next_stops {varints : List Bytes} {rest : Bytes} {e : WireError} (h : Stops varints rest e) :
    next (varints.flatten ++ rest) = (.error e, rest) := by
  cases h with
  | tag hsome hfails => simp [next, hsome, takeVarint_fails hfails]
  | type htag htype =>
    rw [List.flatten_singleton, next_tag htag, ofCode?_eq_none htype]
  | value htag htype hvalue =>
    rw [List.flatten_cons, List.append_assoc, next_tag htag, ofCode?_of_mod htype]
    simp only [takeValue_halts hvalue]

lemma Broken.stops {bytes : Bytes} {e : WireError} (h : Broken bytes e) :
    ∃ varints rest, bytes = varints.flatten ++ rest ∧ Stops varints rest e := by
  cases h with
  | tag hsome hfails => exact ⟨[], bytes, rfl, .tag hsome hfails⟩
  | @type front rest _ htag htype => exact ⟨[front], rest, by simp, .type htag htype⟩
  | @value front _ _ _ _ htag htype hvalue =>
    obtain ⟨varints, rest, rfl, hhalts⟩ := halts_of_wanting hvalue
    exact ⟨front :: varints, rest, by simp, .value htag htype hhalts⟩

lemma next_broken {bytes : Bytes} {e : WireError} (h : Broken bytes e) :
    (next bytes).1 = .error e := by
  obtain ⟨varints, rest, rfl, hstops⟩ := h.stops
  rw [next_stops hstops]

lemma begins (bytes : Bytes) : bytes = [] ∨
    (∃ front field rest, bytes = front ++ rest ∧ Spelled front field) ∨ ∃ e, Broken bytes e := by
  by_cases hsome : bytes = []
  · exact .inl hsome
  right
  rcases Varint.spells_or_fails bytes with ⟨front, tag, rest, rfl, htag⟩ | ⟨e, he⟩
  · rcases type_or_none tag with ⟨type, htype⟩ | hnone
    · rcases spelled_or_wanting type rest with ⟨raw, value, rest, rfl, rfl, hvalue⟩ | ⟨e, he⟩
      · exact .inl ⟨front ++ raw, _, rest, by simp, .mk htag htype hvalue⟩
      · exact .inr ⟨e, .value htag htype he⟩
    · exact .inr ⟨_, .type htag hnone⟩
  · exact .inr ⟨e, .tag hsome he⟩

lemma Spelled.ne_nil {front : Bytes} {field : Field} (h : Spelled front field) : front ≠ [] := by
  obtain ⟨htag, _, _⟩ := h
  simp [htag.ne_nil]

@[elab_as_elim]
lemma bytes_induction {motive : Bytes → Prop} (nil : motive [])
    (field : ∀ front field rest, Spelled front field → motive rest → motive (front ++ rest))
    (broken : ∀ bytes e, Broken bytes e → motive bytes) (bytes : Bytes) : motive bytes := by
  induction hlength : bytes.length using Nat.strong_induction_on generalizing bytes with
  | _ n ih =>
    rcases begins bytes with rfl | ⟨front, next, rest, rfl, hfield⟩ | ⟨e, he⟩
    · exact nil
    · have hshorter : rest.length < n := by
        have hfront := List.length_pos_of_ne_nil hfield.ne_nil
        rw [← hlength, List.length_append]
        omega
      exact field front next rest hfield (ih _ hshorter rest rfl)
    · exact broken bytes e he

/-! ### Runs of fields -/

namespace Written

lemma append {bytes bytes' : Bytes} {fields fields' : List Field} (h : Written bytes fields)
    (h' : Written bytes' fields') : Written (bytes ++ bytes') (fields ++ fields') := by
  induction h with
  | nil => exact h'
  | cons hfield _ ih =>
    rw [List.append_assoc]
    exact .cons hfield ih

lemma single {front : Bytes} {field : Field} (h : Spelled front field) : Written front [field] := by
  simpa using Written.cons h .nil

lemma unique {bytes : Bytes} {fields fields' : List Field} (h : Written bytes fields)
    (h' : Written bytes fields') : fields = fields' := by
  induction h generalizing fields' with
  | nil =>
    generalize hbytes : ([] : Bytes) = bytes at h'
    cases h' with
    | nil => rfl
    | cons hfield _ => exact (hfield.ne_nil (List.append_eq_nil_iff.mp hbytes.symm).1).elim
  | @cons front rest field fields hfield _ ih =>
    generalize hbytes : front ++ rest = bytes at h'
    cases h' with
    | nil => exact (hfield.ne_nil (List.append_eq_nil_iff.mp hbytes).1).elim
    | @cons front' rest' field' fields' hfield' hrest' =>
      have hnext := next_spelled hfield rest
      rw [hbytes, next_spelled hfield'] at hnext
      cases hnext
      rw [ih hrest']

end Written

variable {α : Type} {step : α → Field → Except WireError α} {start : α}

lemma fold_nil (step : α → Field → Except WireError α) (start : α) : fold step start [] = .ok start := by
  rw [fold]
  rfl

lemma fold_spelled {front : Bytes} {field : Field} (h : Spelled front field) (rest : Bytes) :
    fold step start (front ++ rest) = step start field >>= fun after => fold step after rest := by
  rw [fold]
  split
  · simp_all [next_spelled h]
  · simp_all [next_spelled h]
  · next field' rest' hread =>
    rw [next_spelled h] at hread
    cases hread
    cases step start field <;> rfl

lemma fold_broken {bytes : Bytes} {e : WireError} (h : Broken bytes e) :
    fold step start bytes = .error e := by
  have hnext := next_broken h
  rw [fold]
  split <;> simp_all

/-- A step that takes a field or refuses it, whatever was taken before. -/
structure Taking (step : α → Field → Except WireError α) (accepts : Field → Prop)
    (refuses : Field → WireError → Prop) (take : α → Field → α) : Prop where
  accepted : ∀ {start field}, accepts field → step start field = .ok (take start field)
  refused : ∀ {start field e}, refuses field e → step start field = .error e
  decided : ∀ field, accepts field ∨ ∃ e, refuses field e

/-- What is wrong with bytes that do not begin with a field that is taken. -/
def Offends (refuses : Field → WireError → Prop) (bytes : Bytes) (e : WireError) : Prop :=
  Broken bytes e ∨ ∃ front field rest, bytes = front ++ rest ∧ Spelled front field ∧ refuses field e

namespace Taking

variable {accepts : Field → Prop} {refuses : Field → WireError → Prop} {take : α → Field → α}

lemma fold_accepted (taking : Taking step accepts refuses take) {bytes : Bytes}
    {fields : List Field} (hwritten : Written bytes fields) (haccepted : ∀ field ∈ fields, accepts field)
    (rest : Bytes) : fold step start (bytes ++ rest) = fold step (fields.foldl take start) rest := by
  induction hwritten generalizing start with
  | nil => rfl
  | cons hfield _ ih =>
    rw [List.append_assoc, fold_spelled hfield,
      taking.accepted (haccepted _ List.mem_cons_self)]
    exact ih fun field hmem => haccepted field (List.mem_cons_of_mem _ hmem)

lemma fold_offends (taking : Taking step accepts refuses take) {bytes : Bytes} {e : WireError}
    (h : Offends refuses bytes e) : fold step start bytes = .error e := by
  rcases h with hbroken | ⟨front, field, rest, rfl, hfield, hrefused⟩
  · exact fold_broken hbroken
  · rw [fold_spelled hfield, taking.refused hrefused]
    rfl

/-- Bytes are fields that are taken, up to the end or up to the first offence. -/
lemma exists_accepted (taking : Taking step accepts refuses take) (bytes : Bytes) :
    ∃ before fields after, bytes = before ++ after ∧ Written before fields ∧
      (∀ field ∈ fields, accepts field) ∧ (after = [] ∨ ∃ e, Offends refuses after e) := by
  induction bytes using bytes_induction with
  | nil => exact ⟨[], [], [], rfl, .nil, by simp, .inl rfl⟩
  | field front field rest hfield ih =>
    rcases taking.decided field with haccepted | ⟨e, hrefused⟩
    · obtain ⟨before, fields, after, rfl, hwritten, hfields, hend⟩ := ih
      refine ⟨front ++ before, field :: fields, after, by simp, .cons hfield hwritten, ?_, hend⟩
      simpa [haccepted] using hfields
    · exact ⟨[], [], front ++ rest, rfl, .nil, by simp,
        .inr ⟨e, .inr ⟨front, field, rest, rfl, hfield, hrefused⟩⟩⟩
  | broken bytes e he => exact ⟨[], [], bytes, rfl, .nil, by simp, .inr ⟨e, .inl he⟩⟩

theorem fold_eq_ok_iff (taking : Taking step accepts refuses take) {bytes : Bytes} {final : α} :
    fold step start bytes = .ok final ↔ ∃ fields, Written bytes fields ∧
      (∀ field ∈ fields, accepts field) ∧ final = fields.foldl take start := by
  constructor
  · intro h
    obtain ⟨before, fields, after, rfl, hwritten, hfields, hend⟩ := taking.exists_accepted bytes
    rw [taking.fold_accepted hwritten hfields] at h
    rcases hend with rfl | ⟨e, he⟩
    · rw [fold_nil, Except.ok.injEq] at h
      exact ⟨fields, by simpa using hwritten, hfields, h.symm⟩
    · rw [taking.fold_offends he] at h
      cases h
  · rintro ⟨fields, hwritten, hfields, rfl⟩
    rw [← List.append_nil bytes, taking.fold_accepted hwritten hfields, fold_nil]

theorem fold_eq_error_iff (taking : Taking step accepts refuses take) {bytes : Bytes}
    {e : WireError} :
    fold step start bytes = .error e ↔ ∃ before fields after, bytes = before ++ after ∧
      Written before fields ∧ (∀ field ∈ fields, accepts field) ∧ Offends refuses after e := by
  constructor
  · intro h
    obtain ⟨before, fields, after, rfl, hwritten, hfields, hend⟩ := taking.exists_accepted bytes
    rw [taking.fold_accepted hwritten hfields] at h
    rcases hend with rfl | ⟨e', he⟩
    · rw [fold_nil] at h
      cases h
    · rw [taking.fold_offends he, Except.error.injEq] at h
      exact ⟨before, fields, after, rfl, hwritten, hfields, h ▸ he⟩
  · rintro ⟨before, fields, after, rfl, hwritten, hfields, he⟩
    rw [taking.fold_accepted hwritten hfields, taking.fold_offends he]

end Taking

end Field

end ChatLoad
