import ChatLoad.Proofs.Wire.Fields
import ChatLoad.Wire.Auth
import ChatLoad.Wire.Chat

/-! What bodies mean. A payload takes the fields with the right kind of value and refuses the others, and of
the fields with one number the last counts. -/

namespace ChatLoad

lemma Bytes.text?_eq_some_iff {raw : Bytes} {text : String} :
    text? raw = some text ↔ raw = ofText text := by
  constructor
  · intro h
    rw [text?, String.fromUTF8?] at h
    split at h
    · rw [Option.some.injEq] at h
      subst h
      exact List.toList_data_toByteArray.symm
    · cases h
  · rintro rfl
    have hbytes : (ofText text).toByteArray = text.toUTF8 :=
      ByteArray.ext (by simp [ofText, List.data_toByteArray])
    have hvalid : text.toUTF8.IsValidUTF8 := text.isValidUTF8
    rw [text?, hbytes, String.fromUTF8?, dif_pos hvalid]
    rfl

namespace FieldValue

/-- The number that a value stands for, whatever its width. -/
def toNumber : FieldValue → UInt64
  | varint value => value
  | fixed64 value => value
  | fixed32 value => value.toUInt64
  | bytes _ => 0

@[simp] lemma toNumber_varint (value : UInt64) : toNumber (.varint value) = value := rfl

def toText : FieldValue → String
  | bytes raw => (Bytes.text? raw).getD ""
  | _ => ""

@[simp] lemma toText_ofText (text : String) : toText (.bytes (Bytes.ofText text)) = text := by
  rw [toText, Bytes.text?_eq_some_iff.mpr rfl, Option.getD_some]

end FieldValue

namespace Field

def IsNumber (field : Field) : Prop :=
  ∀ raw, field.value ≠ .bytes raw

/-- The value is the UTF-8 of a text. -/
def IsText (field : Field) : Prop :=
  ∃ text, field.value = .bytes (Bytes.ofText text)

/-- What is wrong with the value of a field that should be a number. -/
inductive NotNumber : Field → WireError → Prop
  | bytes {number : UInt32} {raw : Bytes} : NotNumber ⟨number, .bytes raw⟩ (.wireType number 2)

/-- What is wrong with the value of a field that should be a text. -/
inductive NotText : Field → WireError → Prop
  | number {number : UInt32} {value : FieldValue} : (∀ raw, value ≠ .bytes raw) →
      NotText ⟨number, value⟩ (.wireType number value.wireType.code)
  | utf8 {number : UInt32} {raw : Bytes} : (∀ text, raw ≠ Bytes.ofText text) →
      NotText ⟨number, .bytes raw⟩ (.utf8 number)

lemma number?_isNumber {field : Field} (h : field.IsNumber) :
    field.number? = .ok field.value.toNumber := by
  obtain ⟨number, value⟩ := field
  cases value with
  | bytes raw => exact (h raw rfl).elim
  | varint | fixed64 | fixed32 => rfl

lemma number?_notNumber {field : Field} {e : WireError} (h : field.NotNumber e) :
    field.number? = .error e := by
  cases h
  rfl

lemma number_decided (field : Field) : field.IsNumber ∨ ∃ e, field.NotNumber e := by
  obtain ⟨number, value⟩ := field
  cases value with
  | bytes raw => exact .inr ⟨_, .bytes⟩
  | varint | fixed64 | fixed32 => exact .inl fun raw h => by cases h

lemma text?_isText {field : Field} (h : field.IsText) : field.text? = .ok field.value.toText := by
  obtain ⟨text, htext⟩ := h
  simp only [text?, htext, Bytes.text?_eq_some_iff.mpr rfl, FieldValue.toText_ofText]

lemma text?_notText {field : Field} {e : WireError} (h : field.NotText e) :
    field.text? = .error e := by
  cases h with
  | @number number value hvalue =>
    cases value with
    | bytes raw => exact (hvalue raw rfl).elim
    | varint | fixed64 | fixed32 => rfl
  | @utf8 number raw hraw =>
    have hnone : Bytes.text? raw = none :=
      Option.eq_none_iff_forall_ne_some.mpr fun text h => hraw text (Bytes.text?_eq_some_iff.mp h)
    simp only [text?, hnone]

lemma text_decided (field : Field) : field.IsText ∨ ∃ e, field.NotText e := by
  obtain ⟨number, value⟩ := field
  cases value with
  | bytes raw =>
    by_cases h : ∃ text, raw = Bytes.ofText text
    · obtain ⟨text, rfl⟩ := h
      exact .inl ⟨text, rfl⟩
    · exact .inr ⟨_, .utf8 (not_exists.mp h)⟩
  | varint | fixed64 | fixed32 => exact .inr ⟨_, .number fun raw h => by cases h⟩

/-! ### The last field with a number -/

def last? (number : UInt32) (fields : List Field) : Option FieldValue :=
  ((fields.filter (·.number = number)).getLast?).map (·.value)

/-- What the last field with the number holds, or what was there at the start. -/
def member {β : Type} (number : UInt32) (read : FieldValue → β) (start : β) (fields : List Field) :
    β :=
  ((last? number fields).map read).getD start

section

variable {β : Type} (number : UInt32) (read : FieldValue → β) (start : β)

lemma member_append (fields later : List Field) :
    member number read start (fields ++ later) =
      member number read (member number read start fields) later := by
  simp only [member, last?, List.filter_append, List.getLast?_append]
  cases (later.filter (·.number = number)).getLast? <;> rfl

@[simp] lemma member_nil : member number read start [] = start := rfl

lemma member_single (field : Field) :
    member number read start [field] =
      if field.number = number then read field.value else start := by
  by_cases h : field.number = number <;> simp [member, last?, h]

end

end Field

namespace Chat

def numbers : List UInt32 := [1, 2, 3, 4, 7]

def texts : List UInt32 := [5, 6, 8]

def Accepts (field : Field) : Prop :=
  (field.number ∈ numbers → field.IsNumber) ∧ (field.number ∈ texts → field.IsText)

def Refuses (field : Field) (e : WireError) : Prop :=
  field.number ∈ numbers ∧ field.NotNumber e ∨ field.number ∈ texts ∧ field.NotText e

/-- Every member is what the last field with its number holds, if there is one. -/
def update (chat : Chat) (fields : List Field) : Chat where
  command := Field.member 1 (fun value => .ofCode value.toNumber.toUInt8) chat.command fields
  sessionId := Field.member 2 (fun value => value.toNumber.toInt64) chat.sessionId fields
  senderId := Field.member 3 (fun value => value.toNumber.toInt64) chat.senderId fields
  targetId := Field.member 4 (fun value => value.toNumber.toInt64) chat.targetId fields
  content := Field.member 5 (fun value => value.toText) chat.content fields
  contentType := Field.member 6 (fun value => value.toText) chat.contentType fields
  timestamp := Field.member 7 (fun value => value.toNumber.toInt64) chat.timestamp fields
  extra := Field.member 8 (fun value => value.toText) chat.extra fields

lemma update_append (chat : Chat) (fields later : List Field) :
    chat.update (fields ++ later) = (chat.update fields).update later := by
  simp only [update, Field.member_append]

lemma foldl_update (chat : Chat) (fields : List Field) :
    fields.foldl (fun chat field => chat.update [field]) chat = chat.update fields := by
  induction fields generalizing chat with
  | nil => rfl
  | cons field fields ih => rw [List.foldl_cons, ih, ← update_append, List.singleton_append]

lemma notMem_texts {number : UInt32} (h : number ∈ numbers) : number ∉ texts := by
  simp only [numbers, List.mem_cons, List.not_mem_nil, or_false] at h
  rcases h with rfl | rfl | rfl | rfl | rfl <;> decide

lemma set_unknown (chat : Chat) {field : Field} (hnumber : field.number ∉ numbers)
    (htext : field.number ∉ texts) : chat.set field = .ok chat := by
  have hother : ∀ n : UInt32, n ∈ numbers ∨ n ∈ texts → field.number.toNat ≠ n.toNat := by
    intro n hn heq
    rw [UInt32.toNat_inj.mp heq] at hnumber htext
    exact hn.elim hnumber htext
  rw [set]
  split
  · next h => exact (hother 1 (by decide) h).elim
  · next h => exact (hother 2 (by decide) h).elim
  · next h => exact (hother 3 (by decide) h).elim
  · next h => exact (hother 4 (by decide) h).elim
  · next h => exact (hother 5 (by decide) h).elim
  · next h => exact (hother 6 (by decide) h).elim
  · next h => exact (hother 7 (by decide) h).elim
  · next h => exact (hother 8 (by decide) h).elim
  · rfl

lemma update_unknown (chat : Chat) {field : Field} (hnumber : field.number ∉ numbers)
    (htext : field.number ∉ texts) : chat.update [field] = chat := by
  simp only [numbers, texts, List.mem_cons, List.not_mem_nil, or_false, not_or] at hnumber htext
  simp [update, Field.member_single, hnumber, htext]

lemma set_accepted (chat : Chat) {field : Field} (h : Accepts field) :
    chat.set field = .ok (chat.update [field]) := by
  by_cases hnumber : field.number ∈ numbers
  · have hread := Field.number?_isNumber (h.1 hnumber)
    obtain ⟨number, value⟩ := field
    simp only [numbers, List.mem_cons, List.not_mem_nil, or_false] at hnumber
    rcases hnumber with rfl | rfl | rfl | rfl | rfl <;>
      simp [set, hread, update, Field.member_single]
  · by_cases htext : field.number ∈ texts
    · have hread := Field.text?_isText (h.2 htext)
      obtain ⟨number, value⟩ := field
      simp only [texts, List.mem_cons, List.not_mem_nil, or_false] at htext
      rcases htext with rfl | rfl | rfl <;> simp [set, hread, update, Field.member_single]
    · rw [set_unknown chat hnumber htext, update_unknown chat hnumber htext]

lemma set_refused (chat : Chat) {field : Field} {e : WireError} (h : Refuses field e) :
    chat.set field = .error e := by
  rcases h with ⟨hnumber, hvalue⟩ | ⟨htext, hvalue⟩
  · have hread := Field.number?_notNumber hvalue
    obtain ⟨number, value⟩ := field
    simp only [numbers, List.mem_cons, List.not_mem_nil, or_false] at hnumber
    rcases hnumber with rfl | rfl | rfl | rfl | rfl <;> simp [set, hread]
  · have hread := Field.text?_notText hvalue
    obtain ⟨number, value⟩ := field
    simp only [texts, List.mem_cons, List.not_mem_nil, or_false] at htext
    rcases htext with rfl | rfl | rfl <;> simp [set, hread]

lemma accepts_or_refuses (field : Field) : Accepts field ∨ ∃ e, Refuses field e := by
  by_cases hnumber : field.number ∈ numbers
  · rcases field.number_decided with h | ⟨e, he⟩
    · exact .inl ⟨fun _ => h, fun htext => absurd htext (notMem_texts hnumber)⟩
    · exact .inr ⟨e, .inl ⟨hnumber, he⟩⟩
  · by_cases htext : field.number ∈ texts
    · rcases field.text_decided with h | ⟨e, he⟩
      · exact .inl ⟨fun hin => absurd hin hnumber, fun _ => h⟩
      · exact .inr ⟨e, .inr ⟨htext, he⟩⟩
    · exact .inl ⟨fun hin => absurd hin hnumber, fun hin => absurd hin htext⟩

lemma taking : Field.Taking set Accepts Refuses fun chat field => chat.update [field] :=
  ⟨set_accepted _, set_refused _, accepts_or_refuses⟩

lemma fold_accepted (chat : Chat) {bytes : Bytes} {fields : List Field}
    (hwritten : Field.Written bytes fields) (haccepted : ∀ field ∈ fields, Accepts field)
    (rest : Bytes) :
    Field.fold set chat (bytes ++ rest) = Field.fold set (chat.update fields) rest := by
  rw [taking.fold_accepted hwritten haccepted, foldl_update]

theorem decode_eq_ok_iff {body : Bytes} {chat : Chat} :
    decode body = .ok chat ↔ ∃ fields, Field.Written body fields ∧
      (∀ field ∈ fields, Accepts field) ∧ chat = ({} : Chat).update fields := by
  rw [decode, taking.fold_eq_ok_iff]
  simp only [foldl_update]

theorem decode_eq_error_iff {body : Bytes} {e : WireError} :
    decode body = .error e ↔ ∃ before fields after, body = before ++ after ∧
      Field.Written before fields ∧ (∀ field ∈ fields, Accepts field) ∧
        Field.Offends Refuses after e :=
  taking.fold_eq_error_iff

end Chat

namespace Auth

def texts : List UInt32 := [1, 2]

def Accepts (field : Field) : Prop :=
  field.number ∈ texts → field.IsText

def Refuses (field : Field) (e : WireError) : Prop :=
  field.number ∈ texts ∧ field.NotText e

def update (auth : Auth) (fields : List Field) : Auth where
  token := Field.member 1 (fun value => value.toText) auth.token fields
  deviceId := Field.member 2 (fun value => value.toText) auth.deviceId fields

lemma update_append (auth : Auth) (fields later : List Field) :
    auth.update (fields ++ later) = (auth.update fields).update later := by
  simp only [update, Field.member_append]

lemma foldl_update (auth : Auth) (fields : List Field) :
    fields.foldl (fun auth field => auth.update [field]) auth = auth.update fields := by
  induction fields generalizing auth with
  | nil => rfl
  | cons field fields ih => rw [List.foldl_cons, ih, ← update_append, List.singleton_append]

lemma set_accepted (auth : Auth) {field : Field} (h : Accepts field) :
    auth.set field = .ok (auth.update [field]) := by
  by_cases htext : field.number ∈ texts
  · have hread := Field.text?_isText (h htext)
    obtain ⟨number, value⟩ := field
    simp only [texts, List.mem_cons, List.not_mem_nil, or_false] at htext
    rcases htext with rfl | rfl <;> simp [set, hread, update, Field.member_single]
  · simp only [texts, List.mem_cons, List.not_mem_nil, or_false, not_or] at htext
    simp [set, update, Field.member_single, htext]

lemma set_refused (auth : Auth) {field : Field} {e : WireError} (h : Refuses field e) :
    auth.set field = .error e := by
  obtain ⟨htext, hvalue⟩ := h
  have hread := Field.text?_notText hvalue
  obtain ⟨number, value⟩ := field
  simp only [texts, List.mem_cons, List.not_mem_nil, or_false] at htext
  rcases htext with rfl | rfl <;> simp [set, hread]

lemma accepts_or_refuses (field : Field) : Accepts field ∨ ∃ e, Refuses field e := by
  by_cases htext : field.number ∈ texts
  · rcases field.text_decided with h | ⟨e, he⟩
    · exact .inl fun _ => h
    · exact .inr ⟨e, htext, he⟩
  · exact .inl fun hin => absurd hin htext

lemma taking : Field.Taking set Accepts Refuses fun auth field => auth.update [field] :=
  ⟨set_accepted _, set_refused _, accepts_or_refuses⟩

theorem decode_eq_ok_iff {body : Bytes} {auth : Auth} :
    decode body = .ok auth ↔ ∃ fields, Field.Written body fields ∧
      (∀ field ∈ fields, Accepts field) ∧ auth = ({} : Auth).update fields := by
  rw [decode, taking.fold_eq_ok_iff]
  simp only [foldl_update]

end Auth

end ChatLoad
