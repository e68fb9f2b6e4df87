import Mathlib
import ChatLoad.Wire.Inbound

/-! The grammar of a byte stream, one rule for each kind of item, and the cutting of streams by it. -/

namespace ChatLoad.Item

/-- The first item of a stream and what follows it. -/
inductive Cut : Bytes → Item → Bytes → Prop
  | badMagic {a b : UInt8} {skipped rest : Bytes} : (a, b) ≠ (0xCA, 0xFE) → skipped.length = 15 →
      Cut (a :: b :: (skipped ++ rest))
        (.badHeader (.invalidMagic (UInt16.ofNat (256 * a.toNat + b.toNat)))) rest
  | tooLong {version serial command : UInt8} {id size rest : Bytes} :
      id.length = 8 → size.length = 4 → Header.maxBody < Bytes.ofBigEndian size →
      Cut (0xCA :: 0xFE :: version :: serial :: command :: (id ++ (size ++ rest)))
        (.badHeader (.bodyTooLarge (UInt32.ofNat (Bytes.ofBigEndian size)))) rest
  | frame {version serial command : UInt8} {id size body rest : Bytes} :
      id.length = 8 → size.length = 4 → Bytes.ofBigEndian size = body.length →
      body.length ≤ Header.maxBody →
      Cut (0xCA :: 0xFE :: version :: serial :: command :: (id ++ (size ++ (body ++ rest))))
        (.frame ⟨⟨0xCAFE, version, serial, command, UInt64.ofNat (Bytes.ofBigEndian id),
          UInt32.ofNat body.length⟩, body⟩) rest

inductive Cuts : Bytes → List Item → Bytes → Prop
  | nil (bytes : Bytes) : Cuts bytes [] bytes
  | cons {bytes rest tail : Bytes} {item : Item} {items : List Item} :
      Cut bytes item rest → Cuts rest items tail → Cuts bytes (item :: items) tail

/-- No item is complete yet. -/
def Unfinished (bytes : Bytes) : Prop :=
  ∀ item rest, ¬ Cut bytes item rest

/-! ### Headers -/

lemma ofLittleEndian_lt (bytes : Bytes) : Bytes.ofLittleEndian bytes < 256 ^ bytes.length := by
  induction bytes with
  | nil => simp [Bytes.ofLittleEndian]
  | cons b rest ih =>
    have hb : b.toNat < 256 := b.toNat_lt
    rw [Bytes.ofLittleEndian, List.length_cons, pow_succ]
    omega

lemma ofBigEndian_lt (bytes : Bytes) : Bytes.ofBigEndian bytes < 256 ^ bytes.length := by
  simpa [Bytes.ofBigEndian] using ofLittleEndian_lt bytes.reverse

lemma ofBigEndian_one (a : UInt8) : Bytes.ofBigEndian [a] = a.toNat := by
  simp [Bytes.ofBigEndian, Bytes.ofLittleEndian]

lemma ofBigEndian_two (a b : UInt8) : Bytes.ofBigEndian [a, b] = 256 * a.toNat + b.toNat := by
  simp [Bytes.ofBigEndian, Bytes.ofLittleEndian]
  omega

lemma magic_iff (a b : UInt8) :
    UInt16.ofNat (256 * a.toNat + b.toNat) = Header.magicNumber ↔ (a, b) = (0xCA, 0xFE) := by
  have ha : a.toNat < 256 := a.toNat_lt
  have hb : b.toNat < 256 := b.toNat_lt
  constructor
  · intro h
    have hn := congrArg UInt16.toNat h
    simp only [UInt16.toNat_ofNat', Header.magicNumber] at hn
    change _ = 51966 at hn
    have h1 : a.toNat = 202 := by omega
    have h2 : b.toNat = 254 := by omega
    rw [Prod.mk.injEq]
    exact ⟨UInt8.toNat_inj.mp h1, UInt8.toNat_inj.mp h2⟩
  · intro h
    obtain ⟨rfl, rfl⟩ := Prod.mk.inj h
    rfl

lemma exists_header {bytes : Bytes} (h : Header.size ≤ bytes.length) :
    ∃ a b version serial command id size rest, id.length = 8 ∧ size.length = 4 ∧
      bytes = a :: b :: version :: serial :: command :: (id ++ (size ++ rest)) := by
  obtain ⟨a, b, version, serial, command, rest, rfl⟩ :
      ∃ a b version serial command rest,
        bytes = a :: b :: version :: serial :: command :: rest := by
    match bytes, h with
    | a :: b :: version :: serial :: command :: rest, _ => exact ⟨_, _, _, _, _, _, rfl⟩
  have hr : 12 ≤ rest.length := by
    simp only [Header.size, List.length_cons] at h
    omega
  refine ⟨a, b, version, serial, command, rest.take 8, (rest.drop 8).take 4, rest.drop 12,
    by simp; omega, by simp; omega, ?_⟩
  have hd : rest.drop 12 = (rest.drop 8).drop 4 := by rw [List.drop_drop]
  rw [hd, List.take_append_drop, List.take_append_drop]

lemma decode_header {a b version serial command : UInt8} {id size rest : Bytes}
    (hid : id.length = 8) (hsize : size.length = 4) :
    Header.decode (a :: b :: version :: serial :: command :: (id ++ (size ++ rest))) =
      if (a, b) = (0xCA, 0xFE) then
        .ok ⟨0xCAFE, version, serial, command, UInt64.ofNat (Bytes.ofBigEndian id),
          UInt32.ofNat (Bytes.ofBigEndian size)⟩
      else .error (.invalidMagic (UInt16.ofNat (256 * a.toNat + b.toNat))) := by
  have hlong : ¬ (a :: b :: version :: serial :: command :: (id ++ (size ++ rest))).length <
      Header.size := by
    simp only [List.length_cons, List.length_append, Header.size]
    omega
  have hi : ((id ++ (size ++ rest)).take 8) = id := by simp [← hid]
  have hs : (((id ++ (size ++ rest)).drop 8).take 4) = size := by simp [← hid, ← hsize]
  have hmagic : Header.number (a :: b :: version :: serial :: command :: (id ++ (size ++ rest))) 0 2 =
      256 * a.toNat + b.toNat := ofBigEndian_two a b
  simp only [Header.decode, hlong, if_false, hmagic, ne_eq, magic_iff]
  by_cases h : (a, b) = (0xCA, 0xFE)
  · obtain ⟨rfl, rfl⟩ := Prod.mk.inj h
    simp [Header.number, ofBigEndian_one, hi, hs]
  · simp [h]

/-! ### The reader obeys the grammar -/

lemma split?_header {a b version serial command : UInt8} {id size rest : Bytes}
    (hid : id.length = 8) (hsize : size.length = 4) :
    split? (a :: b :: version :: serial :: command :: (id ++ (size ++ rest))) =
      if (a, b) = (0xCA, 0xFE) then
        if Header.maxBody < Bytes.ofBigEndian size then
          some (.badHeader (.bodyTooLarge (UInt32.ofNat (Bytes.ofBigEndian size))), rest)
        else if rest.length < Bytes.ofBigEndian size then none
        else
          some (.frame ⟨⟨0xCAFE, version, serial, command, UInt64.ofNat (Bytes.ofBigEndian id),
              UInt32.ofNat (Bytes.ofBigEndian size)⟩, rest.take (Bytes.ofBigEndian size)⟩,
            rest.drop (Bytes.ofBigEndian size))
      else some (.badHeader (.invalidMagic (UInt16.ofNat (256 * a.toNat + b.toNat))), rest) := by
  have hlt : Bytes.ofBigEndian size < 4294967296 := by
    simpa [hsize] using ofBigEndian_lt size
  have hn : (UInt32.ofNat (Bytes.ofBigEndian size)).toNat = Bytes.ofBigEndian size := by
    rw [UInt32.toNat_ofNat']
    exact Nat.mod_eq_of_lt hlt
  have hlen : (a :: b :: version :: serial :: command :: (id ++ (size ++ rest))).length =
      Header.size + rest.length := by
    simp only [List.length_cons, List.length_append, Header.size]
    omega
  have hdrop : (a :: b :: version :: serial :: command :: (id ++ (size ++ rest))).drop
      Header.size = rest := by
    simp [Header.size, ← List.append_assoc, hid, hsize]
  rw [split?, if_neg (by omega), decode_header hid hsize, hdrop]
  by_cases hm : (a, b) = (0xCA, 0xFE)
  · simp only [hm, if_true, hn, hlen, Header.frameSize, Nat.add_lt_add_iff_left, ← List.drop_drop,
      hdrop]
  · simp only [hm, if_false]

theorem split?_eq_some_iff {bytes rest : Bytes} {item : Item} :
    split? bytes = some (item, rest) ↔ Cut bytes item rest := by
  constructor
  · intro h
    have hlong : Header.size ≤ bytes.length := by
      by_contra hshort
      simp [split?, Nat.lt_of_not_le hshort] at h
    obtain ⟨a, b, version, serial, command, id, size, tail, hid, hsize, rfl⟩ := exists_header hlong
    rw [split?_header hid hsize] at h
    by_cases hm : (a, b) = (0xCA, 0xFE)
    · obtain ⟨rfl, rfl⟩ := Prod.mk.inj hm
      by_cases hmax : Header.maxBody < Bytes.ofBigEndian size
      · simp only [if_true, hmax, Option.some.injEq, Prod.mk.injEq] at h
        obtain ⟨rfl, rfl⟩ := h
        exact .tooLong hid hsize hmax
      · by_cases hshort : tail.length < Bytes.ofBigEndian size
        · simp [hmax, hshort] at h
        · simp only [if_true, hmax, hshort, if_false, Option.some.injEq, Prod.mk.injEq] at h
          obtain ⟨rfl, rfl⟩ := h
          have hbody : (tail.take (Bytes.ofBigEndian size)).length = Bytes.ofBigEndian size := by
            simp
            omega
          have hc := @Cut.frame version serial command id size _
            (tail.drop (Bytes.ofBigEndian size)) hid hsize hbody.symm (by omega)
          rwa [List.take_append_drop, hbody] at hc
    · simp only [hm, if_false, Option.some.injEq, Prod.mk.injEq] at h
      obtain ⟨rfl, rfl⟩ := h
      have hc := @Cut.badMagic a b (version :: serial :: command :: (id ++ size)) tail hm
        (by simp; omega)
      simpa using hc
  · intro h
    cases h with
    | @badMagic a b skipped _ hm hlen =>
      have hlong : Header.size ≤ (a :: b :: (skipped ++ rest)).length := by
        simp only [List.length_cons, List.length_append, Header.size]
        omega
      obtain ⟨_, _, version, serial, command, id, size, tail, hid, hsize, he⟩ := exists_header hlong
      simp only [List.cons.injEq] at he
      obtain ⟨rfl, rfl, he⟩ := he
      have hsplit : skipped ++ rest = (version :: serial :: command :: (id ++ size)) ++ tail := by
        simpa using he
      obtain ⟨rfl, rfl⟩ := List.append_inj hsplit (by simp; omega)
      rw [he, split?_header hid hsize, if_neg hm]
    | tooLong hid hsize hmax => simp [split?_header hid hsize, hmax]
    | frame hid hsize hbody hmax =>
      simp [split?_header hid hsize, hbody, Nat.not_lt.mpr hmax]

theorem split?_eq_none_iff {bytes : Bytes} : split? bytes = none ↔ Unfinished bytes := by
  rw [Option.eq_none_iff_forall_ne_some, Prod.forall]
  exact forall₂_congr fun _ _ => split?_eq_some_iff.not

lemma Cut.unique {bytes rest rest' : Bytes} {item item' : Item} (h : Cut bytes item rest)
    (h' : Cut bytes item' rest') : item = item' ∧ rest = rest' := by
  rw [← split?_eq_some_iff] at h h'
  simpa using h.symm.trans h'

lemma Cut.append {bytes rest : Bytes} {item : Item} (h : Cut bytes item rest) (more : Bytes) :
    Cut (bytes ++ more) item (rest ++ more) := by
  cases h with
  | badMagic hm hlen => simpa using @Cut.badMagic _ _ _ (rest ++ more) hm hlen
  | tooLong hid hsize hmax => simpa using @Cut.tooLong _ _ _ _ _ (rest ++ more) hid hsize hmax
  | frame hid hsize hbody hmax =>
    simpa using @Cut.frame _ _ _ _ _ _ (rest ++ more) hid hsize hbody hmax

namespace Cuts

variable {bytes rest tail tail' : Bytes} {items items' : List Item}

lemma append (h : Cuts bytes items tail) (more : Bytes) :
    Cuts (bytes ++ more) items (tail ++ more) := by
  induction h with
  | nil bytes => exact .nil _
  | cons hc _ ih => exact .cons (hc.append more) ih

lemma trans (h : Cuts bytes items rest) (h' : Cuts rest items' tail) :
    Cuts bytes (items ++ items') tail := by
  induction h with
  | nil bytes => exact h'
  | cons hc _ ih => exact .cons hc (ih h')

lemma eq_of_nil (h : Cuts bytes [] tail) : tail = bytes := by
  cases h
  rfl

lemma eq_nil_of_unfinished (h : Cuts bytes items tail) (hend : Unfinished bytes) : items = [] := by
  cases h with
  | nil _ => rfl
  | cons hc _ => exact (hend _ _ hc).elim

lemma suffix (h : Cuts bytes items rest) (h' : Cuts bytes items' tail)
    (hend : Unfinished tail) : ∃ later, items' = items ++ later ∧ Cuts rest later tail := by
  induction h generalizing items' with
  | nil bytes => exact ⟨items', rfl, h'⟩
  | cons hc _ ih =>
    cases h' with
    | nil _ => exact (hend _ _ hc).elim
    | cons hc' hcs' =>
      obtain ⟨rfl, rfl⟩ := hc.unique hc'
      obtain ⟨later, rfl, hl⟩ := ih hcs'
      exact ⟨later, rfl, hl⟩

end Cuts

lemma Unfinished.of_append {bytes more : Bytes} (h : Unfinished (bytes ++ more)) :
    Unfinished bytes :=
  fun item rest hcut => h item (rest ++ more) (hcut.append more)

lemma parse_of_unfinished {bytes : Bytes} (h : Unfinished bytes) : parse bytes = ([], bytes) := by
  rw [parse]
  split
  · rfl
  · next hs => exact (h _ _ (split?_eq_some_iff.mp hs)).elim

lemma parse_of_cut {bytes rest : Bytes} {item : Item} (h : Cut bytes item rest) :
    parse bytes = (item :: (parse rest).1, (parse rest).2) := by
  rw [← split?_eq_some_iff] at h
  rw [parse]
  split
  · simp_all
  · next hs =>
    obtain ⟨rfl, rfl⟩ := Prod.mk.inj (Option.some.inj (h.symm.trans hs))
    rfl

/-- `parse` cuts off every complete item. -/
theorem parse_cuts (bytes : Bytes) :
    Cuts bytes (parse bytes).1 (parse bytes).2 ∧ Unfinished (parse bytes).2 := by
  induction bytes using parse.induct with
  | case1 bytes h =>
    rw [split?_eq_none_iff] at h
    rw [parse_of_unfinished h]
    exact ⟨.nil _, h⟩
  | case2 bytes item rest h _ _ _ ih =>
    rw [split?_eq_some_iff] at h
    rw [parse_of_cut h]
    exact ⟨.cons h ih.1, ih.2⟩

theorem parse_eq_iff {bytes tail : Bytes} {items : List Item} :
    parse bytes = (items, tail) ↔ Cuts bytes items tail ∧ Unfinished tail := by
  constructor
  · intro h
    simpa [h] using parse_cuts bytes
  · rintro ⟨hc, hend⟩
    obtain ⟨hp, hpend⟩ := parse_cuts bytes
    obtain ⟨later, hi, hl⟩ := hc.suffix hp hpend
    cases hl with
    | nil _ => exact Prod.ext (by simpa using hi) rfl
    | cons h _ => exact (hend _ _ h).elim

end ChatLoad.Item
