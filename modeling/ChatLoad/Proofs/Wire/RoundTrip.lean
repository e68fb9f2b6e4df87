import ChatLoad.Proofs.Wire.Framing

/-! What is read is what was written, and what is written is what was read: streams of frames and of
junk between them are told of piece by piece, and a frame that was read is encoded to its own bytes. -/

namespace ChatLoad

namespace Bytes

lemma littleEndian_ofLittleEndian (bytes : Bytes) :
    littleEndian bytes.length (ofLittleEndian bytes) = bytes := by
  induction bytes with
  | nil => rfl
  | cons b rest ih =>
    have hb : b.toNat < 256 := b.toNat_lt
    have hlow : UInt8.ofNat (b.toNat + 256 * ofLittleEndian rest) = b := by
      apply UInt8.toNat_inj.mp
      rw [UInt8.toNat_ofNat']
      omega
    have hhigh : (b.toNat + 256 * ofLittleEndian rest) / 256 = ofLittleEndian rest := by omega
    rw [List.length_cons, ofLittleEndian, littleEndian, hlow, hhigh, ih]

lemma bigEndian_ofBigEndian {bytes : Bytes} {width : Nat} (hwidth : bytes.length = width) :
    bigEndian width (ofBigEndian bytes) = bytes := by
  have hreverse := littleEndian_ofLittleEndian bytes.reverse
  rw [List.length_reverse, hwidth] at hreverse
  rw [bigEndian, ofBigEndian, hreverse, List.reverse_reverse]

end Bytes

lemma Command.code_ofCode {code : UInt8} (hcode : code.toNat ≤ 6) : (ofCode code).code = code := by
  have hcases : ∀ n : Fin 7, (ofCode (UInt8.ofNat n)).code = UInt8.ofNat n := by decide
  simpa using hcases ⟨code.toNat, by omega⟩

/-- A frame is encoded to the very bytes it was read from, also beyond the longest body that readers
take. -/
lemma Frame.encode_of_decode {bytes : Bytes} {header : Header}
    (hdecode : Header.decode bytes = .ok header) (hversion : header.version = 1)
    (hserial : header.serial = 1) (hcommand : header.command.toNat ≤ 6)
    (hlong : header.frameSize ≤ bytes.length) :
    encode header.kind header.requestId ((bytes.drop Header.size).take header.length.toNat) =
      bytes.take header.frameSize := by
  obtain ⟨a, b, version, serial, command, id, size, rest, hid, hsize, rfl⟩ :=
    Item.exists_header (Nat.le_trans (Nat.le_add_right _ _) hlong)
  rw [Item.decode_header hid hsize] at hdecode
  by_cases hmagic : (a, b) = (0xCA, 0xFE)
  · rw [if_pos hmagic, Except.ok.injEq] at hdecode
    subst hdecode
    obtain ⟨rfl, rfl⟩ := Prod.mk.inj hmagic
    simp only at hversion hserial hcommand
    subst hversion hserial
    have hrequest : (UInt64.ofNat (Bytes.ofBigEndian id)).toNat = Bytes.ofBigEndian id := by
      have hlt := Item.ofBigEndian_lt id
      rw [hid] at hlt
      rw [UInt64.toNat_ofNat']
      exact Nat.mod_eq_of_lt hlt
    have hcount : (UInt32.ofNat (Bytes.ofBigEndian size)).toNat = Bytes.ofBigEndian size := by
      have hlt := Item.ofBigEndian_lt size
      rw [hsize] at hlt
      rw [UInt32.toNat_ofNat']
      exact Nat.mod_eq_of_lt hlt
    simp only [Header.frameSize, hcount, List.length_cons, List.length_append, hid, hsize,
      Header.size] at hlong
    -- the body is as much of the rest as the length field asks for
    obtain ⟨body, later, hbody, rfl⟩ : ∃ body later, body.length = Bytes.ofBigEndian size ∧
        rest = body ++ later :=
      ⟨rest.take (Bytes.ofBigEndian size), rest.drop (Bytes.ofBigEndian size), by simp; omega,
        (List.take_append_drop _ _).symm⟩
    have hhead : (0xCA :: 0xFE :: 1 :: 1 :: command :: (id ++ size)).length = Header.size := by
      simp [Header.size, hid, hsize]
    have hstart : Bytes.bigEndian 2 Header.magicNumber.toNat = [0xCA, 0xFE] := by decide
    have hsplit : 0xCA :: 0xFE :: 1 :: 1 :: command :: (id ++ (size ++ (body ++ later))) =
        (0xCA :: 0xFE :: 1 :: 1 :: command :: (id ++ size)) ++ (body ++ later) := by simp
    rw [hsplit, Header.frameSize, hcount, ← hbody, ← hhead, List.drop_left, List.take_left,
      List.take_length_add_append, List.take_left, encode, encodeCode, Header.kind,
      Command.code_ofCode hcommand, hrequest, Bytes.bigEndian_ofBigEndian hid, hbody,
      Bytes.bigEndian_ofBigEndian hsize, hstart]
    simp [Header.currentVersion, Header.currentSerial]
  · rw [if_neg hmagic] at hdecode
    cases hdecode

/-! ### Streams -/

/-- What makes up one item for a reader: a frame, or junk of the length of a header. -/
inductive Piece
  | frame (command : Command) (request : UInt64) (body : Bytes)
      (fits : body.length ≤ Header.maxBody)
  | junk (first second : UInt8) (rest : Bytes) (strange : (first, second) ≠ (0xCA, 0xFE))
      (full : rest.length = 15)

namespace Piece

def bytes : Piece → Bytes
  | frame command request body _ => Frame.encode command request body
  | junk first second rest _ _ => first :: second :: rest

inductive ReadAs : Piece → Polled → Prop
  | frame {command : Command} {request : UInt64} {body : Bytes}
      {fits : body.length ≤ Header.maxBody} {length : UInt32} : length.toNat = body.length →
      ReadAs (.frame command request body fits)
        (.item (.frame ⟨⟨0xCAFE, 1, 1, command.code, request, length⟩, body⟩))
  | junk {first second : UInt8} {rest : Bytes} {strange : (first, second) ≠ (0xCA, 0xFE)}
      {full : rest.length = 15} :
      ReadAs (.junk first second rest strange full)
        (.item (.badHeader (.invalidMagic (UInt16.ofNat (256 * first.toNat + second.toNat)))))

lemma exists_cut (piece : Piece) :
    ∃ item, piece.ReadAs (.item item) ∧ ∀ rest, Item.Cut (piece.bytes ++ rest) item rest := by
  cases piece with
  | frame command request body fits =>
    refine ⟨.frame (.made command request body), .frame ?_, Item.cut_encode fits command request⟩
    rw [UInt32.toNat_ofNat']
    exact Nat.mod_eq_of_lt (Nat.lt_of_le_of_lt fits (by decide))
  | junk first second rest strange full => exact ⟨_, .junk, fun later => .badMagic strange full⟩

/-- Pieces are read one after the other, whatever the bytes of their bodies look like. -/
lemma parse_pieces (pieces : List Piece) : ∃ items,
    Item.parse (pieces.map bytes).flatten = (items, []) ∧
      List.Forall₂ ReadAs pieces (items.map .item) := by
  suffices h : ∃ items, Item.Cuts (pieces.map bytes).flatten items [] ∧
      List.Forall₂ ReadAs pieces (items.map .item) by
    obtain ⟨items, hcuts, hread⟩ := h
    exact ⟨items, Item.parse_eq_iff.mpr ⟨hcuts, Item.unfinished_nil⟩, hread⟩
  induction pieces with
  | nil => exact ⟨[], .nil _, .nil⟩
  | cons piece pieces ih =>
    obtain ⟨items, hcuts, hread⟩ := ih
    obtain ⟨item, hitem, hcut⟩ := piece.exists_cut
    exact ⟨item :: items, .cons (hcut _) hcuts, .cons hitem hread⟩

end Piece

namespace Inbound

/-- The answers to the requests that were not given up. -/
def answered (inputs : List Input) : List Polled :=
  (answers inputs).filter (· ≠ .pending)

lemma bytes_chunks (chunks : List Bytes) :
    Delivery.bytes (chunks.map .chunk) = chunks.flatten := by
  induction chunks with
  | nil => rfl
  | cons chunk chunks ih => simp [Delivery.bytes, ih]

lemma faults_chunks (chunks : List Bytes) : Delivery.faults (chunks.map .chunk) = [] := by
  induction chunks with
  | nil => rfl
  | cons chunk chunks ih => exact ih

lemma not_ended_chunks (chunks : List Bytes) : ¬ Delivery.Ended (chunks.map .chunk) := by
  simp [Delivery.Ended]

lemma answered_eq_told {inputs : List Input} {chunks : List Bytes}
    (hchunks : arrivals inputs = chunks.map .chunk) : answered inputs = told (answers inputs) := by
  apply List.filter_congr
  intro answer ha
  cases answer with
  | pending | item | closed => simp
  | fault text =>
    have hfaults := answers_faults inputs
    rw [hchunks, faults_chunks] at hfaults
    have hnone := (List.append_eq_nil_iff.mp hfaults.symm).1
    have htext : text ∈ (answers inputs).flatMap Polled.faults :=
      List.mem_flatMap.mpr ⟨_, ha, List.mem_singleton_self _⟩
    rw [hnone] at htext
    cases htext

/-- Frames and junk of the length of a header, delivered in any chunks, are answered one by one and
nothing else is; and what is read as a frame of this protocol is encoded to its own bytes. -/
theorem frames_round_trip :
    (∀ (pieces : List Piece) (chunks : List Bytes) (inputs : List Input),
      chunks.flatten = (pieces.map Piece.bytes).flatten → arrivals inputs = chunks.map .chunk →
        (∃ later, List.Forall₂ Piece.ReadAs pieces (answered inputs ++ later)) ∧
        ∀ n, pieces.length < n →
          List.Forall₂ Piece.ReadAs pieces (answered (inputs ++ List.replicate n .request))) ∧
    ∀ (buffer : Bytes) (header : Header), Header.decode buffer = .ok header →
      header.version = 1 → header.serial = 1 → header.command.toNat ≤ 6 →
      header.frameSize ≤ buffer.length →
        Frame.encode header.kind header.requestId
            ((buffer.drop Header.size).take header.length.toNat) =
          buffer.take header.frameSize := by
  refine ⟨fun pieces chunks inputs hbytes hchunks => ?_, fun buffer header => Frame.encode_of_decode⟩
  obtain ⟨items, hparse, hread⟩ := Piece.parse_pieces pieces
  have hsent : Delivery.bytes (arrivals inputs) = (pieces.map Piece.bytes).flatten := by
    rw [hchunks, bytes_chunks, hbytes]
  have hclosed : ∀ k, (0 < k → Delivery.Ended (arrivals inputs)) → k = 0 := by
    intro k hk
    rw [hchunks] at hk
    exact Nat.eq_zero_of_not_pos fun hpos => not_ended_chunks chunks (hk hpos)
  constructor
  · obtain ⟨k, ⟨later, hlater⟩, hk⟩ := told_prefix inputs
    rw [hsent, hparse, hclosed k hk, List.replicate_zero, List.append_nil] at hlater
    refine ⟨later, ?_⟩
    rwa [answered_eq_told hchunks, hlater]
  · intro n hn
    have hlength : items.length = pieces.length := by simpa using hread.length_eq.symm
    have hdue : (Item.parse (Delivery.bytes (arrivals inputs))).1.length +
        (Delivery.faults (arrivals inputs)).length < n := by
      rw [hsent, hparse, hchunks, faults_chunks, hlength]
      exact hn
    obtain ⟨k, htold, hk⟩ := told_requests inputs hdue
    have harrivals : arrivals (inputs ++ List.replicate n .request) = chunks.map .chunk := by
      rw [arrivals_append, arrivals_requests, List.append_nil, hchunks]
    rw [hsent, hparse, hclosed k hk.mp, List.replicate_zero, List.append_nil] at htold
    rwa [answered_eq_told harrivals, htold]

/-- The second body looks like the start of a frame. -/
def mixed : List Piece :=
  [.frame .heartbeat 5 [] (by decide), .junk 0xBE 0xEF (List.replicate 15 0) (by decide) rfl,
    .frame .singleChat 8 [0xCA, 0xFE] (by decide)]

def mixedChunks : List Bytes :=
  let stream := (mixed.map Piece.bytes).flatten
  [stream.take 3, (stream.drop 3).take 30, stream.drop 33]

/-- The first request comes too early. -/
def mixedInputs : List Input :=
  mixedChunks.flatMap fun chunk => [.arrival (.chunk chunk), .request]

def answerBytes : Bytes :=
  [0xCA, 0xFE, 1, 1, 5, 0, 0, 0, 0, 0, 0, 1, 0x2C, 0, 0, 0, 2, 7, 9, 0xCA, 0xFE]

def answerHeader : Header :=
  ⟨0xCAFE, 1, 1, 5, 300, 2⟩

theorem mixed_round_trip :
    mixedChunks.flatten = (mixed.map Piece.bytes).flatten ∧
    arrivals mixedInputs = mixedChunks.map .chunk ∧
    (∃ later, List.Forall₂ Piece.ReadAs mixed (answered mixedInputs ++ later)) ∧
    List.Forall₂ Piece.ReadAs mixed (answered (mixedInputs ++ List.replicate 4 .request)) ∧
    Header.decode answerBytes = .ok answerHeader ∧
    answerHeader.version = 1 ∧ answerHeader.serial = 1 ∧ answerHeader.command.toNat ≤ 6 ∧
    answerHeader.frameSize ≤ answerBytes.length ∧
    Frame.encode .ack 300 [7, 9] = answerBytes.take 19 := by
  have whole : mixedChunks.flatten = (mixed.map Piece.bytes).flatten := by decide
  have delivered : arrivals mixedInputs = mixedChunks.map .chunk := rfl
  have decoded : Header.decode answerBytes = .ok answerHeader := by decide
  obtain ⟨hfirst, hall⟩ := frames_round_trip.1 mixed mixedChunks mixedInputs whole delivered
  exact ⟨whole, delivered, hfirst, hall 4 (by decide), decoded, rfl, rfl, by decide, by decide,
    frames_round_trip.2 answerBytes answerHeader decoded rfl rfl (by decide) (by decide)⟩

end Inbound

end ChatLoad
