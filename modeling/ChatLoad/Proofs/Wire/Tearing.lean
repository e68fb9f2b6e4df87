import ChatLoad.Proofs.Wire.Framing
import ChatLoad.Wire.Outbound

/-! Frames sent one after the other over a channel that fails now and then. A frame is torn if the channel
took a part of it and then failed. Whatever is sent before that is read back as it was sent, but nothing
marks the tear, and the reader takes the bytes of later frames for the rest of the torn one. -/

namespace ChatLoad

/-! ### What the channel takes -/

/-- What a channel has taken of the bytes of a frame, after the sending came out like this. -/
inductive Taken (bytes : Bytes) : Except SendError Unit → Bytes → Prop
  | whole : Taken bytes (.ok ()) bytes
  | unflushed : Taken bytes (.error .flushRefused) bytes
  | part {e : SendError} {part : Bytes} : e ≠ .flushRefused → part <+: bytes → part ≠ bytes →
      Taken bytes (.error e) part

namespace Taken

lemma behind {bytes taken : Bytes} {result : Except SendError Unit} (h : Taken bytes result taken)
    (front : Bytes) : Taken (front ++ bytes) result (front ++ taken) := by
  cases h with
  | whole => exact .whole
  | unflushed => exact .unflushed
  | part he hpart hne => exact .part he ((List.prefix_append_right_inj front).mpr hpart) (by simpa using hne)

lemma start {bytes taken : Bytes} {result : Except SendError Unit} (h : Taken bytes result taken) :
    taken <+: bytes := by
  cases h with
  | whole => exact List.prefix_rfl
  | unflushed => exact List.prefix_rfl
  | part _ hpart _ => exact hpart

lemma none_taken {bytes : Bytes} {e : SendError} (he : e ≠ .flushRefused) (hbytes : bytes ≠ []) :
    Taken bytes (.error e) [] :=
  .part he List.nil_prefix hbytes.symm

end Taken

namespace Channel

lemma go_taken (channel : Channel) (bytes : Bytes) (allowances : List Allowance) (written : Bytes)
    (writes : Nat) : ∃ taken,
      (writeAll.go channel bytes allowances written writes).2.written = written ++ taken ∧
      Taken bytes (writeAll.go channel bytes allowances written writes).1 taken := by
  -- on the calls that are made
  fun_induction writeAll.go channel bytes allowances written writes with
  | case1 allowances bytes written writes left hnone =>
    obtain rfl := List.isEmpty_iff.mp hnone
    exact ⟨[], (List.append_nil _).symm, .whole⟩
  | case2 bytes written writes left hsome => exact ⟨bytes, rfl, .whole⟩
  | case3 bytes written writes left hsome later =>
    exact ⟨[], (List.append_nil _).symm, .none_taken (by decide) (by simpa using hsome)⟩
  | case4 bytes written writes left hsome later =>
    exact ⟨[], (List.append_nil _).symm, .none_taken (by decide) (by simpa using hsome)⟩
  | case5 bytes written writes hsome count later _ ih =>
    obtain ⟨taken, hwritten, htaken⟩ := ih
    refine ⟨bytes.take count ++ taken, by rw [hwritten, List.append_assoc], ?_⟩
    have hbehind := htaken.behind (bytes.take count)
    rwa [List.take_append_drop] at hbehind

theorem send_taken (bytes : Bytes) (channel : Channel) : ∃ taken,
    (channel.send bytes).2.written = channel.written ++ taken ∧
      Taken bytes (channel.send bytes).1 taken := by
  obtain ⟨taken, hwritten, htaken⟩ := go_taken channel bytes channel.allowances channel.written channel.writes
  change (channel.writeAll bytes).2.written = _ at hwritten
  change Taken bytes (channel.writeAll bytes).1 taken at htaken
  refine ⟨taken, ?_⟩
  rw [send]
  rcases hall : channel.writeAll bytes with ⟨_ | _, after⟩
  · rw [hall] at hwritten htaken
    exact ⟨hwritten, htaken⟩
  · rw [hall] at hwritten htaken
    obtain rfl : taken = bytes := by
      cases htaken
      rfl
    refine ⟨hwritten, ?_⟩
    simp only [flush]
    split
    · exact .unflushed
    · exact .whole

end Channel

/-! ### Frames that are sent -/

structure Parcel where
  command : Command
  request : UInt64
  body : Bytes
  fits : body.length ≤ Header.maxBody

namespace Parcel

def bytes (parcel : Parcel) : Bytes :=
  Frame.encode parcel.command parcel.request parcel.body

def frame (parcel : Parcel) : Frame :=
  .made parcel.command parcel.request parcel.body

lemma cut (parcel : Parcel) (rest : Bytes) : Item.Cut (parcel.bytes ++ rest) (.frame parcel.frame) rest :=
  Item.cut_encode parcel.fits _ _ rest

lemma unfinished {parcel : Parcel} {part : Bytes} (hpart : part <+: parcel.bytes)
    (hne : part ≠ parcel.bytes) : Item.Unfinished part := by
  intro item rest hcut
  obtain ⟨missing, hbytes⟩ := hpart
  have hwhole := parcel.cut []
  rw [List.append_nil, ← hbytes] at hwhole
  obtain ⟨-, hrest⟩ := (hcut.append missing).unique hwhole
  obtain rfl := (List.append_eq_nil_iff.mp hrest).2
  exact hne (by simpa using hbytes)

end Parcel

/-- A frame to be sent, and whether the channel cannot be flushed then. -/
structure Post where
  parcel : Parcel
  flushFails : Bool := false

structure Fate where
  parcel : Parcel
  result : Except SendError Unit
  accepted : Bytes

namespace Channel

def sendAll : List Post → Channel → List Fate × Channel
  | [], channel => ([], channel)
  | post :: posts, channel =>
      let sent := send post.parcel.bytes { channel with flushFails := post.flushFails }
      let later := sendAll posts sent.2
      (⟨post.parcel, sent.1, sent.2.written.drop channel.written.length⟩ :: later.1, later.2)

end Channel

namespace Fate

def Torn (fate : Fate) : Prop :=
  fate.accepted ≠ [] ∧ fate.accepted ≠ fate.parcel.bytes

instance (fate : Fate) : Decidable fate.Torn :=
  inferInstanceAs (Decidable (_ ∧ _))

/-- The sending succeeded, or failed only when nothing was left but to flush. -/
def passed (fate : Fate) : Bool :=
  fate.result matches .ok _ | .error .flushRefused

def delivered (fates : List Fate) : List Frame :=
  ((fates.takeWhile fun fate => ¬ fate.Torn).filter passed).map fun fate => fate.parcel.frame

/-- The channel took more after a frame was torn. -/
def Garbled (fates : List Fate) : Prop :=
  ∃ before torn after, fates = before ++ torn :: after ∧ torn.Torn ∧ after.flatMap accepted ≠ []

def Sound (fate : Fate) : Prop :=
  Taken fate.parcel.bytes fate.result fate.accepted

lemma accepted_eq_iff {fate : Fate} (h : fate.Sound) :
    fate.accepted = fate.parcel.bytes ↔ fate.passed = true := by
  obtain ⟨parcel, result, accepted⟩ := fate
  change Taken parcel.bytes result accepted at h
  cases h with
  | whole => simp [passed]
  | unflushed => simp [passed]
  | @part e _ he _ hne => cases e <;> simp_all [passed]

end Fate

theorem Channel.sendAll_fates (posts : List Post) (channel : Channel) :
    (channel.sendAll posts).1.map (·.parcel) = posts.map (·.parcel) ∧
    (channel.sendAll posts).2.written =
      channel.written ++ (channel.sendAll posts).1.flatMap (·.accepted) ∧
    ∀ fate ∈ (channel.sendAll posts).1, fate.Sound := by
  induction posts generalizing channel with
  | nil => simp [sendAll]
  | cons post posts ih =>
    obtain ⟨taken, hwritten, htaken⟩ :=
      send_taken post.parcel.bytes { channel with flushFails := post.flushFails }
    rw [sendAll]
    generalize send post.parcel.bytes { channel with flushFails := post.flushFails } = sent at *
    obtain ⟨hparcels, hlater, hsound⟩ := ih sent.2
    have haccepted : sent.2.written.drop channel.written.length = taken := by
      rw [hwritten]
      exact List.drop_left
    simp only [List.map_cons, List.flatMap_cons, List.forall_mem_cons, haccepted]
    refine ⟨by rw [hparcels], ?_, htaken, hsound⟩
    rw [hlater, hwritten, List.append_assoc]

/-! ### What is read back -/

namespace Fate

lemma cuts_delivered {fates : List Fate} (hsound : ∀ fate ∈ fates, fate.Sound) : ∃ rest,
    Item.Cuts (fates.flatMap accepted) ((delivered fates).map .frame) rest ∧
      (¬ Garbled fates → Item.Unfinished rest) := by
  induction fates with
  | nil => exact ⟨[], .nil _, fun _ => Item.unfinished_nil⟩
  | cons fate fates ih =>
    obtain ⟨hfate, hfates⟩ := List.forall_mem_cons.mp hsound
    obtain ⟨rest, hcuts, hrest⟩ := ih hfates
    have hlater : ¬ Garbled (fate :: fates) → Item.Unfinished rest := fun hgarbled => by
      refine hrest fun ⟨before, torn, after, heq, htorn, hafter⟩ => hgarbled ?_
      exact ⟨fate :: before, torn, after, by rw [heq, List.cons_append], htorn, hafter⟩
    -- whole frames are cut off, frames of which nothing was taken are not there, and a torn one ends the row
    by_cases htorn : fate.Torn
    · refine ⟨fate.accepted ++ fates.flatMap accepted, ?_, fun hgarbled => ?_⟩
      · simpa [delivered, htorn] using Item.Cuts.nil _
      · have hnone : fates.flatMap accepted = [] := by
          by_contra hmore
          exact hgarbled ⟨[], fate, fates, rfl, htorn, hmore⟩
        rw [hnone, List.append_nil]
        exact Parcel.unfinished hfate.start htorn.2
    · by_cases hpassed : fate.passed = true
      · have hwhole := (accepted_eq_iff hfate).mpr hpassed
        refine ⟨rest, ?_, hlater⟩
        simp only [delivered, List.flatMap_cons, hwhole] at hcuts ⊢
        simpa [htorn, hpassed] using Item.Cuts.cons (fate.parcel.cut _) hcuts
      · have hnone : fate.accepted = [] := by
          by_contra hsome
          exact htorn ⟨hsome, fun h => hpassed ((accepted_eq_iff hfate).mp h)⟩
        refine ⟨rest, ?_, hlater⟩
        simpa [delivered, htorn, hpassed, hnone] using hcuts

end Fate

namespace Inbound

/-- A reader is told of these items and of the end of the stream, and of nothing else: of some of the first
of them at any time, and of all of them if it asks often enough. -/
structure Yields (inputs : List Input) (items : List Item) : Prop where
  part : ∃ k, told (answers inputs) <+: items.map .item ++ List.replicate k .closed ∧
    (0 < k → Delivery.Ended (arrivals inputs))
  whole : ∀ n, items.length + (Delivery.faults (arrivals inputs)).length < n →
    ∃ k, told (answers (inputs ++ List.replicate n .request)) =
        items.map .item ++ List.replicate k .closed ∧ (0 < k ↔ Delivery.Ended (arrivals inputs))

lemma yields_parse (inputs : List Input) :
    Yields inputs (Item.parse (Delivery.bytes (arrivals inputs))).1 where
  part := told_prefix inputs
  whole := fun _ => told_requests inputs

lemma Yields.mem {inputs : List Input} {items : List Item} (h : Yields inputs items) {item : Item}
    (hitem : .item item ∈ answers inputs) : item ∈ items := by
  obtain ⟨k, hpart, -⟩ := h.part
  have htold : .item item ∈ told (answers inputs) := List.mem_filter.mpr ⟨hitem, rfl⟩
  simpa using hpart.subset htold

end Inbound

/-- Frames are sent one after the other over a channel that fails at will. Up to the first one that is torn a
reader gets just those that were sent or only not flushed, and what it gets else comes from bytes that the
channel took after a torn frame. -/
theorem delivered_until_torn (posts : List Post) (channel : Channel) :
    let fates := (channel.sendAll posts).1
    fates.map (·.parcel) = posts.map (·.parcel) ∧
    (channel.sendAll posts).2.written = channel.written ++ fates.flatMap (·.accepted) ∧
    (∀ fate ∈ fates, Taken fate.parcel.bytes fate.result fate.accepted) ∧
    ∃ strays, (strays ≠ [] → Fate.Garbled fates) ∧ ∀ inputs,
      Delivery.bytes (Inbound.arrivals inputs) = fates.flatMap (·.accepted) →
        Inbound.Yields inputs ((Fate.delivered fates).map .frame ++ strays) := by
  intro fates
  obtain ⟨hparcels, hwritten, hsound⟩ := Channel.sendAll_fates posts channel
  obtain ⟨rest, hcuts, hrest⟩ := Fate.cuts_delivered hsound
  obtain ⟨hstrays, hend⟩ := Item.parse_cuts rest
  refine ⟨hparcels, hwritten, hsound, (Item.parse rest).1, fun hstray => ?_, fun inputs hinputs => ?_⟩
  · by_contra hgarbled
    exact hstray (hstrays.eq_nil_of_unfinished (hrest hgarbled))
  · have hparse := Item.parse_eq_iff.mpr ⟨hcuts.trans hstrays, hend⟩
    have hyields := Inbound.yields_parse inputs
    rwa [hinputs, hparse] at hyields

def Parcel.receipt : Parcel :=
  ⟨.ack, 99, [0x70, 0x61, 0x79, 0x6C, 0x6F, 0x61, 0x64], by decide⟩

def Parcel.greeting : Parcel :=
  ⟨.singleChat, 18446744073709551615, [0x68, 0x69], by decide⟩

/-- The second frame is refused before its first byte, the third is taken but not flushed. -/
def Post.mixed : List Post :=
  [⟨.receipt, false⟩, ⟨.greeting, false⟩, ⟨.greeting, true⟩, ⟨.receipt, false⟩]

def Channel.stammering : Channel :=
  { allowances := [.upTo 5, .upTo 100, .refuse, .upTo 100, .upTo 1, .upTo 2] }

theorem mixed_delivered :
    (Channel.stammering.sendAll Post.mixed).1.map (·.result) =
      [.ok (), .error .writeRefused, .error .flushRefused, .ok ()] ∧
    Inbound.told (Inbound.answers (.arrival (.chunk (Channel.stammering.sendAll Post.mixed).2.written) ::
        List.replicate 4 .request)) =
      [Parcel.receipt, Parcel.greeting, Parcel.receipt].map fun parcel => .item (.frame parcel.frame) := by
  obtain ⟨-, hwritten, -, strays, hstrays, hyields⟩ := delivered_until_torn Post.mixed Channel.stammering
  have hnone : strays = [] := by
    by_contra hsome
    obtain ⟨before, torn, after, heq, htorn, -⟩ := hstrays hsome
    have hall : ∀ fate ∈ (Channel.stammering.sendAll Post.mixed).1, ¬ fate.Torn := by decide
    exact hall torn (by simp [heq]) htorn
  obtain ⟨k, htold, hk⟩ := (hyields [.arrival (.chunk (Channel.stammering.sendAll Post.mixed).2.written)]
    hwritten).whole 4 (by rw [hnone]; decide)
  obtain rfl : k = 0 := by
    by_contra hpos
    exact absurd (hk.mp (Nat.pos_of_ne_zero hpos)) (by simp [Delivery.Ended, Inbound.arrivals])
  rw [hnone] at htold
  exact ⟨rfl, htold⟩

def Channel.tearing : Channel :=
  { allowances := [.upTo 20, .refuse] }

/-- The channel takes 20 of the 24 bytes of the first frame and all of the second, of which the reader takes
four bytes for the rest of the first. The second frame, sent without an error, is never read. -/
theorem torn_frame_swallows_next :
    (Channel.tearing.sendAll [⟨.receipt, false⟩, ⟨.greeting, false⟩]).1.map (·.result) =
      [.error .writeRefused, .ok ()] ∧
    ∀ inputs, Delivery.bytes (Inbound.arrivals inputs) =
        (Channel.tearing.sendAll [⟨.receipt, false⟩, ⟨.greeting, false⟩]).2.written →
      .item (.frame Parcel.greeting.frame) ∉ Inbound.answers inputs := by
  refine ⟨rfl, fun inputs hinputs hgreeting => ?_⟩
  have hparse : Item.parse
      (Channel.tearing.sendAll [⟨.receipt, false⟩, ⟨.greeting, false⟩]).2.written =
      ([.frame (.made .ack 99 [0x70, 0x61, 0x79, 0xCA, 0xFE, 1, 1])], Parcel.greeting.bytes.drop 4) :=
    Item.parse_eq_iff.mpr
      ⟨.cons (Item.split?_eq_some_iff.mp rfl) (.nil _), Item.split?_eq_none_iff.mp rfl⟩
  have hyields := Inbound.yields_parse inputs
  rw [hinputs, hparse] at hyields
  have hmem := hyields.mem hgreeting
  revert hmem
  decide

end ChatLoad
