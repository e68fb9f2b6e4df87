import ChatLoad.Wire.Frame

/-! Reading frames from a byte stream that arrives in pieces. What has been read but does not make
up an item yet stays in a buffer, so a reader may be asked again at any time without losing bytes.
A header with the wrong magic number or too long a body is an item of its own, of 17 bytes. -/

namespace ChatLoad

inductive Delivery
  | chunk (bytes : Bytes)
  | fault (text : String)
  /-- the permanent end of the stream -/
  | finish
  deriving Repr, DecidableEq

inductive Item
  | frame (frame : Frame)
  /-- a header that is skipped -/
  | badHeader (fault : WireError)
  deriving Repr, DecidableEq

namespace Item

/-- The item at the front of `bytes` and what follows it, once it is complete. -/
def split? (bytes : Bytes) : Option (Item × Bytes) :=
  if bytes.length < Header.size then none
  else
    match Header.decode bytes with
    | .error fault => some (.badHeader fault, bytes.drop Header.size)
    | .ok header =>
        if Header.maxBody < header.length.toNat then
          some (.badHeader (.bodyTooLarge header.length), bytes.drop Header.size)
        else if bytes.length < header.frameSize then none
        else
          some (.frame ⟨header, (bytes.drop Header.size).take header.length.toNat⟩,
            bytes.drop header.frameSize)

theorem split?_length {bytes rest : Bytes} {item : Item} (h : split? bytes = some (item, rest)) :
    rest.length < bytes.length := by
  have dropped : ∃ n, Header.size ≤ n ∧ rest = bytes.drop n ∧ Header.size ≤ bytes.length := by
    unfold split? at h
    split at h
    · cases h
    · next long =>
        have long := Nat.le_of_not_lt long
        split at h
        · simp only [Option.some.injEq, Prod.mk.injEq] at h
          exact ⟨_, Nat.le_refl _, h.2.symm, long⟩
        · split at h
          · simp only [Option.some.injEq, Prod.mk.injEq] at h
            exact ⟨_, Nat.le_refl _, h.2.symm, long⟩
          · split at h
            · cases h
            · simp only [Option.some.injEq, Prod.mk.injEq] at h
              exact ⟨_, Nat.le_add_right _ _, h.2.symm, long⟩
  obtain ⟨n, hn, rfl, long⟩ := dropped
  simp only [List.length_drop, Header.size] at *
  omega

/-- Cuts `bytes` into the items they hold and an incomplete rest. -/
def parse (bytes : Bytes) : List Item × Bytes :=
  match _split : split? bytes with
  | none => ([], bytes)
  | some (item, rest) =>
      let (items, tail) := parse rest
      (item :: items, tail)
termination_by bytes.length
decreasing_by exact split?_length _split

end Item

inductive Polled
  | pending
  | item (found : Item)
  | closed
  | fault (text : String)
  deriving Repr, DecidableEq

namespace Polled

def error? : Polled → Option WireError
  | pending => none
  | item (.frame _) => none
  | item (.badHeader e) => some e
  | closed => some .connectionClosed
  | fault text => some (.io text)

end Polled

namespace Inbound

/-- Asks for one item, given the buffer and the stream. Answers with the new buffer and what is
left of the stream. -/
def poll (buffer : Bytes) (stream : List Delivery) : Polled × Bytes × List Delivery :=
  match Item.split? buffer with
  | some (item, rest) => (.item item, rest, stream)
  | none =>
      match stream with
      | [] => (.pending, buffer, [])
      | .chunk bytes :: later => poll (buffer ++ bytes) later
      | .fault text :: later => (.fault text, buffer, later)
      | .finish :: later => (.closed, buffer, .finish :: later)

/-- Asks for items until the stream has no more to give. The last answer is no item. -/
def drain (buffer : Bytes) (stream : List Delivery) :
    List Item × Polled × Bytes × List Delivery :=
  let (items, rest) := Item.parse buffer
  match stream with
  | [] => (items, .pending, rest, [])
  | .chunk bytes :: later =>
      let (items', last) := drain (rest ++ bytes) later
      (items ++ items', last)
  | .fault text :: later => (items, .fault text, rest, later)
  | .finish :: later => (items, .closed, rest, .finish :: later)

end Inbound

end ChatLoad
