import ChatLoad.Proofs.Wire.Payload
import ChatLoad.Proofs.Wire.Reading

/-! Frames are read back as they were written, one after the other, in whatever pieces they arrive. -/

namespace ChatLoad

/-- The frame that is read when one is written. -/
def Frame.made (command : Command) (request : UInt64) (body : Bytes) : Frame :=
  ⟨⟨Header.magicNumber, Header.currentVersion, Header.currentSerial, command.code, request,
    UInt32.ofNat body.length⟩, body⟩

@[simp] lemma Frame.kind_made (command : Command) (request : UInt64) (body : Bytes) :
    (Frame.made command request body).kind = command :=
  command.ofCode_code

namespace Item

theorem cut_encode {body : Bytes} (hbody : body.length ≤ Header.maxBody) (command : Command)
    (request : UInt64) (rest : Bytes) :
    Cut (Frame.encode command request body ++ rest) (.frame (.made command request body)) rest := by
  have hid : Bytes.ofBigEndian (Bytes.bigEndian 8 request.toNat) = request.toNat := by
    rw [Bytes.ofBigEndian_bigEndian]
    exact Nat.mod_eq_of_lt request.toNat_lt
  have hsize : Bytes.ofBigEndian (Bytes.bigEndian 4 body.length) = body.length := by
    rw [Bytes.ofBigEndian_bigEndian]
    exact Nat.mod_eq_of_lt (Nat.lt_of_le_of_lt hbody (by decide))
  have hcut := @Cut.frame Header.currentVersion Header.currentSerial command.code _ _ body rest
    (Bytes.length_bigEndian 8 request.toNat) (Bytes.length_bigEndian 4 body.length) hsize hbody
  have hmagic : Bytes.bigEndian 2 Header.magicNumber.toNat = [0xCA, 0xFE] := by decide
  rw [hid, UInt64.ofNat_toNat] at hcut
  rw [Frame.encode, Frame.encodeCode, hmagic]
  simpa [Frame.made, Header.magicNumber] using hcut

lemma unfinished_nil : Unfinished [] :=
  split?_eq_none_iff.mp rfl

/-- Writings that are read as one frame each are read so one after the other. -/
lemma parse_flatten {writings : List Bytes} {frames : List Frame}
    (h : List.Forall₂ (fun bytes frame => ∀ rest, Cut (bytes ++ rest) (.frame frame) rest) writings
      frames) : parse writings.flatten = (frames.map .frame, []) := by
  refine parse_eq_iff.mpr ⟨?_, unfinished_nil⟩
  induction h with
  | nil => exact .nil _
  | cons hcut _ ih => exact .cons (hcut _) ih

end Item

namespace Inbound

/-- A reader is told of these frames and of the end of the stream, and of nothing else: of some of the
first of them at any time, and of all of them if it asks often enough. -/
structure Tells (inputs : List Input) (frames : List Frame) : Prop where
  part : ∃ k, told (answers inputs) <+:
      frames.map (fun frame => Polled.item (.frame frame)) ++ List.replicate k .closed ∧
    (0 < k → Delivery.Ended (arrivals inputs))
  whole : ∀ n, frames.length + (Delivery.faults (arrivals inputs)).length < n →
    ∃ k, told (answers (inputs ++ List.replicate n .request)) =
        frames.map (fun frame => Polled.item (.frame frame)) ++ List.replicate k .closed ∧
      (0 < k ↔ Delivery.Ended (arrivals inputs))

lemma tells_of_parse {inputs : List Input} {frames : List Frame}
    (h : Item.parse (Delivery.bytes (arrivals inputs)) = (frames.map .frame, [])) :
    Tells inputs frames := by
  have hall : (Item.parse (Delivery.bytes (arrivals inputs))).1.map Polled.item =
      frames.map fun frame => Polled.item (.frame frame) := by
    rw [h, List.map_map]
    rfl
  refine ⟨hall ▸ told_prefix inputs, fun n hn => ?_⟩
  rw [← hall]
  refine told_requests inputs ?_
  rwa [h, List.length_map]

end Inbound

end ChatLoad
