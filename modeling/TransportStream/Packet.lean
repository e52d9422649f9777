import TransportStream.AdaptationField
import TransportStream.Chunks
import TransportStream.Header

/-!
# Packets

A header, an adaptation field and a payload, 188 bytes together.  The adaptation field is always
there, whatever the header announces.  A packet that was written reads back (`parse_encode`).
-/

namespace TransportStream

open Layout

@[ext] structure Packet where
  header : Header
  field : AdaptationField
  payload : Bytes
  deriving DecidableEq

namespace Packet

def encode (p : Packet) : Bytes :=
  p.header.bytes ++ (p.field.encode ++ p.payload)

/-- Read exactly one packet.  Of several faults the first in this order counts: the size, the sync
byte, an adaptation field that is too long for any packet, one that is too short. -/
def parse (data : Bytes) : Except FramingError Packet :=
  match data with
  | first :: second :: third :: fourth :: length :: _ => do
    if data.length ≠ packetSize then .error (.wrongSize data.length) else
    let header ← Header.decode ⟨first, second, third, fourth⟩
    if maxFieldLength < length.toNat then .error (.inconsistentLength length) else
    let (field, taken) ← AdaptationField.decode data headerSize
    .ok ⟨header, field, data.drop (headerSize + taken)⟩
  | _ => .error (.wrongSize data.length)

/-- What every whole packet's worth of bytes reads as; a shorter rest is left out. -/
def parseAll (data : Bytes) : List (Except FramingError Packet) :=
  (Chunks.whole packetSize data).map parse

theorem length_encode (p : Packet) :
    p.encode.length = headerSize + p.field.encodedLength + p.payload.length := by
  simp [encode, Nat.add_assoc]

/-- A written packet reads back if its parts make up one packet's worth of bytes. -/
theorem parse_encode {p : Packet} (h : p.encode.length = packetSize) :
    parse p.encode = .ok p := by
  have hfit : ¬ maxFieldLength < p.field.fieldLength.toNat := by
    rw [length_encode, AdaptationField.encodedLength] at h
    simp only [maxFieldLength, packetSize, headerSize] at *
    omega
  have hfield : AdaptationField.decode p.encode headerSize = .ok (p.field, p.field.encodedLength) :=
    AdaptationField.decode_append p.header.bytes p.payload p.field
  have hdrop : p.encode.drop (headerSize + p.field.encodedLength) = p.payload := by
    rw [encode, ← List.append_assoc]
    exact List.drop_left' (by simp)
  have hparse : parse p.encode = (do
      if p.encode.length ≠ packetSize then .error (.wrongSize p.encode.length) else
      let header ← Header.decode p.header.encode
      if maxFieldLength < p.field.fieldLength.toNat then
        .error (.inconsistentLength p.field.fieldLength) else
      let (field, taken) ← AdaptationField.decode p.encode headerSize
      .ok ⟨header, field, p.encode.drop (headerSize + taken)⟩) := rfl
  rw [hparse, if_neg (by simpa using h), Header.decode_encode, hfield]
  simp only [bind, Except.bind, if_neg hfit, hdrop]

@[simp] theorem length_parseAll (data : Bytes) :
    (parseAll data).length = data.length / packetSize := by
  simp [parseAll]

/-- Reading goes on at a packet boundary as if there were none. -/
theorem parseAll_append {a b : Bytes} (h : packetSize ∣ a.length) :
    parseAll (a ++ b) = parseAll a ++ parseAll b := by
  rw [parseAll, Chunks.whole_append (by decide) h, List.map_append]; rfl

end Packet

end TransportStream
