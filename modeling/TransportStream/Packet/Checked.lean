import Mathlib.Data.Nat.PSub
import TransportStream.AdaptationField.Checked
import TransportStream.Packet

/-!
# Packets with every step checked

Reading a packet and building one in place, with a check at every subtraction, every cut and every
copy.  Where a check fails there is no result.
-/

namespace TransportStream.Packet

open Layout

/-- `Packet.parse`, but `none` where it would look for a byte behind the end. -/
def parseGuarded (data : Bytes) : Option (Except FramingError Packet) :=
  if data.length ≠ packetSize then some (.error (.wrongSize data.length))
  else do
    let word ← (← slice? data 0 headerSize) |> Header.Word.ofList?
    match Header.decode word with
    | .error cause => some (.error cause)
    | .ok header =>
      let length ← data[headerSize]?
      if maxFieldLength < length.toNat then some (.error (.inconsistentLength length))
      else
        match ← AdaptationField.decodeGuarded data headerSize with
        | .error cause => some (.error cause)
        | .ok (field, taken) => do
          let payload ← slice? data (headerSize + taken) data.length
          some (.ok ⟨header, field, payload⟩)

/-- Lay a packet's parts over what a buffer holds, one behind the other; `none` if a part does not fit
where it goes. -/
def layOver? (p : Packet) (buffer : Bytes) : Option Bytes := do
  let buffer ← copyOver? p.header.bytes buffer 0 headerSize
  let (rest, written) ← p.field.overwrite? (buffer.drop headerSize)
  let buffer := buffer.take headerSize ++ rest
  copyOver? p.payload buffer (headerSize + written) buffer.length

/-- Build a packet over what a buffer holds, with the field that fills it up; `none` if the chunk of
payload is too long, if no length byte can announce the stuffing, or if a part does not fit. -/
def buildOver? (header : Header) (chunk buffer : Bytes) : Option Bytes := do
  let room ← Nat.psub maxPayload chunk.length
  let field ← (AdaptationField.withStuffing? room).toOption
  let buffer ← layOver? ⟨header, field, chunk⟩ buffer
  -- What is told of the packet includes how much stuffing there is beside the flags byte.
  let _stuffing ← Nat.psub field.fieldLength.toNat 1
  return buffer

end TransportStream.Packet
