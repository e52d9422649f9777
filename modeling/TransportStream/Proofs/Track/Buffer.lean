import TransportStream.Proofs.Packet.Rewriting
import TransportStream.Proofs.Track.Packets
import TransportStream.Track.Checked

/-!
# One buffer for all packets

Packets may be built one over the other in a buffer that is never cleared, with every subtraction
and every copy checked on the way.  No check fails, nothing of an earlier packet shows through, and
what is sent is what is sent otherwise (`Track.sendThrough?_eq`).
-/

namespace TransportStream

open Layout

/-! ## Building a packet over another -/

namespace AdaptationField

theorem withStuffing?_room {used : Nat} :
    withStuffing? (maxPayload - used) = .ok (filling used) :=
  withStuffing?_of_le _

end AdaptationField

namespace Packet

/-- Whatever the buffer held, it holds the packet afterwards and nothing else. -/
theorem layOver?_eq (p : Packet) (hp : p.encode.length = packetSize) {buffer : Bytes}
    (hbuffer : buffer.length = packetSize) : p.layOver? buffer = some p.encode := by
  rw [length_encode] at hp
  have hbytes := p.header.length_bytes
  have hdrop : (buffer.drop headerSize).length = packetSize - headerSize := by
    rw [List.length_drop, hbuffer]
  have hheader : copyOver? p.header.bytes buffer 0 headerSize =
      some (p.header.bytes ++ buffer.drop headerSize) :=
    copyOver?_front p.header.bytes (by rw [hbuffer, hbytes]; decide)
  have hfits : p.field.encodedLength ≤ (buffer.drop headerSize).length := by omega
  have hfield := p.field.overwrite?_of_fits hfits
  -- The payload goes behind the header and the field, over all that is left of the buffer.
  have hrest : p.payload.length =
      ((buffer.drop headerSize).drop p.field.encodedLength).length := by
    rw [List.length_drop, hdrop]
    omega
  have hfront : (p.header.bytes ++ p.field.encode).length = headerSize + p.field.encodedLength := by
    rw [List.length_append, hbytes, p.field.length_encode]
  have hpayload := copyOver?_back (p.header.bytes ++ p.field.encode) hrest
  rw [hfront, List.append_assoc, List.append_assoc] at hpayload
  simp only [layOver?, hheader, hfield, hpayload, List.drop_left' hbytes, List.take_left' hbytes,
    bind, Option.bind]
  rfl

theorem buildOver?_eq (header : Header) {chunk buffer : Bytes} (hbuffer : buffer.length = packetSize)
    (hchunk : chunk.length ≤ maxPayload) :
    buildOver? header chunk buffer =
      some (encode ⟨header, AdaptationField.filling chunk.length, chunk⟩) := by
  have hlay := layOver?_eq ⟨header, AdaptationField.filling chunk.length, chunk⟩
    ((length_encode _).trans (AdaptationField.encodedLength_filling hchunk)) hbuffer
  have hroom := Nat.psub_eq_sub hchunk
  have hflags := Nat.psub_eq_sub (AdaptationField.filling chunk.length).fieldLength_pos
  simp only [buildOver?, hroom, AdaptationField.withStuffing?_room, Except.toOption, hlay, hflags,
    bind, Option.bind]
  rfl

end Packet

namespace Track

theorem pieces_nil : pieces [] = [] := rfl

theorem pieces_of_ne_nil {payload : Bytes} (h : payload ≠ []) :
    pieces payload = payload.take maxPayload :: pieces (payload.drop maxPayload) := by
  have hpos := List.length_pos_iff.mpr h
  have hcount : packetCount payload.length =
      packetCount (payload.drop maxPayload).length + 1 := by
    rw [List.length_drop]
    simp only [packetCount, maxPayload, packetSize, headerSize, fieldHeaderSize]
    omega
  rw [pieces, hcount, Chunks.first, pieces]

theorem sendThrough?_eq {σ : Type} (write : σ → Bytes → σ) (t : Track) (start : Bool)
    {buffer : Bytes} (hbuffer : buffer.length = packetSize) (payload : Bytes) (sink : σ) :
    sendThrough? write t start buffer payload sink =
      some (sendPieces write t start (pieces payload) sink) := by
  induction t, start, buffer, payload, sink using sendThrough?.induct write with
  | case1 t start buffer sink =>
    rw [sendThrough?, if_pos rfl, pieces_nil, sendPieces]
  | case2 t start buffer payload sink hne next ih =>
    -- The packet is now what the buffer holds, and it is of full size again.
    have hpiece : (payload.take maxPayload).length ≤ maxPayload := List.length_take_le _ _
    have hbuild := Packet.buildOver?_eq (next.packet start (payload.take maxPayload)).header hbuffer
      hpiece
    rw [sendThrough?, if_neg hne, pieces_of_ne_nil hne, sendPieces]
    change (Packet.buildOver? (next.packet start _).header _ buffer >>= _) = _
    rw [hbuild]
    exact ih _ (length_encode_packet next start hpiece)

end Track

end TransportStream
