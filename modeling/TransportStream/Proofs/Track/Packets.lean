import TransportStream.Proofs.Continuity.Runs
import TransportStream.Proofs.Packet.Reading
import TransportStream.Track.Sending

/-!
# The packets of a unit

What a track makes of one payload: packets of full size, on the track's identifier, with counters
that go on by one and the start mark on the first.  These marks are all there is to it: packets
that show them are what the track makes of the payload which they carry
(`sendToArray_eq_iff`).
-/

namespace TransportStream

open Layout Continuity

theorem AdaptationField.eq_of_stuffing_eq {f g : AdaptationField} (h : f.stuffing = g.stuffing) :
    f = g := by
  have hf := f.fieldLength_pos
  have hg := g.fieldLength_pos
  rw [AdaptationField.stuffing, AdaptationField.stuffing] at h
  exact AdaptationField.ext (UInt8.toNat_inj.mp (by omega))

-- Packets of full size that were written read back.
theorem Packet.map_parse_encode {ps : List Packet}
    (h : ∀ p ∈ ps, p.encode.length = packetSize) :
    (ps.map encode).map parse = ps.map .ok := by
  rw [List.map_map]
  exact List.map_congr_left fun p hp => parse_encode (h p hp)

-- Packets of full size are told apart by their bytes.
theorem Packet.eq_of_map_encode_eq {ps qs : List Packet} (h : ps.map encode = qs.map encode)
    (hsize : ∀ q ∈ qs, q.encode.length = packetSize) : ps = qs := by
  have hps : ∀ p ∈ ps, p.encode.length = packetSize := by
    intro p hp
    have hmem : p.encode ∈ qs.map encode := h ▸ List.mem_map_of_mem hp
    obtain ⟨q, hq, heq⟩ := List.mem_map.mp hmem
    rw [← heq]
    exact hsize q hq
  have hread : ps.map (Except.ok : Packet → Except FramingError Packet) = qs.map .ok := by
    rw [← map_parse_encode hps, ← map_parse_encode hsize, h]
  exact (List.map_inj_right fun _ _ => Except.ok.inj).mp hread

theorem Packet.infix_of_map_encode_infix {ps qs : List Packet}
    (h : ps.map encode <:+: qs.map encode) (hsize : ∀ q ∈ qs, q.encode.length = packetSize) :
    ps <:+: qs := by
  obtain ⟨part, hpart, heq⟩ := List.infix_map_iff.mp h
  rw [eq_of_map_encode_eq heq fun q hq => hsize q (hpart.mem hq)]
  exact hpart

-- A packet's payload takes the room that its stuffing leaves.
theorem Packet.length_payload {p : Packet} (h : p.encode.length = packetSize) :
    p.payload.length + p.field.stuffing = maxPayload := by
  rw [Packet.length_encode, AdaptationField.encodedLength_eq] at h
  simp only [maxPayload, packetSize, headerSize, fieldHeaderSize] at *
  omega

namespace Track

/-! ## Pieces -/

theorem length_le_of_mem_pieces {payload piece : Bytes} (h : piece ∈ pieces payload) :
    piece.length ≤ maxPayload :=
  Chunks.length_le_of_mem_first h

-- Runs that are full up to the last, which is not empty, are the pieces of what they join to.
theorem pieces_flatten {runs : List Bytes} (hfull : ∀ r ∈ runs.dropLast, r.length = maxPayload)
    (hlast : ∀ r ∈ runs.getLast?, r ≠ [] ∧ r.length ≤ maxPayload) :
    pieces runs.flatten = runs := by
  -- The full runs are cut off one by one, and the last one is what remains.
  rcases List.eq_nil_or_concat runs with rfl | ⟨full, last, rfl⟩
  · rfl
  · rw [List.concat_eq_append] at *
    rw [List.dropLast_concat] at hfull
    obtain ⟨hne, hle⟩ := hlast last (List.getLast?_concat ..)
    have hpos := List.length_pos_iff.mpr hne
    have hlen := Chunks.length_flatten_of_length_eq hfull
    have hcount : packetCount (full.flatten ++ last).length = full.length + 1 := by
      rw [List.length_append, hlen]
      simp only [packetCount, maxPayload, packetSize, headerSize, fieldHeaderSize] at *
      omega
    have hone : Chunks.first maxPayload 1 last = [last] := by
      simp only [Chunks.first, List.take_of_length_le hle]
    rw [List.flatten_append, List.flatten_singleton, pieces, hcount, Chunks.first_add,
      Chunks.first_append_of_le (Nat.le_of_eq hlen.symm), Chunks.first_flatten hfull,
      List.drop_left' hlen, hone]

theorem getElem_pieces {payload : Bytes} {i : Nat} (hi : i < (pieces payload).length) :
    (pieces payload)[i] = (payload.drop (maxPayload * i)).take maxPayload := by
  rw [length_pieces] at hi
  have hget := Chunks.getElem?_first maxPayload (packetCount payload.length) payload i hi
  exact Option.some.inj ((List.getElem?_eq_getElem _).symm.trans hget)

-- All pieces but the last are full.
theorem length_of_mem_dropLast_pieces {payload piece : Bytes}
    (h : piece ∈ (pieces payload).dropLast) : piece.length = maxPayload := by
  obtain ⟨i, hi, rfl⟩ := List.getElem_of_mem h
  rw [List.getElem_dropLast, getElem_pieces, List.length_take, List.length_drop]
  rw [List.length_dropLast, length_pieces] at hi
  simp only [packetCount, maxPayload, packetSize, headerSize, fieldHeaderSize] at *
  omega

theorem ne_nil_of_mem_pieces {payload piece : Bytes} (h : piece ∈ pieces payload) : piece ≠ [] := by
  obtain ⟨i, hi, rfl⟩ := List.getElem_of_mem h
  rw [← List.length_pos_iff, getElem_pieces, List.length_take, List.length_drop]
  rw [length_pieces] at hi
  simp only [packetCount, maxPayload, packetSize, headerSize, fieldHeaderSize] at *
  omega

/-! ## Packets -/

theorem length_encode_packet (t : Track) (start : Bool) {piece : Bytes}
    (h : piece.length ≤ maxPayload) : (t.packet start piece).encode.length = packetSize := by
  rw [Packet.length_encode]
  exact AdaptationField.encodedLength_filling h

theorem lt_length_pieces {t : Track} {u : PayloadUnit} {i : Nat} (hi : i < (t.packets u).length) :
    i < (pieces u.payload).length := by
  simpa using hi

theorem getElem_packets {t : Track} {u : PayloadUnit} {i : Nat} (hi : i < (t.packets u).length) :
    (t.packets u)[i] = (t.advance (i + 1)).packet (i == 0)
      ((pieces u.payload).get ⟨i, lt_length_pieces hi⟩) :=
  List.getElem_mapIdx

theorem map_payload_packets (t : Track) (u : PayloadUnit) :
    (t.packets u).map (·.payload) = pieces u.payload := by
  apply List.ext_getElem
  · simp
  · intro i hi hi'
    rw [List.getElem_map, getElem_packets]
    rfl

theorem payload_mem_pieces {t : Track} {u : PayloadUnit} {p : Packet} (h : p ∈ t.packets u) :
    p.payload ∈ pieces u.payload := by
  rw [← map_payload_packets t u]
  exact List.mem_map_of_mem h

-- The packets of a unit carry its payload.
theorem flatMap_payload_packets (t : Track) (u : PayloadUnit) :
    (t.packets u).flatMap (·.payload) = u.payload := by
  rw [List.flatMap_def, map_payload_packets, flatten_pieces]

theorem length_encode_of_mem_packets {t : Track} {u : PayloadUnit} {p : Packet}
    (h : p ∈ t.packets u) : p.encode.length = packetSize := by
  obtain ⟨i, hi, rfl⟩ := List.getElem_of_mem h
  rw [getElem_packets]
  exact length_encode_packet _ _ (length_le_of_mem_pieces (List.getElem_mem _))

theorem pid_of_mem_packets {t : Track} {u : PayloadUnit} {p : Packet} (h : p ∈ t.packets u) :
    p.header.pid = t.pid := by
  obtain ⟨i, hi, rfl⟩ := List.getElem_of_mem h
  rw [getElem_packets]
  rfl

-- Every packet of a unit carries payload and the next counter of its track.
theorem consecutive_packets (t : Track) (u : PayloadUnit) :
    Consecutive t.counter ((t.packets u).map (·.header)) := by
  intro i h hi
  rw [List.getElem?_map, Option.map_eq_some_iff] at hi
  obtain ⟨p, hp, rfl⟩ := hi
  obtain ⟨hlt, rfl⟩ := List.getElem?_eq_some_iff.mp hp
  rw [getElem_packets]
  exact ⟨rfl, rfl⟩

-- Sending to a collection appends the bytes of the unit's packets.
theorem toList_sendToArray (t : Track) (u : PayloadUnit) :
    (t.sendToArray u).2.toList = (t.packets u).map Packet.encode := by
  simp [sendToArray, send, sendWith_eq]

/-! ## What marks the packets of a unit -/

/-- The marks of one unit's packets on a track: what each header says, no stuffing before the last
packet, and payload in the last. -/
structure FormsUnit (t : Track) (packets : List Packet) : Prop where
  header : ∀ i (h : i < packets.length), packets[i].header = {
    transportError := false
    payloadUnitStart := decide (i = 0)
    transportPriority := false
    pid := t.pid
    scrambled := false
    control := .adaptationAndPayload
    counter := Counter.ofNat (t.counter.value + 1 + i) }
  stuffing : ∀ p ∈ packets.dropLast, p.field.stuffing = 0
  payload : ∀ p ∈ packets.getLast?, p.payload ≠ []

theorem formsUnit_packets (t : Track) (u : PayloadUnit) : t.FormsUnit (t.packets u) where
  header := by
    intro i hi
    rw [getElem_packets, show t.counter.value + 1 + i = t.counter.value + (i + 1) by omega]
    rfl
  stuffing := by
    intro p hp
    have hpiece : p.payload ∈ (pieces u.payload).dropLast := by
      rw [← map_payload_packets t u, ← List.map_dropLast]
      exact List.mem_map_of_mem hp
    have := Packet.length_payload (length_encode_of_mem_packets (List.dropLast_subset _ hp))
    have := length_of_mem_dropLast_pieces hpiece
    omega
  payload := by
    intro p hp
    exact ne_nil_of_mem_pieces (payload_mem_pieces (List.mem_of_getLast? hp))

-- Packets with these marks are the packets of the payload that they carry.
theorem FormsUnit.eq_packets {t : Track} {ps : List Packet} (h : t.FormsUnit ps)
    (hsize : ∀ p ∈ ps, p.encode.length = packetSize) (forceStart : Bool) :
    t.packets ⟨ps.flatMap (·.payload), forceStart⟩ = ps := by
  -- A packet without stuffing has a full payload, so the payloads are cut where they were joined.
  have hpieces : pieces (ps.flatMap (·.payload)) = ps.map (·.payload) := by
    rw [List.flatMap_def]
    apply pieces_flatten
    · intro r hr
      rw [← List.map_dropLast] at hr
      obtain ⟨p, hp, rfl⟩ := List.mem_map.mp hr
      have := Packet.length_payload (hsize p (List.dropLast_subset _ hp))
      rw [h.stuffing p hp] at this
      exact this
    · intro r hr
      rw [List.getLast?_map] at hr
      obtain ⟨p, hp, rfl⟩ := Option.map_eq_some_iff.mp hr
      have := Packet.length_payload (hsize p (List.mem_of_getLast? hp))
      exact ⟨h.payload p hp, by omega⟩
  apply List.ext_getElem
  · rw [packets, List.length_mapIdx, hpieces, List.length_map]
  · intro i hi hi'
    have hlen := Packet.length_payload (hsize ps[i] (List.getElem_mem hi'))
    rw [getElem_packets]
    simp only [hpieces, List.get_eq_getElem, List.getElem_map]
    -- The stuffing is what the payload leaves room for, so the field is the filling one.
    refine Packet.ext ?_ (AdaptationField.eq_of_stuffing_eq ?_) rfl
    · rw [h.header i hi', show t.counter.value + 1 + i = t.counter.value + (i + 1) by omega]
      rfl
    · rw [packet, AdaptationField.stuffing_filling]
      omega

/-- **The image of sending.**  Packets are what a track sends for some payload exactly if each reads
back and is written again as it was and together they show the marks of a unit; the payload is then
what they carry. -/
theorem sendToArray_eq_iff (t : Track) (ps : List Bytes) :
    ((∃ u, (t.sendToArray u).2.toList = ps) ↔
      ∃ packets : List Packet, ps.map Packet.parse = packets.map .ok ∧
        packets.map Packet.encode = ps ∧ t.FormsUnit packets) ∧
    ∀ (u : PayloadUnit) (packets : List Packet), (t.sendToArray u).2.toList = ps →
      ps.map Packet.parse = packets.map .ok → u.payload = packets.flatMap (·.payload) := by
  have hread (u : PayloadUnit) :
      ((t.sendToArray u).2.toList).map Packet.parse = (t.packets u).map .ok := by
    rw [toList_sendToArray, Packet.map_parse_encode fun p => length_encode_of_mem_packets]
  -- What is sent shows the marks; packets with the marks are sent for their payloads; and no other
  -- payload is sent as the same bytes.
  refine ⟨⟨?_, ?_⟩, ?_⟩
  · rintro ⟨u, rfl⟩
    exact ⟨t.packets u, hread u, (t.toList_sendToArray u).symm, t.formsUnit_packets u⟩
  · rintro ⟨packets, hparse, rfl, hforms⟩
    have hsize : ∀ p ∈ packets, p.encode.length = packetSize := by
      rw [List.map_map, List.map_inj_left] at hparse
      exact fun p hp => Packet.length_of_parse_eq_ok (hparse p hp)
    refine ⟨⟨packets.flatMap (·.payload), false⟩, ?_⟩
    rw [toList_sendToArray, hforms.eq_packets hsize]
  · intro u packets hsend hparse
    rw [← hsend, hread, List.map_inj_right fun p q hpq => Except.ok.inj hpq] at hparse
    rw [← hparse, flatMap_payload_packets]

/-- A full packet and a padded one, and the payload that they are read as. -/
theorem payload_of_full_and_padded :
    let t : Track := ⟨⟨0x123, by decide⟩, .h264, Counter.ofNat 14⟩
    let full : Bytes := [0x47, 0x41, 0x23, 0x3f, 1, 0] ++ List.replicate 182 5
    let padded : Bytes := [0x47, 0x01, 0x23, 0x30, 182, 0] ++ List.replicate 181 0xff ++ [7]
    let u : PayloadUnit := ⟨List.replicate 182 5 ++ [7], false⟩
    (t.sendToArray u).2.toList = [full, padded] ∧
      [full, padded].map Packet.parse = (t.packets u).map .ok ∧
      u.payload = (t.packets u).flatMap (·.payload) := by
  intro t full padded u
  have hsend : (t.sendToArray u).2.toList = [full, padded] := by decide +kernel
  have hparse : [full, padded].map Packet.parse = (t.packets u).map .ok := by
    rw [← hsend, toList_sendToArray, Packet.map_parse_encode fun p => length_encode_of_mem_packets]
  exact ⟨hsend, hparse, (sendToArray_eq_iff t _).2 u _ hsend hparse⟩

end Track

end TransportStream
