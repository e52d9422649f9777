import Mathlib.Algebra.BigOperators.Intervals
import Mathlib.Order.Bounds.Defs
import TransportStream.Proofs.Track.Buffer

/-!
# Packets byte by byte

How many packets a payload takes, and every byte of each of them, for payloads of any length and
counters of any value (`Track.sendWith_layout`).
-/

namespace TransportStream

open Layout

/-! ## Parts as numbers -/

theorem Header.map_toNat_bytes (h : Header) :
    h.bytes.map UInt8.toNat =
      [0x47, h.transportError.toNat * 0x80 + h.payloadUnitStart.toNat * 0x40 +
          h.transportPriority.toNat * 0x20 + h.pid.value / 0x100,
        h.pid.value % 0x100,
        h.scrambled.toNat * 0x40 + h.control.code * 0x10 + h.counter.value] := by
  rw [← toNat_second, ← toNat_third, ← toNat_fourth]
  rfl

theorem AdaptationField.map_toNat_encode (f : AdaptationField) :
    f.encode.map UInt8.toNat = (f.stuffing + 1) :: 0 :: List.replicate f.stuffing 0xff := by
  have hlength : f.stuffing + 1 = f.fieldLength.toNat := Nat.sub_add_cancel f.fieldLength_pos
  rw [encode, hlength, List.map_cons, List.map_cons, List.map_replicate]
  rfl

namespace Track

variable {t : Track} {payload : Bytes} {len i : Nat}

/-! ## How many packets -/

theorem packetCount_eq (len : Nat) : packetCount len = (len + 181) / 182 := rfl

theorem packetCount_le_iff {m : Nat} : packetCount len ≤ m ↔ len ≤ 182 * m := by
  rw [packetCount_eq]
  omega

theorem isLeast_packetCount (len : Nat) : IsLeast {m | len ≤ 182 * m} (packetCount len) :=
  ⟨packetCount_le_iff.mp (Nat.le_refl _), fun _ h => packetCount_le_iff.mpr h⟩

theorem lt_packetCount_iff : i < packetCount len ↔ 182 * i < len := by
  rw [← Nat.not_le, packetCount_le_iff, Nat.not_le]

-- A quotient that is rounded up is far below the bound of a word.
theorem toNat_packetCountWord (len : UInt64) :
    (packetCountWord len).toNat = packetCount len.toNat := by
  have hlen := len.toNat_lt
  have hrest : (len % 182).toNat = len.toNat % 182 := UInt64.toNat_mod ..
  have hquotient : (len / 182).toNat = len.toNat / 182 := UInt64.toNat_div ..
  have hnext : (len / 182 + 1).toNat = len.toNat / 182 + 1 := by
    rw [UInt64.toNat_add, hquotient]
    exact Nat.mod_eq_of_lt (by simp; omega)
  rw [packetCount_eq]
  have hpos : 0 < len % 182 ↔ 0 < len.toNat % 182 := by
    rw [UInt64.lt_iff_toNat_lt, hrest]
    rfl
  by_cases h : 0 < len % 182
  · have := hpos.mp h
    rw [packetCountWord, if_pos h, hnext]
    omega
  · have := mt hpos.mpr h
    rw [packetCountWord, if_neg h, hquotient]
    omega

/-! ## How much payload and stuffing -/

/-- The number of payload bytes in packet `i` of `len` bytes altogether. -/
def chunkLength (len i : Nat) : Nat :=
  min 182 (len - 182 * i)

theorem chunkLength_of_succ_lt (h : i + 1 < packetCount len) : chunkLength len i = 182 := by
  rw [lt_packetCount_iff] at h
  exact Nat.min_eq_left (by omega)

theorem length_getElem_pieces (h : i < (pieces payload).length) :
    (pieces payload)[i].length = chunkLength payload.length i := by
  rw [getElem_pieces, List.length_take, List.length_drop]
  rfl

-- A piece is as much of the rest of the payload as its own length.
theorem getElem_pieces_eq_take (h : i < (pieces payload).length) :
    (pieces payload)[i] =
      (payload.drop (182 * i)).take (chunkLength payload.length i) := by
  have htake : (payload.drop (182 * i)).take 182 =
      (payload.drop (182 * i)).take (chunkLength payload.length i) := by
    rw [List.take_eq_take_iff, List.length_drop, chunkLength]
    omega
  exact (getElem_pieces h).trans htake

-- Only the last packet has stuffing, and it has what the payload leaves of all packets.
theorem sum_stuffing (h : 0 < len) :
    ∑ i ∈ Finset.range (packetCount len), (182 - chunkLength len i) =
      182 * packetCount len - len := by
  have hpos : 0 < packetCount len := lt_packetCount_iff.mpr h
  obtain ⟨last, hlast⟩ : ∃ last, packetCount len = last + 1 := Nat.exists_eq_add_one.mpr hpos
  have hfull : ∑ i ∈ Finset.range last, (182 - chunkLength len i) = 0 := by
    apply Finset.sum_eq_zero
    intro i hi
    have hlt := Finset.mem_range.mp hi
    rw [chunkLength_of_succ_lt (by omega), Nat.sub_self]
  have hlt : 182 * last < len := lt_packetCount_iff.mp (by omega)
  have hle : len ≤ 182 * (last + 1) := packetCount_le_iff.mp (by omega)
  rw [hlast, Finset.sum_range_succ, hfull, chunkLength]
  omega

theorem stuffing_lt (h : 0 < len) : 182 * packetCount len - len < 182 := by
  have hlast : packetCount len - 1 < packetCount len ↔ 182 * (packetCount len - 1) < len :=
    lt_packetCount_iff
  omega

/-! ## The bytes -/

/-- All bytes of packet `i` of a payload, as numbers. -/
def packetLayout (t : Track) (payload : Bytes) (i : Nat) : List Nat :=
  let m := chunkLength payload.length i
  [0x47, (if i = 0 then 0x40 else 0) + t.pid.value / 0x100, t.pid.value % 0x100,
      0x30 + (t.counter.value + 1 + i) % 16, 183 - m, 0] ++
    (List.replicate (182 - m) 0xff ++ ((payload.drop (182 * i)).take m).map UInt8.toNat)

theorem map_toNat_encode_packet (t : Track) (start : Bool) {piece : Bytes}
    (h : piece.length ≤ maxPayload) :
    (t.packet start piece).encode.map UInt8.toNat =
      [0x47, (if start then 0x40 else 0) + t.pid.value / 0x100, t.pid.value % 0x100,
          0x30 + t.counter.value, 183 - piece.length, 0] ++
        (List.replicate (182 - piece.length) 0xff ++ piece.map UInt8.toNat) := by
  have hheader : (t.packet start piece).header.bytes.map UInt8.toNat =
      [0x47, (if start then 0x40 else 0) + t.pid.value / 0x100, t.pid.value % 0x100,
        0x30 + t.counter.value] := by
    rw [Header.map_toNat_bytes]
    cases start <;> simp [packet, AdaptationControl.code]
  have hfield : (t.packet start piece).field.encode.map UInt8.toNat =
      (183 - piece.length) :: 0 :: List.replicate (182 - piece.length) 0xff := by
    have hroom : maxPayload - piece.length + 1 = 183 - piece.length :=
      (Nat.sub_add_comm h).symm
    rw [AdaptationField.map_toNat_encode, packet, AdaptationField.stuffing_filling, hroom]
    rfl
  rw [Packet.encode, List.map_append, List.map_append, hheader, hfield]
  rfl

/-- Every packet of a unit, byte by byte. -/
theorem map_toNat_packets (t : Track) (u : PayloadUnit) :
    ((t.packets u).map Packet.encode).map (·.map UInt8.toNat) =
      (List.range (packetCount u.payload.length)).map (t.packetLayout u.payload) := by
  apply List.ext_getElem
  · simp
  · intro i hi hi'
    rw [List.length_map, List.length_map] at hi
    have hpiece := lt_length_pieces hi
    have hlen : (pieces u.payload)[i].length = chunkLength u.payload.length i :=
      length_getElem_pieces hpiece
    have hcounter : (t.advance (i + 1)).counter.value = (t.counter.value + 1 + i) % 16 := by
      simp [Nat.add_assoc, Nat.add_comm 1 i]
    simp only [List.getElem_map, List.getElem_range, getElem_packets, List.get_eq_getElem]
    rw [map_toNat_encode_packet _ _ (length_le_of_mem_pieces (List.getElem_mem hpiece)), hlen,
      hcounter, getElem_pieces_eq_take hpiece, packetLayout]
    simp only [beq_iff_eq]
    rfl

/-- **The layout of packets.**  A payload of `len` bytes takes the least number of packets that hold
it, which is also what words of 64 bits give for every length that fits one.  The sink is handed exactly
that many packets of 188 bytes, and every byte of each is the one that `packetLayout` names; then the
counter has gone on by their number, and the track is otherwise as it was.  Only the last packet has
stuffing, altogether what the payload leaves of the packets, which is less than one packet holds.  An
empty payload sends nothing.  Built in one buffer with every step checked, the packets come out the
same, so no check ever fails. -/
theorem sendWith_layout {σ : Type} (write : σ → Bytes → σ) (t : Track) (u : PayloadUnit) (sink : σ) :
    let payload := u.payload
    let n := packetCount payload.length
    (∀ len, IsLeast {m | len ≤ 182 * m} (packetCount len)) ∧
    (∀ len : UInt64, (packetCountWord len).toNat = packetCount len.toNat) ∧
    (∃ packets : List Bytes,
      t.sendWith write u sink =
        (⟨t.pid, t.streamType, Counter.ofNat (t.counter.value + n)⟩, packets.foldl write sink) ∧
      packets.length = n ∧ (∀ b ∈ packets, b.length = 188) ∧
      packets.map (·.map UInt8.toNat) = (List.range n).map (t.packetLayout payload)) ∧
    (∀ i, i + 1 < n → chunkLength payload.length i = 182) ∧
    (payload ≠ [] →
      ∑ i ∈ Finset.range n, (182 - chunkLength payload.length i) = 182 * n - payload.length ∧
      182 * n - payload.length < 182) ∧
    (payload = [] → t.sendWith write u sink = (t, sink) ∧ t.sendLog u = []) ∧
    sendThrough? write t true (List.replicate 188 0) payload sink =
      some (t.sendWith write u sink) := by
  intro payload n
  refine ⟨isLeast_packetCount, toNat_packetCountWord, ⟨(t.packets u).map Packet.encode,
    t.sendWith_eq .., ?_, ?_, t.map_toNat_packets u⟩, fun i => chunkLength_of_succ_lt, ?_, ?_, ?_⟩
  · simp [n, payload]
  · intro b hb
    obtain ⟨p, hp, rfl⟩ := List.mem_map.mp hb
    exact length_encode_of_mem_packets hp
  · intro hne
    have hpos := List.length_pos_iff.mpr hne
    exact ⟨sum_stuffing hpos, stuffing_lt hpos⟩
  · intro hempty
    have hsend : t.sendWith write u sink = (t, sink) := by
      rw [sendWith, show u.payload = [] from hempty, pieces_nil, sendPieces]
    exact ⟨hsend, if_pos hempty⟩
  · exact sendThrough?_eq write t true (List.length_replicate ..) payload sink

/-- A full packet, and one with a single byte of payload, whose counter goes round. -/
theorem sendWith_layout_two :
    let t : Track := ⟨⟨0x123, by decide⟩, .h264, Counter.ofNat 14⟩
    let u : PayloadUnit := ⟨List.replicate 182 5 ++ [7], false⟩
    (t.sendWith Array.push u #[]).1 = ⟨t.pid, .h264, Counter.ofNat 0⟩ ∧
      (t.sendWith Array.push u #[]).2.toList.map (·.map UInt8.toNat) =
        [[0x47, 0x41, 0x23, 0x3f, 1, 0] ++ List.replicate 182 5,
          [0x47, 0x01, 0x23, 0x30, 182, 0] ++ List.replicate 181 0xff ++ [7]] ∧
      chunkLength 183 0 = 182 ∧
      ∑ i ∈ Finset.range 2, (182 - chunkLength 183 i) = 181 ∧
      t.sendWith Array.push ⟨[], true⟩ #[] = (t, #[]) ∧
      sendThrough? Array.push t true (List.replicate 188 0) u.payload #[] =
        some (t.sendWith Array.push u #[]) := by
  intro t u
  obtain ⟨-, -, ⟨packets, hsend, -, -, hbytes⟩, hfull, hstuffing, -, hchecked⟩ :=
    sendWith_layout Array.push t u #[]
  obtain ⟨-, -, -, -, -, hempty, -⟩ := sendWith_layout Array.push t ⟨[], true⟩ #[]
  have hlen : u.payload.length = 183 := by decide +kernel
  have hcount : packetCount 183 = 2 := by decide
  simp only [hlen, hcount] at hsend hbytes hfull hstuffing
  have hpackets : (packets.foldl Array.push #[]).toList = packets :=
    Sink.toList_foldl_push packets #[]
  have hstuffing := (hstuffing (List.ne_nil_of_length_eq_add_one hlen)).1
  have hcounter : Counter.ofNat (t.counter.value + 2) = Counter.ofNat 0 := by decide
  rw [hcounter] at hsend
  refine ⟨congrArg Prod.fst hsend, ?_, hfull 0 (by decide), hstuffing, (hempty rfl).1, hchecked⟩
  rw [hsend, hpackets, hbytes]
  decide +kernel

end Track

end TransportStream
