import TransportStream.Proofs.Track.PacketLayout

/-!
# A payload in two calls

A payload may be split at any place and sent in two calls.  Where the first part fills its packets,
the only trace of the split is the start mark on the first packet of the second part; elsewhere there
may be one packet more.  The counters go on from one call to the next in any case
(`Track.sendToArray_split`).
-/

namespace TransportStream

open Layout Continuity

namespace Track

variable {t : Track} {a b : Bytes}

/-! ## Where the first part fills its packets -/

theorem length_eq_of_dvd (h : 182 ∣ a.length) : a.length = 182 * packetCount a.length := by
  simp only [packetCount_eq]
  omega

theorem packetCount_add_of_dvd {m : Nat} (h : 182 ∣ m) (n : Nat) :
    packetCount (m + n) = packetCount m + packetCount n := by
  simp only [packetCount_eq]
  omega

theorem pieces_append (h : 182 ∣ a.length) (b : Bytes) :
    pieces (a ++ b) = pieces a ++ pieces b := by
  have hlen : a.length = maxPayload * packetCount a.length := length_eq_of_dvd h
  rw [pieces, List.length_append, packetCount_add_of_dvd h, Chunks.first_add,
    Chunks.first_append_of_le (Nat.le_of_eq hlen.symm), List.drop_left' hlen, pieces, pieces]

/-- What one call makes of the second part: the counters go on, and its first packet is marked only if
it is the first of all. -/
theorem packets_append (h : 182 ∣ a.length) (t : Track) (b : Bytes) (f g : Bool) :
    t.packets ⟨a ++ b, f⟩ = t.packets ⟨a, g⟩ ++
      (pieces b).mapIdx fun i piece =>
        ((t.advance (packetCount a.length)).advance (i + 1)).packet
          (i + packetCount a.length == 0) piece := by
  rw [packets, pieces_append h, List.mapIdx_append, length_pieces, packets]
  congr 2
  funext i piece
  rw [advance_advance, show i + packetCount a.length + 1 = packetCount a.length + (i + 1) by omega]

-- The high bits of an identifier leave room for the start mark above them.
theorem startBit_of_lt : ∀ high < 0x20, UInt8.ofNat high &&& 0x40 = 0 ∧
    UInt8.ofNat (0x40 + high) = UInt8.ofNat high ||| 0x40 := by
  decide

/-- A packet that is marked as a start is the same packet without the mark, but for one bit of its
second byte. -/
theorem exists_encode_packet (t : Track) (piece : Bytes) :
    ∃ second rest, second &&& 0x40 = 0 ∧
      (t.packet false piece).encode = 0x47 :: second :: rest ∧
      (t.packet true piece).encode = 0x47 :: (second ||| 0x40) :: rest := by
  have hhigh : t.pid.value / 0x100 < 0x20 := by have := t.pid.value_lt; omega
  obtain ⟨hclear, hset⟩ := startBit_of_lt _ hhigh
  have hsecond (start : Bool) : (t.packet start piece).header.encode.second =
      UInt8.ofNat ((if start then 0x40 else 0) + t.pid.value / 0x100) := by
    cases start <;> simp [packet, Header.encode]
  have hfalse := hsecond false
  have htrue := hsecond true
  rw [if_neg Bool.false_ne_true, Nat.zero_add] at hfalse
  rw [if_pos rfl, hset] at htrue
  refine ⟨UInt8.ofNat (t.pid.value / 0x100), (t.packet false piece).encode.drop 2, hclear, ?_, ?_⟩
  · rw [Packet.encode, Header.bytes, Header.Word.toList, hfalse]
    rfl
  · rw [Packet.encode, Header.bytes, Header.Word.toList, htrue]
    rfl

/-- What comes of a payload that fills its packets and one after it, in two calls and in one. -/
theorem packets_split (h : 182 ∣ a.length) (t : Track) {b : Bytes} (ha : a ≠ []) (hb : b ≠ [])
    (f g k : Bool) :
    ∃ (t' : Track) (piece : Bytes) (later : List Packet),
      (t.advance (packetCount a.length)).packets ⟨b, k⟩ = t'.packet true piece :: later ∧
      t.packets ⟨a ++ b, f⟩ = t.packets ⟨a, g⟩ ++ t'.packet false piece :: later := by
  have hpos : 0 < packetCount a.length := lt_packetCount_iff.mpr (List.length_pos_iff.mpr ha)
  -- No packet after the first of the second part is the first of anything.
  have hlater (i : Nat) : (i + 1 == 0) = false := rfl
  have hlater' (i : Nat) : (i + 1 + packetCount a.length == 0) = false :=
    beq_eq_false_iff_ne.mpr (by omega)
  have hfirst : (0 + packetCount a.length == 0) = false := beq_eq_false_iff_ne.mpr (by omega)
  refine ⟨(t.advance (packetCount a.length)).advance 1, b.take maxPayload,
    (pieces (b.drop maxPayload)).mapIdx fun i piece =>
      ((t.advance (packetCount a.length)).advance (i + 1 + 1)).packet false piece, ?_, ?_⟩
  · rw [packets, pieces_of_ne_nil hb, List.mapIdx_cons]
    simp only [hlater]
    rfl
  · rw [packets_append h t b f g, pieces_of_ne_nil hb, List.mapIdx_cons]
    simp only [hlater', hfirst]

/-! ## Anywhere -/

theorem packetCount_add (m n : Nat) :
    packetCount m + packetCount n = packetCount (m + n) ∨
      packetCount m + packetCount n = packetCount (m + n) + 1 := by
  simp only [packetCount_eq]
  omega

-- The packets of two calls carry the counters after the track's, one by one.
theorem consecutive_packets_append (t : Track) (u v : PayloadUnit) :
    Consecutive t.counter
      ((t.packets u ++ (t.advance (packetCount u.payload.length)).packets v).map (·.header)) := by
  rw [List.map_append, consecutive_append, List.length_map, length_packets]
  exact ⟨consecutive_packets t u, consecutive_packets _ v⟩

theorem counterByte_encode (p : Packet) : (p.encode.getD 3 0).toNat % 16 = p.header.counter.value := by
  have hfourth := p.header.toNat_fourth
  have hlt := p.header.counter.value_lt
  have hbyte : p.encode.getD 3 0 = p.header.encode.fourth := rfl
  rw [hbyte, hfourth]
  omega

theorem counterByte_of_consecutive {c : Counter} {ps : List Packet}
    (h : Consecutive c (ps.map (·.header))) {i : Nat} (hi : i < ps.length) :
    (ps[i].encode.getD 3 0).toNat % 16 = (c.value + 1 + i) % 16 := by
  have hget : (ps.map (·.header))[i]? = some ps[i].header := by
    rw [List.getElem?_map, List.getElem?_eq_getElem hi, Option.map_some]
  rw [counterByte_encode, (h i _ hget).2, Counter.value_advance, Nat.add_assoc, Nat.add_comm 1 i]

/-! ## Two calls -/

theorem fst_sendToArray (t : Track) (u : PayloadUnit) :
    (t.sendToArray u).1 = t.advance (packetCount u.payload.length) := by
  rw [sendToArray, send, sendWith_eq]

theorem packets_nil (t : Track) (f : Bool) : t.packets ⟨[], f⟩ = [] := by
  rw [packets, pieces_nil, List.mapIdx_nil]

/-- **A payload in two calls.**  If the first part fills its packets, two calls leave the track as one
call on both parts does, and hand over the same packets, except that with two parts that are not empty
the first packet of the second part has the start bit in the two calls only.  However the parts are
cut, two calls hand over as many packets as each part takes, which is as many as both take together or
one more, with counters that go on one by one from the first call to the second. -/
theorem sendToArray_split (t : Track) (a b : Bytes) (f g k : Bool) :
    let one := t.sendToArray ⟨a ++ b, f⟩
    let first := t.sendToArray ⟨a, g⟩
    let second := first.1.sendToArray ⟨b, k⟩
    let packets := first.2.toList ++ second.2.toList
    (182 ∣ a.length →
      second.1 = one.1 ∧
      (a = [] ∨ b = [] → packets = one.2.toList) ∧
      (a ≠ [] → b ≠ [] → ∃ flags rest later, flags &&& 0x40 = 0 ∧
        second.2.toList = (0x47 :: (flags ||| 0x40) :: rest) :: later ∧
        one.2.toList = first.2.toList ++ (0x47 :: flags :: rest) :: later)) ∧
    packets.length = packetCount a.length + packetCount b.length ∧
    (packets.length = packetCount (a.length + b.length) ∨
      packets.length = packetCount (a.length + b.length) + 1) ∧
    ∀ i (hi : i < packets.length),
      ((packets.get ⟨i, hi⟩).getD 3 0).toNat % 16 = (t.counter.value + 1 + i) % 16 := by
  intro one first second packets
  have hone : one.2.toList = (t.packets ⟨a ++ b, f⟩).map Packet.encode := toList_sendToArray t _
  have hfirst : first.2.toList = (t.packets ⟨a, g⟩).map Packet.encode := toList_sendToArray t _
  have htrack : first.1 = t.advance (packetCount a.length) := fst_sendToArray t _
  have hsecond : second.2.toList =
      ((t.advance (packetCount a.length)).packets ⟨b, k⟩).map Packet.encode := by
    rw [← htrack]
    exact toList_sendToArray first.1 _
  have hlen : packets.length = packetCount a.length + packetCount b.length := by
    rw [List.length_append, hfirst, hsecond, List.length_map, List.length_map, length_packets,
      length_packets]
  refine ⟨fun hdvd => ⟨?_, ?_, ?_⟩, hlen, hlen ▸ packetCount_add a.length b.length, ?_⟩
  · calc second.1 = first.1.advance (packetCount b.length) := fst_sendToArray first.1 _
      _ = t.advance (packetCount a.length + packetCount b.length) := by
        rw [htrack, advance_advance]
      _ = one.1 := by
        rw [← packetCount_add_of_dvd hdvd, ← List.length_append]
        exact (fst_sendToArray t ⟨a ++ b, f⟩).symm
  · intro hempty
    show first.2.toList ++ second.2.toList = one.2.toList
    rw [hfirst, hsecond, hone, ← List.map_append]
    rcases hempty with rfl | rfl
    · -- Nothing was sent before the second part, so its first packet is the first of all.
      rw [packets_nil, List.nil_append, List.nil_append, List.length_nil]
      exact congrArg (fun t : Track => (t.packets ⟨b, k⟩).map Packet.encode) t.advance_zero
    · rw [packets_nil, List.append_nil, List.append_nil]
      rfl
  · intro ha hb
    obtain ⟨t', piece, later, htwo, hjoined⟩ := packets_split hdvd t ha hb f g k
    obtain ⟨flags, rest, hflags, hclear, hset⟩ := exists_encode_packet t' piece
    refine ⟨flags, rest, later.map Packet.encode, hflags, ?_, ?_⟩
    · rw [hsecond, htwo, List.map_cons, hset]
    · rw [hone, hjoined, hfirst, List.map_append, List.map_cons, hclear]
  · intro i hi
    have hall : packets = (t.packets ⟨a, g⟩ ++
        (t.advance (packetCount a.length)).packets ⟨b, k⟩).map Packet.encode := by
      rw [List.map_append, ← hfirst, ← hsecond]
    simp only [hall, List.get_eq_getElem, List.getElem_map]
    exact counterByte_of_consecutive (consecutive_packets_append t ⟨a, g⟩ ⟨b, k⟩) _

/-- Full packets and one byte more, where the counter goes round between the calls; and nothing before
that byte, which leaves no trace of the first call. -/
theorem sendToArray_split_full :
    let t : Track := ⟨⟨0x123, by decide⟩, .h264, Counter.ofNat 13⟩
    let a : Bytes := List.replicate 364 5
    let one := t.sendToArray ⟨a ++ [7], false⟩
    let first := t.sendToArray ⟨a, false⟩
    let second := first.1.sendToArray ⟨[7], false⟩
    second.1 = one.1 ∧
      (∃ flags rest later, flags &&& 0x40 = 0 ∧
        second.2.toList = (0x47 :: (flags ||| 0x40) :: rest) :: later ∧
        one.2.toList = first.2.toList ++ (0x47 :: flags :: rest) :: later) ∧
      (first.2.toList ++ second.2.toList).length = 3 ∧
      (first.2.toList ++ second.2.toList).map (fun packet => (packet.getD 3 0).toNat % 16) =
        [14, 15, 0] ∧
      (t.sendToArray ⟨[], false⟩).2.toList ++
          ((t.sendToArray ⟨[], false⟩).1.sendToArray ⟨[7], false⟩).2.toList =
        (t.sendToArray ⟨[7], false⟩).2.toList := by
  intro t a one first second
  obtain ⟨hfull, hcount, -, hcounters⟩ := sendToArray_split t a [7] false false false
  have hlen : a.length = 364 := List.length_replicate ..
  obtain ⟨htrack, -, hsplit⟩ := hfull ⟨2, hlen⟩
  have hsplit := hsplit (List.ne_nil_of_length_eq_add_one hlen) (List.cons_ne_nil _ _)
  have hnothing := ((sendToArray_split t [] [7] false false false).1 (by decide)).2.1 (.inl rfl)
  have hthree : (first.2.toList ++ second.2.toList).length = 3 := by
    rw [hcount, hlen]
    rfl
  refine ⟨htrack, hsplit, hthree, ?_, hnothing⟩
  apply List.ext_getElem
  · rw [List.length_map, hthree]
    rfl
  · intro i hi hi'
    rw [List.length_map] at hi
    rw [List.getElem_map]
    refine (hcounters i hi).trans ?_
    rw [hthree] at hi
    match i, hi with
    | 0, _ | 1, _ | 2, _ => simp [t]

end Track

end TransportStream
