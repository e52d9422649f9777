import TransportStream.Packet.Cursor
import TransportStream.Proofs.Packet.Reading
import TransportStream.Receiver

/-!
# Packet by packet

A cursor answers one call after the other.  A call answers with the first of the packets that are
left and leaves the others (`head?_toList`, `toList_poll`); by induction on the calls, what a cursor
answers and what it announces in between are read off one list (`toList_after`).  The items of that
list stand at multiples of 188 in the bytes (`getElem?_toList`), and a receiver that draws them from
the cursor does what it does with the bytes (`Receiver.draw_ofBytes`).

`Packet.Cursor.answers_and_hints` has all of it, for any bytes.
-/

namespace TransportStream

open Layout

namespace Packet

/-! ## The bytes of one packet -/

/-- The bytes of the packet with the number `k`, if there are as many. -/
def packetBytes? (data : Bytes) (k : Nat) : Option Bytes :=
  slice? data (packetSize * k) (packetSize * (k + 1))

theorem packetBytes?_eq_some {data : Bytes} {k : Nat} (h : k < data.length / packetSize) :
    packetBytes? data k = some ((data.drop (packetSize * k)).take packetSize) := by
  have hfit : packetSize * (k + 1) ≤ data.length :=
    Nat.le_trans (Nat.mul_le_mul_left packetSize h) (Nat.mul_div_le data.length packetSize)
  rw [packetBytes?, slice?_of_le (Nat.mul_le_mul_left packetSize (Nat.le_add_right k 1)) hfit,
    List.drop_take, ← Nat.mul_sub, Nat.add_sub_cancel_left, Nat.mul_one]

theorem packetBytes?_eq_none {data : Bytes} {k : Nat} (h : data.length / packetSize ≤ k) :
    packetBytes? data k = none := by
  have hlong : data.length < packetSize * (k + 1) := by
    rw [Nat.mul_comm]
    exact (Nat.div_lt_iff_lt_mul (by decide)).mp (Nat.lt_succ_of_le h)
  exact slice?_of_short hlong

theorem length_of_packetBytes? {data bytes : Bytes} {k : Nat}
    (h : packetBytes? data k = some bytes) : bytes.length = packetSize := by
  rw [length_of_slice? h, ← Nat.mul_sub, Nat.add_sub_cancel_left, Nat.mul_one]

-- The size is right, and a field that does not fit is refused before it is read.
theorem cause_of_parse_eq_error {bytes : Bytes} {cause : FramingError}
    (hsize : bytes.length = packetSize) (h : parse bytes = .error cause) :
    (∃ found, cause = .malformedHeader found) ∨ ∃ length, cause = .inconsistentLength length := by
  by_cases hsync : (headerWord bytes).first = syncByte
  · by_cases hlength : lengthByte bytes = 0 ∨ maxFieldLength < (lengthByte bytes).toNat
    · rw [parse_of_lengthByte hsize hsync hlength] at h
      exact .inr ⟨_, (Except.error.inj h).symm⟩
    · obtain ⟨header, hheader⟩ := exists_decode hsync
      obtain ⟨h0, hfit⟩ := not_or.mp hlength
      rw [parse_of_fits hsize hheader h0 (Nat.not_lt.mp hfit)] at h
      cases h
  · rw [parse_of_first_ne hsize hsync] at h
    exact .inl ⟨_, (Except.error.inj h).symm⟩

namespace Cursor

/-! ## One call -/

theorem toList_of_next? {c d : Cursor} {item : Except FramingError Packet}
    (h : c.next? = some (item, d)) : c.toList = item :: d.toList := by
  rw [toList]
  split
  next hnone => rw [h] at hnone; cases hnone
  next hsome => rw [h] at hsome; cases hsome; rfl

theorem toList_of_next?_none {c : Cursor} (h : c.next? = none) : c.toList = [] := by
  rw [toList]
  split
  next => rfl
  next hsome => rw [h] at hsome; cases hsome

@[simp] theorem length_toList (c : Cursor) : c.toList.length = c.remaining := by
  rw [toList_eq, length_parseAll, remaining]

/-- A call answers with the first of the items to come. -/
theorem head?_toList (c : Cursor) : c.toList.head? = c.poll.1 := by
  unfold poll
  cases h : c.next? with
  | none => rw [toList_of_next?_none h]; rfl
  | some answer => rw [toList_of_next? h]; rfl

@[simp] theorem toList_poll (c : Cursor) : c.poll.2.toList = c.toList.tail := by
  unfold poll
  cases h : c.next? with
  | none => rw [toList_of_next?_none h]; rfl
  | some answer => rw [toList_of_next? h]; rfl

/-! ## Calls one after the other -/

@[simp] theorem toList_after (c : Cursor) (k : Nat) : (c.after k).toList = c.toList.drop k := by
  induction k with
  | zero => rfl
  | succ k ih => rw [after, toList_poll, ih, List.tail_drop]

theorem answer_eq (c : Cursor) (k : Nat) : c.answer k = c.toList[k]? := by
  rw [answer, ← head?_toList, toList_after, List.head?_drop]

-- The items to come are what the further calls answer.
theorem getElem?_toList_after (c : Cursor) (k i : Nat) :
    (c.after k).toList[i]? = c.answer (k + i) := by
  rw [toList_after, List.getElem?_drop, answer_eq]

@[simp] theorem remaining_after (c : Cursor) (k : Nat) :
    (c.after k).remaining = c.remaining - k := by
  rw [← length_toList, toList_after, List.length_drop, length_toList]

@[simp] theorem sizeHint_after (c : Cursor) (k : Nat) :
    (c.after k).sizeHint = (c.remaining - k, some (c.remaining - k)) := by
  rw [sizeHint, remaining_after]

/-! ## Where an item stands -/

theorem getElem?_toList (data : Bytes) (k : Nat) :
    (ofBytes data).toList[k]? = (packetBytes? data k).map Packet.parse := by
  rw [toList_eq, parseAll, List.getElem?_map]
  congr 1
  obtain h | h := Nat.lt_or_ge k (data.length / packetSize)
  · rw [packetBytes?_eq_some h]
    exact Chunks.getElem?_first packetSize _ data k h
  · rw [packetBytes?_eq_none h, List.getElem?_eq_none_iff, Chunks.length_whole]
    exact h

-- No other bytes than those of the packet have a part in it.
theorem answer_ofBytes (data : Bytes) (k : Nat) :
    (ofBytes data).answer k = (packetBytes? data k).map Packet.parse := by
  rw [answer_eq, getElem?_toList]

/-! ## What is less than a packet -/

theorem parseAll_of_length_lt {tail : Bytes} (h : tail.length < packetSize) :
    parseAll tail = [] := by
  rw [← List.length_eq_zero_iff, length_parseAll, Nat.div_eq_of_lt h]

theorem toList_whole_append (data : Bytes) {tail : Bytes} (h : tail.length < packetSize) :
    (ofBytes (data.take (packetSize * (data.length / packetSize)) ++ tail)).toList =
      (ofBytes data).toList := by
  have hle : packetSize * (data.length / packetSize) ≤ data.length :=
    Nat.mul_div_le data.length packetSize
  rw [toList_eq, toList_eq]
  show parseAll (_ ++ tail) = parseAll data
  rw [parseAll_append (by rw [List.length_take_of_le hle]; exact Nat.dvd_mul_right ..),
    parseAll_of_length_lt h, List.append_nil, parseAll, Chunks.whole_take (by decide), parseAll]

end Cursor

end Packet

/-! ## A receiver that draws from a cursor -/

namespace Receiver

theorem draw_eq (r : Receiver) (c : Packet.Cursor) : r.draw c = r.run c.toList := by
  induction r, c using draw.induct with
  | case1 r c hnone =>
    rw [draw, Packet.Cursor.toList_of_next?_none hnone]
    split
    next => rfl
    next hsome => rw [hnone] at hsome; cases hsome
  | case2 r c item d hsome fate r' hstep fates last hdraw ih =>
    rw [draw, Packet.Cursor.toList_of_next? hsome]
    split
    next hnone => rw [hsome] at hnone; cases hnone
    next hagain =>
      rw [hsome] at hagain
      cases hagain
      simp only [run, hstep, ih]

theorem draw_ofBytes (r : Receiver) (data : Bytes) :
    r.draw (.ofBytes data) = ((r.receive data).fates, (r.receive data).receiver) := by
  rw [draw_eq, Packet.Cursor.toList_eq]
  rfl

/-- Where nothing is checked, the packets are the items that are packets, in order, and the receiver
stays as it is. -/
theorem receive_unchecked (data : Bytes) :
    ((⟨none⟩ : Receiver).receive data).packets =
        (Packet.Cursor.ofBytes data).toList.filterMap Except.toOption ∧
      ((⟨none⟩ : Receiver).receive data).receiver = ⟨none⟩ := by
  have hreceived : Fate.received? ∘ Fate.unchecked = Except.toOption := by
    funext item
    cases item <;> rfl
  constructor
  · rw [Reception.packets, fates_receive_none, List.filterMap_map, hreceived,
      Packet.Cursor.toList_eq]
    rfl
  · show (run _ (Packet.parseAll data)).2 = _
    induction Packet.parseAll data with
    | nil => rfl
    | cons item rest ih => cases item <;> exact ih

end Receiver

/-! ## Any bytes -/

namespace Packet.Cursor

/-- **Packet by packet.**  Of any bytes, call after call, a cursor answers with what each packet's
worth of them reads as, and after the last with nothing, however often it is called.  An answer is
never about the size of a packet or a field that is cut short, and it does not depend on other bytes
than its own, so that a fault has no part in any other answer.  What it announces is, before each
call and at the end, the number of items to come.  What is less than a packet at the end, or whatever
stands there instead, changes no answer and no announcement.  Any receiver that draws from the cursor
does what it does with the bytes; one that checks nothing receives exactly the packets among the
items, in order. -/
theorem answers_and_hints (data : Bytes) :
    let n := data.length / packetSize
    let c := ofBytes data
    (∀ k < n, ∃ bytes, packetBytes? data k = some bytes ∧ c.answer k = some (parse bytes)) ∧
    (∀ k, n ≤ k → c.answer k = none) ∧
    (∀ k cause, c.answer k = some (.error cause) →
      (∀ actual, cause ≠ .wrongSize actual) ∧
        ∀ declared available, cause ≠ .truncatedField declared available) ∧
    (∀ other k, packetBytes? other k = packetBytes? data k →
      (ofBytes other).answer k = c.answer k) ∧
    (∀ k, (c.after k).sizeHint = (n - k, some (n - k)) ∧ (c.after k).toList.length = n - k ∧
      ∀ i, (c.after k).toList[i]? = c.answer (k + i)) ∧
    (∀ tail : Bytes, tail.length < packetSize →
      let changed := ofBytes (data.take (packetSize * n) ++ tail)
      ∀ k, changed.answer k = c.answer k ∧ (changed.after k).sizeHint = (c.after k).sizeHint) ∧
    (∀ r : Receiver, r.draw c = ((r.receive data).fates, (r.receive data).receiver)) ∧
    ((Receiver.withContinuityCheck false).receive data).packets =
      c.toList.filterMap Except.toOption ∧
    ((Receiver.withContinuityCheck false).receive data).receiver =
      Receiver.withContinuityCheck false := by
  intro n c
  have hn : c.remaining = n := rfl
  refine ⟨fun k hk => ?_, fun k hk => ?_, fun k cause hcause => ?_, fun other k hbytes => ?_,
    fun k => ⟨?_, ?_, getElem?_toList_after c k⟩, fun tail htail k => ?_,
    fun r => r.draw_ofBytes data, Receiver.receive_unchecked data⟩
  · have hbytes := packetBytes?_eq_some hk
    exact ⟨_, hbytes, by rw [answer_ofBytes, hbytes, Option.map_some]⟩
  · rw [answer_ofBytes, packetBytes?_eq_none hk, Option.map_none]
  · obtain ⟨bytes, hbytes, hparse⟩ :=
      Option.map_eq_some_iff.mp ((answer_ofBytes data k).symm.trans hcause)
    obtain ⟨found, rfl⟩ | ⟨length, rfl⟩ :=
      cause_of_parse_eq_error (length_of_packetBytes? hbytes) hparse
    · exact ⟨fun _ => nofun, fun _ _ => nofun⟩
    · exact ⟨fun _ => nofun, fun _ _ => nofun⟩
  · rw [answer_ofBytes, hbytes, answer_ofBytes]
  · rw [sizeHint_after, hn]
  · rw [length_toList, remaining_after, hn]
  · have hlist := toList_whole_append data htail
    have hremaining := congrArg List.length hlist
    rw [length_toList, length_toList] at hremaining
    exact ⟨by rw [answer_eq, hlist, answer_eq],
      by rw [sizeHint_after, hremaining, sizeHint_after]⟩

set_option maxRecDepth 4000 in
/-- Another sync byte in the second of three packets, and two bytes at the end. -/
theorem answers_around_fault :
    let packet (sync last : UInt8) : Bytes :=
      [sync, 0x41, 0x23, 0x30, 182, 0] ++ List.replicate 181 0xff ++ [last]
    let data := packet 0x47 1 ++ packet 0x46 2 ++ packet 0x47 3 ++ [0x47, 0x00]
    let repaired := packet 0x47 1 ++ packet 0x47 2 ++ packet 0x47 3
    let c := ofBytes data
    c.answer 1 = some (.error (.malformedHeader 0x46)) ∧ c.answer 3 = none ∧
      packetBytes? repaired 2 = packetBytes? data 2 ∧
      (ofBytes repaired).answer 2 = c.answer 2 ∧ (c.after 2).sizeHint = (1, some 1) ∧
      ((ofBytes (data.take (packetSize * 3) ++ [0xff])).after 2).sizeHint = (1, some 1) ∧
      ((Receiver.withContinuityCheck false).receive data).packets.map (·.payload) = [[1], [3]] := by
  intro packet data repaired c
  have hcount : data.length / packetSize = 3 := by decide +kernel
  have hsame : packetBytes? repaired 2 = packetBytes? data 2 := by decide +kernel
  have hsecond : packetBytes? data 1 = some (packet 0x46 2) := by decide +kernel
  obtain ⟨hanswer, hend, -, hown, hhint, htail, -, -, -⟩ := answers_and_hints data
  rw [hcount] at hanswer hend hhint htail
  obtain ⟨bytes, hbytes, hfault⟩ := hanswer 1 (by decide)
  obtain rfl := Option.some.inj (hbytes.symm.trans hsecond)
  have hparse : parse (packet 0x46 2) = .error (.malformedHeader 0x46) :=
    parse_of_first_ne rfl (by decide)
  exact ⟨hfault.trans (congrArg some hparse), hend 3 (by decide), hsame, hown repaired 2 hsame,
    (hhint 2).1, (htail [0xff] (by decide) 2).2.trans (hhint 2).1, by cbv⟩

end Packet.Cursor

end TransportStream
