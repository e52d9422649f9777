import TransportStream.Proofs.Packet.Reading

/-!
# Packets read and written again

A packet that was read is written with its scrambling bits, its flags byte and its stuffing as this
library writes them, and with every other byte as it was (`Packet.encode_of_parse`).  Bytes that stand
so already come back unchanged.  A packet that was put together from its parts reads back exactly if
they make up one packet's worth of bytes.
-/

namespace TransportStream

open Layout

/-! ## Fields over other bytes -/

namespace AdaptationField

theorem getElem_encode {f : AdaptationField} {i : Nat} (h : i < f.encode.length) (old : UInt8) :
    f.encode[i] = f.byteAt i old := by
  match i, h with
  | 0, _ => rfl
  | 1, _ => rfl
  | i + 2, h =>
    have hlt : i + 2 < f.encodedLength := by rw [← length_encode]; exact h
    rw [byteAt, if_neg (by omega), if_neg (by omega), if_pos hlt]
    exact List.getElem_replicate _

-- Written over the front of some bytes, a field changes them position by position.
theorem encode_append_drop (f : AdaptationField) {out : Bytes}
    (h : f.encodedLength ≤ out.length) :
    f.encode ++ out.drop f.encodedLength = out.mapIdx f.byteAt := by
  apply List.ext_getElem
  · rw [List.length_append, length_encode, List.length_drop, List.length_mapIdx]
    omega
  · intro i hi hi'
    rw [List.length_mapIdx] at hi'
    rw [List.getElem_mapIdx]
    by_cases hlt : i < f.encode.length
    · rw [List.getElem_append_left hlt]
      exact getElem_encode hlt _
    · rw [List.getElem_append_right (Nat.not_lt.mp hlt), List.getElem_drop]
      rw [length_encode] at hlt
      have := f.encodedLength_eq
      simp only [length_encode, Nat.add_sub_cancel' (Nat.not_lt.mp hlt)]
      rw [byteAt, if_neg (by omega), if_neg (by omega), if_neg hlt]

theorem overwrite?_of_fits (f : AdaptationField) {out : Bytes} (h : f.encodedLength ≤ out.length) :
    f.overwrite? out = some (f.encode ++ out.drop f.encodedLength, f.encodedLength) := by
  rw [overwrite?, if_pos h, encode_append_drop f h]

end AdaptationField

namespace Packet

/-! ## What changes -/

/-- The last byte of a header as it is written: scrambling bits other than `00` become `01`. -/
def settledScrambling (b : UInt8) : UInt8 :=
  if b.toNat / 0x40 = 0 then b else UInt8.ofNat (0x40 + b.toNat % 0x40)

/-- The byte that is written at position `i` where `b` was read, if `length` is the length byte. -/
def rewrittenByte (length : UInt8) (i : Nat) (b : UInt8) : UInt8 :=
  if i = 3 then settledScrambling b
  else if i = 5 then 0x00
  else if 6 ≤ i ∧ i < 5 + length.toNat then stuffingByte
  else b

/-- A packet's worth of bytes as it is written again. -/
def rewritten (data : Bytes) : Bytes :=
  data.mapIdx (rewrittenByte (lengthByte data))

theorem length_rewritten (data : Bytes) : (rewritten data).length = data.length :=
  List.length_mapIdx

theorem settledScrambling_eq (b : UInt8) :
    settledScrambling b =
      UInt8.ofNat (min 1 (b.toNat / 0x40) * 0x40 + b.toNat % 0x40) := by
  have hb := b.toNat_lt
  unfold settledScrambling
  split
  next h =>
    rw [h, show min 1 0 * 0x40 + b.toNat % 0x40 = b.toNat by omega, UInt8.ofNat_toNat]
  next h => rw [Nat.min_eq_left (by omega)]

theorem settledScrambling_eq_self_iff (b : UInt8) :
    settledScrambling b = b ↔ b.toNat / 0x40 ≤ 1 := by
  have hb := b.toNat_lt
  rw [settledScrambling_eq, ← UInt8.toNat_inj,
    UInt8.toNat_ofNat_of_lt' (by simp only [UInt8.size]; omega)]
  omega

theorem rewritten_eq_self_iff_forall (data : Bytes) :
    rewritten data = data ↔
      ∀ i < data.length, rewrittenByte (lengthByte data) i (data.getD i 0) = data.getD i 0 := by
  rw [rewritten, List.mapIdx_eq_iff]
  apply forall_congr'
  intro i
  by_cases hi : i < data.length
  · rw [List.getD_eq_getElem?_getD, List.getElem?_eq_getElem hi, Option.map_some,
      Option.some.injEq, Option.getD_some]
    exact ⟨fun h _ => h.symm, fun h => (h hi).symm⟩
  · rw [List.getElem?_eq_none (Nat.not_lt.mp hi)]
    exact ⟨fun _ h => absurd h hi, fun _ => rfl⟩

/-- Bytes are written again as they were if their scrambling bits are `00` or `01`, their flags byte
is zero, and they are stuffed with nothing but stuffing bytes. -/
theorem rewritten_eq_self_iff {data : Bytes} (hsize : data.length = packetSize)
    (hfit : (lengthByte data).toNat ≤ maxFieldLength) :
    rewritten data = data ↔
      (data.getD 3 0).toNat / 0x40 ≤ 1 ∧ data.getD 5 0 = 0x00 ∧
        ∀ i, 6 ≤ i → i < 5 + (lengthByte data).toNat → data.getD i 0 = stuffingByte := by
  simp only [maxFieldLength, packetSize, headerSize] at hsize hfit
  rw [rewritten_eq_self_iff_forall, hsize]
  constructor
  · intro h
    refine ⟨(settledScrambling_eq_self_iff _).mp (h 3 (by omega)), (h 5 (by omega)).symm, ?_⟩
    intro i hlow hhigh
    have hi := h i (by omega)
    rw [rewrittenByte, if_neg (by omega), if_neg (by omega), if_pos ⟨hlow, hhigh⟩] at hi
    exact hi.symm
  · rintro ⟨hscrambling, hflags, hstuffing⟩ i -
    unfold rewrittenByte
    split
    next h => rw [h]; exact (settledScrambling_eq_self_iff _).mpr hscrambling
    next =>
      split
      next h => rw [h]; exact hflags.symm
      next =>
        split
        next h => exact (hstuffing i h.1 h.2).symm
        next => rfl

/-! ## Reading, then writing -/

theorem rewritten_cons (first second third fourth length : UInt8) (body : Bytes) :
    rewritten (first :: second :: third :: fourth :: length :: body) =
      first :: second :: third :: settledScrambling fourth :: length ::
        body.mapIdx fun i => rewrittenByte length (i + 5) := by
  simp only [rewritten, List.mapIdx_cons]
  rfl

-- Behind its length byte a field is written as a packet is written again.
theorem byteAt_succ (f : AdaptationField) (i : Nat) (old : UInt8) :
    f.byteAt (i + 1) old = rewrittenByte f.fieldLength (i + 5) old := by
  unfold AdaptationField.byteAt rewrittenByte AdaptationField.encodedLength
  by_cases h0 : i = 0
  · subst h0
    rfl
  · rw [if_neg (show ¬ i + 1 = 0 by omega), if_neg (show ¬ i + 1 = 1 by omega),
      if_neg (show ¬ i + 5 = 3 by omega), if_neg (show ¬ i + 5 = 5 by omega)]
    by_cases hstuffing : i < f.fieldLength.toNat
    · rw [if_pos (show i + 1 < 1 + f.fieldLength.toNat by omega),
        if_pos (show 6 ≤ i + 5 ∧ i + 5 < 5 + f.fieldLength.toNat by omega)]
    · rw [if_neg (show ¬ i + 1 < 1 + f.fieldLength.toNat by omega),
        if_neg (show ¬ (6 ≤ i + 5 ∧ i + 5 < 5 + f.fieldLength.toNat) by omega)]

/-- A packet that was read is written with nothing changed but its scrambling bits, its flags byte
and its stuffing. -/
theorem encode_of_parse {data : Bytes} {p : Packet} (h : parse data = .ok p) :
    p.encode = rewritten data := by
  obtain ⟨hsize, hheader, hfield, hfit, hpayload⟩ := parse_eq_ok_iff.mp h
  obtain ⟨first, second, third, fourth, length, body, rfl, hbody⟩ := exists_of_length_eq hsize
  have hlength : p.field.fieldLength = length := hfield
  have henc : p.field.encodedLength ≤ (length :: body).length := by
    rw [AdaptationField.encodedLength, hlength, List.length_cons, hbody]
    have : length.toNat ≤ maxFieldLength := hfit
    omega
  have hdrop : p.payload = (length :: body).drop (1 + length.toNat) := by
    rw [hpayload, Nat.add_assoc, Nat.add_comm]
    rfl
  have hrest : p.field.encode ++ p.payload = (length :: body).mapIdx p.field.byteAt := by
    rw [← AdaptationField.encode_append_drop _ henc, hdrop, AdaptationField.encodedLength, hlength]
  -- The length byte is the one that was read, and behind it both say the same of every position.
  have hbyte : (fun i => p.field.byteAt (i + 1)) = fun i => rewrittenByte length (i + 5) := by
    funext i old
    rw [byteAt_succ, hlength]
  have hfirst : p.field.byteAt 0 length = length := hlength
  rw [encode, hrest, Header.bytes, Header.encode_of_decode hheader, rewritten_cons,
    settledScrambling_eq, List.mapIdx_cons, hbyte, hfirst]
  rfl

theorem parse_rewritten {data : Bytes} {p : Packet} (h : parse data = .ok p) :
    parse (rewritten data) = .ok p := by
  have hsize : p.encode.length = packetSize := by
    rw [encode_of_parse h, length_rewritten, length_of_parse_eq_ok h]
  rw [← encode_of_parse h]
  exact parse_encode hsize

theorem rewritten_rewritten {data : Bytes} {p : Packet} (h : parse data = .ok p) :
    rewritten (rewritten data) = rewritten data :=
  (encode_of_parse (parse_rewritten h)).symm.trans (encode_of_parse h)

/-! ## Writing, then reading -/

theorem parse_encode_eq (p : Packet) :
    parse p.encode =
      if headerSize + p.field.encodedLength + p.payload.length = packetSize then .ok p
      else .error (.wrongSize (headerSize + p.field.encodedLength + p.payload.length)) := by
  rw [← length_encode]
  split
  next h => exact parse_encode h
  next h => exact parse_of_length_ne h

/-! ## Both ways -/

/-- **Reading and writing.**  A packet that was read is written with nothing changed but the
scrambling bits, the flags byte and the stuffing, so it comes out as it was exactly if these were
as they are written; what was written reads back, and is written the same again.  A packet that was
put together from a header, stuffing and a payload reads back if they make up its size, and is
refused for the size that they have if they do not. -/
theorem parse_and_encode :
    (∀ (data : Bytes) (p : Packet), parse data = .ok p →
      p.encode = rewritten data ∧ p.encode.length = packetSize ∧
      (p.encode = data ↔
        (data.getD 3 0).toNat / 0x40 ≤ 1 ∧ data.getD 5 0 = 0x00 ∧
          ∀ i, 6 ≤ i → i < 5 + (lengthByte data).toNat → data.getD i 0 = stuffingByte) ∧
      parse p.encode = .ok p ∧ rewritten p.encode = p.encode) ∧
    (∀ (header : Header) (count : Nat) (payload : Bytes), count ≤ AdaptationField.maxStuffing →
      ∃ field, AdaptationField.withStuffing? count = .ok field ∧
        parse (Packet.mk header field payload).encode =
          if headerSize + field.encodedLength + payload.length = packetSize then
            .ok ⟨header, field, payload⟩
          else .error (.wrongSize (headerSize + field.encodedLength + payload.length))) := by
  constructor
  · intro data p hparse
    obtain ⟨hsize, -, -, hfit, -⟩ := parse_eq_ok_iff.mp hparse
    have henc := encode_of_parse hparse
    have hlen : p.encode.length = packetSize := by rw [henc, length_rewritten, hsize]
    refine ⟨henc, hlen, ?_, parse_encode hlen, ?_⟩
    · rw [henc]
      exact rewritten_eq_self_iff hsize hfit
    · rw [henc]
      exact rewritten_rewritten hparse
  · intro header count payload hcount
    exact ⟨_, dif_pos hcount, parse_encode_eq _⟩

/-- A packet with scrambling bits `11`, a flag and other bytes for stuffing, and one that is put
together with more stuffing than a packet holds. -/
theorem encode_parsed_flags :
    let data : Bytes := [0x47, 0x40, 0x11, 0xd7, 3, 0x80, 1, 2] ++ List.replicate 180 9
    let settled : Bytes := [0x47, 0x40, 0x11, 0x57, 3, 0x00, 0xff, 0xff] ++ List.replicate 180 9
    (∃ p, parse data = .ok p ∧ p.encode = settled ∧ p.encode ≠ data ∧ parse settled = .ok p) ∧
      254 ≤ AdaptationField.maxStuffing ∧ ∃ field, AdaptationField.withStuffing? 254 = .ok field ∧
        parse (Packet.mk {} field [1]).encode = .error (.wrongSize 261) := by
  intro data settled
  have hsize : data.length = packetSize := rfl
  have hparse := parse_of_fits hsize (if_pos rfl) (by decide) (by decide)
  obtain ⟨henc, -, -, hread, -⟩ := parse_and_encode.1 data _ hparse
  have hsettled : rewritten data = settled := by decide +kernel
  rw [hsettled] at henc
  obtain ⟨field, hfield, hbuilt⟩ := parse_and_encode.2 {} 254 [1] (by decide)
  cases hfield
  refine ⟨⟨_, hparse, henc, ?_, ?_⟩, by decide, _, rfl, hbuilt⟩
  · rw [henc]
    decide +kernel
  · rw [← henc]
    exact hread

end Packet

end TransportStream
