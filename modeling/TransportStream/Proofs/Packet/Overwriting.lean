import TransportStream.Proofs.Packet.Fields
import TransportStream.Proofs.Packet.Rewriting

/-!
# Fields over a buffer and behind one

A field can be written over the front of a buffer, byte after byte, or behind all that a buffer holds.
Over the front every sum and every position is checked, and no check fails but where the buffer is too
short (`AdaptationField.putOver?_eq`).  Both ways write the same bytes and leave all others as they
were (`AdaptationField.overwrite_and_append`).
-/

namespace TransportStream

open Layout

namespace AdaptationField

/-! ## The length byte of so much stuffing -/

theorem withStuffing?_eq_error_iff {count : Nat} :
    withStuffing? count = .error ⟨count⟩ ↔ maxStuffing < count := by
  rw [withStuffing?]
  split
  next h =>
    refine iff_of_false (fun hok => ?_) (Nat.not_lt.mpr h)
    cases hok
  next h => exact iff_of_true rfl (Nat.not_le.mp h)

/-- Words of 64 bits are wide enough, and the length is never cut off. -/
theorem withStuffingWord?_eq (count : UInt64) :
    withStuffingWord? count = some (withStuffing? count.toNat) := by
  rw [withStuffingWord?, withStuffing?]
  split
  next h =>
    have hone : (1 : UInt64).toNat = 1 := rfl
    have hmax : count.toNat + 1 ≤ 255 := Nat.succ_le_succ h
    obtain ⟨sum, hsum, hvalue⟩ := checkedAdd?_of_lt (a := count) (b := 1)
      (by rw [hone, UInt64.size]; omega)
    rw [hone] at hvalue
    have hwhole : sum.toNat < UInt8.size := by rw [hvalue, UInt8.size]; omega
    have hlength : sum.toUInt8 = (ofStuffing count.toNat h).fieldLength := by
      rw [← UInt8.toNat_inj, fieldLength_ofStuffing, UInt64.toNat_toUInt8, hvalue,
        Nat.mod_eq_of_lt (by omega)]
    simp only [hsum, wholeByte?, if_pos hwhole, Option.bind_eq_bind, Option.bind_some, hlength]
    exact dif_neg (ofStuffing count.toNat h).fieldLength_ne_zero
  next => rfl

/-- Every field is the one with its own stuffing. -/
theorem withStuffing?_stuffing (f : AdaptationField) : withStuffing? f.stuffing = .ok f := by
  have hlength := f.fieldLength.toNat_lt
  have hpos := f.fieldLength_pos
  have hle : f.stuffing ≤ maxStuffing := by rw [stuffing, maxStuffing]; omega
  have hvalue : (ofStuffing f.stuffing hle).fieldLength.toNat = f.fieldLength.toNat := by
    rw [fieldLength_ofStuffing, stuffing]
    omega
  rw [withStuffing?_of_le hle, AdaptationField.ext (UInt8.toNat_inj.mp hvalue)]

/-! ## Over a buffer -/

variable {out : Bytes}

theorem overwrite?_eq_none_iff (f : AdaptationField) :
    f.overwrite? out = none ↔ out.length < f.encodedLength := by
  rw [overwrite?]
  split
  next h => exact iff_of_false (Option.some_ne_none _) (Nat.not_lt.mpr h)
  next h => exact iff_of_true rfl (Nat.not_le.mp h)

-- A buffer of less than two bytes is too short for the bytes in front, any other for the stuffing.
theorem putOver?_of_short (f : AdaptationField) (h : out.length < f.encodedLength) :
    f.putOver? out = none := by
  obtain ⟨stop, hsum, hstop⟩ := checkedAdd?_one_length f.fieldLength
  have hend : stop.toNat = f.encodedLength := hstop
  rw [putOver?, hsum]
  match out, h with
  | [], _ => rfl
  | [_], _ => rfl
  | _ :: _ :: rest, h =>
    have hfill : fill? stuffingByte (f.fieldLength :: 0x00 :: rest) fieldHeaderSize stop.toNat =
        none := fill?_of_short stuffingByte (hend ▸ h)
    change (fill? stuffingByte (f.fieldLength :: 0x00 :: rest) _ _ >>= _) = _
    rw [hfill]
    rfl

theorem putOver?_append (f : AdaptationField) (x y : UInt8) {old : Bytes} (after : Bytes)
    (h : old.length = f.stuffing) :
    f.putOver? (x :: y :: (old ++ after)) = some (f.encode ++ after, f.encodedLength) := by
  obtain ⟨stop, hsum, hstop⟩ := checkedAdd?_one_length f.fieldLength
  have hend : stop.toNat = fieldHeaderSize + old.length := by
    rw [h, Nat.add_comm]
    exact hstop.trans f.encodedLength_eq
  have hlength : put? (x :: y :: (old ++ after)) 0 f.fieldLength =
      some (f.fieldLength :: y :: (old ++ after)) := put?_append _ x [] _
  have hflags : put? (f.fieldLength :: y :: (old ++ after)) 1 0x00 =
      some (f.fieldLength :: 0x00 :: (old ++ after)) := put?_append _ y [f.fieldLength] _
  have hfill : fill? stuffingByte (f.fieldLength :: 0x00 :: (old ++ after)) fieldHeaderSize
      (fieldHeaderSize + old.length) = some (f.encode ++ after) := by
    rw [encode, ← h]
    exact fill?_append stuffingByte [f.fieldLength, 0x00] old after
  simp only [putOver?, hsum, hlength, hflags, hend, hfill, bind, Option.bind]
  rw [h, Nat.add_comm, encodedLength_eq]
  rfl

theorem putOver?_of_fits (f : AdaptationField) (h : f.encodedLength ≤ out.length) :
    f.putOver? out = some (f.encode ++ out.drop f.encodedLength, f.encodedLength) := by
  rw [encodedLength_eq] at h
  match out, h with
  | x :: y :: rest, h =>
    have hstuffing : (rest.take f.stuffing).length = f.stuffing :=
      List.length_take_of_le (Nat.le_of_add_le_add_right h)
    have hput := putOver?_append f x y (rest.drop f.stuffing) hstuffing
    rw [List.take_append_drop] at hput
    rw [hput, encodedLength_eq]
    rfl

/-- Byte after byte or position by position, the same is written, and it fits in the same buffers. -/
theorem putOver?_eq (f : AdaptationField) (out : Bytes) : f.putOver? out = f.overwrite? out := by
  by_cases hshort : out.length < f.encodedLength
  · rw [putOver?_of_short f hshort, (overwrite?_eq_none_iff f).mpr hshort]
  · have hfits := Nat.not_lt.mp hshort
    rw [putOver?_of_fits f hfits, overwrite?_of_fits f hfits]

/-! ## Both ways -/

/-- **Two ways to write a field.**  There is a field with so much stuffing exactly if that is at most
254 bytes; its length byte is then one more, with nothing cut off, for which words of 64 bits suffice,
and there are no other fields.  Over the front of a buffer, byte after byte with every step checked, a
field cannot be written exactly if the buffer is shorter than the field; otherwise the buffer starts
with the bytes of the field afterwards, and behind them it is as it was.  Behind a buffer, the same
bytes follow all that the buffer held. -/
theorem overwrite_and_append :
    (∀ count : Nat,
      (withStuffing? count = .error ⟨count⟩ ↔ 254 < count) ∧
      (count ≤ 254 → ∃ f, withStuffing? count = .ok f ∧
        f.fieldLength.toNat = count + 1 ∧ 1 ≤ f.fieldLength.toNat ∧ f.fieldLength.toNat ≤ 255 ∧
        f.stuffing = count ∧ f.encodedLength = count + 2)) ∧
    (∀ count : UInt64, withStuffingWord? count = some (withStuffing? count.toNat)) ∧
    (∀ f : AdaptationField, withStuffing? f.stuffing = .ok f ∧
      f.encode = f.fieldLength :: 0x00 :: List.replicate f.stuffing 0xff) ∧
    (∀ (f : AdaptationField) (out : Bytes),
      let n := f.stuffing + 2
      f.putOver? out = f.overwrite? out ∧
      (f.overwrite? out = none ↔ out.length < n) ∧
      (n ≤ out.length → ∃ written, f.overwrite? out = some (written, n) ∧
        written.take n = f.encode ∧ written.drop n = out.drop n ∧
        written.length = out.length)) ∧
    (∀ (f : AdaptationField) (buffer : Bytes), f.appendTo buffer = buffer ++ f.encode) := by
  refine ⟨fun count => ⟨withStuffing?_eq_error_iff, fun h => ?_⟩, withStuffingWord?_eq,
    fun f => ⟨withStuffing?_stuffing f, rfl⟩, fun f out => ?_, appendTo_eq⟩
  · have hlength := fieldLength_ofStuffing count h
    have hstuffing := stuffing_ofStuffing count h
    refine ⟨ofStuffing count h, withStuffing?_of_le h, hlength, ?_, ?_, hstuffing, ?_⟩
    · exact fieldLength_pos _
    · rw [hlength]
      exact Nat.succ_le_succ h
    · rw [encodedLength_eq, hstuffing]
  · intro n
    have hn : f.encodedLength = n := f.encodedLength_eq
    have hencode : f.encode.length = n := by rw [length_encode, hn]
    refine ⟨putOver?_eq f out, hn ▸ overwrite?_eq_none_iff f, fun hfits => ?_⟩
    have hwritten := overwrite?_of_fits f (hn.symm ▸ hfits)
    rw [hn] at hwritten
    refine ⟨_, hwritten, List.take_left' hencode, List.drop_left' hencode, ?_⟩
    rw [List.length_append, hencode, List.length_drop, Nat.add_sub_cancel' hfits]

/-- The longest field and the first that is too long, and a field of four bytes over three bytes, over
five, and behind five. -/
theorem overwrite_and_append_four :
    let f : AdaptationField := ⟨3, by decide⟩
    let out : Bytes := [9, 8, 7, 6, 5]
    (254 ≤ 254 ∧ ∃ g, withStuffing? 254 = .ok g ∧ g.fieldLength.toNat = 255 ∧
        g.encodedLength = 256) ∧
      withStuffing? 255 = .error ⟨255⟩ ∧ withStuffing? 2 = .ok f ∧
      f.overwrite? (out.take 3) = none ∧
      (4 ≤ out.length ∧ f.overwrite? out = some ([3, 0x00, 0xff, 0xff, 5], 4)) ∧
      f.appendTo out = [9, 8, 7, 6, 5, 3, 0x00, 0xff, 0xff] := by
  intro f out
  obtain ⟨hcounts, -, hfields, hover, hbehind⟩ := overwrite_and_append
  obtain ⟨g, hg, hlength, -, -, -, hencoded⟩ := (hcounts 254).2 (by decide)
  obtain ⟨written, hwritten, htake, hdrop, -⟩ := (hover f out).2.2 (by decide)
  have hbytes : written = [3, 0x00, 0xff, 0xff, 5] := by
    rw [← List.take_append_drop (f.stuffing + 2) written, htake, hdrop]
    rfl
  rw [hbytes] at hwritten
  exact ⟨⟨by decide, g, hg, hlength, hencoded⟩, (hcounts 255).1.mpr (by decide), (hfields f).1,
    (hover f (out.take 3)).2.1.mpr (by decide), ⟨by decide, hwritten⟩, hbehind f out⟩

end AdaptationField

end TransportStream
