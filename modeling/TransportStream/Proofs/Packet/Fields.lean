import Mathlib.Algebra.Ring.Nat
import TransportStream.Proofs.Packet.Reading

/-!
# Fields at any offset

What is found at an offset is a matter of how many bytes are there and of the first of them, wherever
the offset lies (`AdaptationField.decode_of_getElem?`).  The length byte of a field says where the
next one starts, so fields that were written one behind the other are read one behind the other, and
reading ends where the last one ends (`AdaptationField.decodeMany_append`).
-/

namespace TransportStream

open Layout

namespace AdaptationField

/-- Words of 64 bits are wide enough, and no byte is looked for behind the end. -/
theorem decodeWord?_eq {data : Bytes} (h : data.length < UInt64.size) (offset : UInt64) :
    decodeWord? data offset = some (decode data offset.toNat) := by
  have havailable : (saturatingSub (UInt64.ofNat data.length) offset).toNat =
      data.length - offset.toNat := by
    rw [toNat_saturatingSub, UInt64.toNat_ofNat_of_lt' h]
  have hzero : saturatingSub (UInt64.ofNat data.length) offset = 0 ↔
      data.length - offset.toNat = 0 := by
    rw [← UInt64.toNat_inj, havailable, UInt64.toNat_zero]
  rw [← decodeGuarded_eq, decodeWord?, decodeGuarded]
  simp only [hzero, havailable]
  split
  next => rfl
  next =>
    cases data[offset.toNat]? with
    | none => rfl
    | some length =>
      obtain ⟨taken, hsum, htaken⟩ := checkedAdd?_one_length length
      simp only [Option.bind_eq_bind, Option.bind_some, hsum, UInt64.lt_iff_toNat_lt, havailable,
        htaken]

/-! ## One field -/

variable {data : Bytes} {offset : Nat}

theorem decode_of_length_le (h : data.length ≤ offset) :
    decode data offset = .error (.truncatedField 1 0) := by
  rw [decode, List.drop_eq_nil_of_le h]

theorem decode_of_getElem? {length : UInt8} (h : data[offset]? = some length) :
    decode data offset =
      if data.length - offset < 1 + length.toNat then
        .error (.truncatedField (1 + length.toNat) (data.length - offset))
      else if h0 : length = 0 then .error (.inconsistentLength length)
      else .ok (⟨length, h0⟩, 1 + length.toNat) := by
  obtain ⟨hlt, -⟩ := List.getElem?_eq_some_iff.mp h
  apply Option.some.inj
  rw [← decodeGuarded_eq, decodeGuarded]
  simp only [h, Option.bind_eq_bind, Option.bind_some]
  rw [if_neg (by omega)]
  split
  next => rfl
  next => split <;> rfl

/-! ## Fields one behind the other -/

-- By induction on the fields; each reading starts where the bytes written so far end.
theorem decodeMany_append (fields : List AdaptationField) (before after : Bytes) :
    decodeMany (appendAll fields before ++ after) before.length fields.length =
      .ok (fields, (appendAll fields before).length) := by
  induction fields generalizing before with
  | nil => rfl
  | cons f rest ih =>
    have hfirst : decode (appendAll (f :: rest) before ++ after) before.length =
        .ok (f, f.encodedLength) := by
      rw [appendAll_eq, List.flatMap_cons, List.append_assoc, List.append_assoc]
      exact decode_append before _ f
    have hrest := ih (f.appendTo before)
    rw [length_appendTo] at hrest
    rw [List.length_cons, decodeMany, hfirst]
    change (decodeMany (appendAll rest (f.appendTo before) ++ after)
      (before.length + f.encodedLength) rest.length >>= _) = _
    rw [hrest]
    rfl

theorem length_appendAll (fields : List AdaptationField) (out : Bytes) :
    (appendAll fields out).length = out.length + (fields.map encodedLength).sum := by
  induction fields generalizing out with
  | nil => rfl
  | cons f rest ih =>
    rw [appendAll, List.foldl_cons, ← appendAll, ih, length_appendTo, List.map_cons, List.sum_cons,
      Nat.add_assoc]

/-- Fields with stuffing of these lengths, if a length byte can announce each of them. -/
theorem mapM_withStuffing? {counts : List Nat} (h : ∀ c ∈ counts, c ≤ maxStuffing) :
    ∃ fields, counts.mapM withStuffing? = .ok fields ∧ fields.map stuffing = counts := by
  induction counts with
  | nil => exact ⟨[], rfl, rfl⟩
  | cons c rest ih =>
    obtain ⟨hc, hrest⟩ := List.forall_mem_cons.mp h
    obtain ⟨fields, hfields, hstuffing⟩ := ih hrest
    refine ⟨ofStuffing c hc :: fields, ?_, ?_⟩
    · rw [List.mapM_cons, withStuffing?_of_le hc, hfields]
      rfl
    · simp [hstuffing]

/-! ## Everything that is read -/

/-- **Fields at any offset.**  From any offset it is told what is found there: where no byte is left,
a field of which at least one byte is missing; where fewer bytes are left than the length byte
announces, how many there should be and how many there are; where the length byte is zero, just that;
and in all other cases the field, with the bytes that it takes.  Words of 64 bits suffice for this,
and no byte is looked for behind the end.  Fields that are written one behind the other, with any
stuffing that a length byte can announce and between any other bytes, are read one behind the other,
and reading ends where the bytes behind them start. -/
theorem decode_anywhere :
    (∀ (data : Bytes) (offset : Nat),
      let available := data.length - offset
      (available = 0 → decode data offset = .error (.truncatedField 1 0)) ∧
      (available ≠ 0 → ∃ length, data[offset]? = some length ∧
        (available < 1 + length.toNat →
          decode data offset = .error (.truncatedField (1 + length.toNat) available)) ∧
        (1 + length.toNat ≤ available → length = 0 →
          decode data offset = .error (.inconsistentLength 0)) ∧
        (1 + length.toNat ≤ available → length ≠ 0 →
          ∃ f, decode data offset = .ok (f, 1 + length.toNat) ∧ f.fieldLength = length))) ∧
    (∀ (data : Bytes) (offset : UInt64), data.length < 2 ^ 64 →
      decodeWord? data offset = some (decode data offset.toNat)) ∧
    (∀ (counts : List Nat) (before after : Bytes), (∀ c ∈ counts, c ≤ 254) →
      ∃ fields, counts.mapM withStuffing? = .ok fields ∧ fields.map stuffing = counts ∧
        let written := appendAll fields before
        decodeMany (written ++ after) before.length counts.length =
          .ok (fields, written.length) ∧
        written.length = before.length + (fields.map encodedLength).sum ∧
        (written ++ after).take before.length = before ∧
        (written ++ after).drop written.length = after) := by
  refine ⟨?_, fun data offset h => decodeWord?_eq h offset, ?_⟩
  · intro data offset available
    refine ⟨fun h => decode_of_length_le (Nat.sub_eq_zero_iff_le.mp h), fun h => ?_⟩
    have hlt : offset < data.length := Nat.lt_of_sub_ne_zero h
    have hget := List.getElem?_eq_getElem hlt
    refine ⟨_, hget, ?_, ?_, ?_⟩
    · intro hshort
      rw [decode_of_getElem? hget, if_pos hshort]
    · intro hlong h0
      rw [decode_of_getElem? hget, if_neg (Nat.not_lt.mpr hlong), dif_pos h0, h0]
    · intro hlong h0
      rw [decode_of_getElem? hget, if_neg (Nat.not_lt.mpr hlong), dif_neg h0]
      exact ⟨_, rfl, rfl⟩
  · intro counts before after h
    obtain ⟨fields, hfields, hstuffing⟩ := mapM_withStuffing? h
    have hcount : counts.length = fields.length := by rw [← hstuffing, List.length_map]
    refine ⟨fields, hfields, hstuffing, ?_, length_appendAll fields before, ?_, List.drop_left⟩
    · rw [hcount]
      exact decodeMany_append fields before after
    · rw [appendAll_eq, List.append_assoc]
      exact List.take_left

/-- What stands at four offsets of five bytes, the last of them far behind the end, and the shortest
and the longest field with another one between them. -/
theorem decode_anywhere_examples :
    let data : Bytes := [3, 0x00, 1, 0x80, 9]
    let counts := [0, 3, 254]
    (∃ f, decode data 0 = .ok (f, 4) ∧ f.fieldLength = 3) ∧
      decode data 1 = .error (.inconsistentLength 0) ∧
      decode data 4 = .error (.truncatedField 10 1) ∧
      decodeWord? data 0xffffffffffffffff = some (.error (.truncatedField 1 0)) ∧
      (∀ c ∈ counts, c ≤ 254) ∧ ∃ fields, fields.map stuffing = counts ∧
        decodeMany (appendAll fields data ++ data) 5 3 = .ok (fields, 268) ∧
        (appendAll fields data ++ data).drop 268 = data := by
  intro data counts
  obtain ⟨length, hget, -, -, hfield⟩ := (decode_anywhere.1 data 0).2 (by decide)
  cases hget
  obtain ⟨length, hget, -, hzero, -⟩ := (decode_anywhere.1 data 1).2 (by decide)
  cases hget
  obtain ⟨length, hget, hshort, -, -⟩ := (decode_anywhere.1 data 4).2 (by decide)
  cases hget
  have hword := decode_anywhere.2.1 data 0xffffffffffffffff (by decide)
  have hnone := (decode_anywhere.1 data 0xffffffffffffffff).1 (by decide)
  have hcounts : ∀ c ∈ counts, c ≤ 254 := by decide
  obtain ⟨fields, hfields, hstuffing, hread, hlength, -, hdrop⟩ :=
    decode_anywhere.2.2 counts data data hcounts
  have hstop : (appendAll fields data).length = 268 := by
    rw [hlength]
    cases hfields
    rfl
  rw [hstop] at hread hdrop
  exact ⟨hfield (by decide) (by decide), hzero (by decide) rfl, hshort (by decide),
    hword.trans (congrArg some hnone), hcounts, fields, hstuffing, hread, hdrop⟩

end AdaptationField

end TransportStream
