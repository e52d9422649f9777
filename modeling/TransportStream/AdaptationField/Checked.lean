import TransportStream.AdaptationField
import TransportStream.Buffer

/-!
# Fields with every step checked

What is done with fields, on words of 64 bits and with a check at every sum, every cut and every
access.  Where a check fails there is no result.
-/

namespace TransportStream

open Layout

namespace AdaptationField

/-! ## Words -/

/-- A difference of words, and zero where there is none. -/
def saturatingSub (a b : UInt64) : UInt64 :=
  if b ≤ a then a - b else 0

/-- A sum of words, and `none` where it is not a word. -/
def checkedAdd? (a b : UInt64) : Option UInt64 :=
  if a.toNat + b.toNat < UInt64.size then some (a + b) else none

/-- The lowest byte of a word; `none` where it is not the whole word. -/
def wholeByte? (w : UInt64) : Option UInt8 :=
  if w.toNat < UInt8.size then some w.toUInt8 else none

theorem toNat_saturatingSub (a b : UInt64) : (saturatingSub a b).toNat = a.toNat - b.toNat := by
  rw [saturatingSub]
  split
  next h => exact UInt64.toNat_sub_of_le _ _ h
  next h =>
    rw [UInt64.le_iff_toNat_le] at h
    rw [UInt64.toNat_zero]
    omega

theorem checkedAdd?_of_lt {a b : UInt64} (h : a.toNat + b.toNat < UInt64.size) :
    ∃ sum, checkedAdd? a b = some sum ∧ sum.toNat = a.toNat + b.toNat := by
  refine ⟨a + b, if_pos h, ?_⟩
  rw [UInt64.toNat_add, Nat.mod_eq_of_lt h]

-- A length byte is far from the end of the words.
theorem checkedAdd?_one_length (length : UInt8) :
    ∃ taken, checkedAdd? 1 length.toUInt64 = some taken ∧ taken.toNat = 1 + length.toNat := by
  have hlength := length.toNat_lt
  have hone : (1 : UInt64).toNat = 1 := rfl
  have hsum : (1 : UInt64).toNat + length.toUInt64.toNat < UInt64.size := by
    rw [hone, UInt8.toNat_toUInt64, UInt64.size]
    omega
  obtain ⟨taken, htaken, hvalue⟩ := checkedAdd?_of_lt hsum
  rw [hone, UInt8.toNat_toUInt64] at hvalue
  exact ⟨taken, htaken, hvalue⟩

/-! ## Making, writing and reading -/

/-- `withStuffing?` with words of 64 bits; `none` where the sum overflows, where its lowest byte is
not the whole of it, or where that byte is no length. -/
def withStuffingWord? (count : UInt64) : Option (Except StuffingOverflow AdaptationField) :=
  if count.toNat ≤ maxStuffing then do
    let sum ← checkedAdd? count 1
    let length ← wholeByte? sum
    if h : length = 0 then none else some (.ok ⟨length, h⟩)
  else some (.error ⟨count.toNat⟩)

/-- Write a field over the start of a buffer as it goes: the length byte, the flags byte, then the
stuffing up to where the field ends; `none` where the sum overflows or where the buffer has no such
position.  The second component is the number of bytes written. -/
def putOver? (f : AdaptationField) (out : Bytes) : Option (Bytes × Nat) := do
  let stop ← checkedAdd? 1 f.fieldLength.toUInt64
  let out ← put? out 0 f.fieldLength
  let out ← put? out 1 0x00
  let out ← fill? stuffingByte out fieldHeaderSize stop.toNat
  some (out, stop.toNat)

/-- `AdaptationField.decode`, but `none` where it would look for a byte behind the end. -/
def decodeGuarded (data : Bytes) (offset : Nat) :
    Option (Except FramingError (AdaptationField × Nat)) :=
  let available := data.length - offset
  if available = 0 then some (.error (.truncatedField 1 available))
  else do
    let length ← data[offset]?
    let taken := 1 + length.toNat
    if available < taken then some (.error (.truncatedField taken available))
    else if h : length = 0 then some (.error (.inconsistentLength length))
    else some (.ok (⟨length, h⟩, taken))

/-- No byte is looked for behind the end. -/
theorem decodeGuarded_eq (data : Bytes) (offset : Nat) :
    decodeGuarded data offset = some (decode data offset) := by
  unfold decodeGuarded decode
  cases hdrop : data.drop offset with
  | nil =>
    have hlen : data.length - offset = 0 := by rw [← List.length_drop, hdrop]; rfl
    rw [hlen]
    rfl
  | cons length body =>
    have hlen : data.length - offset = 1 + body.length := by
      rw [← List.length_drop, hdrop, List.length_cons, Nat.add_comm]
    have hget : data[offset]? = some length := by
      have hfirst : (data.drop offset)[0]? = data[offset + 0]? := List.getElem?_drop
      rw [hdrop] at hfirst
      exact hfirst.symm
    simp only [hlen, hget, Option.bind_eq_bind, Option.bind_some]
    rw [if_neg (by omega)]
    by_cases hshort : body.length < length.toNat
    · rw [if_pos (by omega), if_pos hshort]
    · rw [if_neg (by omega), if_neg hshort]
      by_cases h0 : length = 0
      · rw [dif_pos h0, dif_pos h0]
      · rw [dif_neg h0, dif_neg h0]

/-- `decode` with words of 64 bits; `none` where a sum overflows or where it would look for a byte
behind the end. -/
def decodeWord? (data : Bytes) (offset : UInt64) :
    Option (Except FramingError (AdaptationField × Nat)) :=
  let available := saturatingSub (UInt64.ofNat data.length) offset
  if available = 0 then some (.error (.truncatedField 1 available.toNat))
  else do
    let length ← data[offset.toNat]?
    let taken ← checkedAdd? 1 length.toUInt64
    if available < taken then some (.error (.truncatedField taken.toNat available.toNat))
    else if h : length = 0 then some (.error (.inconsistentLength length))
    else some (.ok (⟨length, h⟩, taken.toNat))

end AdaptationField

end TransportStream
