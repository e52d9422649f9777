import Mathlib.Data.List.GetD
import Mathlib.Data.Nat.Bitwise
import TransportStream.Proofs.Packet.Rewriting

/-!
# What is seen of a packet

A packet that was read is written with what was kept of it, so bytes read as the same packet exactly
if they are written again as the same bytes (`Packet.parse_eq_parse_iff`).  Position by position this
says which changes of a byte are not seen (`Packet.rewrittenByte_eq_iff`), and all that is seen is
told in `Packet.ReadsAlike`.
-/

namespace TransportStream

open Layout

namespace Packet

/-- Two packets' worth of bytes agree on what reading keeps: three flags and the identifier, the
adaptation control and the counter, whether the scrambling bits are `00`, the length byte, and what
stands behind the bytes that it announces. -/
structure ReadsAlike (a b : Bytes) : Prop where
  second : a.getD 1 0 = b.getD 1 0
  third : a.getD 2 0 = b.getD 2 0
  fourth : (a.getD 3 0).toNat % 0x40 = (b.getD 3 0).toNat % 0x40
  scrambled : (a.getD 3 0).toNat / 0x40 = 0 ↔ (b.getD 3 0).toNat / 0x40 = 0
  length : lengthByte a = lengthByte b
  payload : a.drop (5 + (lengthByte a).toNat) = b.drop (5 + (lengthByte a).toNat)

/-- A change of the byte at position `i` that is not seen behind a header with this length byte: of
the flags byte, of stuffing, or of the scrambling bits from one of `01`, `10` and `11` to another. -/
def Unseen (length : UInt8) (i : Nat) (old new : UInt8) : Prop :=
  i = 5 ∨ (6 ≤ i ∧ i < 5 + length.toNat) ∨
    (i = 3 ∧ old.toNat % 0x40 = new.toNat % 0x40 ∧ old.toNat / 0x40 ≠ 0 ∧ new.toNat / 0x40 ≠ 0)

instance (length : UInt8) (i : Nat) (old new : UInt8) : Decidable (Unseen length i old new) :=
  inferInstanceAs (Decidable (_ ∨ _ ∨ _))

/-- Of two packets' worth of bytes, nothing is seen of the changes from the first to the second. -/
def ChangedUnseen (a b : Bytes) : Prop :=
  ∀ i < packetSize, b.getD i 0 = a.getD i 0 ∨ Unseen (lengthByte a) i (a.getD i 0) (b.getD i 0)

instance (a b : Bytes) : Decidable (ChangedUnseen a b) :=
  inferInstanceAs (Decidable (∀ i < packetSize, _))

/-- Some bytes with one bit flipped. -/
def flipBit (data : Bytes) (i k : Nat) : Bytes :=
  data.modify i (· ^^^ 1 <<< UInt8.ofNat k)

/-! ## One byte -/

theorem settledScrambling_eq_iff {x y : UInt8} :
    settledScrambling x = settledScrambling y ↔
      x.toNat % 0x40 = y.toNat % 0x40 ∧ (x.toNat / 0x40 = 0 ↔ y.toNat / 0x40 = 0) := by
  have hx := x.toNat_lt
  have hy := y.toNat_lt
  rw [settledScrambling_eq, settledScrambling_eq, ← UInt8.toNat_inj,
    UInt8.toNat_ofNat_of_lt' (by simp only [UInt8.size]; omega),
    UInt8.toNat_ofNat_of_lt' (by simp only [UInt8.size]; omega)]
  omega

theorem settledScrambling_eq_iff_unseen {x y : UInt8} (length : UInt8) :
    settledScrambling x = settledScrambling y ↔ y = x ∨ Unseen length 3 x y := by
  rw [settledScrambling_eq_iff, ← UInt8.toNat_inj, Unseen]
  omega

theorem eq_of_kept {length : UInt8} {i : Nat} {x y : UInt8} (h3 : i ≠ 3) (h5 : i ≠ 5)
    (hstuffing : ¬ (6 ≤ i ∧ i < 5 + length.toNat)) (h : y = x ∨ Unseen length i x y) : y = x := by
  obtain h | h | h | ⟨h, -⟩ := h
  · exact h
  · exact absurd h h5
  · exact absurd h hstuffing
  · exact absurd h h3

theorem rewrittenByte_of_kept {length : UInt8} {i : Nat} (h3 : i ≠ 3) (h5 : i ≠ 5)
    (hstuffing : ¬ (6 ≤ i ∧ i < 5 + length.toNat)) (b : UInt8) : rewrittenByte length i b = b := by
  rw [rewrittenByte, if_neg h3, if_neg h5, if_neg hstuffing]

-- The length byte is written as it is.
theorem rewrittenByte_four (length b : UInt8) : rewrittenByte length 4 b = b :=
  rewrittenByte_of_kept (by decide) (by decide) (fun h => absurd h.1 (by decide)) b

/-- A change of a byte is not seen exactly if both are written again as the same. -/
theorem rewrittenByte_eq_iff {length : UInt8} {i : Nat} {x y : UInt8} :
    rewrittenByte length i x = rewrittenByte length i y ↔ y = x ∨ Unseen length i x y := by
  by_cases h3 : i = 3
  · subst h3
    exact settledScrambling_eq_iff_unseen length
  by_cases h5 : i = 5
  · subst h5
    exact iff_of_true rfl (.inr (.inl rfl))
  by_cases hstuffing : 6 ≤ i ∧ i < 5 + length.toNat
  · refine iff_of_true ?_ (.inr (.inr (.inl hstuffing)))
    rw [rewrittenByte, rewrittenByte, if_neg h3, if_neg h3, if_neg h5, if_neg h5, if_pos hstuffing,
      if_pos hstuffing]
  · rw [rewrittenByte_of_kept h3 h5 hstuffing, rewrittenByte_of_kept h3 h5 hstuffing, eq_comm]
    exact ⟨.inl, eq_of_kept h3 h5 hstuffing⟩

/-! ## A packet's worth of bytes -/

theorem getD_rewritten {data : Bytes} {i : Nat} (h : i < data.length) :
    (rewritten data).getD i 0 = rewrittenByte (lengthByte data) i (data.getD i 0) := by
  rw [List.getD_eq_getElem _ _ h,
    List.getD_eq_getElem _ _ (by rw [length_rewritten]; exact h)]
  exact List.getElem_mapIdx

theorem ext_getD {a b : Bytes} (hlength : a.length = b.length)
    (h : ∀ i < a.length, a.getD i 0 = b.getD i 0) : a = b := by
  apply List.ext_getElem hlength
  intro i hi hi'
  have hbyte := h i hi
  rwa [List.getD_eq_getElem _ _ hi, List.getD_eq_getElem _ _ hi'] at hbyte

variable {a b : Bytes} {p q : Packet}

-- On both sides the length bytes are the same, so the positions mean the same.
theorem rewritten_eq_iff (ha : a.length = packetSize) (hb : b.length = packetSize) :
    rewritten a = rewritten b ↔ ChangedUnseen a b := by
  have h4 : 4 < packetSize := by decide
  constructor
  · intro h i hi
    have hbyte : ∀ i < packetSize, rewrittenByte (lengthByte a) i (a.getD i 0) =
        rewrittenByte (lengthByte b) i (b.getD i 0) := by
      intro i hi
      rw [← getD_rewritten (by rw [ha]; exact hi), ← getD_rewritten (by rw [hb]; exact hi), h]
    have hlength : lengthByte a = lengthByte b := by
      have h := hbyte 4 h4
      rwa [rewrittenByte_four, rewrittenByte_four] at h
    have h := hbyte i hi
    rw [← hlength] at h
    exact rewrittenByte_eq_iff.mp h
  · intro h
    have hlength : lengthByte a = lengthByte b := by
      have h := rewrittenByte_eq_iff.mpr (h 4 h4)
      rwa [rewrittenByte_four, rewrittenByte_four] at h
    apply ext_getD
    · rw [length_rewritten, length_rewritten, ha, hb]
    · intro i hi
      rw [length_rewritten, ha] at hi
      rw [getD_rewritten (by rw [ha]; exact hi), getD_rewritten (by rw [hb]; exact hi), ← hlength]
      exact rewrittenByte_eq_iff.mpr (h i hi)

/-- Bytes that read as a packet read as the same one exactly if they are written again as the same
bytes. -/
theorem parse_eq_parse_iff (ha : parse a = .ok p) (hb : parse b = .ok q) :
    parse a = parse b ↔ rewritten a = rewritten b := by
  constructor
  · intro h
    have hpq : p = q := Except.ok.inj (ha.symm.trans (h.trans hb))
    rw [← encode_of_parse ha, ← encode_of_parse hb, hpq]
  · intro h
    have hsame := parse_rewritten ha
    rw [h, parse_rewritten hb] at hsame
    rw [ha, hb, hsame]

/-! ## What is kept of them -/

theorem getD_of_drop_eq {n i : Nat} (h : a.drop n = b.drop n) (hi : n ≤ i) :
    a.getD i 0 = b.getD i 0 := by
  have hbyte := congrArg (·.getD (i - n) 0) h
  simpa only [List.getD_eq_getElem?_getD, List.getElem?_drop, Nat.add_sub_cancel' hi] using hbyte

theorem ReadsAlike.changedUnseen (h : ReadsAlike a b) (hfirst : a.getD 0 0 = b.getD 0 0)
    (h0 : lengthByte a ≠ 0) : ChangedUnseen a b := by
  have hpos : 0 < (lengthByte a).toNat := AdaptationField.fieldLength_pos ⟨_, h0⟩
  intro i hi
  match i, hi with
  | 0, _ => exact .inl hfirst.symm
  | 1, _ => exact .inl h.second.symm
  | 2, _ => exact .inl h.third.symm
  | 3, _ =>
    have hsettled := settledScrambling_eq_iff.mpr ⟨h.fourth, h.scrambled⟩
    exact (settledScrambling_eq_iff_unseen _).mp hsettled
  | 4, _ => exact .inl h.length.symm
  | i + 5, _ =>
    by_cases hbehind : 5 + (lengthByte a).toNat ≤ i + 5
    · exact .inl (getD_of_drop_eq h.payload hbehind).symm
    · refine .inr ?_
      rw [Unseen]
      omega

theorem ChangedUnseen.readsAlike (h : ChangedUnseen a b) (ha : a.length = packetSize)
    (hb : b.length = packetSize) (h0 : lengthByte a ≠ 0) : ReadsAlike a b := by
  have hpos : 0 < (lengthByte a).toNat := AdaptationField.fieldLength_pos ⟨_, h0⟩
  have hkept : ∀ i < packetSize, i ≠ 3 → i ≠ 5 →
      ¬ (6 ≤ i ∧ i < 5 + (lengthByte a).toNat) → a.getD i 0 = b.getD i 0 := by
    intro i hi h3 h5 hstuffing
    exact (eq_of_kept h3 h5 hstuffing (h i hi)).symm
  have h3 := (settledScrambling_eq_iff_unseen _).mpr (h 3 (by decide))
  obtain ⟨hfourth, hscrambled⟩ := settledScrambling_eq_iff.mp h3
  refine ⟨hkept 1 (by decide) (by decide) (by decide) (by omega),
    hkept 2 (by decide) (by decide) (by decide) (by omega), hfourth, hscrambled,
    hkept 4 (by decide) (by decide) (by decide) (by omega), ?_⟩
  apply ext_getD
  · rw [List.length_drop, List.length_drop, ha, hb]
  · intro i hi
    rw [List.length_drop, ha] at hi
    have hbyte := hkept (5 + (lengthByte a).toNat + i) (by omega) (by omega) (by omega) (by omega)
    simpa only [List.getD_eq_getElem?_getD, List.getElem?_drop] using hbyte

theorem first_of_decode {w : Header.Word} {header : Header} (h : Header.decode w = .ok header) :
    w.first = syncByte := by
  unfold Header.decode at h
  split at h
  next hsync => exact hsync
  next => cases h

/-- Bytes that read as a packet read as the same one exactly if they agree on what is kept. -/
theorem parse_eq_parse_iff_readsAlike (ha : parse a = .ok p) (hb : parse b = .ok q) :
    parse a = parse b ↔ ReadsAlike a b := by
  obtain ⟨hsizea, hheadera, hfield, -, -⟩ := parse_eq_ok_iff.mp ha
  obtain ⟨hsizeb, hheaderb, -, -, -⟩ := parse_eq_ok_iff.mp hb
  have hfirst : a.getD 0 0 = b.getD 0 0 :=
    (first_of_decode hheadera).trans (first_of_decode hheaderb).symm
  have h0 : lengthByte a ≠ 0 := hfield ▸ p.field.fieldLength_ne_zero
  rw [parse_eq_parse_iff ha hb, rewritten_eq_iff hsizea hsizeb]
  exact ⟨fun h => h.readsAlike hsizea hsizeb h0, fun h => h.changedUnseen hfirst h0⟩

/-! ## Changes that are not seen -/

/-- A change that is not seen leaves a packet readable, whatever else of this kind is changed. -/
theorem parse_of_changedUnseen (ha : parse a = .ok p) (hb : b.length = packetSize)
    (h : ChangedUnseen a b) : parse b = .ok p := by
  obtain ⟨hsize, hheader, hfield, hfit, -⟩ := parse_eq_ok_iff.mp ha
  have hsettled := (rewritten_eq_iff hsize hb).mpr h
  have hfirst : (headerWord b).first = syncByte := by
    have hsame := eq_of_kept (by decide) (by decide) (by omega) (h 0 (by decide))
    exact hsame.trans (first_of_decode hheader)
  have hlength : lengthByte b = lengthByte a :=
    eq_of_kept (by decide) (by decide) (by omega) (h 4 (by decide))
  obtain ⟨header, hheaderb⟩ := exists_decode hfirst
  have h0 : lengthByte b ≠ 0 := by
    rw [hlength, ← hfield]
    exact p.field.fieldLength_ne_zero
  have hbread := parse_of_fits hb hheaderb h0 (by rw [hlength]; exact hfit)
  rw [← (parse_eq_parse_iff ha hbread).mpr hsettled, ha]

/-! ## Single bits -/

theorem getD_flipBit {data : Bytes} {i : Nat} (h : i < data.length) (k : Nat) :
    (flipBit data i k).getD i 0 = data.getD i 0 ^^^ 1 <<< UInt8.ofNat k := by
  rw [flipBit, List.getD_eq_getElem _ _ h,
    List.getD_eq_getElem _ _ (by rw [List.length_modify]; exact h), List.getElem_modify_eq]

theorem getD_flipBit_of_ne (data : Bytes) {i j : Nat} (h : i ≠ j) (k : Nat) :
    (flipBit data i k).getD j 0 = data.getD j 0 := by
  rw [List.getD_eq_getElem?_getD, List.getD_eq_getElem?_getD, flipBit, List.getElem?_modify_ne _ _ h]

theorem toNat_bit {k : Nat} (h : k < 8) : ((1 : UInt8) <<< UInt8.ofNat k).toNat = 2 ^ k := by
  revert k
  decide

/-- The low bits of a byte stay as they were exactly if the bit that is flipped is above them. -/
theorem toNat_flip_mod_eq_iff (x : UInt8) {k : Nat} (h : k < 8) (n : Nat) :
    (x ^^^ 1 <<< UInt8.ofNat k).toNat % 2 ^ n = x.toNat % 2 ^ n ↔ n ≤ k := by
  rw [UInt8.toNat_xor, toNat_bit h, Nat.xor_mod_two_pow]
  calc x.toNat % 2 ^ n ^^^ 2 ^ k % 2 ^ n = x.toNat % 2 ^ n
      ↔ x.toNat % 2 ^ n ^^^ 2 ^ k % 2 ^ n = x.toNat % 2 ^ n ^^^ 0 := by rw [Nat.xor_zero]
    _ ↔ 2 ^ k % 2 ^ n = 0 := Nat.xor_right_inj
    _ ↔ 2 ^ n ∣ 2 ^ k := (Nat.dvd_iff_mod_eq_zero ..).symm
    _ ↔ n ≤ k := Nat.pow_dvd_pow_iff_le_right (by decide)

theorem flip_ne (x : UInt8) {k : Nat} (h : k < 8) : x ^^^ 1 <<< UInt8.ofNat k ≠ x := by
  intro hsame
  have hlow := (toNat_flip_mod_eq_iff x h 8).mp (by rw [hsame])
  exact absurd h (Nat.not_lt.mpr hlow)

theorem unseen_flip_iff {length : UInt8} {i k : Nat} (hk : k < 8) (x : UInt8) :
    Unseen length i x (x ^^^ 1 <<< UInt8.ofNat k) ↔
      i = 5 ∨ (6 ≤ i ∧ i < 5 + length.toNat) ∨
        (i = 3 ∧ 6 ≤ k ∧ x.toNat / 0x40 ≠ 0 ∧ (x ^^^ 1 <<< UInt8.ofNat k).toNat / 0x40 ≠ 0) := by
  have hlow : x.toNat % 0x40 = (x ^^^ 1 <<< UInt8.ofNat k).toNat % 0x40 ↔ 6 ≤ k :=
    eq_comm.trans (toNat_flip_mod_eq_iff x hk 6)
  rw [Unseen, hlow]

-- All other bytes are as they were, so only the one with the bit counts.
theorem rewritten_flipBit_eq_iff {data : Bytes} {i k : Nat} (hsize : data.length = packetSize)
    (hi : i < packetSize) (hk : k < 8) :
    rewritten data = rewritten (flipBit data i k) ↔
      i = 5 ∨ (6 ≤ i ∧ i < 5 + (lengthByte data).toNat) ∨
        (i = 3 ∧ 6 ≤ k ∧ (data.getD 3 0).toNat / 0x40 ≠ 0 ∧
          ((flipBit data i k).getD 3 0).toNat / 0x40 ≠ 0) := by
  have hbyte := getD_flipBit (show i < data.length by rw [hsize]; exact hi) k
  have hsize' : (flipBit data i k).length = packetSize := (List.length_modify ..).trans hsize
  rw [rewritten_eq_iff hsize hsize']
  have hone : ChangedUnseen data (flipBit data i k) ↔
      Unseen (lengthByte data) i (data.getD i 0) ((flipBit data i k).getD i 0) := by
    constructor
    · intro h
      refine (h i hi).resolve_left ?_
      rw [hbyte]
      exact flip_ne _ hk
    · intro h j _
      by_cases hij : i = j
      · subst hij
        exact .inr h
      · exact .inl (getD_flipBit_of_ne data hij k)
  rw [hone, hbyte, unseen_flip_iff hk]
  refine or_congr_right (or_congr_right (and_congr_right ?_))
  rintro rfl
  rw [hbyte]

/-! ## All changes -/

/-- **What reading tells apart.**  Bytes that read as packets read as the same packet exactly if they
agree on bytes 1 and 2, on the low six bits of byte 3 and on whether its top two bits are zero, on
the length byte and on what stands behind the bytes that it announces.  Changes of the flags byte, of
stuffing and from one of the scrambling values `01`, `10` and `11` to another are never seen, as many
as there may be of them, and every other single bit is seen where the bytes still read as a packet. -/
theorem parse_distinguishes :
    (∀ (a b : Bytes) (p q : Packet), parse a = .ok p → parse b = .ok q →
      (parse a = parse b ↔ ReadsAlike a b)) ∧
    (∀ (a b : Bytes) (p : Packet), parse a = .ok p → b.length = 188 → ChangedUnseen a b →
      parse b = .ok p) ∧
    (∀ (a : Bytes) (p q : Packet) (i k : Nat), i < 188 → k < 8 →
      parse a = .ok p → parse (flipBit a i k) = .ok q →
      (q = p ↔ i = 5 ∨ (6 ≤ i ∧ i < 5 + (lengthByte a).toNat) ∨
        (i = 3 ∧ 6 ≤ k ∧ (a.getD 3 0).toNat / 0x40 ≠ 0 ∧
          ((flipBit a i k).getD 3 0).toNat / 0x40 ≠ 0))) := by
  refine ⟨fun a b p q => parse_eq_parse_iff_readsAlike, fun a b p => parse_of_changedUnseen, ?_⟩
  intro a p q i k hi hk ha hq
  have hsame : q = p ↔ parse a = parse (flipBit a i k) := by
    rw [ha, hq, Except.ok.injEq]
    exact eq_comm
  rw [hsame, parse_eq_parse_iff ha hq]
  exact rewritten_flipBit_eq_iff (length_of_parse_eq_ok ha) hi hk

/-- A packet with scrambling bits `11`, a flag and other bytes for stuffing, the same as it is written
again, and with another counter. -/
theorem parse_distinguishes_counter :
    let a : Bytes := [0x47, 0x40, 0x11, 0xd7, 3, 0x80, 1, 2] ++ List.replicate 180 9
    let b : Bytes := [0x47, 0x40, 0x11, 0x57, 3, 0x00, 0xff, 0xff] ++ List.replicate 180 9
    ∃ p q, parse a = .ok p ∧ parse b = .ok p ∧ ReadsAlike a b ∧ parse (flipBit a 3 7) = .ok p ∧
      parse (flipBit a 3 0) = .ok q ∧ q ≠ p := by
  intro a b
  have hsize : a.length = packetSize := rfl
  have ha := parse_of_fits hsize (if_pos rfl) (by decide) (by decide)
  have hq := parse_of_fits (show (flipBit a 3 0).length = packetSize from rfl) (if_pos rfl)
    (by decide) (by decide)
  have hb := parse_distinguishes.2.1 a b _ ha rfl (by decide +kernel)
  have hflip := parse_distinguishes.2.1 a (flipBit a 3 7) _ ha rfl (by decide +kernel)
  have hcounter := parse_distinguishes.2.2 a _ _ 3 0 (by decide) (by decide) ha hq
  refine ⟨_, _, ha, hb, (parse_distinguishes.1 a b _ _ ha hb).mp (ha.trans hb.symm), hflip, hq, ?_⟩
  rw [Ne, hcounter]
  decide

end Packet

end TransportStream
