import TransportStream.Proofs.Settings.LineMeaning
import TransportStream.Settings.Sources

/-!
# Identifiers as numerals

The numerals that a setting accepts for an identifier, and what becomes of all others.  A mark tells the
base, one plus sign may follow, and then there are digits and nothing else; the number that they denote
decides between an identifier and the two ways to be refused (`SettingKey.applyValue_of_spells`).
Reading with sixteen bits at every step finds the same (`SettingKey.readChecked?_eq`).
-/

namespace TransportStream

namespace Numeral

/-! ## Numbers of limited size -/

variable {bound base n : Nat}

theorem below?_of_lt (h : n < bound) : below? bound n = some n :=
  if_pos h

theorem below?_of_le (h : bound ≤ n) : below? bound n = none :=
  if_neg (Nat.not_lt.mpr h)

-- More digits make no number smaller.
theorem filter_extend?_of_le (hbase : 0 < base) (h : bound ≤ n) (cs : List Char) :
    (extend? base n cs).filter (· < bound) = none := by
  rw [Option.filter_eq_none_iff]
  intro m hm
  obtain ⟨digits, -, -, rfl⟩ := extend?_eq_some_iff.mp hm
  have hgrow : n ≤ n * base ^ digits.length :=
    Nat.le_mul_of_pos_right n (Nat.pow_pos hbase)
  rw [decide_eq_true_eq]
  omega

/-- A number that ends below the bound was below it all the way. -/
theorem extendBelow?_eq (hbase : 0 < base) (h : n < bound) (cs : List Char) :
    extendBelow? bound base n cs = (extend? base n cs).filter (· < bound) := by
  induction cs generalizing n with
  | nil => rw [extendBelow?, extend?, Option.filter_some, if_pos (decide_eq_true h)]
  | cons c cs ih =>
    simp only [extendBelow?, extend?, Option.bind_eq_bind]
    cases digit? base c with
    | none => cases below? bound (base * n) <;> rfl
    | some d =>
      rw [Option.bind_some]
      by_cases hsum : base * n + d < bound
      · rw [below?_of_lt (by omega), Option.bind_some, Option.bind_some, below?_of_lt hsum,
          Option.bind_some, ih hsum]
      · rw [filter_extend?_of_le hbase (Nat.not_lt.mp hsum)]
        by_cases hproduct : base * n < bound
        · rw [below?_of_lt hproduct, Option.bind_some, Option.bind_some,
            below?_of_le (Nat.not_lt.mp hsum), Option.bind_none]
        · rw [below?_of_le (Nat.not_lt.mp hproduct), Option.bind_none]

/-! ## Written forms of one number -/

-- Zeros may stand before the digits.
theorem Denotes.zeros {digits : List Char} (hbase : 1 < base) (h : Denotes base digits n) (k : Nat) :
    Denotes base (List.replicate k '0' ++ digits) n := by
  have hread := read?_eq_some_iff.mpr h
  have hne : digits ≠ [] := by
    rintro rfl
    cases hread
  rw [read?, if_neg hne] at hread
  rw [← read?_eq_some_iff, read?, if_neg (by simp [hne]), extend?_append,
    extend?_replicate_zero hbase]
  exact hread

theorem digitValue?_toUpper (c : Char) : digitValue? c.toUpper = digitValue? c := by
  have hlow : ∀ n < 128, digitValue? (Char.ofNat n).toUpper = digitValue? (Char.ofNat n) := by
    decide +kernel
  by_cases h : c.toNat < 128
  · have hc := hlow c.toNat h
    rwa [Char.ofNat_toNat] at hc
  · have hsame : c.toUpper = c := by
      unfold Char.toUpper
      apply dif_neg
      rintro ⟨-, hz⟩
      exact h (Nat.lt_of_le_of_lt (UInt32.le_iff_toNat_le.mp hz) (by decide))
    rw [hsame]

-- Letters may be of either case.
theorem denotes_map_toUpper {digits : List Char} :
    Denotes base (digits.map Char.toUpper) n ↔ Denotes base digits n := by
  have hvalues : (digits.map Char.toUpper).map digitValue? = digits.map digitValue? := by
    rw [List.map_map]
    exact List.map_congr_left fun c _ => digitValue?_toUpper c
  rw [Denotes, Denotes, hvalues]

end Numeral

/-! ## Where a value comes from -/

theorem Settings.applyLines_of_lineNames {line : List Char} {key : SettingKey} {value : String}
    (h : LineNames line key.name value) (s : Settings) :
    s.applyLines [line] = s.applyValue key value := by
  have hread := readLine_of_lineNames h
  simp only [SettingKey.ofName?_name] at hread
  rw [applyLines, hread, applyValue]
  cases key.read value <;> rfl

theorem Sources.applyVariable_eq_applyValue {src : Sources} {key : SettingKey} {value : String}
    (h : src.environment key.variableName = some (.text value)) (s : Settings) :
    src.applyVariable key s = (s.applyValue key value).result := by
  simp only [applyVariable, h, Settings.applyValue]
  cases key.read value <;> rfl

namespace SettingKey

open Numeral

/-! ## Marks, signs and digits -/

/-- The base of a numeral, and what stands behind its mark.  Only one mark counts. -/
inductive Based : List Char → Nat → List Char → Prop
  | marked {mark digits : List Char} (hmark : mark = ['0', 'x'] ∨ mark = ['0', 'X']) :
      Based (mark ++ digits) 16 digits
  | unmarked {digits : List Char}
      (h : ∀ mark rest, mark = ['0', 'x'] ∨ mark = ['0', 'X'] → digits ≠ mark ++ rest) :
      Based digits 10 digits

/-- One or more digits in a base, with at most one plus sign before them. -/
def Spells (base : Nat) (cs : List Char) (n : Nat) : Prop :=
  ∃ sign digits, cs = sign ++ digits ∧ (sign = [] ∨ sign = ['+']) ∧ Denotes base digits n

theorem based_splitBase (cs : List Char) : Based cs (splitBase cs).1 (splitBase cs).2 := by
  unfold splitBase
  split
  next digits => exact @Based.marked ['0', 'x'] _ (.inl rfl)
  next digits => exact @Based.marked ['0', 'X'] _ (.inr rfl)
  next hx hX =>
    refine .unmarked fun mark rest hmark heq => ?_
    obtain rfl | rfl := hmark
    · exact hx rest heq
    · exact hX rest heq

theorem Based.splitBase_eq {cs digits : List Char} {base : Nat} (h : Based cs base digits) :
    splitBase cs = (base, digits) := by
  cases h with
  | marked hmark => obtain rfl | rfl := hmark <;> rfl
  | unmarked h =>
    unfold splitBase
    split
    next rest => exact absurd rfl (h ['0', 'x'] rest (.inl rfl))
    next rest => exact absurd rfl (h ['0', 'X'] rest (.inr rfl))
    next => rfl

theorem spells_iff {base n : Nat} {cs : List Char} :
    Spells base cs n ↔ read? base (dropSign cs) = some n :=
  read?_dropSign_eq_some_iff.symm

theorem not_spells {base : Nat} {cs : List Char} (h : read? base (dropSign cs) = none) (n : Nat) :
    ¬ Spells base cs n := by
  intro hspells
  rw [spells_iff, h] at hspells
  cases hspells

variable {cs digits : List Char} {base n : Nat}

theorem readNumber?_of_spells (hbase : Based cs base digits) (h : Spells base digits n) :
    readNumber? cs = if n < 0x10000 then some n else none := by
  rw [readNumber?, hbase.splitBase_eq]
  simp only [spells_iff.mp h, Option.filter_some, decide_eq_true_eq]

theorem readNumber?_of_not_spells (hbase : Based cs base digits) (h : ∀ n, ¬ Spells base digits n) :
    readNumber? cs = none := by
  have hnone : read? base (dropSign digits) = none := by
    rw [Option.eq_none_iff_forall_ne_some]
    exact fun n hn => h n (spells_iff.mpr hn)
  rw [readNumber?, hbase.splitBase_eq]
  simp only [hnone, Option.filter_none]

/-! ## Sixteen bits at every step -/

theorem readChecked?_eq (value : List Char) : readChecked? value = readNumber? value := by
  have hbase : 0 < (splitBase value).1 := by
    unfold splitBase
    split <;> exact Nat.succ_pos _
  simp only [readChecked?, readNumber?, read?]
  split
  next => rfl
  next => exact extendBelow?_eq hbase (by decide) _

/-! ## What becomes of a value -/

variable {value : String}

theorem applyValue_of_readNumber? (h : readNumber? value.toList = some n) (s : Settings) :
    s.applyValue firstElementaryPid value =
      if hn : n < 0x2000 then ⟨{ s with firstElementaryPid := ⟨n, hn⟩ }, none⟩
      else ⟨s, some (.invalidPid ⟨n⟩)⟩ := by
  simp only [Settings.applyValue, read, readPid, h, Pid.ofNat?]
  by_cases hn : n < 0x2000
  · rw [dif_pos hn, dif_pos hn]
    rfl
  · rw [dif_neg hn, dif_neg hn]
    rfl

theorem applyValue_of_readNumber?_eq_none (h : readNumber? value.toList = none) (s : Settings) :
    s.applyValue firstElementaryPid value = ⟨s, some (.notPid value)⟩ := by
  simp only [Settings.applyValue, read, readPid, h]
  rfl

/-- The number decides: an identifier is set, another number of sixteen bits is refused as one, and a
larger one is refused like a text that spells no number. -/
theorem applyValue_of_spells (hbase : Based value.toList base digits) (h : Spells base digits n)
    (s : Settings) :
    s.applyValue firstElementaryPid value =
      if hn : n < 0x2000 then ⟨{ s with firstElementaryPid := ⟨n, hn⟩ }, none⟩
      else if n < 0x10000 then ⟨s, some (.invalidPid ⟨n⟩)⟩
      else ⟨s, some (.notPid value)⟩ := by
  have hread := readNumber?_of_spells hbase h
  by_cases hlow : n < 0x10000
  · rw [if_pos hlow] at hread
    rw [applyValue_of_readNumber? hread, if_pos hlow]
  · rw [if_neg hlow] at hread
    rw [applyValue_of_readNumber?_eq_none hread, dif_neg (by omega), if_neg hlow]

theorem applyValue_of_pid {pid : Pid} (h : readNumber? value.toList = some pid.value)
    (s : Settings) :
    s.applyValue firstElementaryPid value = ⟨{ s with firstElementaryPid := pid }, none⟩ := by
  rw [applyValue_of_readNumber? h, dif_pos pid.value_lt]

/-! ## All values -/

/-- **Identifiers as numerals.**  A text for an identifier is in base 16 behind one `0x` or `0X`, and
in base 10 without a mark.  If a plus sign or none and one or more digits of the base stand there, their
number is set up to 8191, refused as a number up to 65535, and refused as a text beyond; every other text
is refused as a text.  What is refused leaves the settings as they were, on a line as in a variable.
Letters may be of either case and zeros may stand before the digits, sixteen bits are enough at every
step, and each identifier reads back from its hexadecimal and its decimal form. -/
theorem applyValue_numerals (s : Settings) :
    (∀ (value : String) (base : Nat) (digits : List Char), Based value.toList base digits →
      (∀ n, Spells base digits n →
        (∀ hn : n ≤ 8191, s.applyValue firstElementaryPid value =
          ⟨{ s with firstElementaryPid := ⟨n, Nat.lt_succ_of_le hn⟩ }, none⟩) ∧
        (8192 ≤ n → n ≤ 65535 →
          s.applyValue firstElementaryPid value = ⟨s, some (.invalidPid ⟨n⟩)⟩) ∧
        (65535 < n → s.applyValue firstElementaryPid value = ⟨s, some (.notPid value)⟩)) ∧
      ((∀ n, ¬ Spells base digits n) →
        s.applyValue firstElementaryPid value = ⟨s, some (.notPid value)⟩)) ∧
    (∀ value : String, (∃ base digits, Based value.toList base digits) ∧
      readChecked? value.toList = readNumber? value.toList ∧
      (SettingsError.notPid value).message = "invalid config: " ++ ("not a pid: " ++ value)) ∧
    (∀ (base n : Nat) (digits : List Char), 1 < base → Denotes base digits n →
      (∀ k, Denotes base (List.replicate k '0' ++ digits) n) ∧
      Denotes base (digits.map Char.toUpper) n) ∧
    (∀ (line : List Char) (value : String), Settings.LineNames line "first_elementary_pid" value →
      s.applyLines [line] = s.applyValue firstElementaryPid value) ∧
    (∀ (src : Sources) (value : String),
      src.environment "TSFRAME_FIRST_PID" = some (.text value) →
      src.applyVariable firstElementaryPid s = (s.applyValue firstElementaryPid value).result) ∧
    (∀ pid : Pid,
      s.applyValue firstElementaryPid pid.text = ⟨{ s with firstElementaryPid := pid }, none⟩ ∧
      s.applyValue firstElementaryPid (toString pid.value) =
        ⟨{ s with firstElementaryPid := pid }, none⟩) := by
  refine ⟨fun value base digits hbase => ⟨fun n h => ?_, fun h => ?_⟩, fun value => ⟨?_, ?_, ?_⟩,
    fun base n digits hbase h => ⟨h.zeros hbase, denotes_map_toUpper.mpr h⟩,
    fun line value h => Settings.applyLines_of_lineNames h s,
    fun src value h => Sources.applyVariable_eq_applyValue h s, fun pid => ⟨?_, ?_⟩⟩
  · have hvalue := applyValue_of_spells hbase h s
    refine ⟨fun hn => ?_, fun hlow hhigh => ?_, fun hlow => ?_⟩
    · rw [hvalue, dif_pos (Nat.lt_succ_of_le hn)]
    · rw [hvalue, dif_neg (by omega), if_pos (by omega)]
    · rw [hvalue, dif_neg (by omega), if_neg (by omega)]
  · exact applyValue_of_readNumber?_eq_none (readNumber?_of_not_spells hbase h) s
  · exact ⟨_, _, based_splitBase value.toList⟩
  · exact readChecked?_eq value.toList
  · have htext : "invalid config: not a pid: " = "invalid config: " ++ "not a pid: " := by decide
    rw [← String.append_assoc, ← htext]
    rfl
  · exact applyValue_of_pid (readNumber?_text pid) s
  · have hdigits : (toString pid.value).toList = Nat.toDigits 10 pid.value := String.toList_ofList
    apply applyValue_of_pid _ s
    rw [hdigits]
    exact readNumber?_toDigits pid

/-- The highest identifier with all that a numeral may have, the numbers behind it and behind sixteen
bits with zeros before them, and a second mark. -/
theorem applyValue_highest_pid :
    let s : Settings := {}
    let value (text : String) := s.applyValue firstElementaryPid text
    Based "0X+1fFf".toList 16 "+1fFf".toList ∧ Spells 16 "+1fFf".toList 8191 ∧
      value "0X+1fFf" = ⟨{ s with firstElementaryPid := Pid.null }, none⟩ ∧
      Based "08192".toList 10 "08192".toList ∧ Spells 10 "08192".toList 8192 ∧
      value "08192" = ⟨s, some (.invalidPid ⟨8192⟩)⟩ ∧
      Based "0x10000".toList 16 "10000".toList ∧ Spells 16 "10000".toList 65536 ∧
      value "0x10000" = ⟨s, some (.notPid "0x10000")⟩ ∧
      Based "0x0x1".toList 16 "0x1".toList ∧ (∀ n, ¬ Spells 16 "0x1".toList n) ∧
      value "0x0x1" = ⟨s, some (.notPid "0x0x1")⟩ := by
  intro s value
  have hnull : Based "0X+1fFf".toList 16 "+1fFf".toList := @Based.marked ['0', 'X'] _ (.inr rfl)
  have hzero : Based "08192".toList 10 "08192".toList := based_splitBase _
  have hlong : Based "0x10000".toList 16 "10000".toList := @Based.marked ['0', 'x'] _ (.inl rfl)
  have htwo : Based "0x0x1".toList 16 "0x1".toList := @Based.marked ['0', 'x'] _ (.inl rfl)
  have hnull' : Spells 16 "+1fFf".toList 8191 := spells_iff.mpr (by decide)
  have hzero' : Spells 10 "08192".toList 8192 := spells_iff.mpr (by decide)
  have hlong' : Spells 16 "10000".toList 65536 := spells_iff.mpr (by decide)
  have htwo' : ∀ n, ¬ Spells 16 "0x1".toList n := not_spells (by decide)
  obtain ⟨hvalue, -⟩ := applyValue_numerals s
  exact ⟨hnull, hnull', ((hvalue _ _ _ hnull).1 _ hnull').1 (by decide),
    hzero, hzero', ((hvalue _ _ _ hzero).1 _ hzero').2.1 (by decide) (by decide),
    hlong, hlong', ((hvalue _ _ _ hlong).1 _ hlong').2.2 (by decide),
    htwo, htwo', (hvalue _ _ _ htwo).2 htwo'⟩

-- A mark between digits is no digit.
example : ({} : Settings).applyValue firstElementaryPid "1_0" = ⟨{}, some (.notPid "1_0")⟩ := by
  decide

end SettingKey

end TransportStream
