import Mathlib.Data.Nat.Digits.Defs
import TransportStream.Settings.Value

/-!
# Texts that a setting accepts

Which numbers are written how, which texts are values of a setting, and why the others are refused.
Reading a value finds out exactly that (`SettingKey.read_eq_ok_iff`, `SettingKey.read_eq_error_iff`).
-/

namespace TransportStream

/-! ## Numbers -/

namespace Numeral

/-- One or more characters stand for digits in a base, most significant first, and the digits are
those of a number. -/
def Denotes (base : Nat) (cs : List Char) (n : Nat) : Prop :=
  ∃ digits : List Nat, digits ≠ [] ∧ cs.map digitValue? = digits.map some ∧
    (∀ d ∈ digits, d < base) ∧ n = Nat.ofDigits base digits.reverse

theorem digit?_eq_some_iff {base d : Nat} {c : Char} :
    digit? base c = some d ↔ digitValue? c = some d ∧ d < base := by
  rw [digit?, Option.filter_eq_some_iff, decide_eq_true_eq]

-- A digit that comes behind a number moves its digits up by one place.
theorem extend?_eq_some_iff {base n m : Nat} {cs : List Char} :
    extend? base n cs = some m ↔
      ∃ digits : List Nat, cs.map digitValue? = digits.map some ∧ (∀ d ∈ digits, d < base) ∧
        m = n * base ^ digits.length + Nat.ofDigits base digits.reverse := by
  induction cs generalizing n with
  | nil =>
    rw [extend?, Option.some.injEq]
    constructor
    · rintro rfl
      exact ⟨[], rfl, List.forall_mem_nil _, by simp⟩
    · rintro ⟨digits, hcs, -, hm⟩
      obtain rfl : digits = [] := List.map_eq_nil_iff.mp hcs.symm
      simpa using hm.symm
  | cons c cs ih =>
    rw [extend?, Option.bind_eq_some_iff]
    have hvalue (d : Nat) (ds : List Nat) :
        (base * n + d) * base ^ ds.length + Nat.ofDigits base ds.reverse =
          n * base ^ (d :: ds).length + Nat.ofDigits base (d :: ds).reverse := by
      rw [List.reverse_cons, Nat.ofDigits_append, Nat.ofDigits_singleton, List.length_reverse,
        List.length_cons, pow_succ]
      ring
    constructor
    · rintro ⟨d, hd, hrest⟩
      obtain ⟨hc, hlt⟩ := digit?_eq_some_iff.mp hd
      obtain ⟨ds, hcs, hall, rfl⟩ := ih.mp hrest
      refine ⟨d :: ds, by rw [List.map_cons, List.map_cons, hc, hcs], ?_, hvalue d ds⟩
      exact List.forall_mem_cons.mpr ⟨hlt, hall⟩
    · rintro ⟨digits, hcs, hall, rfl⟩
      cases digits with
      | nil => cases hcs
      | cons d ds =>
        obtain ⟨hc, hcs⟩ := List.cons.inj hcs
        obtain ⟨hlt, hall⟩ := List.forall_mem_cons.mp hall
        exact ⟨d, digit?_eq_some_iff.mpr ⟨hc, hlt⟩, ih.mpr ⟨ds, hcs, hall, (hvalue d ds).symm⟩⟩

theorem read?_eq_some_iff {base n : Nat} {cs : List Char} :
    read? base cs = some n ↔ Denotes base cs n := by
  unfold read? Denotes
  split
  next h =>
    subst h
    constructor
    · intro hread
      cases hread
    · rintro ⟨digits, hne, hcs, -⟩
      exact absurd (List.map_eq_nil_iff.mp hcs.symm) hne
  next h =>
    rw [extend?_eq_some_iff]
    constructor
    · rintro ⟨digits, hcs, hall, hn⟩
      refine ⟨digits, ?_, hcs, hall, by simpa using hn⟩
      rintro rfl
      exact h (List.map_eq_nil_iff.mp hcs)
    · rintro ⟨digits, -, hcs, hall, hn⟩
      exact ⟨digits, hcs, hall, by simpa using hn⟩

theorem Denotes.not_mem {base n : Nat} {cs : List Char} (h : Denotes base cs n) {c : Char}
    (hc : digitValue? c = none) : c ∉ cs := by
  intro hmem
  obtain ⟨digits, -, hcs, -⟩ := h
  have hvalue : digitValue? c ∈ digits.map some := hcs ▸ List.mem_map_of_mem hmem
  obtain ⟨d, -, hd⟩ := List.mem_map.mp hvalue
  rw [hc] at hd
  cases hd

end Numeral

namespace SettingKey

open Numeral

/-- Texts that write a number: decimal digits, or `0x` or `0X` and hexadecimal digits, with at most
one plus sign before the digits. -/
inductive Writes : List Char → Nat → Prop
  | decimal {sign digits : List Char} {n : Nat} (hsign : sign = [] ∨ sign = ['+'])
      (h : Denotes 10 digits n) : Writes (sign ++ digits) n
  | hexadecimal {mark sign digits : List Char} {n : Nat} (hmark : mark = ['0', 'x'] ∨ mark = ['0', 'X'])
      (hsign : sign = [] ∨ sign = ['+']) (h : Denotes 16 digits n) : Writes (mark ++ (sign ++ digits)) n

theorem dropSign_of_not_mem {cs : List Char} (h : '+' ∉ cs) : dropSign cs = cs := by
  unfold dropSign
  split
  next => exact absurd List.mem_cons_self h
  next => rfl

theorem splitBase_of_not_mem {cs : List Char} (hx : 'x' ∉ cs) (hX : 'X' ∉ cs) :
    splitBase cs = (10, cs) := by
  unfold splitBase
  split
  next => exact absurd (List.mem_cons_of_mem _ List.mem_cons_self) hx
  next => exact absurd (List.mem_cons_of_mem _ List.mem_cons_self) hX
  next => rfl

-- A sign is no digit, so what stands before the digits can be told.
theorem read?_dropSign_eq_some_iff {base n : Nat} {cs : List Char} :
    read? base (dropSign cs) = some n ↔
      ∃ sign digits, cs = sign ++ digits ∧ (sign = [] ∨ sign = ['+']) ∧ Denotes base digits n := by
  constructor
  · unfold dropSign
    split
    next digits => exact fun h => ⟨['+'], digits, rfl, .inr rfl, read?_eq_some_iff.mp h⟩
    next => exact fun h => ⟨[], cs, rfl, .inl rfl, read?_eq_some_iff.mp h⟩
  · rintro ⟨sign, digits, rfl, rfl | rfl, h⟩
    · rw [List.nil_append, dropSign_of_not_mem (h.not_mem (by decide)), read?_eq_some_iff]
      exact h
    · exact read?_eq_some_iff.mpr h

theorem readNumber?_eq_some_iff {cs : List Char} {n : Nat} :
    readNumber? cs = some n ↔ Writes cs n ∧ n < 0x10000 := by
  have hread : readNumber? cs = some n ↔
      read? (splitBase cs).1 (dropSign (splitBase cs).2) = some n ∧ n < 0x10000 := by
    rw [readNumber?, Option.filter_eq_some_iff, decide_eq_true_eq]
  rw [hread, and_congr_left_iff]
  intro _
  rw [read?_dropSign_eq_some_iff]
  constructor
  · unfold splitBase
    split
    next =>
      rintro ⟨sign, digits, rfl, hsign, h⟩
      exact .hexadecimal (.inl rfl) hsign h
    next =>
      rintro ⟨sign, digits, rfl, hsign, h⟩
      exact .hexadecimal (.inr rfl) hsign h
    next =>
      rintro ⟨sign, digits, rfl, hsign, h⟩
      exact .decimal hsign h
  · intro h
    cases h with
    | @decimal sign digits _ hsign h =>
      -- No mark is taken for one: neither the sign nor a decimal digit has its second character.
      have hother (c : Char) (hc : digitValue? c = none) (hne : c ≠ '+') : c ∉ sign ++ digits := by
        rw [List.mem_append, not_or]
        refine ⟨?_, h.not_mem hc⟩
        obtain rfl | rfl := hsign
        · exact List.not_mem_nil
        · rwa [List.mem_singleton]
      have hbase : splitBase (sign ++ digits) = (10, sign ++ digits) :=
        splitBase_of_not_mem (hother 'x' (by decide) (by decide)) (hother 'X' (by decide) (by decide))
      rw [hbase]
      exact ⟨sign, digits, rfl, hsign, h⟩
    | @hexadecimal mark sign digits _ hmark hsign h =>
      obtain rfl | rfl := hmark
      · exact ⟨sign, digits, rfl, hsign, h⟩
      · exact ⟨sign, digits, rfl, hsign, h⟩

/-! ## Values -/

/-- A text is a value of a setting. -/
inductive Accepts : SettingKey → String → Setting → Prop
  | pid {value : String} {pid : Pid} (h : Writes value.toList pid.value) :
      Accepts firstElementaryPid value (.firstElementaryPid pid)
  | on {value : String} (h : value = "true" ∨ value = "1" ∨ value = "yes") :
      Accepts continuityCheck value (.continuityCheck true)
  | off {value : String} (h : value = "false" ∨ value = "0" ∨ value = "no") :
      Accepts continuityCheck value (.continuityCheck false)

/-- A text is no value of a setting, for a reason. -/
inductive Refuses : SettingKey → String → SettingsError → Prop
  | notNumeral {value : String} (h : ∀ n, Writes value.toList n → 0x10000 ≤ n) :
      Refuses firstElementaryPid value (.notPid value)
  | noIdentifier {value : String} {n : Nat} (h : Writes value.toList n) (hlow : 0x2000 ≤ n)
      (hhigh : n < 0x10000) : Refuses firstElementaryPid value (.invalidPid ⟨n⟩)
  | notBoolean {value : String} (h : value ∉ ["true", "1", "yes", "false", "0", "no"]) :
      Refuses continuityCheck value (.notBoolean value)

-- What a text is read as is one of the two, and the two do not meet.
theorem read_cases (key : SettingKey) (value : String) :
    (∃ setting, key.read value = .ok setting ∧ key.Accepts value setting) ∨
      ∃ e, key.read value = .error e ∧ key.Refuses value e := by
  cases key with
  | firstElementaryPid =>
    simp only [read, readPid]
    cases hread : readNumber? value.toList with
    | none =>
      refine .inr ⟨_, rfl, .notNumeral fun n hn => ?_⟩
      by_contra hlt
      rw [readNumber?_eq_some_iff.mpr ⟨hn, Nat.not_le.mp hlt⟩] at hread
      cases hread
    | some n =>
      obtain ⟨hn, hlt⟩ := readNumber?_eq_some_iff.mp hread
      by_cases hpid : n < 0x2000
      · refine .inl ⟨.firstElementaryPid ⟨n, hpid⟩, ?_, .pid hn⟩
        simp only [Pid.ofNat?, dif_pos hpid]
        rfl
      · refine .inr ⟨.invalidPid ⟨n⟩, ?_, .noIdentifier hn (Nat.not_lt.mp hpid) hlt⟩
        simp only [Pid.ofNat?, dif_neg hpid]
        rfl
  | continuityCheck =>
    simp only [read, readBool]
    split
    next h => exact .inl ⟨_, rfl, .on (by simpa using h)⟩
    next hon =>
      split
      next h => exact .inl ⟨_, rfl, .off (by simpa using h)⟩
      next hoff => exact .inr ⟨_, rfl, .notBoolean (by simp_all)⟩

theorem read_of_accepts {key : SettingKey} {value : String} {setting : Setting}
    (h : key.Accepts value setting) : key.read value = .ok setting := by
  cases h with
  | @pid _ pid h =>
    have hlt : pid.value < 0x10000 := Nat.lt_trans pid.value_lt (by decide)
    simp only [read, readPid, readNumber?_eq_some_iff.mpr ⟨h, hlt⟩, Pid.ofNat?_value]
    rfl
  | on h => obtain rfl | rfl | rfl := h <;> rfl
  | off h => obtain rfl | rfl | rfl := h <;> rfl

theorem read_of_refuses {key : SettingKey} {value : String} {e : SettingsError}
    (h : key.Refuses value e) : key.read value = .error e := by
  cases h with
  | notNumeral h =>
    have hnone : readNumber? value.toList = none := by
      cases hread : readNumber? value.toList with
      | none => rfl
      | some n =>
        obtain ⟨hn, hlt⟩ := readNumber?_eq_some_iff.mp hread
        exact absurd (h n hn) (Nat.not_le.mpr hlt)
    simp only [read, readPid, hnone]
    rfl
  | @noIdentifier _ n h hlow hhigh =>
    simp only [read, readPid, readNumber?_eq_some_iff.mpr ⟨h, hhigh⟩, Pid.ofNat?,
      dif_neg (Nat.not_lt.mpr hlow)]
    rfl
  | notBoolean h =>
    simp only [List.mem_cons, List.not_mem_nil, not_or] at h
    simp only [read, readBool, List.mem_cons, List.not_mem_nil, h]
    rfl

theorem read_eq_ok_iff {key : SettingKey} {value : String} {setting : Setting} :
    key.read value = .ok setting ↔ key.Accepts value setting := by
  constructor
  · intro hread
    obtain ⟨setting', h, haccepts⟩ | ⟨e, h, -⟩ := key.read_cases value
    · obtain rfl : setting' = setting := Except.ok.inj (h.symm.trans hread)
      exact haccepts
    · rw [h] at hread
      cases hread
  · exact read_of_accepts

theorem read_eq_error_iff {key : SettingKey} {value : String} {e : SettingsError} :
    key.read value = .error e ↔ key.Refuses value e := by
  constructor
  · intro hread
    obtain ⟨setting, h, -⟩ | ⟨e', h, hrefuses⟩ := key.read_cases value
    · rw [h] at hread
      cases hread
    · obtain rfl : e' = e := Except.error.inj (h.symm.trans hread)
      exact hrefuses
  · exact read_of_refuses

end SettingKey

end TransportStream
