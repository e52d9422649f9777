import TransportStream.Settings
import TransportStream.Settings.Error

/-!
# Values of settings

How the value of each setting is written.  An identifier is a decimal numeral, or a hexadecimal one
after `0x`; its written forms read back (`readNumber?_text`).
-/

namespace TransportStream

inductive SettingKey where
  | firstElementaryPid
  | continuityCheck
  deriving DecidableEq

namespace SettingKey

def name : SettingKey → String
  | firstElementaryPid => "first_elementary_pid"
  | continuityCheck => "continuity_check"

def ofName? (name : String) : Option SettingKey :=
  if name = firstElementaryPid.name then some firstElementaryPid
  else if name = continuityCheck.name then some continuityCheck
  else none

/-! ## Numerals -/

/-- The base of a numeral and its digits, told by the mark `0x` or `0X`. -/
def splitBase : List Char → Nat × List Char
  | '0' :: 'x' :: digits => (16, digits)
  | '0' :: 'X' :: digits => (16, digits)
  | digits => (10, digits)

/-- One plus sign may stand before the digits. -/
def dropSign : List Char → List Char
  | '+' :: digits => digits
  | digits => digits

/-- The number that a numeral denotes, if it has at most sixteen bits. -/
def readNumber? (value : List Char) : Option Nat :=
  let (base, digits) := splitBase value
  (Numeral.read? base (dropSign digits)).filter (· < 0x10000)

/-- `readNumber?`, where no step may leave sixteen bits. -/
def readChecked? (value : List Char) : Option Nat :=
  let (base, digits) := splitBase value
  let digits := dropSign digits
  if digits = [] then none else Numeral.extendBelow? 0x10000 base 0 digits

/-! ## Reading a value -/

def readPid (value : String) : Except SettingsError Pid :=
  match readNumber? value.toList with
  | none => .error (.notPid value)
  | some n => (Pid.ofNat? n).mapError .invalidPid

def readBool (value : String) : Except SettingsError Bool :=
  if value ∈ ["true", "1", "yes"] then .ok true
  else if value ∈ ["false", "0", "no"] then .ok false
  else .error (.notBoolean value)

def read (key : SettingKey) (value : String) : Except SettingsError Setting :=
  match key with
  | firstElementaryPid => (readPid value).map .firstElementaryPid
  | continuityCheck => (readBool value).map .continuityCheck

/-! ## Written forms read back -/

-- A decimal numeral has no mark and no sign.
theorem readNumber?_of_read? {cs : List Char} {n : Nat} (h : Numeral.read? 10 cs = some n)
    (hn : n < 0x10000) : readNumber? cs = some n := by
  have hmark : ∀ c, Numeral.digit? 10 c = none → ∀ cs, Numeral.read? 10 (c :: cs) = none ∧
      Numeral.read? 10 ('0' :: c :: cs) = none := by
    intro c hc cs
    have hzero : Numeral.digit? 10 '0' = some 0 := by decide
    simp [Numeral.read?, Numeral.extend?, hc, hzero]
  have hsplit : splitBase cs = (10, cs) := by
    unfold splitBase
    split
    next => rw [(hmark 'x' (by decide) _).2] at h; cases h
    next => rw [(hmark 'X' (by decide) _).2] at h; cases h
    next => rfl
  have hsign : dropSign cs = cs := by
    unfold dropSign
    split
    next => rw [(hmark '+' (by decide) _).1] at h; cases h
    next => rfl
  rw [readNumber?, hsplit]
  simp [hsign, h, hn]

/-- An identifier in decimal reads back. -/
@[simp] theorem readNumber?_toDigits (p : Pid) :
    readNumber? (Nat.toDigits 10 p.value) = some p.value :=
  readNumber?_of_read? (Numeral.read?_toDigits (by decide) (by decide) _)
    (Nat.lt_trans p.value_lt (by decide))

@[simp] theorem readNumber?_text (p : Pid) : readNumber? p.text.toList = some p.value := by
  have htext : p.text.toList = '0' :: 'x' :: Numeral.hexDigits 4 p.value := by
    simp [Pid.text, Numeral.hex, String.toList_append]
  have hread : Numeral.read? 16 (Numeral.hexDigits 4 p.value) = some p.value :=
    Numeral.read?_leftpad (by decide) (by decide) 4 p.value
  have hsign : dropSign (Numeral.hexDigits 4 p.value) = Numeral.hexDigits 4 p.value := by
    unfold dropSign
    split
    next cs heq =>
      rw [heq] at hread
      have hplus : Numeral.digit? 16 '+' = none := by decide
      simp [Numeral.read?, Numeral.extend?, hplus] at hread
    next => rfl
  have hlt : p.value < 0x10000 := Nat.lt_trans p.value_lt (by decide)
  rw [readNumber?, htext, splitBase]
  simp [hsign, hread, hlt]

@[simp] theorem ofName?_name (key : SettingKey) : ofName? key.name = some key := by
  cases key <;> decide

end SettingKey

end TransportStream
