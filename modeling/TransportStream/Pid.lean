import TransportStream.Numeral

/-!
# Packet identifiers

A PID is a 13-bit number that names the stream a packet belongs to.  The lowest sixteen are
reserved for tables, the highest one marks null packets, and the rest may carry an elementary
stream.
-/

namespace TransportStream

/-- A 13-bit packet identifier. -/
@[ext] structure Pid where
  value : Nat
  value_lt : value < 0x2000
  deriving DecidableEq, Hashable

/-- A number that is not the identifier of a stream, or cannot be assigned to one. -/
structure InvalidPid where
  number : Nat
  deriving DecidableEq

/-- The wording of the error: the number in at least four hexadecimal digits. -/
def InvalidPid.message (e : InvalidPid) : String :=
  "invalid pid: " ++ Numeral.hex 4 e.number

namespace Pid

def ofNat? (n : Nat) : Except InvalidPid Pid :=
  if h : n < 0x2000 then .ok ⟨n, h⟩ else .error ⟨n⟩

/-! ## Well-known identifiers -/

-- The tables of a stream that have an identifier of their own.
def programAssociation : Pid := ⟨0x0000, by decide⟩

def conditionalAccess : Pid := ⟨0x0001, by decide⟩

def streamDescription : Pid := ⟨0x0002, by decide⟩

def protectionControl : Pid := ⟨0x0003, by decide⟩

def adaptiveStreaming : Pid := ⟨0x0004, by decide⟩

-- Both ends are identifiers that a stream may have.
def firstElementary : Pid := ⟨0x0010, by decide⟩

def lastElementary : Pid := ⟨0x1ffe, by decide⟩

/-- The identifier of null packets, which is the highest of all. -/
def null : Pid := ⟨0x1fff, by decide⟩

/-! ## Classes and order -/

/-- Identifiers below the elementary range, kept for tables. -/
def isReserved (p : Pid) : Bool :=
  p.value < firstElementary.value

def isNull (p : Pid) : Bool :=
  p.value == null.value

def isElementary (p : Pid) : Bool :=
  firstElementary.value ≤ p.value && p.value ≤ lastElementary.value

instance : LE Pid := ⟨fun p q => p.value ≤ q.value⟩

instance (p q : Pid) : Decidable (p ≤ q) :=
  inferInstanceAs (Decidable (p.value ≤ q.value))

def text (p : Pid) : String :=
  Numeral.hex 4 p.value

@[simp] theorem ofNat?_value (p : Pid) : ofNat? p.value = .ok p := by
  simp [ofNat?, p.value_lt]

theorem ofNat?_eq_ok_iff {n : Nat} {p : Pid} : ofNat? n = .ok p ↔ n = p.value := by
  constructor
  · intro h
    unfold ofNat? at h
    split at h <;> simp_all
    cases h; rfl
  · rintro rfl; exact ofNat?_value p

/-- Every identifier belongs to exactly one of the three classes. -/
theorem isElementary_eq (p : Pid) : p.isElementary = (!p.isReserved && !p.isNull) := by
  have hlt := p.value_lt
  rw [Bool.eq_iff_iff]
  simp only [isElementary, isReserved, isNull, Bool.and_eq_true, decide_eq_true_eq,
    Bool.not_eq_true', decide_eq_false_iff_not, beq_eq_false_iff_ne]
  simp only [firstElementary, lastElementary, null]
  omega

theorem isNull_iff (p : Pid) : p.isNull = true ↔ p = null := by
  constructor
  · intro h; exact Pid.ext (beq_iff_eq.mp h)
  · rintro rfl; rfl

end Pid

end TransportStream
