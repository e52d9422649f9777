/-!
# Adaptation field control

Two bits of the packet header that announce which parts follow it.
-/

namespace TransportStream

inductive AdaptationControl where
  | reserved
  | payloadOnly
  | adaptationOnly
  | adaptationAndPayload
  deriving DecidableEq, Hashable

namespace AdaptationControl

def code : AdaptationControl → Nat
  | reserved => 0
  | payloadOnly => 1
  | adaptationOnly => 2
  | adaptationAndPayload => 3

/-- The control with a given code; only the two low bits count. -/
def ofCode (n : Nat) : AdaptationControl :=
  match n % 4 with
  | 0 => reserved
  | 1 => payloadOnly
  | 2 => adaptationOnly
  | _ => adaptationAndPayload

def hasAdaptationField : AdaptationControl → Bool
  | adaptationOnly | adaptationAndPayload => true
  | reserved | payloadOnly => false

/-- Whether a payload is announced; only such packets advance the continuity counter. -/
def hasPayload : AdaptationControl → Bool
  | payloadOnly | adaptationAndPayload => true
  | reserved | adaptationOnly => false

theorem code_lt (a : AdaptationControl) : a.code < 4 := by
  cases a <;> decide

@[simp] theorem ofCode_code (a : AdaptationControl) : ofCode a.code = a := by
  cases a <;> rfl

@[simp] theorem code_ofCode (n : Nat) : (ofCode n).code = n % 4 := by
  have h : n % 4 = 0 ∨ n % 4 = 1 ∨ n % 4 = 2 ∨ n % 4 = 3 := by omega
  rcases h with h | h | h | h <;> simp [ofCode, h, code]

theorem ofCode_eq_iff {n : Nat} {a : AdaptationControl} : ofCode n = a ↔ n % 4 = a.code := by
  constructor
  · rintro rfl; exact (code_ofCode n).symm
  · intro h
    rw [← ofCode_code a, ← h, ofCode, ofCode, Nat.mod_mod]

end AdaptationControl

end TransportStream
