/-!
# Continuity counters

A four-bit counter that every stream carries in its packet headers.  It goes round after fifteen.
-/

namespace TransportStream

/-- A continuity counter: a number modulo sixteen. -/
@[ext] structure Counter where
  value : Nat
  value_lt : value < 16
  deriving DecidableEq, Hashable

namespace Counter

def modulus : Nat := 16

def ofNat (n : Nat) : Counter :=
  ⟨n % modulus, Nat.mod_lt n (by decide)⟩

def advance (c : Counter) (n : Nat) : Counter :=
  ofNat (c.value + n)

def next (c : Counter) : Counter :=
  c.advance 1

def prev (c : Counter) : Counter :=
  c.advance (modulus - 1)

@[simp] theorem value_ofNat (n : Nat) : (ofNat n).value = n % 16 := rfl

@[simp] theorem value_advance (c : Counter) (n : Nat) :
    (c.advance n).value = (c.value + n) % 16 := rfl

@[simp] theorem value_next (c : Counter) : c.next.value = (c.value + 1) % 16 := rfl

@[simp] theorem ofNat_value (c : Counter) : ofNat c.value = c :=
  Counter.ext (Nat.mod_eq_of_lt c.value_lt)

@[simp] theorem advance_zero (c : Counter) : c.advance 0 = c :=
  ofNat_value c

@[simp] theorem advance_advance (c : Counter) (m n : Nat) :
    (c.advance m).advance n = c.advance (m + n) := by
  apply Counter.ext; simp only [value_advance]; omega

/-- Two counts of steps lead to the same counter exactly if they agree modulo sixteen. -/
theorem advance_eq_advance_iff (c : Counter) (m n : Nat) :
    c.advance m = c.advance n ↔ m % 16 = n % 16 := by
  constructor
  · intro h
    have := congrArg value h
    simp only [value_advance] at this
    have := c.value_lt; omega
  · intro h
    apply Counter.ext; simp only [value_advance]; omega

theorem advance_eq_self_iff (c : Counter) (n : Nat) : c.advance n = c ↔ n % 16 = 0 := by
  have h := c.advance_eq_advance_iff n 0
  rw [advance_zero] at h
  exact h

theorem next_ne (c : Counter) : c.next ≠ c := by
  intro h
  have := (c.advance_eq_self_iff 1).mp h
  omega

end Counter

end TransportStream
