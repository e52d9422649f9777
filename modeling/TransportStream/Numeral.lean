/-!
# Numerals

Numbers written in hexadecimal with leading zeros, and runs of digits read in a base of at most
sixteen.  Reading a number's own digits gives the number back (`read?_toDigits`), however many
zeros stand before them (`read?_leftpad`).
-/

namespace TransportStream.Numeral

/-! ## Writing -/

/-- The number `n` in lower-case hexadecimal, padded with zeros to at least `width` digits. -/
def hexDigits (width n : Nat) : List Char :=
  (Nat.toDigits 16 n).leftpad width '0'

def hex (width n : Nat) : String :=
  "0x" ++ String.ofList (hexDigits width n)

/-! ## Reading -/

def digitValue? (c : Char) : Option Nat :=
  if '0' ≤ c ∧ c ≤ '9' then some (c.toNat - '0'.toNat)
  else if 'a' ≤ c ∧ c ≤ 'f' then some (c.toNat - 'a'.toNat + 10)
  else if 'A' ≤ c ∧ c ≤ 'F' then some (c.toNat - 'A'.toNat + 10)
  else none

def digit? (base : Nat) (c : Char) : Option Nat :=
  (digitValue? c).filter (· < base)

/-- Continue a number with further digits; `none` at the first character that is not a digit. -/
def extend? (base : Nat) : Nat → List Char → Option Nat
  | n, [] => some n
  | n, c :: cs => (digit? base c).bind fun d => extend? base (base * n + d) cs

/-- The number denoted by one or more digits, most significant first. -/
def read? (base : Nat) (cs : List Char) : Option Nat :=
  if cs = [] then none else extend? base 0 cs

/-- A number, if it is below the bound. -/
def below? (bound n : Nat) : Option Nat :=
  if n < bound then some n else none

/-- `extend?`, with every product and every sum below a bound. -/
def extendBelow? (bound base : Nat) : Nat → List Char → Option Nat
  | n, [] => some n
  | n, c :: cs => do
    let product ← below? bound (base * n)
    let d ← digit? base c
    let sum ← below? bound (product + d)
    extendBelow? bound base sum cs

theorem extend?_append (base n : Nat) (cs ds : List Char) :
    extend? base n (cs ++ ds) = (extend? base n cs).bind (extend? base · ds) := by
  induction cs generalizing n with
  | nil => rfl
  | cons c cs ih => cases h : digit? base c <;> simp [extend?, h, ih]

theorem digit?_digitChar {base d : Nat} (hd : d < base) (hb : base ≤ 16) :
    digit? base (Nat.digitChar d) = some d := by
  have key : ∀ d < 16, digitValue? (Nat.digitChar d) = some d := by decide
  simp [digit?, key d (by omega), hd]

theorem extend?_toDigits {base : Nat} (hlow : 1 < base) (hhigh : base ≤ 16) (n : Nat) :
    extend? base 0 (Nat.toDigits base n) = some n := by
  induction n using Nat.strongRecOn with
  | ind n ih =>
    rw [Nat.toDigits_eq_if hlow]
    split
    next h => simp [extend?, digit?_digitChar h hhigh]
    next h =>
      have hlt : n / base < n := Nat.div_lt_self (by omega) hlow
      rw [extend?_append, ih _ hlt]
      simp [extend?, digit?_digitChar (Nat.mod_lt n (by omega : base > 0)) hhigh,
        Nat.div_add_mod]

theorem extend?_replicate_zero {base : Nat} (hlow : 1 < base) (k : Nat) :
    extend? base 0 (List.replicate k '0') = some 0 := by
  have hzero : digit? base '0' = some 0 := by
    have : digitValue? '0' = some 0 := by decide
    simp [digit?, this]; omega
  induction k with
  | zero => rfl
  | succ k ih => simpa [List.replicate_succ, extend?, hzero] using ih

/-- Zeros before a number's digits do not change what is read. -/
theorem read?_leftpad {base : Nat} (hlow : 1 < base) (hhigh : base ≤ 16) (width n : Nat) :
    read? base ((Nat.toDigits base n).leftpad width '0') = some n := by
  have hne : (Nat.toDigits base n).leftpad width '0' ≠ [] := by
    simp [List.leftpad, Nat.toDigits_ne_nil]
  rw [read?, if_neg hne, List.leftpad, extend?_append, extend?_replicate_zero hlow]
  exact extend?_toDigits hlow hhigh n

theorem read?_toDigits {base : Nat} (hlow : 1 < base) (hhigh : base ≤ 16) (n : Nat) :
    read? base (Nat.toDigits base n) = some n := by
  simpa [List.leftpad] using read?_leftpad hlow hhigh 0 n

end TransportStream.Numeral
