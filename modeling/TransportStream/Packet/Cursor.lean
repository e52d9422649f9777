import TransportStream.Packet

/-!
# Reading packet by packet

A cursor stands in a run of bytes and reads one packet at a time.  It knows how many are left
(`remaining_next?`), and the packets it reads are those of `Packet.parseAll` (`toList_eq`).
-/

namespace TransportStream.Packet

open Layout

/-- A place in a run of bytes: what has not been read yet. -/
structure Cursor where
  rest : Bytes

namespace Cursor

def ofBytes (data : Bytes) : Cursor := ⟨data⟩

def remaining (c : Cursor) : Nat :=
  c.rest.length / packetSize

/-- What the next packet's worth of bytes reads as, and the cursor behind it; `none` where less
than a packet is left. -/
def next? (c : Cursor) : Option (Except FramingError Packet × Cursor) :=
  if packetSize ≤ c.rest.length then
    some (parse (c.rest.take packetSize), ⟨c.rest.drop packetSize⟩)
  else none

/-- What a call answers, and the cursor afterwards.  At the end the cursor stays where it is. -/
def poll (c : Cursor) : Option (Except FramingError Packet) × Cursor :=
  match c.next? with
  | some (item, d) => (some item, d)
  | none => (none, c)

/-- The least and, if it is known, the greatest number of items to come. -/
def sizeHint (c : Cursor) : Nat × Option Nat :=
  (c.remaining, some c.remaining)

/-- The cursor after a number of calls. -/
def after (c : Cursor) : Nat → Cursor
  | 0 => c
  | k + 1 => (c.after k).poll.2

/-- What the call with the number `k` answers; calls are counted from zero. -/
def answer (c : Cursor) (k : Nat) : Option (Except FramingError Packet) :=
  (c.after k).poll.1

theorem remaining_next? {c d : Cursor} {item : Except FramingError Packet}
    (h : c.next? = some (item, d)) : c.remaining = d.remaining + 1 := by
  unfold next? at h
  split at h
  next hle =>
    cases h
    simp only [remaining, List.length_drop, packetSize] at *
    omega
  next => cases h

theorem next?_eq_none_iff (c : Cursor) : c.next? = none ↔ c.remaining = 0 := by
  unfold next?
  split <;> simp only [remaining, packetSize, reduceCtorEq, false_iff, true_iff] at * <;> omega

def toList (c : Cursor) : List (Except FramingError Packet) :=
  match _h : c.next? with
  | none => []
  | some (item, d) => item :: d.toList
termination_by c.remaining
decreasing_by have := remaining_next? (by assumption); omega

theorem toList_eq (c : Cursor) : c.toList = parseAll c.rest := by
  induction hn : c.remaining generalizing c with
  | zero =>
    have hnone := (next?_eq_none_iff c).mpr hn
    rw [toList]
    split
    next => simp [parseAll, Chunks.whole, show c.rest.length / packetSize = 0 from hn, Chunks.first]
    next h => rw [h] at hnone; cases hnone
  | succ n ih =>
    rw [toList]
    split
    next h => rw [(next?_eq_none_iff c).mp h] at hn; cases hn
    next item d h =>
      have hd : d.remaining = n := by have := remaining_next? (by assumption); omega
      rw [ih d hd]
      unfold next? at h
      split at h
      next =>
        cases h
        have hlen : c.rest.length / packetSize = (c.rest.drop packetSize).length / packetSize + 1 :=
          by rw [show (c.rest.drop packetSize).length / packetSize = n from hd]; exact hn
        rw [parseAll, parseAll, Chunks.whole, Chunks.whole, hlen]
        rfl
      next => cases h

end Cursor

end TransportStream.Packet
