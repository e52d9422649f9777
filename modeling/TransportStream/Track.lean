import TransportStream.Counter
import TransportStream.Pid
import TransportStream.StreamType

/-!
# Tracks

One elementary stream on its way out: where its packets go, what they carry, and the counter of
the last one.
-/

namespace TransportStream

/-- An elementary stream and the continuity counter of its last packet. -/
@[ext] structure Track where
  pid : Pid
  streamType : StreamType
  counter : Counter
  deriving DecidableEq

namespace Track

/-- A track without packets yet: the first one will carry the counter 0. -/
def fresh (pid : Pid) (streamType : StreamType) : Track :=
  ⟨pid, streamType, (Counter.ofNat 0).prev⟩

def setCounter (t : Track) (n : Nat) : Track :=
  { t with counter := Counter.ofNat n }

def advance (t : Track) (n : Nat) : Track :=
  { t with counter := t.counter.advance n }

@[simp] theorem pid_advance (t : Track) (n : Nat) : (t.advance n).pid = t.pid := rfl

@[simp] theorem counter_advance (t : Track) (n : Nat) :
    (t.advance n).counter = t.counter.advance n := rfl

@[simp] theorem advance_zero (t : Track) : t.advance 0 = t := by
  simp [advance]

@[simp] theorem advance_advance (t : Track) (m n : Nat) :
    (t.advance m).advance n = t.advance (m + n) := by
  simp [advance]

end Track

end TransportStream
