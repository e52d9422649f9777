import TransportStream.Layout

/-!
# Buffers

Reading and writing a part of a buffer in place.  Every access is checked: one that goes beyond the
buffer has no result.  Inside the buffer a write leaves what stands before and behind the part as it
was (`fill?_append`, `copyOver?_back`).
-/

namespace TransportStream

/-- The bytes from `start` up to `stop`, if they are all there. -/
def slice? (data : Bytes) (start stop : Nat) : Option Bytes :=
  if start ≤ stop ∧ stop ≤ data.length then some ((data.take stop).drop start) else none

/-- Put a byte over the one at a position; `none` if there is no such position. -/
def put? (out : Bytes) (i : Nat) (b : UInt8) : Option Bytes :=
  if i < out.length then some (out.set i b) else none

/-- Put a byte over so many others, one after another from a position on. -/
def fillFrom? (b : UInt8) (out : Bytes) (i : Nat) : Nat → Option Bytes
  | 0 => some out
  | count + 1 => do
    let out ← put? out i b
    fillFrom? b out (i + 1) count

/-- Put a byte over all those from `start` up to `stop`; `none` if the buffer has no such part. -/
def fill? (b : UInt8) (out : Bytes) (start stop : Nat) : Option Bytes :=
  if start ≤ stop ∧ stop ≤ out.length then fillFrom? b out start (stop - start) else none

/-- Copy bytes over the part of a buffer from `start` to `stop`; `none` if the buffer has no such
part, or if it is not exactly as long as the bytes. -/
def copyOver? (bytes buffer : Bytes) (start stop : Nat) : Option Bytes :=
  if start ≤ stop ∧ stop ≤ buffer.length ∧ bytes.length = stop - start then
    some (buffer.take start ++ (bytes ++ buffer.drop stop))
  else none

/-! ## What is read and written -/

section

variable {data part : Bytes} {start stop : Nat}

theorem slice?_of_le (h : start ≤ stop) (hstop : stop ≤ data.length) :
    slice? data start stop = some ((data.take stop).drop start) :=
  if_pos ⟨h, hstop⟩

theorem slice?_of_short (h : data.length < stop) : slice? data start stop = none :=
  if_neg fun hpart => Nat.not_le.mpr h hpart.2

theorem slice?_length (h : start ≤ data.length) :
    slice? data start data.length = some (data.drop start) := by
  rw [slice?_of_le h (Nat.le_refl _), List.take_length]

theorem length_of_slice? (h : slice? data start stop = some part) :
    part.length = stop - start := by
  unfold slice? at h
  split at h
  next hpart =>
    cases h
    rw [List.length_drop, List.length_take_of_le hpart.2]
  next => cases h

end

theorem put?_append (b x : UInt8) (before after : Bytes) :
    put? (before ++ x :: after) before.length b = some (before ++ b :: after) := by
  have hpos : before.length < (before ++ x :: after).length := by
    rw [List.length_append, List.length_cons]
    omega
  rw [put?, if_pos hpos, List.set_append_right _ _ (Nat.le_refl _), Nat.sub_self, List.set_cons_zero]

-- By induction on the bytes that are covered; behind each step one less of them is left.
theorem fillFrom?_append (b : UInt8) (before old after : Bytes) :
    fillFrom? b (before ++ (old ++ after)) before.length old.length =
      some (before ++ (List.replicate old.length b ++ after)) := by
  induction old generalizing before with
  | nil => rfl
  | cons x rest ih =>
    have hstep := put?_append b x before (rest ++ after)
    have hrest := ih (before ++ [b])
    rw [List.length_append, List.length_singleton, List.append_assoc, List.append_assoc] at hrest
    rw [List.cons_append, List.length_cons, fillFrom?, hstep]
    exact hrest

theorem fill?_append (b : UInt8) (before old after : Bytes) :
    fill? b (before ++ (old ++ after)) before.length (before.length + old.length) =
      some (before ++ (List.replicate old.length b ++ after)) := by
  have hpart : before.length ≤ before.length + old.length ∧
      before.length + old.length ≤ (before ++ (old ++ after)).length := by
    rw [List.length_append, List.length_append]
    omega
  rw [fill?, if_pos hpart, Nat.add_sub_cancel_left, fillFrom?_append]

theorem fill?_of_short (b : UInt8) {out : Bytes} {start stop : Nat} (h : out.length < stop) :
    fill? b out start stop = none :=
  if_neg fun hpart => Nat.not_le.mpr h hpart.2

-- Over the front of a buffer.
theorem copyOver?_front (bytes : Bytes) {buffer : Bytes} (h : bytes.length ≤ buffer.length) :
    copyOver? bytes buffer 0 bytes.length = some (bytes ++ buffer.drop bytes.length) :=
  if_pos ⟨Nat.zero_le _, h, rfl⟩

-- Over all that stands behind a part of a buffer.
theorem copyOver?_back (before : Bytes) {bytes after : Bytes} (h : bytes.length = after.length) :
    copyOver? bytes (before ++ after) before.length (before ++ after).length =
      some (before ++ bytes) := by
  have hlen : (before ++ after).length = before.length + after.length := List.length_append
  rw [copyOver?, if_pos ⟨by omega, Nat.le_refl _, by omega⟩, List.take_left, List.drop_length,
    List.append_nil]

end TransportStream
