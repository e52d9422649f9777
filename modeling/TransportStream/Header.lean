import TransportStream.AdaptationControl
import TransportStream.Chunks
import TransportStream.Counter
import TransportStream.FramingError
import TransportStream.Layout
import TransportStream.Pid

/-!
# Packet headers

The four bytes at the start of every packet.  The sync byte is not a field: it is always written
and always checked.  The two scrambling bits are read as one flag, so a written header reads back
(`decode_encode`), and a header that was read is written with at most the scrambling bits changed
(`encode_of_decode`).
-/

namespace TransportStream

open Layout

/-- The fields of a packet header.  The defaults are those of a null packet. -/
@[ext] structure Header where
  transportError : Bool := false
  payloadUnitStart : Bool := false
  transportPriority : Bool := false
  pid : Pid := Pid.null
  scrambled : Bool := false
  control : AdaptationControl := .payloadOnly
  counter : Counter := Counter.ofNat 0
  deriving DecidableEq

namespace Header

@[ext] structure Word where
  first : UInt8
  second : UInt8
  third : UInt8
  fourth : UInt8
  deriving DecidableEq

def Word.toList (w : Word) : Bytes :=
  [w.first, w.second, w.third, w.fourth]

def Word.ofList? : Bytes → Option Word
  | [first, second, third, fourth] => some ⟨first, second, third, fourth⟩
  | _ => none

/-! ## Writing -/

/-- Sync byte; three flags and the high five bits of the identifier; its low eight bits;
scrambling, adaptation field control and counter.  A scrambled packet is written with the
scrambling bits `01`. -/
def encode (h : Header) : Word where
  first := syncByte
  second := UInt8.ofNat (h.transportError.toNat * 0x80 + h.payloadUnitStart.toNat * 0x40 +
    h.transportPriority.toNat * 0x20 + h.pid.value / 0x100)
  third := UInt8.ofNat (h.pid.value % 0x100)
  fourth := UInt8.ofNat (h.scrambled.toNat * 0x40 + h.control.code * 0x10 + h.counter.value)

def bytes (h : Header) : Bytes :=
  h.encode.toList

@[simp] theorem length_bytes (h : Header) : h.bytes.length = headerSize := rfl

/-- Write a header behind what a buffer holds. -/
def appendTo (h : Header) (out : Bytes) : Bytes :=
  out ++ h.bytes

def appendAll (headers : List Header) (out : Bytes) : Bytes :=
  headers.foldl (fun out h => h.appendTo out) out

-- By induction on the headers; the buffer grows with each of them.
@[simp] theorem appendAll_eq (headers : List Header) (out : Bytes) :
    appendAll headers out = out ++ (headers.map bytes).flatten := by
  induction headers generalizing out with
  | nil => exact (List.append_nil out).symm
  | cons h rest ih =>
    rw [appendAll, List.foldl_cons, ← appendAll, ih, appendTo, List.map_cons, List.flatten_cons,
      List.append_assoc]

/-! ## Reading -/

/-- The identifier in the low five bits of one byte and all bits of the next. -/
def Word.pid (w : Word) : Pid where
  value := w.second.toNat % 0x20 * 0x100 + w.third.toNat
  value_lt := by have := w.third.toNat_lt; omega

/-- Unpack a header.  Any scrambling bits other than `00` mean scrambled. -/
def decode (w : Word) : Except FramingError Header :=
  if w.first = syncByte then
    .ok {
      transportError := w.second.toNat / 0x80 % 2 == 1
      payloadUnitStart := w.second.toNat / 0x40 % 2 == 1
      transportPriority := w.second.toNat / 0x20 % 2 == 1
      pid := w.pid
      scrambled := w.fourth.toNat / 0x40 != 0
      control := AdaptationControl.ofCode (w.fourth.toNat / 0x10)
      counter := Counter.ofNat w.fourth.toNat }
  else .error (.malformedHeader w.first)

/-- What a group of four bytes reads as; `none` if it is no such group. -/
def decodeGroup? (group : Bytes) : Option (Except FramingError Header) :=
  (Word.ofList? group).map decode

/-- What so many groups of four bytes read as, each behind the one before. -/
def decodeGroups (count : Nat) (data : Bytes) : List (Option (Except FramingError Header)) :=
  (Chunks.first headerSize count data).map decodeGroup?

/-! ## Writing, then reading -/

theorem toNat_second (h : Header) :
    h.encode.second.toNat = h.transportError.toNat * 0x80 + h.payloadUnitStart.toNat * 0x40 +
      h.transportPriority.toNat * 0x20 + h.pid.value / 0x100 := by
  have hpid := h.pid.value_lt
  have := h.transportError.toNat_le
  have := h.payloadUnitStart.toNat_le
  have := h.transportPriority.toNat_le
  exact UInt8.toNat_ofNat_of_lt' (by simp only [UInt8.size]; omega)

theorem toNat_third (h : Header) : h.encode.third.toNat = h.pid.value % 0x100 :=
  UInt8.toNat_ofNat_of_lt' (Nat.mod_lt _ (by decide))

theorem toNat_fourth (h : Header) :
    h.encode.fourth.toNat =
      h.scrambled.toNat * 0x40 + h.control.code * 0x10 + h.counter.value := by
  have hcode := h.control.code_lt
  have hcounter := h.counter.value_lt
  have := h.scrambled.toNat_le
  exact UInt8.toNat_ofNat_of_lt' (by simp only [UInt8.size]; omega)

private theorem beq_one_of_eq_toNat {n : Nat} {b : Bool} (h : n = b.toNat) : (n == 1) = b := by
  subst h; cases b <;> rfl

private theorem bne_zero_of_eq_toNat {n : Nat} {b : Bool} (h : n = b.toNat) : (n != 0) = b := by
  subst h; cases b <;> rfl

@[simp] theorem decode_encode (h : Header) : decode h.encode = .ok h := by
  have hpid := h.pid.value_lt
  have hcode := h.control.code_lt
  have hcounter := h.counter.value_lt
  have herror := h.transportError.toNat_le
  have hstart := h.payloadUnitStart.toNat_le
  have hpriority := h.transportPriority.toNat_le
  have hscrambled := h.scrambled.toNat_le
  rw [decode, if_pos (show h.encode.first = syncByte from rfl), Except.ok.injEq]
  refine Header.ext ?_ ?_ ?_ (Pid.ext ?_) ?_ ?_ (Counter.ext ?_)
  · exact beq_one_of_eq_toNat (by rw [toNat_second]; omega)
  · exact beq_one_of_eq_toNat (by rw [toNat_second]; omega)
  · exact beq_one_of_eq_toNat (by rw [toNat_second]; omega)
  · simp only [Word.pid, toNat_second, toNat_third]; omega
  · exact bne_zero_of_eq_toNat (by rw [toNat_fourth]; omega)
  · exact AdaptationControl.ofCode_eq_iff.mpr (by rw [toNat_fourth]; omega)
  · simp only [Counter.value_ofNat, toNat_fourth]; omega

/-! ## Reading, then writing -/

private theorem toNat_beq_one {n : Nat} (h : n < 2) : (n == 1).toNat = n := by
  have : n = 0 ∨ n = 1 := by omega
  rcases this with rfl | rfl <;> rfl

private theorem toNat_bne_zero (n : Nat) : (n != 0).toNat = min 1 n := by
  cases n with
  | zero => rfl
  | succ n => rw [Nat.min_eq_left (by omega)]; rfl

/-- A word that is read as a header is written again with the scrambling bits `10` and `11`
turned into `01` and every other bit as it was. -/
theorem encode_of_decode {w : Word} {h : Header} (hd : decode w = .ok h) :
    h.encode = { w with
      fourth := UInt8.ofNat (min 1 (w.fourth.toNat / 0x40) * 0x40 + w.fourth.toNat % 0x40) } := by
  unfold decode at hd
  split at hd
  next hsync =>
    cases hd
    have hsecond := w.second.toNat_lt
    have hthird := w.third.toNat_lt
    have hfourth := w.fourth.toNat_lt
    refine Word.ext hsync.symm (UInt8.toNat_inj.mp ?_) (UInt8.toNat_inj.mp ?_)
      (UInt8.toNat_inj.mp ?_)
    · rw [toNat_second]
      simp only [toNat_beq_one (Nat.mod_lt _ (by decide : 0 < 2)), Word.pid]
      omega
    · rw [toNat_third]
      simp only [Word.pid]
      omega
    · rw [toNat_fourth, UInt8.toNat_ofNat_of_lt' (by simp only [UInt8.size]; omega)]
      simp only [toNat_bne_zero, AdaptationControl.code_ofCode, Counter.value_ofNat]
      omega
  next => cases hd

end Header

end TransportStream
