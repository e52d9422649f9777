import Mathlib.Logic.Function.Basic
import TransportStream.Proofs.Packet.Rewriting

/-!
# Headers and words

A header fills a word of four bytes with its fields side by side (`Header.bits_encode`), so a word
tells which header it was written for.  Every word with the sync byte is read as a header, and is
written again with nothing changed but scrambling bits that are never written
(`Header.exists_decode_of_first`).
-/

namespace TransportStream

open Layout

namespace Header

/-! ## Fields side by side -/

/-- The bits of a word, from the highest bit of its first byte on. -/
def Word.bits (w : Word) : BitVec 32 :=
  w.first.toBitVec ++ w.second.toBitVec ++ w.third.toBitVec ++ w.fourth.toBitVec

/-- The sync byte and the fields of a header side by side, each in as many bits as it takes. -/
def bits (h : Header) : BitVec 32 :=
  syncByte.toBitVec ++ BitVec.ofBool h.transportError ++ BitVec.ofBool h.payloadUnitStart ++
    BitVec.ofBool h.transportPriority ++ BitVec.ofNat 13 h.pid.value ++
    BitVec.ofNat 2 h.scrambled.toNat ++ BitVec.ofNat 2 h.control.code ++
    BitVec.ofNat 4 h.counter.value

private theorem toNat_append_eq {m n : Nat} (x : BitVec m) (y : BitVec n) :
    (x ++ y).toNat = x.toNat <<< n + y.toNat := by
  rw [BitVec.toNat_append, Nat.shiftLeft_add_eq_or_of_lt y.isLt]

/-- No field reaches into another one, and no bit of a word is left over. -/
theorem bits_encode (h : Header) : h.encode.bits = h.bits := by
  have hpid := h.pid.value_lt
  have hcode := h.control.code_lt
  have hcounter := h.counter.value_lt
  have hscrambled := h.scrambled.toNat_le
  apply BitVec.eq_of_toNat_eq
  simp only [Word.bits, bits, toNat_append_eq, UInt8.toNat_toBitVec, BitVec.toNat_ofBool,
    BitVec.toNat_ofNat, toNat_second, toNat_third, toNat_fourth]
  rw [show h.encode.first = syncByte from rfl]
  omega

/-! ## Words that were written -/

theorem encode_injective : Function.Injective encode := by
  intro h k heq
  have hread := congrArg decode heq
  rw [decode_encode, decode_encode] at hread
  exact Except.ok.inj hread

/-! ## Words as they come -/

/-- A word as it is written again: scrambling bits `10` and `11` become `01`. -/
def Word.settled (w : Word) : Word :=
  { w with fourth := Packet.settledScrambling w.fourth }

theorem Word.settled_eq_self_iff (w : Word) :
    w.settled = w ↔ w.fourth.toNat.testBit 7 = false := by
  have hlt := w.fourth.toNat_lt
  have hsettled : w.settled = w ↔ Packet.settledScrambling w.fourth = w.fourth := by
    rw [Word.ext_iff]
    exact ⟨fun h => h.2.2.2, fun h => ⟨rfl, rfl, rfl, h⟩⟩
  rw [hsettled, Packet.settledScrambling_eq_self_iff, Nat.testBit_eq_decide_div_mod_eq,
    decide_eq_false_iff_not]
  omega

theorem decode_eq_error_iff {w : Word} {e : FramingError} :
    decode w = .error e ↔ w.first ≠ syncByte ∧ e = .malformedHeader w.first := by
  unfold decode
  split
  next h => simp [h]
  next h => simp [h, eq_comm]

/-- Every word with the sync byte is a header, and comes out as it was but for scrambling bits that
are never written. -/
theorem exists_decode_of_first {w : Word} (h : w.first = syncByte) :
    ∃ header, decode w = .ok header ∧ header.encode = w.settled := by
  obtain ⟨header, hheader⟩ := Packet.exists_decode h
  refine ⟨header, hheader, ?_⟩
  rw [encode_of_decode hheader, Word.settled, Packet.settledScrambling_eq]

/-! ## Headers one behind the other -/

theorem decodeGroup?_bytes (h : Header) : decodeGroup? h.bytes = some (.ok h) := by
  rw [decodeGroup?, bytes, Word.toList, Word.ofList?, Option.map_some, ← decode_encode h]

theorem decodeGroups_appendAll (headers : List Header) (before after : Bytes) :
    decodeGroups headers.length ((appendAll headers before ++ after).drop before.length) =
      headers.map fun h => some (.ok h) := by
  have hsize : ∀ group ∈ headers.map bytes, group.length = headerSize := by
    intro group hgroup
    obtain ⟨h, -, rfl⟩ := List.mem_map.mp hgroup
    exact length_bytes h
  have hlength : (headers.map bytes).flatten.length = headerSize * headers.length := by
    rw [Chunks.length_flatten_of_length_eq hsize, List.length_map]
  have hgroups : Chunks.first headerSize headers.length (headers.map bytes).flatten =
      headers.map bytes := by
    have hfirst := Chunks.first_flatten hsize
    rwa [List.length_map] at hfirst
  rw [appendAll_eq, List.append_assoc, List.drop_left, decodeGroups,
    Chunks.first_append_of_le (Nat.le_of_eq hlength.symm), hgroups, List.map_map]
  exact List.map_congr_left fun h _ => decodeGroup?_bytes h

theorem length_appendAll (headers : List Header) (out : Bytes) :
    (appendAll headers out).length = out.length + 4 * headers.length := by
  induction headers generalizing out with
  | nil => rfl
  | cons h rest ih =>
    rw [appendAll, List.foldl_cons, ← appendAll, ih]
    simp only [appendTo, List.length_append, length_bytes, headerSize, List.length_cons]
    omega

/-! ## All headers and all words -/

/-- **Headers and words.**  Writing a header puts its four bytes behind what is there, with all fields
side by side; they read back as that header, and no other header has them.  A word fails to be read
exactly if it does not begin with the sync byte, and for that reason.  Any other word is a header, and
is written again with scrambling bits `10` and `11` turned into `01`, so as it was exactly if the
highest bit of its last byte is zero.  Headers that are written one behind the other, between any other
bytes, are read one behind the other. -/
theorem encode_and_decode :
    (∀ (h : Header) (out : Bytes), h.appendTo out = out ++ h.encode.toList ∧
      (h.appendTo out).length = out.length + 4) ∧
    (∀ h : Header, h.encode.bits = h.bits ∧ decode h.encode = .ok h) ∧
    Function.Injective encode ∧
    (∀ (w : Word) (e : FramingError),
      decode w = .error e ↔ w.first ≠ 0x47 ∧ e = .malformedHeader w.first) ∧
    (∀ w : Word, w.first = 0x47 → ∃ h, decode w = .ok h ∧ h.encode = w.settled ∧
      (h.encode = w ↔ w.fourth.toNat.testBit 7 = false)) ∧
    (∀ (headers : List Header) (before after : Bytes),
      (appendAll headers before).length = before.length + 4 * headers.length ∧
      (appendAll headers before).take before.length = before ∧
      decodeGroups headers.length ((appendAll headers before ++ after).drop before.length) =
        headers.map fun h => some (.ok h)) := by
  refine ⟨fun h out => ⟨rfl, ?_⟩, fun h => ⟨bits_encode h, decode_encode h⟩, encode_injective,
    fun w e => decode_eq_error_iff, ?_, ?_⟩
  · simp [appendTo, headerSize]
  · intro w hw
    obtain ⟨h, hdecode, hencode⟩ := exists_decode_of_first hw
    refine ⟨h, hdecode, hencode, ?_⟩
    rw [hencode]
    exact w.settled_eq_self_iff
  · intro headers before after
    refine ⟨length_appendAll headers before, ?_, decodeGroups_appendAll headers before after⟩
    rw [appendAll_eq]
    exact List.take_left

/-- The reserved adaptation field control with scrambling bits `11`: the word is a header, and is
written with scrambling bits `01`. -/
theorem encode_decoded_scrambling :
    let w : Word := ⟨0x47, 0xff, 0xff, 0xc5⟩
    w.first = 0x47 ∧ ∃ h, decode w = .ok h ∧ h.control = .reserved ∧ h.pid = Pid.null ∧
      h.encode = ⟨0x47, 0xff, 0xff, 0x45⟩ ∧ h.encode ≠ w := by
  intro w
  obtain ⟨-, -, -, -, hword, -⟩ := encode_and_decode
  obtain ⟨h, hdecode, hencode, hsame⟩ := hword w rfl
  have hread := hdecode.symm.trans (if_pos rfl)
  refine ⟨rfl, h, hdecode, ?_, ?_, hencode.trans (by decide), ?_⟩
  · rw [Except.ok.inj hread]
    exact AdaptationControl.ofCode_eq_iff.mpr (by decide)
  · rw [Except.ok.inj hread]
    decide
  · rw [Ne, hsame]
    decide

end Header

end TransportStream
