import TransportStream.FramingError
import TransportStream.Layout

/-!
# Adaptation fields

A length byte, a flags byte without flags, and stuffing.  The flags byte is mandatory, so a field
has a length of at least one.  Nothing else of an adaptation field is modelled: a reader takes the
length and passes over the rest, and a written field reads back at whatever offset it stands
(`decode_append`).
-/

namespace TransportStream

open Layout

/-- An adaptation field that only pads: the number of bytes after its length byte. -/
@[ext] structure AdaptationField where
  fieldLength : UInt8
  fieldLength_ne_zero : fieldLength ≠ 0
  deriving DecidableEq

/-- More stuffing was asked for than the length byte can announce. -/
structure StuffingOverflow where
  count : Nat
  deriving DecidableEq

def StuffingOverflow.message (e : StuffingOverflow) : String :=
  "stuffing count " ++ toString e.count ++ " does not fit the adaptation field length byte"

namespace AdaptationField

/-- The most stuffing that a length byte can announce beside the flags byte. -/
def maxStuffing : Nat := 254

def ofStuffing (count : Nat) (h : count ≤ maxStuffing) : AdaptationField where
  fieldLength := UInt8.ofNat (count + 1)
  fieldLength_ne_zero := by
    intro h0
    have := congrArg UInt8.toNat h0
    rw [UInt8.toNat_ofNat_of_lt' (by simp only [maxStuffing, UInt8.size] at *; omega)] at this
    simp at this

/-- The field with `count` bytes of stuffing, if a length byte can announce it. -/
def withStuffing? (count : Nat) : Except StuffingOverflow AdaptationField :=
  if h : count ≤ maxStuffing then .ok (ofStuffing count h) else .error ⟨count⟩

/-- The field that fills a packet up beside `used` bytes of payload. -/
def filling (used : Nat) : AdaptationField :=
  ofStuffing (maxPayload - used) <| by
    simp only [maxPayload, packetSize, headerSize, fieldHeaderSize, maxStuffing]
    omega

/-- The number of stuffing bytes: all but the flags byte. -/
def stuffing (f : AdaptationField) : Nat :=
  f.fieldLength.toNat - 1

/-- The number of bytes of the whole field, length byte included. -/
def encodedLength (f : AdaptationField) : Nat :=
  1 + f.fieldLength.toNat

/-! ## Writing -/

def encode (f : AdaptationField) : Bytes :=
  f.fieldLength :: 0x00 :: List.replicate f.stuffing stuffingByte

/-- Write a field behind what a buffer holds. -/
def appendTo (f : AdaptationField) (out : Bytes) : Bytes :=
  let out := out ++ [f.fieldLength]
  let out := out ++ [0x00]
  out ++ List.replicate f.stuffing stuffingByte

def appendAll (fields : List AdaptationField) (out : Bytes) : Bytes :=
  fields.foldl (fun out f => f.appendTo out) out

@[simp] theorem appendTo_eq (f : AdaptationField) (out : Bytes) :
    f.appendTo out = out ++ f.encode := by
  rw [appendTo, encode, List.append_assoc, List.append_assoc]
  rfl

@[simp] theorem appendAll_eq (fields : List AdaptationField) (out : Bytes) :
    appendAll fields out = out ++ fields.flatMap encode := by
  induction fields generalizing out with
  | nil => exact (List.append_nil out).symm
  | cons f rest ih =>
    rw [appendAll, List.foldl_cons, ← appendAll, ih, appendTo_eq, List.flatMap_cons,
      List.append_assoc]

/-- The byte that a field puts at position `i`, over the byte `old`. -/
def byteAt (f : AdaptationField) (i : Nat) (old : UInt8) : UInt8 :=
  if i = 0 then f.fieldLength
  else if i = 1 then 0x00
  else if i < f.encodedLength then stuffingByte
  else old

/-- Write a field over the start of a buffer; `none` if the buffer is too short.  The second
component is the number of bytes written. -/
def overwrite? (f : AdaptationField) (out : Bytes) : Option (Bytes × Nat) :=
  if f.encodedLength ≤ out.length then some (out.mapIdx f.byteAt, f.encodedLength) else none

/-! ## Reading -/

/-- Read the field whose length byte stands at `offset`, and the number of bytes it takes.
Beyond the end nothing is available.  The flags byte and the stuffing are not looked at. -/
def decode (data : Bytes) (offset : Nat) : Except FramingError (AdaptationField × Nat) :=
  match data.drop offset with
  | [] => .error (.truncatedField 1 0)
  | length :: body =>
    if body.length < length.toNat then
      .error (.truncatedField (1 + length.toNat) (1 + body.length))
    else if h : length = 0 then .error (.inconsistentLength length)
    else .ok (⟨length, h⟩, 1 + length.toNat)

/-- Read so many fields, each behind the bytes that the one before took, and where they end. -/
def decodeMany (data : Bytes) (offset : Nat) :
    Nat → Except FramingError (List AdaptationField × Nat)
  | 0 => .ok ([], offset)
  | count + 1 => do
    let (f, taken) ← decode data offset
    let (fields, stop) ← decodeMany data (offset + taken) count
    .ok (f :: fields, stop)

/-! ## Sizes -/

theorem fieldLength_pos (f : AdaptationField) : 0 < f.fieldLength.toNat := by
  have : f.fieldLength.toNat ≠ 0 := fun h => f.fieldLength_ne_zero (UInt8.toNat_inj.mp h)
  omega

@[simp] theorem fieldLength_ofStuffing (count : Nat) (h : count ≤ maxStuffing) :
    (ofStuffing count h).fieldLength.toNat = count + 1 :=
  UInt8.toNat_ofNat_of_lt' (by simp only [maxStuffing, UInt8.size] at *; omega)

@[simp] theorem stuffing_ofStuffing (count : Nat) (h : count ≤ maxStuffing) :
    (ofStuffing count h).stuffing = count := by
  simp [stuffing]

theorem withStuffing?_of_le {count : Nat} (h : count ≤ maxStuffing) :
    withStuffing? count = .ok (ofStuffing count h) :=
  dif_pos h

@[simp] theorem stuffing_filling (used : Nat) : (filling used).stuffing = maxPayload - used :=
  stuffing_ofStuffing _ _

theorem encodedLength_eq (f : AdaptationField) : f.encodedLength = f.stuffing + 2 := by
  have := f.fieldLength_pos
  simp only [encodedLength, stuffing]; omega

@[simp] theorem length_encode (f : AdaptationField) : f.encode.length = f.encodedLength := by
  simp [encode, encodedLength_eq]

theorem length_appendTo (f : AdaptationField) (out : Bytes) :
    (f.appendTo out).length = out.length + f.encodedLength := by
  simp

/-- A header, the filling field and its payload make exactly one packet. -/
theorem encodedLength_filling {used : Nat} (h : used ≤ maxPayload) :
    headerSize + (filling used).encodedLength + used = packetSize := by
  rw [encodedLength_eq, stuffing_filling]
  simp only [maxPayload, packetSize, headerSize, fieldHeaderSize] at *
  omega

@[simp] theorem decode_append (before after : Bytes) (f : AdaptationField) :
    decode (before ++ (f.encode ++ after)) before.length = .ok (f, f.encodedLength) := by
  have hlen : ¬ ((0x00 :: List.replicate f.stuffing stuffingByte) ++ after).length <
      f.fieldLength.toNat := by
    have := f.fieldLength_pos
    simp [stuffing]; omega
  rw [decode, List.drop_left]
  simp only [encode, List.cons_append] at hlen ⊢
  rw [if_neg hlen, dif_neg f.fieldLength_ne_zero]
  rfl

end AdaptationField

end TransportStream
