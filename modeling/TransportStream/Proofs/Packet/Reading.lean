import TransportStream.Packet.Checked

/-!
# What bytes read as

Of any bytes it is told what they read as: the first fault in the order of size, sync byte and length
byte, and a packet where there is none (`Packet.parse_classified`).  The field of a packet is never
cut short, since its length is checked against the packet before it is read.  Reading with every
access guarded (`Packet.parseGuarded`) finds all bytes where it looks for them.
-/

namespace TransportStream

open Layout

namespace Packet

/-! ## Where a packet's worth of bytes is read -/

-- Where the bytes are a packet's worth, the zeros given for missing bytes do not matter.
def headerWord (data : Bytes) : Header.Word :=
  ⟨data.getD 0 0, data.getD 1 0, data.getD 2 0, data.getD 3 0⟩

def lengthByte (data : Bytes) : UInt8 :=
  data.getD headerSize 0

theorem exists_of_length_eq {data : Bytes} (h : data.length = packetSize) :
    ∃ first second third fourth length body,
      data = first :: second :: third :: fourth :: length :: body ∧
        body.length = maxFieldLength := by
  match data, h with
  | first :: second :: third :: fourth :: length :: body, h =>
    refine ⟨first, second, third, fourth, length, body, rfl, ?_⟩
    simp only [List.length_cons, packetSize, maxFieldLength, headerSize] at *
    omega

theorem parse_of_length_ne {data : Bytes} (h : data.length ≠ packetSize) :
    parse data = .error (.wrongSize data.length) := by
  unfold parse
  split
  · rw [if_pos h]
  · rfl

theorem parse_of_length_eq {data : Bytes} (h : data.length = packetSize) :
    parse data = (do
      let header ← Header.decode (headerWord data)
      if maxFieldLength < (lengthByte data).toNat then
        .error (.inconsistentLength (lengthByte data)) else
      let (field, taken) ← AdaptationField.decode data headerSize
      .ok ⟨header, field, data.drop (headerSize + taken)⟩) := by
  obtain ⟨first, second, third, fourth, length, body, rfl, -⟩ := exists_of_length_eq h
  show (if _ then _ else _) = _
  rw [if_neg fun hne => hne h]
  rfl

-- A field that the packet has room for is not cut short.
theorem decode_field {data : Bytes} (h : data.length = packetSize)
    (hfit : (lengthByte data).toNat ≤ maxFieldLength) :
    AdaptationField.decode data headerSize =
      if h0 : lengthByte data = 0 then .error (.inconsistentLength (lengthByte data))
      else .ok (⟨lengthByte data, h0⟩, 1 + (lengthByte data).toNat) := by
  obtain ⟨first, second, third, fourth, length, body, rfl, hbody⟩ := exists_of_length_eq h
  show (if _ then _ else _) = _
  rw [if_neg (by rw [hbody]; exact Nat.not_lt.mpr hfit)]
  rfl

/-! ### Each fault, and none -/

theorem parse_of_first_ne {data : Bytes} (hsize : data.length = packetSize)
    (hsync : (headerWord data).first ≠ syncByte) :
    parse data = .error (.malformedHeader (headerWord data).first) := by
  rw [parse_of_length_eq hsize, Header.decode, if_neg hsync]
  rfl

theorem exists_decode {w : Header.Word} (h : w.first = syncByte) :
    ∃ header, Header.decode w = .ok header :=
  ⟨_, if_pos h⟩

theorem parse_of_lengthByte {data : Bytes} (hsize : data.length = packetSize)
    (hsync : (headerWord data).first = syncByte)
    (hlength : lengthByte data = 0 ∨ maxFieldLength < (lengthByte data).toNat) :
    parse data = .error (.inconsistentLength (lengthByte data)) := by
  obtain ⟨header, hheader⟩ := exists_decode hsync
  rw [parse_of_length_eq hsize, hheader]
  by_cases hlong : maxFieldLength < (lengthByte data).toNat
  · exact if_pos hlong
  · have h0 : lengthByte data = 0 := hlength.resolve_right hlong
    rw [decode_field hsize (Nat.not_lt.mp hlong), dif_pos h0]
    exact if_neg hlong

theorem parse_of_fits {data : Bytes} {header : Header} (hsize : data.length = packetSize)
    (hheader : Header.decode (headerWord data) = .ok header) (h0 : lengthByte data ≠ 0)
    (hfit : (lengthByte data).toNat ≤ maxFieldLength) :
    parse data = .ok ⟨header, ⟨lengthByte data, h0⟩,
      data.drop (headerSize + 1 + (lengthByte data).toNat)⟩ := by
  rw [parse_of_length_eq hsize, hheader, decode_field hsize hfit, dif_neg h0, Nat.add_assoc]
  exact if_neg (Nat.not_lt.mpr hfit)

-- One of the four is the case.
theorem parse_cases (data : Bytes) :
    parse data = .error (.wrongSize data.length) ∨
      parse data = .error (.malformedHeader (headerWord data).first) ∨
      parse data = .error (.inconsistentLength (lengthByte data)) ∨
      data.length = packetSize ∧ ∃ header, Header.decode (headerWord data) = .ok header ∧
        ∃ h0 : lengthByte data ≠ 0, (lengthByte data).toNat ≤ maxFieldLength ∧
          parse data = .ok ⟨header, ⟨lengthByte data, h0⟩,
            data.drop (headerSize + 1 + (lengthByte data).toNat)⟩ := by
  by_cases hsize : data.length = packetSize
  · by_cases hsync : (headerWord data).first = syncByte
    · by_cases hlength : lengthByte data = 0 ∨ maxFieldLength < (lengthByte data).toNat
      · exact .inr (.inr (.inl (parse_of_lengthByte hsize hsync hlength)))
      · obtain ⟨header, hheader⟩ := exists_decode hsync
        obtain ⟨h0, hfit⟩ := not_or.mp hlength
        have hfit := Nat.not_lt.mp hfit
        exact .inr (.inr (.inr ⟨hsize, header, hheader, h0, hfit,
          parse_of_fits hsize hheader h0 hfit⟩))
    · exact .inr (.inl (parse_of_first_ne hsize hsync))
  · exact .inl (parse_of_length_ne hsize)

/-- A packet is read exactly where the size, the header and the length of the field allow it, and
its parts stand one behind the other. -/
theorem parse_eq_ok_iff {data : Bytes} {p : Packet} :
    parse data = .ok p ↔
      data.length = packetSize ∧ Header.decode (headerWord data) = .ok p.header ∧
        p.field.fieldLength = lengthByte data ∧ (lengthByte data).toNat ≤ maxFieldLength ∧
        p.payload = data.drop (headerSize + 1 + (lengthByte data).toNat) := by
  constructor
  · intro hparse
    obtain h | h | h | ⟨hsize, header, hheader, h0, hfit, h⟩ := parse_cases data
    · rw [h] at hparse; cases hparse
    · rw [h] at hparse; cases hparse
    · rw [h] at hparse; cases hparse
    · rw [h] at hparse
      cases hparse
      exact ⟨hsize, hheader, rfl, hfit, rfl⟩
  · rintro ⟨hsize, hheader, hfield, hfit, hpayload⟩
    have h0 : lengthByte data ≠ 0 := hfield ▸ p.field.fieldLength_ne_zero
    rw [parse_of_fits hsize hheader h0 hfit]
    exact congrArg Except.ok (Packet.ext rfl (AdaptationField.ext hfield.symm) hpayload.symm)

-- Only one packet's worth of bytes is read as a packet.
theorem length_of_parse_eq_ok {data : Bytes} {p : Packet} (h : parse data = .ok p) :
    data.length = packetSize :=
  (parse_eq_ok_iff.mp h).1

/-! ## No access goes beyond the end -/

theorem ofList?_slice? {data : Bytes} (h : data.length = packetSize) :
    (slice? data 0 headerSize).bind Header.Word.ofList? = some (headerWord data) := by
  rw [slice?_of_le (Nat.zero_le _) (by rw [h]; decide)]
  obtain ⟨first, second, third, fourth, length, body, rfl, -⟩ := exists_of_length_eq h
  rfl

theorem getElem?_headerSize {data : Bytes} (h : data.length = packetSize) :
    data[headerSize]? = some (lengthByte data) := by
  obtain ⟨first, second, third, fourth, length, body, rfl, -⟩ := exists_of_length_eq h
  rfl

theorem parseGuarded_eq (data : Bytes) : parseGuarded data = some (parse data) := by
  by_cases hsize : data.length = packetSize
  · have hword := ofList?_slice? hsize
    have hlength := getElem?_headerSize hsize
    rw [parseGuarded, if_neg fun hne => hne hsize, parse_of_length_eq hsize]
    simp only [Option.bind_eq_bind] at hword ⊢
    rw [← Option.bind_assoc, hword, Option.bind_some]
    cases Header.decode (headerWord data) with
    | error cause => rfl
    | ok header =>
      simp only [hlength, Option.bind_some, AdaptationField.decodeGuarded_eq]
      by_cases hlong : maxFieldLength < (lengthByte data).toNat
      · simp only [bind, Except.bind, if_pos hlong]
      · have hfield := decode_field hsize (Nat.not_lt.mp hlong)
        simp only [bind, Except.bind, if_neg hlong]
        by_cases h0 : lengthByte data = 0
        · rw [hfield, dif_pos h0]
        · have hfit : headerSize + (1 + (lengthByte data).toNat) ≤ data.length := by
            rw [hsize]
            simp only [maxFieldLength, packetSize, headerSize] at *
            omega
          rw [hfield, dif_neg h0]
          simp only [slice?_length hfit, Option.bind_some]
  · rw [parseGuarded, if_pos hsize, parse_of_length_ne hsize]

/-! ## All bytes -/

/-- **What bytes read as.**  Bytes of another size than a packet's are refused for it; then bytes with
another sync byte; then a field without its flags byte or too long for a packet.  All others are a
packet, whatever their header announces: the header of the first four bytes, a field of the announced
length, and what is left as payload.  A field is never found cut short, and no access goes beyond the
end. -/
theorem parse_classified (data : Bytes) :
    (data.length ≠ packetSize → parse data = .error (.wrongSize data.length)) ∧
    (data.length = packetSize →
      ((headerWord data).first ≠ syncByte →
        parse data = .error (.malformedHeader (headerWord data).first)) ∧
      ((headerWord data).first = syncByte →
        lengthByte data = 0 ∨ maxFieldLength < (lengthByte data).toNat →
        parse data = .error (.inconsistentLength (lengthByte data))) ∧
      ((headerWord data).first = syncByte →
        lengthByte data ≠ 0 → (lengthByte data).toNat ≤ maxFieldLength →
        ∃ p, parse data = .ok p ∧ Header.decode (headerWord data) = .ok p.header ∧
          p.field.fieldLength = lengthByte data ∧
          p.payload = data.drop (headerSize + 1 + (lengthByte data).toNat) ∧
          headerSize + 1 + p.field.fieldLength.toNat + p.payload.length = packetSize ∧
          p.field.stuffing + 1 = p.field.fieldLength.toNat)) ∧
    (∀ declared available, parse data ≠ .error (.truncatedField declared available)) ∧
    parseGuarded data = some (parse data) := by
  refine ⟨parse_of_length_ne, fun hsize => ⟨parse_of_first_ne hsize, parse_of_lengthByte hsize, ?_⟩,
    ?_, parseGuarded_eq data⟩
  · intro hsync h0 hfit
    obtain ⟨header, hheader⟩ := exists_decode hsync
    refine ⟨_, parse_of_fits hsize hheader h0 hfit, hheader, rfl, rfl, ?_, ?_⟩
    · simp only [List.length_drop, hsize, maxFieldLength, packetSize, headerSize] at *
      omega
    · have hpos := AdaptationField.fieldLength_pos ⟨lengthByte data, h0⟩
      exact Nat.sub_add_cancel hpos
  · intro declared available hparse
    obtain h | h | h | ⟨-, header, -, h0, -, h⟩ := parse_cases data <;>
      rw [h] at hparse <;> cases hparse

/-- The longest field, under a header that announces neither a field nor a payload. -/
theorem parse_field_alone :
    let data : Bytes := [0x47, 0x1f, 0xff, 0x05, 183] ++ List.replicate 183 0x11
    data.length = packetSize ∧ (headerWord data).first = syncByte ∧ lengthByte data ≠ 0 ∧
      (lengthByte data).toNat ≤ maxFieldLength ∧
      ∃ p, parse data = .ok p ∧ p.header.control = .reserved ∧ p.field.stuffing = 182 ∧
        p.payload = [] := by
  intro data
  obtain ⟨p, hparse, hheader, hlength, hpayload, -, hstuffing⟩ :=
    ((parse_classified data).2.1 rfl).2.2 rfl (by decide) (by decide)
  refine ⟨rfl, rfl, by decide, by decide, p, hparse, ?_, ?_, hpayload⟩
  · rw [Except.ok.inj (hheader.symm.trans (if_pos rfl))]
    exact AdaptationControl.ofCode_eq_iff.mpr (by decide)
  · rw [hlength] at hstuffing
    exact Nat.succ.inj hstuffing

end Packet

end TransportStream
