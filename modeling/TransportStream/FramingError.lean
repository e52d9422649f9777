import TransportStream.Numeral

/-!
# Framing errors

Why bytes are not a packet, or not a part of one.
-/

namespace TransportStream

/-- Why bytes are not a packet, or not a part of one. -/
inductive FramingError where
  | malformedHeader (found : UInt8)
  /-- An adaptation field needs more bytes than there are; the length byte counts too. -/
  | truncatedField (declared available : Nat)
  /-- An adaptation field has no room for its flags byte, or cannot fit in a packet. -/
  | inconsistentLength (fieldLength : UInt8)
  | wrongSize (actual : Nat)
  deriving DecidableEq

def FramingError.message : FramingError → String
  | malformedHeader found =>
      "malformed header: expected sync byte 0x47, found " ++ Numeral.hex 2 found.toNat
  | truncatedField declared available =>
      "truncated adaptation field: declared " ++ toString declared ++ " bytes, " ++
        toString available ++ " available"
  | inconsistentLength fieldLength =>
      "inconsistent adaptation field length: " ++ toString fieldLength.toNat
  | wrongSize actual =>
      "wrong packet size: expected 188 bytes, got " ++ toString actual

end TransportStream
