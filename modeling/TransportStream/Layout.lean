/-!
# Packet layout

The sizes of a packet's parts and the bytes that never vary.  Every packet built here carries an
adaptation field, so the room for payload is what the header and the two leading bytes of the
field leave.
-/

namespace TransportStream

abbrev Bytes := List UInt8

namespace Layout

def packetSize : Nat := 188

def headerSize : Nat := 4

/-- The length byte and the flags byte of an adaptation field. -/
def fieldHeaderSize : Nat := 2

/-- Room for payload beside an adaptation field without stuffing. -/
def maxPayload : Nat := packetSize - headerSize - fieldHeaderSize

/-- The longest adaptation field that fits in a packet, length byte not counted. -/
def maxFieldLength : Nat := packetSize - headerSize - 1

def syncByte : UInt8 := 0x47

def stuffingByte : UInt8 := 0xff

end Layout

end TransportStream
