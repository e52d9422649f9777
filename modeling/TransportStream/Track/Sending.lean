import TransportStream.Log
import TransportStream.Packet
import TransportStream.Sink
import TransportStream.Track

/-!
# Sending payloads on a track

A payload is cut into packets that are full up to the last one, which is padded.  `sendWith` builds
them one by one and hands each to a sink; `packets` says outright what the `i`-th one is.  The two
agree for every sink (`sendWith_eq`).
-/

namespace TransportStream

open Layout

/-- A payload to be sent as a unit of its own.  The first packet of a unit is marked as its start
in any case, so asking for the mark changes no packet; it is only reported. -/
structure PayloadUnit where
  payload : Bytes
  forceStart : Bool := false

namespace Track

/-- The number of packets for `n` bytes of payload: as few as hold them. -/
def packetCount (n : Nat) : Nat :=
  (n + (maxPayload - 1)) / maxPayload

/-- The number of packets, computed with words of 64 bits: the quotient, and one more if the division
leaves a rest. -/
def packetCountWord (len : UInt64) : UInt64 :=
  if 0 < len % 182 then len / 182 + 1 else len / 182

def pieces (payload : Bytes) : List Bytes :=
  Chunks.first maxPayload (packetCount payload.length) payload

/-- The packet that carries the track's counter, a piece of payload, and as much stuffing as fills
it up. -/
def packet (t : Track) (start : Bool) (piece : Bytes) : Packet where
  header := {
    payloadUnitStart := start
    pid := t.pid
    control := .adaptationAndPayload
    counter := t.counter }
  field := AdaptationField.filling piece.length
  payload := piece

/-! ## One packet after another -/

/-- Send pieces one by one: the counter goes on, then the packet is built and written. -/
def sendPieces {σ : Type} (write : σ → Bytes → σ) (t : Track) (start : Bool) :
    List Bytes → σ → Track × σ
  | [], sink => (t, sink)
  | piece :: rest, sink =>
    sendPieces write (t.advance 1) false rest (write sink ((t.advance 1).packet start piece).encode)

/-- Send a unit to whatever `write` writes to.  An empty payload sends nothing. -/
def sendWith {σ : Type} (write : σ → Bytes → σ) (t : Track) (u : PayloadUnit) (sink : σ) :
    Track × σ :=
  sendPieces write t true (pieces u.payload) sink

def send {σ : Type} [Sink σ] (t : Track) (u : PayloadUnit) (sink : σ) : Track × σ :=
  t.sendWith Sink.write u sink

def sendToArray (t : Track) (u : PayloadUnit) : Track × Array Bytes :=
  t.send u #[]

/-- Send units one after the other to one sink. -/
def sendAll {σ : Type} [Sink σ] (t : Track) : List PayloadUnit → σ → Track × σ
  | [], sink => (t, sink)
  | u :: rest, sink =>
    let (t, sink) := t.send u sink
    t.sendAll rest sink

/-- Send a unit to a closure that keeps what it is handed. -/
def record (t : Track) (u : PayloadUnit) : Track × List Bytes :=
  t.sendWith (fun seen packet => seen ++ [packet]) u []

/-! ## All packets at once -/

/-- The packets of a unit: the `i`-th one carries the `i`-th piece and the counter `i + 1` steps
after the track's, and only the first is marked as the start. -/
def packets (t : Track) (u : PayloadUnit) : List Packet :=
  (pieces u.payload).mapIdx fun i piece => (t.advance (i + 1)).packet (i == 0) piece

def sendLog (t : Track) (u : PayloadUnit) : List LogEvent :=
  if u.payload = [] then []
  else
    .sending u.payload.length t.pid (packetCount u.payload.length) u.forceStart ::
      (t.packets u).map fun p =>
        .sent p.header.pid p.header.counter p.header.payloadUnitStart p.payload.length
          p.field.stuffing

/-! ## The two agree -/

@[simp] theorem length_pieces (payload : Bytes) :
    (pieces payload).length = packetCount payload.length :=
  Chunks.length_first _ _ _

@[simp] theorem flatten_pieces (payload : Bytes) : (pieces payload).flatten = payload := by
  rw [pieces, Chunks.flatten_first]
  apply List.take_of_length_le
  simp only [packetCount, maxPayload, packetSize, headerSize, fieldHeaderSize]
  omega

@[simp] theorem length_packets (t : Track) (u : PayloadUnit) :
    (t.packets u).length = packetCount u.payload.length := by
  simp [packets]

theorem sendPieces_eq {σ : Type} (write : σ → Bytes → σ) (t : Track) (start : Bool)
    (ps : List Bytes) (sink : σ) :
    sendPieces write t start ps sink = (t.advance ps.length,
      (ps.mapIdx fun i piece => ((t.advance (i + 1)).packet (start && i == 0) piece).encode).foldl
        write sink) := by
  induction ps generalizing t start sink with
  | nil => simp [sendPieces]
  | cons p rest ih =>
    rw [sendPieces, ih]
    simp [List.mapIdx_cons, Nat.add_comm, Nat.add_left_comm]

/-- Sending writes exactly the unit's packets, in order, and moves the track on by their number. -/
theorem sendWith_eq {σ : Type} (write : σ → Bytes → σ) (t : Track) (u : PayloadUnit) (sink : σ) :
    t.sendWith write u sink = (t.advance (packetCount u.payload.length),
      ((t.packets u).map Packet.encode).foldl write sink) := by
  rw [sendWith, sendPieces_eq, length_pieces, packets]
  simp only [List.mapIdx_eq_zipIdx_map, List.map_map, Bool.true_and]
  rfl

end Track

end TransportStream
