import TransportStream.Receiver

/-!
# Chunk by chunk

A call goes over its bytes one packet's worth at a time, and does something about each before it
looks at the next.  What it does are effects in order: something is told, or a packet is returned.
-/

namespace TransportStream

open Layout

/-- What a call does: it tells something, or adds a packet to those that it returns. -/
inductive Effect where
  | tell (level : LogLevel) (event : LogEvent)
  | give (packet : Packet)
  deriving DecidableEq

namespace Effect

def told? : Effect → Option (LogLevel × LogEvent)
  | tell level event => some (level, event)
  | give _ => none

def given? : Effect → Option Packet
  | tell .. => none
  | give packet => some packet

end Effect

namespace Receiver

/-- Deal with one chunk: what is done about it, and the receiver afterwards. -/
def handle (r : Receiver) (index : Nat) (chunk : Bytes) : List Effect × Receiver :=
  match Packet.parse chunk with
  | .error cause => ([.tell .debug (.skipped index cause)], r)
  | .ok p =>
    match r.continuity with
    | none => ([.give p], r)
    | some tracker =>
      let (verdict, tracker) := tracker.check p.header
      match verdict with
      | .inSequence => ([.give p], ⟨some tracker⟩)
      | .duplicate => ([.tell .debug (.duplicate p.header.pid)], ⟨some tracker⟩)
      -- The packet behind a gap is told of, and is returned like any other.
      | .gap gap =>
        ([.tell .warn (.gap p.header.pid gap.expected gap.found), .give p], ⟨some tracker⟩)

def handleAll (r : Receiver) (index : Nat) : List Bytes → List Effect × Receiver
  | [] => ([], r)
  | chunk :: rest =>
    let (now, r) := r.handle index chunk
    let (later, r) := r.handleAll (index + 1) rest
    (now ++ later, r)

/-- A whole call: less than a packet at the end is told of first, then the chunks come one by one. -/
def perform (r : Receiver) (data : Bytes) : List Effect × Receiver :=
  let trailing := data.length % packetSize
  let (effects, r) := r.handleAll 0 (Chunks.whole packetSize data)
  ((if trailing = 0 then [] else [.tell .debug (.trailing trailing)]) ++ effects, r)

end Receiver

end TransportStream
