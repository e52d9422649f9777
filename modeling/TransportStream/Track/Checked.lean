import TransportStream.Packet.Checked
import TransportStream.Track.Sending

/-!
# Sending with every step checked

A payload is sent through one buffer that is never cleared: every packet is built over the one before.
-/

namespace TransportStream.Track

open Layout

/-- Send a payload as it is: cut a chunk off, build its packet over the one before, write it, and go
on with the rest. -/
def sendThrough? {σ : Type} (write : σ → Bytes → σ) (t : Track) (start : Bool)
    (buffer payload : Bytes) (sink : σ) : Option (Track × σ) :=
  if payload = [] then some (t, sink)
  else do
    let t := t.advance 1
    let chunk := payload.take maxPayload
    let buffer ← Packet.buildOver? (t.packet start chunk).header chunk buffer
    sendThrough? write t false buffer (payload.drop maxPayload) (write sink buffer)
termination_by payload.length
decreasing_by
  rw [List.length_drop]
  exact Nat.sub_lt (List.length_pos_iff.mpr ‹_›) (by decide)

end TransportStream.Track
