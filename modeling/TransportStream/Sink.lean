import TransportStream.Layout

/-!
# Packet sinks

Where packets go, one at a time and in order: a collection that keeps them apart, or a stream that
joins them.
-/

namespace TransportStream

class Sink (σ : Type) where
  write : σ → Bytes → σ

instance : Sink (Array Bytes) := ⟨Array.push⟩

/-- A stream joins the packets. -/
instance : Sink (Array UInt8) := ⟨fun stream packet => stream ++ packet⟩

namespace Sink

@[simp] theorem toList_foldl_push (packets : List Bytes) (sink : Array Bytes) :
    (packets.foldl Sink.write sink).toList = sink.toList ++ packets := by
  induction packets generalizing sink with
  | nil => simp
  | cons packet rest ih => rw [List.foldl_cons, ih]; simp [Sink.write]

@[simp] theorem toList_foldl_append (packets : List Bytes) (stream : Array UInt8) :
    (packets.foldl Sink.write stream).toList = stream.toList ++ packets.flatten := by
  induction packets generalizing stream with
  | nil => simp
  | cons packet rest ih => rw [List.foldl_cons, ih]; simp [Sink.write]

end Sink

end TransportStream
