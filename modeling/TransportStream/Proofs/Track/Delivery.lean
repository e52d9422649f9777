import TransportStream.Proofs.Track.Buffer

/-!
# One payload, many sinks

A track hands over the same packets whatever takes them: a closure that records them, a new
collection, a collection or a stream that holds something already, or a sink that is the caller's
own.  What was there before stays as it was, in front of the packets, and asking for the start mark
changes nothing (`Track.deliveries_agree`).
-/

namespace TransportStream

open Layout

theorem foldl_concat (packets seen : List Bytes) :
    packets.foldl (fun seen packet => seen ++ [packet]) seen = seen ++ packets := by
  induction packets generalizing seen with
  | nil => exact (List.append_nil seen).symm
  | cons packet rest ih => rw [List.foldl_cons, ih, List.append_assoc, List.singleton_append]

namespace Sink

theorem foldl_push (packets : List Bytes) (items : Array Bytes) :
    packets.foldl Sink.write items = items ++ packets.toArray := by
  apply Array.ext'
  rw [toList_foldl_push, Array.toList_append]

theorem foldl_append (packets : List Bytes) (stream : Array UInt8) :
    packets.foldl Sink.write stream = stream ++ packets.flatten.toArray := by
  apply Array.ext'
  rw [toList_foldl_append, Array.toList_append]

end Sink

namespace Track

theorem record_eq (t : Track) (u : PayloadUnit) :
    t.record u = (t.advance (packetCount u.payload.length), (t.packets u).map Packet.encode) := by
  rw [record, sendWith_eq, foldl_concat, List.nil_append]

-- No packet shows whether the start mark was asked for.
theorem record_forceStart (t : Track) (payload : Bytes) (f g : Bool) :
    t.record ⟨payload, f⟩ = t.record ⟨payload, g⟩ := by
  rw [record_eq, record_eq]
  rfl

theorem length_of_mem_record {t : Track} {u : PayloadUnit} {packet : Bytes}
    (h : packet ∈ (t.record u).2) : packet.length = packetSize := by
  rw [record_eq] at h
  obtain ⟨p, hp, rfl⟩ := List.mem_map.mp h
  exact length_encode_of_mem_packets hp

theorem length_record (t : Track) (u : PayloadUnit) :
    (t.record u).2.length = packetCount u.payload.length := by
  simp [record_eq]

/-- Whatever takes the packets, takes those that were recorded, one after the other. -/
theorem sendWith_eq_record {σ : Type} (write : σ → Bytes → σ) (t : Track) (u : PayloadUnit)
    (sink : σ) :
    t.sendWith write u sink = ((t.record u).1, (t.record u).2.foldl write sink) := by
  rw [sendWith_eq, record_eq]

-- Behind the bytes that were there before, the stream is cut into the packets again.
theorem whole_drop_stream (t : Track) (u : PayloadUnit) (stream : Array UInt8) :
    Chunks.whole packetSize ((t.send u stream).2.toList.drop stream.size) = (t.record u).2 := by
  rw [send, sendWith_eq_record, Sink.toList_foldl_append, List.drop_left' Array.length_toList]
  exact Chunks.whole_flatten (by decide) fun _ => length_of_mem_record

theorem size_stream (t : Track) (u : PayloadUnit) (stream : Array UInt8) :
    (t.send u stream).2.size = stream.size + packetSize * packetCount u.payload.length := by
  rw [send, sendWith_eq_record, ← Array.length_toList, Sink.toList_foldl_append, List.length_append,
    Chunks.length_flatten_of_length_eq fun _ => length_of_mem_record, length_record,
    Array.length_toList]

/-- **All sinks agree.**  Whether the start mark is asked for or not, the packets that a closure
records are the ones that every other sink gets, and the track is the same afterwards: a new
collection holds them alone, another one holds them behind its items, and a stream holds their bytes
behind its own, whose number need not be that of whole packets.  Any closure and any sink of a
caller's own is handed them one by one, in order; and so it is if all of them are built in one
buffer, each over the one before. -/
theorem deliveries_agree (t : Track) (payload : Bytes) :
    let after := (t.record ⟨payload, false⟩).1
    let packets := (t.record ⟨payload, false⟩).2
    packets.map List.length = List.replicate (packetCount payload.length) 188 ∧
    ∀ forceStart : Bool,
      let u : PayloadUnit := ⟨payload, forceStart⟩
      (∀ seen : List Bytes,
        t.sendWith (fun seen packet => seen ++ [packet]) u seen = (after, seen ++ packets)) ∧
      t.sendToArray u = (after, packets.toArray) ∧
      (∀ items : Array Bytes, t.send u items = (after, items ++ packets.toArray)) ∧
      (∀ stream : Array UInt8,
        t.send u stream = (after, stream ++ packets.flatten.toArray) ∧
        (t.send u stream).2.size = stream.size + 188 * packetCount payload.length ∧
        Chunks.whole 188 ((t.send u stream).2.toList.drop stream.size) = packets) ∧
      (∀ (σ : Type) (write : σ → Bytes → σ) (sink : σ),
        t.sendWith write u sink = (after, packets.foldl write sink)) ∧
      (∀ (σ : Type) [Sink σ] (sink : σ), t.send u sink = (after, packets.foldl Sink.write sink)) ∧
      (∀ (σ : Type) (write : σ → Bytes → σ) (sink : σ) (buffer : Bytes), buffer.length = 188 →
        sendThrough? write t true buffer payload sink = some (after, packets.foldl write sink)) := by
  intro after packets
  have hsend {σ : Type} (write : σ → Bytes → σ) (forceStart : Bool) (sink : σ) :
      t.sendWith write ⟨payload, forceStart⟩ sink = (after, packets.foldl write sink) := by
    rw [sendWith_eq_record, t.record_forceStart payload forceStart false]
  refine ⟨?_, fun forceStart => ⟨fun seen => ?_, ?_, fun items => ?_, fun stream => ⟨?_, ?_, ?_⟩,
    fun σ write sink => hsend write forceStart sink, fun σ _ sink => hsend _ forceStart sink,
    fun σ write sink buffer hbuffer => ?_⟩⟩
  · rw [← t.length_record ⟨payload, false⟩, List.map_eq_replicate_iff]
    exact fun _ => length_of_mem_record
  · rw [hsend, foldl_concat]
  · rw [sendToArray, send, hsend, Sink.foldl_push, Array.empty_append]
  · rw [send, hsend, Sink.foldl_push]
  · rw [send, hsend, Sink.foldl_append]
  · exact t.size_stream _ stream
  · rw [← packetSize, whole_drop_stream, t.record_forceStart payload forceStart false]
  · rw [sendThrough?_eq write t true hbuffer]
    exact congrArg some (hsend write false sink)

/-- A full packet and a padded one, handed to a collection with an item in it, to a stream that does
not end at a packet boundary, to a sink that only counts, and built in a buffer that is not clear. -/
theorem deliveries_of_two_packets :
    let t : Track := ⟨⟨0x123, by decide⟩, .h264, Counter.ofNat 14⟩
    let u : PayloadUnit := ⟨List.replicate 182 5 ++ [7], true⟩
    let full : Bytes := [0x47, 0x41, 0x23, 0x3f, 1, 0] ++ List.replicate 182 5
    let padded : Bytes := [0x47, 0x01, 0x23, 0x30, 182, 0] ++ List.replicate 181 0xff ++ [7]
    let counting : Sink Nat := ⟨fun count _ => count + 1⟩
    let dirty : Bytes := List.replicate 188 0xaa
    t.sendToArray u = (t.advance 2, #[full, padded]) ∧
      t.send u (#[[9]] : Array Bytes) = (t.advance 2, #[[9], full, padded]) ∧
      t.send u (#[1, 2, 3] : Array UInt8) =
        (t.advance 2, #[1, 2, 3] ++ [full, padded].flatten.toArray) ∧
      (t.send u (#[1, 2, 3] : Array UInt8)).2.size = 379 ∧
      @Track.send Nat counting t u 40 = (t.advance 2, 42) ∧
      dirty.length = 188 ∧
      sendThrough? Array.push t true dirty u.payload #[] = some (t.advance 2, #[full, padded]) := by
  intro t u full padded counting dirty
  have hrecord : t.record ⟨u.payload, false⟩ = (t.advance 2, [full, padded]) := by decide +kernel
  obtain ⟨-, hall⟩ := deliveries_agree t u.payload
  obtain ⟨-, hnew, hitems, hstream, -, hsink, hbuffer⟩ := hall true
  have hcount : packetCount u.payload.length = 2 := by decide +kernel
  simp only [hrecord, hcount] at hnew hitems hstream hsink hbuffer
  obtain ⟨hbytes, hsize, -⟩ := hstream #[1, 2, 3]
  have hdirty : dirty.length = 188 := List.length_replicate ..
  exact ⟨hnew, hitems #[[9]], hbytes, hsize, @hsink Nat counting 40, hdirty,
    hbuffer _ Array.push #[] dirty hdirty⟩

end Track

end TransportStream
