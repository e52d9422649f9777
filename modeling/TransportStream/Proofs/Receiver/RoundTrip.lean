import TransportStream.Proofs.Receiver.Intake
import TransportStream.Proofs.Track.Emission

/-!
# What is sent is received

Any number of tracks with identifiers of their own send units into one stream, in any order.  A new
receiver gets back every packet in the order of sending, and from the packets of each track the
units that were sent on it (`Receiver.receive_sendAll`).
-/

namespace TransportStream

open Layout Continuity

namespace Receiver

-- In what the tracks of a store emit, every packet is in sequence.
theorem verdicts_emission {s : TrackStore} (hs : s.DistinctPids)
    (calls : List (TrackHandle × PayloadUnit)) :
    ({} : Tracker).verdicts ((s.emission calls).map (·.header)) =
      List.replicate (s.emission calls).length .inSequence := by
  rw [← List.length_map (fun p : Packet => p.header)]
  apply Tracker.verdicts_inSequence
  intro pid
  have hmap : ((s.emission calls).map (·.header)).filter (·.pid = pid) =
      ((s.emission calls).filter (·.header.pid = pid)).map (·.header) :=
    List.filter_map
  obtain ⟨k, hk⟩ := TrackStore.consecutive_filter_emission hs calls pid
  rw [hmap, Tracker.checker_empty]
  exact ⟨k, Or.inl rfl, hk⟩

theorem fates_receive_emission {s : TrackStore} (hs : s.DistinctPids)
    (calls : List (TrackHandle × PayloadUnit)) (checked : Bool) :
    ((withContinuityCheck checked).receive
        ((s.emission calls).map Packet.encode).flatten).fates =
      (s.emission calls).map (.kept · none) := by
  have hsize : ∀ p ∈ s.emission calls, p.encode.length = packetSize :=
    fun p hp => (TrackStore.mem_emission hp).1
  cases checked with
  | false => exact fates_receive_unchecked hsize
  | true =>
    have hfates := fates_receive_checked {} hsize
    rw [verdicts_emission hs, fates_of_inSequence _ rfl] at hfates
    exact hfates

/-- **Round trip.**  A new receiver, whether it checks continuity or not, gets back as many packets
as the payloads need, the same ones in the same order as were sent, and has nothing to tell; and the
packets of each track, cut before the start marks, give the payloads sent on it but for the empty
ones. -/
theorem receive_sendAll {s : TrackStore} (hs : s.DistinctPids)
    {calls : List (TrackHandle × PayloadUnit)} (hcalls : ∀ call ∈ calls, (s.get? call.1).isSome)
    (checked : Bool) :
    let received := (withContinuityCheck checked).receive
      (s.sendAll calls (#[] : Array UInt8)).2.toList
    received.packets.length =
        (calls.map fun call => Track.packetCount call.2.payload.length).sum ∧
      received.packets.map Packet.encode = (s.sendAll calls (#[] : Array Bytes)).2.toList ∧
      received.fates = received.packets.map (.kept · none) ∧
      received.log = [] ∧
      ∀ h t, s.get? h = some t →
        unitPayloads (received.packets.filter (·.header.pid = t.pid)) =
          ((calls.filter (·.1 = h)).map (·.2.payload)).filter (· ≠ []) := by
  intro received
  have hsize : ∀ p ∈ s.emission calls, p.encode.length = packetSize :=
    fun p hp => (TrackStore.mem_emission hp).1
  have hfates : received.fates = (s.emission calls).map (.kept · none) := by
    show ((withContinuityCheck checked).receive _).fates = _
    rw [TrackStore.toList_sendAll_stream, fates_receive_emission hs]
  have htrailing : received.trailing = 0 := by
    show ((withContinuityCheck checked).receive _).trailing = 0
    rw [TrackStore.toList_sendAll_stream, trailing_receive _ hsize]
  obtain ⟨hpackets, hlog⟩ := Reception.of_fates_kept hfates htrailing
  rw [hpackets]
  refine ⟨TrackStore.length_emission hcalls, ?_, hfates, hlog, fun h t hget => ?_⟩
  · exact (s.toList_sendAll_packets calls).symm
  · rw [TrackStore.filter_emission hs hget, Track.unitPayloads_emission, List.map_map]
    rfl

/-- Two tracks in one stream, with an empty payload among those that are sent. -/
theorem receive_sendAll_of_two_tracks :
    let s : TrackStore := ⟨#[⟨⟨0x100, by decide⟩, .h264, Counter.ofNat 15⟩,
      ⟨⟨0x101, by decide⟩, .adtsAac, Counter.ofNat 3⟩]⟩
    let calls : List (TrackHandle × PayloadUnit) := [(⟨0⟩, ⟨List.replicate 200 1, false⟩),
      (⟨1⟩, ⟨[2], true⟩), (⟨0⟩, ⟨[], false⟩), (⟨0⟩, ⟨[3], false⟩)]
    s.DistinctPids ∧ (∀ call ∈ calls, (s.get? call.1).isSome) ∧
      unitPayloads (((withContinuityCheck true).receive
        (s.sendAll calls (#[] : Array UInt8)).2.toList).packets.filter
          (·.header.pid = ⟨0x100, by decide⟩)) = [List.replicate 200 1, [3]] := by
  intro s calls
  have hs : s.DistinctPids := by decide
  have hcalls : ∀ call ∈ calls, (s.get? call.1).isSome := by decide
  exact ⟨hs, hcalls, (receive_sendAll hs hcalls true).2.2.2.2 ⟨0⟩ _ rfl⟩

end Receiver

end TransportStream
