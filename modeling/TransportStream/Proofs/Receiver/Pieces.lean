import TransportStream.Receiver

/-!
# Bytes in pieces

The bytes of a stream may be handed over in any number of calls.  If each call but the last ends at
a packet boundary, all calls together are as good as one (`Receiver.receive_pieces`).  What is less
than a packet at the end of a call is lost, and nothing else is changed by it
(`Receiver.receive_take`).
-/

namespace TransportStream

open Layout

namespace Receiver

/-! ## The end of a call -/

theorem receive_take (r : Receiver) (data : Bytes) :
    (r.receive (data.take (packetSize * (data.length / packetSize)))).fates =
        (r.receive data).fates ∧
      (r.receive (data.take (packetSize * (data.length / packetSize)))).receiver =
        (r.receive data).receiver := by
  have hread : Packet.parseAll (data.take (packetSize * (data.length / packetSize))) =
      Packet.parseAll data := by
    rw [Packet.parseAll, Chunks.whole_take (by decide), Packet.parseAll]
  unfold receive
  rw [hread]
  exact ⟨rfl, rfl⟩

/-! ## Calls one after the other -/

theorem receiveAll_cons (r : Receiver) (piece : Bytes) (rest : List Bytes) :
    r.receiveAll (piece :: rest) =
      (r.receive piece :: ((r.receive piece).receiver.receiveAll rest).1,
        ((r.receive piece).receiver.receiveAll rest).2) := rfl

/-- All fates, and the receiver in the end, are those of one call on all bytes. -/
theorem receiveAll_eq (r : Receiver) {pieces : List Bytes}
    (h : ∀ piece ∈ pieces.dropLast, packetSize ∣ piece.length) :
    (r.receiveAll pieces).1.flatMap (·.fates) = (r.receive pieces.flatten).fates ∧
      (r.receiveAll pieces).2 = (r.receive pieces.flatten).receiver := by
  induction pieces generalizing r with
  | nil => exact ⟨rfl, rfl⟩
  | cons piece rest ih =>
    rw [receiveAll_cons, List.flatMap_cons, List.flatten_cons]
    by_cases hlast : rest = []
    · subst hlast
      rw [List.flatten_nil, List.append_nil]
      exact ⟨List.append_nil _, rfl⟩
    · rw [List.dropLast_cons_of_ne_nil hlast] at h
      have hpiece := h piece List.mem_cons_self
      obtain ⟨hfates, hreceiver⟩ := ih (r.receive piece).receiver fun p hp =>
        h p (List.mem_cons_of_mem piece hp)
      obtain ⟨hwhole, hend⟩ := r.receive_append (b := rest.flatten) hpiece
      rw [hfates, hreceiver, hwhole, hend]
      exact ⟨rfl, rfl⟩

theorem trailing_of_mem_receiveAll {r : Receiver} {pieces : List Bytes}
    (h : ∀ piece ∈ pieces, packetSize ∣ piece.length) :
    ∀ reception ∈ (r.receiveAll pieces).1, reception.trailing = 0 := by
  induction pieces generalizing r with
  | nil => intro reception hreception; cases hreception
  | cons piece rest ih =>
    intro reception hreception
    rcases List.mem_cons.mp hreception with rfl | hreception
    · exact Nat.mod_eq_zero_of_dvd (h piece List.mem_cons_self)
    · exact ih (fun p hp => h p (List.mem_cons_of_mem piece hp)) reception hreception

end Receiver

theorem Reception.flatMap_packets (receptions : List Reception) :
    receptions.flatMap (·.packets) =
      (receptions.flatMap (·.fates)).filterMap Fate.received? := by
  rw [List.filterMap_flatMap]
  rfl

-- Where no place in a call is told of, all that is told follows from all fates.
theorem Reception.flatMap_log {receptions : List Reception}
    (htrailing : ∀ r ∈ receptions, r.trailing = 0)
    (hplace : ∀ fate ∈ receptions.flatMap (·.fates), ∀ i, fate.events i = fate.events 0) :
    receptions.flatMap (·.log) = (receptions.flatMap (·.fates)).flatMap (·.events 0) := by
  rw [List.flatMap_assoc, List.flatMap_def, List.flatMap_def]
  congr 1
  apply List.map_congr_left
  intro r hr
  have hevents : (r.fates.mapIdx fun i fate => fate.events i) = r.fates.map (·.events 0) := by
    apply List.ext_getElem
    · rw [List.length_mapIdx, List.length_map]
    · intro i hi hi'
      rw [List.getElem_mapIdx, List.getElem_map]
      exact hplace _ (List.mem_flatMap.mpr ⟨r, hr, List.getElem_mem _⟩) i
  rw [log, if_pos (htrailing r hr), List.nil_append, hevents, List.flatMap_def]

namespace Receiver

/-- **Pieces.**  From any state, with a check or without one, pieces of which all but the last end
at a packet boundary give the same packets, the same fates and the same receiver as one call on all
bytes; and any bytes give what their whole packets give. -/
theorem receive_pieces (r : Receiver) :
    (∀ pieces : List Bytes, (∀ piece ∈ pieces.dropLast, packetSize ∣ piece.length) →
      (r.receiveAll pieces).1.flatMap (·.packets) = (r.receive pieces.flatten).packets ∧
      (r.receiveAll pieces).1.flatMap (·.fates) = (r.receive pieces.flatten).fates ∧
      (r.receiveAll pieces).2 = (r.receive pieces.flatten).receiver) ∧
    ∀ data : Bytes,
      let cut := data.take (packetSize * (data.length / packetSize))
      (r.receive data).packets = (r.receive cut).packets ∧
      (r.receive data).fates = (r.receive cut).fates ∧
      (r.receive data).receiver = (r.receive cut).receiver := by
  refine ⟨fun pieces h => ?_, fun data => ?_⟩
  · obtain ⟨hfates, hreceiver⟩ := r.receiveAll_eq h
    refine ⟨?_, hfates, hreceiver⟩
    rw [Reception.flatMap_packets, hfates]
    rfl
  · intro cut
    obtain ⟨hfates, hreceiver⟩ := r.receive_take data
    refine ⟨?_, hfates.symm, hreceiver.symm⟩
    show (r.receive data).fates.filterMap Fate.received? = _
    rw [← hfates]
    rfl

set_option maxRecDepth 4000 in
/-- A repeat that comes in another call than its original, and less than a packet at the end. -/
theorem receive_repeat_in_next_call :
    let packet : Bytes := [0x47, 0x41, 0x23, 0x3f, 182, 0] ++ List.replicate 181 0xff ++ [7]
    let pieces : List Bytes := [packet, List.replicate 188 0, packet ++ [0x47, 0x41]]
    let r := withContinuityCheck true
    (∀ piece ∈ pieces.dropLast, packetSize ∣ piece.length) ∧
      (r.receiveAll pieces).1.flatMap (·.packets) = (r.receive pieces.flatten).packets ∧
      (r.receive pieces.flatten).packets.map (·.payload) = [[7]] := by
  intro packet pieces r
  have hpieces : ∀ piece ∈ pieces.dropLast, packetSize ∣ piece.length := by decide +kernel
  refine ⟨hpieces, ((receive_pieces r).1 pieces hpieces).1, by cbv⟩

end Receiver

end TransportStream
