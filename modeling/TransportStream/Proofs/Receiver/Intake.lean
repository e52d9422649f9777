import TransportStream.Proofs.Continuity.Runs
import TransportStream.Proofs.Track.Packets
import TransportStream.Receiver

/-!
# Receiving packets that were written

A stream of written packets is cut at their boundaries again, so the fates are decided by the
continuity check alone (`Receiver.fates_receive_checked`), and without a check every packet is kept
(`Receiver.fates_receive_unchecked`).
-/

namespace TransportStream

open Layout Continuity

theorem Packet.length_of_mem_map_encode {ps : List Packet}
    (h : ∀ p ∈ ps, p.encode.length = packetSize) :
    ∀ data ∈ ps.map encode, data.length = packetSize := by
  intro data hdata
  obtain ⟨p, hp, rfl⟩ := List.mem_map.mp hdata
  exact h p hp

-- Written packets, joined, are cut and read as they were.
theorem Packet.parseAll_flatten_encode {ps : List Packet}
    (h : ∀ p ∈ ps, p.encode.length = packetSize) :
    parseAll (ps.map encode).flatten = ps.map .ok := by
  rw [parseAll, Chunks.whole_flatten (by decide) (length_of_mem_map_encode h), map_parse_encode h]

namespace Receiver

-- The verdicts on packets decide their fates.
theorem run_checked (t : Tracker) (ps : List Packet) :
    ((⟨some t⟩ : Receiver).run (ps.map .ok)).1 =
      List.zipWith Fate.ofVerdict ps (t.verdicts (ps.map (·.header))) := by
  induction ps generalizing t with
  | nil => rfl
  | cons p rest ih =>
    have hrest := ih (t.check p.header).2
    simp only [List.map_cons, run, step, Tracker.verdicts, List.zipWith_cons_cons, hrest]

theorem run_unchecked (ps : List Packet) :
    ((⟨none⟩ : Receiver).run (ps.map .ok)).1 = ps.map (.kept · none) := by
  rw [run_none, List.map_map]
  rfl

theorem fates_receive_checked (t : Tracker) {ps : List Packet}
    (h : ∀ p ∈ ps, p.encode.length = packetSize) :
    ((⟨some t⟩ : Receiver).receive (ps.map Packet.encode).flatten).fates =
      List.zipWith Fate.ofVerdict ps (t.verdicts (ps.map (·.header))) := by
  rw [receive, Packet.parseAll_flatten_encode h]
  exact run_checked t ps

theorem fates_receive_unchecked {ps : List Packet}
    (h : ∀ p ∈ ps, p.encode.length = packetSize) :
    ((⟨none⟩ : Receiver).receive (ps.map Packet.encode).flatten).fates =
      ps.map (.kept · none) := by
  rw [receive, Packet.parseAll_flatten_encode h]
  exact run_unchecked ps

theorem trailing_receive (r : Receiver) {ps : List Packet}
    (h : ∀ p ∈ ps, p.encode.length = packetSize) :
    (r.receive (ps.map Packet.encode).flatten).trailing = 0 := by
  show (ps.map Packet.encode).flatten.length % packetSize = 0
  rw [Chunks.length_flatten_of_length_eq (Packet.length_of_mem_map_encode h), Nat.mul_mod_right]

-- Packets in sequence are kept without a gap.
theorem fates_of_inSequence (ps : List Packet) {n : Nat} (h : n = ps.length) :
    List.zipWith Fate.ofVerdict ps (List.replicate n .inSequence) = ps.map (.kept · none) := by
  subst h
  induction ps with
  | nil => rfl
  | cons p rest ih =>
    rw [List.length_cons, List.replicate_succ, List.zipWith_cons_cons, ih, List.map_cons]
    rfl

end Receiver

namespace Reception

@[simp] theorem flatten_events_kept (index : Nat → Nat) (ps : List Packet) :
    ((ps.map (Fate.kept · none)).mapIdx fun i fate => fate.events (index i)).flatten = [] := by
  rw [List.flatten_eq_nil_iff]
  intro events hevents
  obtain ⟨i, hi, rfl⟩ := List.mem_mapIdx.mp hevents
  rw [List.getElem_map]
  rfl

@[simp] theorem filterMap_received_kept (ps : List Packet) :
    (ps.map (Fate.kept · none)).filterMap Fate.received? = ps := by
  rw [List.filterMap_map]
  exact List.filterMap_some

-- If every packet is kept without a gap, all are received and nothing is told.
theorem of_fates_kept {r : Reception} {ps : List Packet} (hfates : r.fates = ps.map (.kept · none))
    (htrailing : r.trailing = 0) : r.packets = ps ∧ r.log = [] := by
  constructor
  · rw [packets, hfates, filterMap_received_kept]
  · rw [log, if_pos htrailing, hfates, List.nil_append]
    exact flatten_events_kept id ps

-- If all but one packet are kept without a gap, that one alone decides what else is received and
-- what is told.
theorem of_fates_kept_but_one {r : Reception} {before after : List Packet} {fate : Fate}
    (hfates : r.fates = before.map (.kept · none) ++ fate :: after.map (.kept · none))
    (htrailing : r.trailing = 0) :
    r.packets = before ++ (fate.received?.toList ++ after) ∧
      r.log = fate.events before.length := by
  constructor
  · rw [packets, hfates, List.filterMap_append, filterMap_received_kept, List.filterMap_cons]
    cases fate.received? with
    | none => rw [filterMap_received_kept]; rfl
    | some p => rw [filterMap_received_kept]; rfl
  · rw [log, if_pos htrailing, hfates, List.nil_append, List.mapIdx_append, List.flatten_append,
      List.mapIdx_cons, List.flatten_cons]
    have hbefore := flatten_events_kept id before
    have hafter := flatten_events_kept (fun i => i + 1 + before.length) after
    simp only [id] at hbefore
    rw [hbefore, List.length_map, List.nil_append, Nat.zero_add, hafter, List.append_nil]

end Reception

end TransportStream
