import TransportStream.Proofs.Receiver.Intake
import TransportStream.Proofs.Receiver.Pieces
import TransportStream.Proofs.Track.Emission

/-!
# Packets sent twice

A sender may send any packet a second time, as long as no other packet of the same stream has come
between.  A receiver that checks continuity drops each of these copies and keeps all originals
(`Receiver.receive_retransmission`).  The streams are looked at one by one: on each of them a copy
comes right behind its original, and there the checker has just seen the same counter once.
-/

namespace TransportStream

open Layout Continuity

/-! ## Copies -/

/-- A packet on its way, sent for the first time or again. -/
structure Sending where
  packet : Packet
  again : Bool
  deriving DecidableEq

namespace Sending

def originals (stream : List Sending) : List Packet :=
  (stream.filter (!·.again)).map (·.packet)

def copies (stream : List Sending) : List Packet :=
  (stream.filter (·.again)).map (·.packet)

def bytes (stream : List Sending) : Bytes :=
  (stream.map (·.packet.encode)).flatten

/-- The last packet before a copy, among those with its identifier, is its original. -/
def CopiesInPlace (stream : List Sending) : Prop :=
  ∀ i (h : i < stream.length), stream[i].again = true →
    ((stream.take i).filter (·.packet.header.pid = stream[i].packet.header.pid)).getLast? =
      some ⟨stream[i].packet, false⟩

instance (stream : List Sending) : Decidable (CopiesInPlace stream) :=
  inferInstanceAs (Decidable (∀ i (h : i < stream.length), stream[i].again = true →
    ((stream.take i).filter (·.packet.header.pid = stream[i].packet.header.pid)).getLast? =
      some ⟨stream[i].packet, false⟩))

/-- What is to be said about a packet that is sent once or again, and what is to come of it. -/
def verdict (x : Sending) : Verdict :=
  if x.again then .duplicate else .inSequence

def fate (x : Sending) : Fate :=
  if x.again then .dropped x.packet else .kept x.packet none

theorem ofVerdict_verdict (x : Sending) : Fate.ofVerdict x.packet x.verdict = x.fate := by
  obtain ⟨p, again⟩ := x
  cases again <;> rfl

theorem filterMap_received_fate (stream : List Sending) :
    (stream.map fate).filterMap Fate.received? = originals stream := by
  rw [originals, List.filterMap_map, ← List.filterMap_eq_map, List.filterMap_filter]
  congr 1
  funext x
  obtain ⟨p, again⟩ := x
  cases again <;> rfl

-- What is told of a packet does not depend on its place.
theorem events_of_mem_fate {stream : List Sending} {f : Fate} (hf : f ∈ stream.map fate) (i : Nat) :
    f.events i = f.events 0 := by
  obtain ⟨⟨p, again⟩, -, rfl⟩ := List.mem_map.mp hf
  cases again <;> rfl

-- Only copies are told of, each by its identifier.
theorem flatMap_events_fate (stream : List Sending) :
    (stream.map fate).flatMap (·.events 0) =
      (copies stream).map fun p => .duplicate p.header.pid := by
  induction stream with
  | nil => rfl
  | cons x rest ih =>
    obtain ⟨p, again⟩ := x
    rw [List.map_cons, List.flatMap_cons, ih]
    cases again <;> rfl

theorem originals_filter (stream : List Sending) (pid : Pid) :
    originals (stream.filter (·.packet.header.pid = pid)) =
      (originals stream).filter (·.header.pid = pid) := by
  rw [originals, originals, List.filter_map, List.filter_filter, List.filter_filter]
  congr 2
  funext x
  exact Bool.and_comm ..

-- Whatever is sent again is one of the originals.
theorem packet_mem_originals {stream : List Sending} (h : CopiesInPlace stream) {x : Sending}
    (hx : x ∈ stream) : x.packet ∈ originals stream := by
  have horiginal : ⟨x.packet, false⟩ ∈ stream := by
    obtain ⟨i, hi, rfl⟩ := List.getElem_of_mem hx
    by_cases hagain : stream[i].again = true
    · have hlast := List.mem_of_getLast? (h i hi hagain)
      exact List.mem_of_mem_take (List.mem_filter.mp hlast).1
    · rw [Bool.not_eq_true] at hagain
      rw [← hagain]
      exact List.getElem_mem hi
  exact List.mem_map.mpr ⟨_, List.mem_filter.mpr ⟨horiginal, rfl⟩, rfl⟩

/-! ## One stream -/

/-- Each copy comes right behind its original, where `last` was sent before. -/
def RightBehind (last : Option Sending) : List Sending → Prop
  | [] => True
  | x :: rest => (x.again = true → last = some ⟨x.packet, false⟩) ∧ RightBehind (some x) rest

-- Among the packets with one identifier, copies in place are right behind their originals.
theorem CopiesInPlace.rightBehind {before rest : List Sending}
    (h : CopiesInPlace (before ++ rest)) (pid : Pid) :
    RightBehind (before.filter (·.packet.header.pid = pid)).getLast?
      (rest.filter (·.packet.header.pid = pid)) := by
  induction rest generalizing before with
  | nil => trivial
  | cons x rest ih =>
    have hnext : CopiesInPlace ((before ++ [x]) ++ rest) := by
      rw [List.append_assoc]
      exact h
    have hrest := ih hnext
    rw [List.filter_append] at hrest
    by_cases hpid : x.packet.header.pid = pid
    · rw [List.filter_cons_of_pos (by simpa using hpid), List.filter_nil,
        List.getLast?_concat] at hrest
      rw [List.filter_cons_of_pos (by simpa using hpid)]
      refine ⟨fun hagain => ?_, hrest⟩
      have hx := h before.length (by simp)
      simp only [List.getElem_append_right (Nat.le_refl _), Nat.sub_self, List.getElem_cons_zero,
        List.take_left', hpid] at hx
      exact hx hagain
    · rw [List.filter_cons_of_neg (by simpa using hpid), List.filter_nil, List.append_nil] at hrest
      rw [List.filter_cons_of_neg (by simpa using hpid)]
      exact hrest

end Sending

namespace Continuity.Checker

open Sending

/-- Where a checker stands behind the packet sent last: in step with the counter of the last
original, and if that is the packet itself, without having seen it repeated. -/
structure StandsBehind (c : Checker) (k : Counter) (last : Option Sending) : Prop where
  inStep : c.InStep k
  seenOnce : ∀ p, last = some ⟨p, false⟩ →
    p.header.control.hasPayload = true ∧ c = ⟨some p.header.counter, false⟩

namespace StandsBehind

variable {c : Checker} {k : Counter} {last : Option Sending} {p : Packet}

theorem new (k : Counter) : StandsBehind {} k none where
  inStep := Or.inl rfl
  seenOnce := by intro p hp; cases hp

-- A copy sets the flag and leaves the counter.
theorem check_copy (h : c.StandsBehind k (some ⟨p, false⟩)) :
    (c.check p.header).1 = .duplicate ∧ (c.check p.header).2.StandsBehind k (some ⟨p, true⟩) := by
  obtain ⟨hpayload, rfl⟩ := h.seenOnce p rfl
  rw [check_repeat rfl hpayload rfl]
  refine ⟨rfl, ?_, ?_⟩
  · rcases h.inStep with hnew | hlast
    · cases hnew
    · exact Or.inr hlast
  · intro q hq
    cases hq

-- The next original moves the counter on and clears the flag.
theorem check_original (h : c.StandsBehind k last) (hpayload : p.header.control.hasPayload = true)
    (hnext : p.header.counter = k.next) :
    (c.check p.header).1 = .inSequence ∧
      (c.check p.header).2.StandsBehind k.next (some ⟨p, false⟩) := by
  rw [check_next h.inStep hpayload hnext]
  refine ⟨rfl, Or.inr (congrArg some hnext), ?_⟩
  intro q hq
  cases hq
  exact ⟨hpayload, rfl⟩

end StandsBehind

theorem verdicts_rightBehind {c : Checker} {k : Counter} {last : Option Sending}
    {stream : List Sending} (hc : c.StandsBehind k last) (hplace : RightBehind last stream)
    (hcounters : Consecutive k ((originals stream).map (·.header))) :
    c.verdicts (stream.map (·.packet.header)) = stream.map verdict := by
  induction stream generalizing c k last with
  | nil => rfl
  | cons x rest ih =>
    obtain ⟨p, again⟩ := x
    obtain ⟨hcopy, hrest⟩ := hplace
    rw [List.map_cons, List.map_cons, verdicts]
    cases again with
    | true =>
      rw [hcopy rfl] at hc
      obtain ⟨hverdict, hc⟩ := hc.check_copy
      rw [hverdict, ih hc hrest hcounters]
      rfl
    | false =>
      obtain ⟨⟨hpayload, hnext⟩, hbehind⟩ := consecutive_cons.mp hcounters
      obtain ⟨hverdict, hc⟩ := hc.check_original hpayload hnext
      rw [hverdict, ih hc hrest hbehind]
      rfl

end Continuity.Checker

/-! ## All streams -/

namespace Continuity.Tracker

open Sending

theorem verdicts_retransmission {stream : List Sending} (hplace : CopiesInPlace stream)
    (hcounters : ∀ pid, ∃ k,
      Consecutive k (((originals stream).filter (·.header.pid = pid)).map (·.header))) :
    ({} : Tracker).verdicts (stream.map (·.packet.header)) = stream.map verdict := by
  apply verdicts_eq_of_streams
  · rw [List.length_map, List.length_map]
  · intro pid
    obtain ⟨k, hk⟩ := hcounters pid
    rw [← originals_filter] at hk
    have hown := CopiesInPlace.rightBehind (show CopiesInPlace ([] ++ stream) from hplace) pid
    have hverdicts := Checker.verdicts_rightBehind (.new k) hown hk
    rw [checker_empty, List.zip_map', List.filter_map, List.filter_map, List.map_map]
    exact hverdicts.symm

end Continuity.Tracker

namespace Receiver

open Sending

theorem fates_receive_retransmission {stream : List Sending} (hplace : CopiesInPlace stream)
    (hsize : ∀ p ∈ originals stream, p.encode.length = packetSize)
    (hcounters : ∀ pid, ∃ k,
      Consecutive k (((originals stream).filter (·.header.pid = pid)).map (·.header))) :
    ((withContinuityCheck true).receive (bytes stream)).fates = stream.map fate := by
  have hall : ∀ p ∈ stream.map (·.packet), p.encode.length = packetSize := by
    intro p hp
    obtain ⟨x, hx, rfl⟩ := List.mem_map.mp hp
    exact hsize _ (packet_mem_originals hplace hx)
  have hbytes : stream.map (·.packet.encode) = (stream.map (·.packet)).map Packet.encode := by
    rw [List.map_map]
    rfl
  have hheaders : (stream.map (·.packet)).map (·.header) = stream.map (·.packet.header) :=
    List.map_map
  show ((⟨some {}⟩ : Receiver).receive (bytes stream)).fates = _
  rw [bytes, hbytes, fates_receive_checked {} hall, hheaders,
    Tracker.verdicts_retransmission hplace hcounters, List.zipWith_map, List.zipWith_self]
  exact List.map_congr_left fun x _ => x.ofVerdict_verdict

/-- **Retransmission.**  Tracks with identifiers of their own send units into one stream, in any
order; of the packets of any unbroken part of it some are sent a second time, each before the next
packet of its track.  However the bytes come in whole packets, a new receiver that checks continuity
gets back that part as it was sent: each copy is dropped, each original is kept without a gap, and
nothing is told but of the copies. -/
theorem receive_retransmission {s : TrackStore} (hs : s.DistinctPids)
    (calls : List (TrackHandle × PayloadUnit)) {stream : List Sending}
    (horiginals : (originals stream).map Packet.encode <:+:
      (s.sendAll calls (#[] : Array Bytes)).2.toList)
    (hplace : CopiesInPlace stream) {pieces : List Bytes}
    (hpieces : ∀ piece ∈ pieces, packetSize ∣ piece.length)
    (hbytes : pieces.flatten = bytes stream) :
    let receptions := ((withContinuityCheck true).receiveAll pieces).1
    receptions.flatMap (·.packets) = originals stream ∧
      receptions.flatMap (·.fates) = stream.map fate ∧
      receptions.flatMap (·.log) = (copies stream).map fun p => .duplicate p.header.pid := by
  intro receptions
  rw [TrackStore.toList_sendAll_packets] at horiginals
  have hemission : originals stream <:+: s.emission calls :=
    Packet.infix_of_map_encode_infix horiginals fun p hp => (TrackStore.mem_emission hp).1
  have hsize : ∀ p ∈ originals stream, p.encode.length = packetSize := fun p hp =>
    (TrackStore.mem_emission (hemission.mem hp)).1
  have hcounters : ∀ pid, ∃ k,
      Consecutive k (((originals stream).filter (·.header.pid = pid)).map (·.header)) := by
    intro pid
    obtain ⟨k, hk⟩ := TrackStore.consecutive_filter_emission hs calls pid
    exact hk.of_infix ((hemission.filter _).map _)
  have hfates : receptions.flatMap (·.fates) = stream.map fate := by
    have hwhole := ((withContinuityCheck true).receiveAll_eq fun piece hpiece =>
      hpieces piece (List.dropLast_subset _ hpiece)).1
    rw [hbytes, fates_receive_retransmission hplace hsize hcounters] at hwhole
    exact hwhole
  refine ⟨?_, hfates, ?_⟩
  · rw [Reception.flatMap_packets, hfates, filterMap_received_fate]
  · rw [Reception.flatMap_log (trailing_of_mem_receiveAll hpieces), hfates, flatMap_events_fate]
    rw [hfates]
    exact fun f hf i => events_of_mem_fate hf i

/-- Two tracks, of which one goes round the counter, behind a packet that is not in the part, and a
copy of each packet of that track; one copy comes in another call than its original, behind a packet
of the other track. -/
theorem receive_two_copies :
    let video : Track := ⟨⟨0x100, by decide⟩, .h264, Counter.ofNat 14⟩
    let audio : Track := ⟨⟨0x101, by decide⟩, .adtsAac, Counter.ofNat 3⟩
    let s : TrackStore := ⟨#[video, audio]⟩
    let calls : List (TrackHandle × PayloadUnit) :=
      [(⟨1⟩, ⟨[0], false⟩), (⟨0⟩, ⟨[1], false⟩), (⟨1⟩, ⟨[2], true⟩), (⟨0⟩, ⟨[3], false⟩)]
    let first := (video.advance 1).packet true [1]
    let second := (audio.advance 2).packet true [2]
    let third := (video.advance 2).packet true [3]
    let stream : List Sending :=
      [⟨first, false⟩, ⟨second, false⟩, ⟨first, true⟩, ⟨third, false⟩, ⟨third, true⟩]
    let pieces : List Bytes :=
      [first.encode ++ second.encode, first.encode, [], third.encode ++ third.encode]
    s.DistinctPids ∧
      (originals stream).map Packet.encode <:+: (s.sendAll calls (#[] : Array Bytes)).2.toList ∧
      CopiesInPlace stream ∧ (∀ piece ∈ pieces, packetSize ∣ piece.length) ∧
      pieces.flatten = bytes stream ∧
      ((withContinuityCheck true).receiveAll pieces).1.flatMap (·.packets) =
        [first, second, third] := by
  intro video audio s calls first second third stream pieces
  have hs : s.DistinctPids := by decide
  have horiginals : (originals stream).map Packet.encode <:+:
      (s.sendAll calls (#[] : Array Bytes)).2.toList := by decide +kernel
  have hplace : CopiesInPlace stream := by decide +kernel
  have hpieces : ∀ piece ∈ pieces, packetSize ∣ piece.length := by decide +kernel
  have hbytes : pieces.flatten = bytes stream := by decide +kernel
  refine ⟨hs, horiginals, hplace, hpieces, hbytes, ?_⟩
  rw [(receive_retransmission hs calls horiginals hplace hpieces hbytes).1]
  rfl

end Receiver

end TransportStream
