import TransportStream.Proofs.Receiver.Intake
import TransportStream.Proofs.Track.Emission

/-!
# Lost packets

A block of packets of one track is lost on the way.  The counter has sixteen values, so a receiver
sees the length of the hole modulo sixteen.  It tells of one gap, right behind the hole, with two
exceptions (`Receiver.receive_after_loss`): a hole of sixteen is not seen, and after one of fifteen
the next packet shows the counter of the last and is taken for its repeat.
-/

namespace TransportStream

open Layout Continuity

/-! ## The packet after the hole -/

namespace Continuity.Checker

variable {k : Counter} {h : Header} {n : Nat}

theorem check_after_hole_of_fifteen (hp : h.control.hasPayload = true)
    (hcounter : h.counter = k.advance (n + 1)) (hn : n % 16 = 15) :
    (⟨some k, false⟩ : Checker).check h = (.duplicate, ⟨some k, true⟩) := by
  have hsame : h.counter = k := by
    rw [hcounter, Counter.advance_eq_self_iff]
    omega
  exact check_repeat (congrArg some hsame.symm) hp rfl

theorem check_after_hole (hp : h.control.hasPayload = true)
    (hcounter : h.counter = k.advance (n + 1)) (hn : n % 16 ≠ 15) :
    (⟨some k, false⟩ : Checker).check h =
      (.ofCounters k.next h.counter, ⟨some h.counter, false⟩) := by
  refine check_other rfl hp fun hand => hn ?_
  have hsame := hand.1
  rw [hcounter, Counter.advance_eq_self_iff] at hsame
  omega

theorem fst_check_after_round (hp : h.control.hasPayload = true)
    (hcounter : h.counter = k.advance (n + 1)) (hn : n % 16 = 0) :
    ((⟨some k, false⟩ : Checker).check h).1 = .inSequence := by
  have hnext : h.counter = k.next := by
    rw [hcounter, Counter.next, Counter.advance_eq_advance_iff]
    omega
  rw [check_after_hole hp hcounter (by omega), Verdict.ofCounters, if_pos hnext]

-- The gap is as wide as the hole, modulo sixteen.
theorem fst_check_after_gap (hp : h.control.hasPayload = true)
    (hcounter : h.counter = k.advance (n + 1)) (hlow : 1 ≤ n % 16) (hhigh : n % 16 ≤ 14) :
    ∃ gap, ((⟨some k, false⟩ : Checker).check h).1 = .gap gap ∧
      (gap.found.value + 16 - gap.expected.value) % 16 = n % 16 := by
  have hne : h.counter ≠ k.next := by
    rw [hcounter, Counter.next, Ne, Counter.advance_eq_advance_iff]
    omega
  refine ⟨⟨k.next, h.counter⟩, ?_, ?_⟩
  · rw [check_after_hole hp hcounter (by omega), Verdict.ofCounters, if_neg hne]
  · rw [hcounter, Counter.value_next, Counter.value_advance]
    omega

-- After the packet behind the hole the checker goes on from its counter, whatever it said.
theorem inStep_after_hole (hp : h.control.hasPayload = true)
    (hcounter : h.counter = k.advance (n + 1)) :
    ((⟨some k, false⟩ : Checker).check h).2.InStep h.counter := by
  by_cases hn : n % 16 = 15
  · rw [check_after_hole_of_fifteen hp hcounter hn, hcounter]
    have hround : k.advance (n + 1) = k := by
      rw [Counter.advance_eq_self_iff]
      omega
    exact Or.inr (congrArg some hround.symm)
  · rw [check_after_hole hp hcounter hn]
    exact Or.inr rfl

/-! ## The packets on both sides -/

variable {before hole after : List Header} {first : Header}

theorem header_behind_hole (h : Consecutive k (before ++ hole ++ first :: after)) :
    first.control.hasPayload = true ∧
      first.counter = (k.advance before.length).advance (hole.length + 1) := by
  rw [consecutive_append] at h
  obtain ⟨⟨hp, hcounter⟩, -⟩ := consecutive_cons.mp h.2
  refine ⟨hp, ?_⟩
  rw [hcounter, List.length_append, Counter.next, Counter.advance_advance, Counter.advance_advance,
    Nat.add_assoc]

theorem verdicts_around_hole (h : Consecutive k (before ++ hole ++ first :: after))
    (hne : before ≠ []) :
    ({} : Checker).verdicts (before ++ first :: after) =
      List.replicate before.length .inSequence ++
        ((⟨some (k.advance before.length), false⟩ : Checker).check first).1 ::
        List.replicate after.length .inSequence := by
  obtain ⟨hp, hcounter⟩ := header_behind_hole h
  rw [consecutive_append, consecutive_append] at h
  obtain ⟨⟨hbefore, -⟩, hbehind⟩ := h
  obtain ⟨⟨-, hnext⟩, hafter⟩ := consecutive_cons.mp hbehind
  rw [← hnext] at hafter
  -- On both sides all counters go on by one, and the checker is in step with them from the start.
  have hnew : ({} : Checker).InStep k := Or.inl rfl
  rw [verdicts_append, verdicts_consecutive hnew hbefore, after_consecutive hnew hbefore hne,
    verdicts, verdicts_consecutive (inStep_after_hole hp hcounter) hafter]

end Continuity.Checker

/-! ## The whole stream -/

namespace Receiver

variable {t : Track} {units : List PayloadUnit} {before hole after : List Packet} {first : Packet}

-- Packets left over from a track are judged by the checker of its one stream.
theorem fates_receive_of_emission {ps : List Packet} (hmem : ∀ p ∈ ps, p ∈ t.emission units) :
    let received := (withContinuityCheck true).receive (ps.map Packet.encode).flatten
    received.fates =
        List.zipWith Fate.ofVerdict ps (({} : Checker).verdicts (ps.map (·.header))) ∧
      received.trailing = 0 := by
  intro received
  have hsize : ∀ p ∈ ps, p.encode.length = packetSize :=
    fun p hp => Track.length_encode_of_mem_emission (hmem p hp)
  have hpids : ∀ x ∈ ps.map (·.header), x.pid = t.pid := by
    intro x hx
    obtain ⟨p, hp, rfl⟩ := List.mem_map.mp hx
    exact Track.pid_of_mem_emission (hmem p hp)
  have hfates := fates_receive_checked {} hsize
  rw [Tracker.verdicts_eq_checker _ hpids, Tracker.checker_empty] at hfates
  exact ⟨hfates, trailing_receive _ hsize⟩

theorem header_behind (h : t.emission units = before ++ hole ++ first :: after) :
    first.header.pid = t.pid ∧ first.header.control.hasPayload = true ∧
      first.header.counter = (t.counter.advance before.length).advance (hole.length + 1) := by
  have hconsecutive := t.consecutive_emission units
  rw [h, List.map_append, List.map_append, List.map_cons] at hconsecutive
  have hbehind := Checker.header_behind_hole hconsecutive
  rw [List.length_map, List.length_map] at hbehind
  have hmem : first ∈ t.emission units := by
    rw [h]
    exact List.mem_append_right _ List.mem_cons_self
  exact ⟨Track.pid_of_mem_emission hmem, hbehind⟩

theorem getElem?_fates_behind {fates : List Fate} {fate : Fate}
    (h : fates = before.map (.kept · none) ++ fate :: after.map (.kept · none)) :
    fates[before.length]? = some fate := by
  rw [h, List.getElem?_append_right (by rw [List.length_map]), List.length_map, Nat.sub_self]
  rfl

-- With a block missing, only the packet behind the hole can have a fate of its own.
theorem receive_around_hole (h : t.emission units = before ++ hole ++ first :: after)
    (hne : before ≠ []) :
    let received := (withContinuityCheck true).receive
      ((before ++ first :: after).map Packet.encode).flatten
    let fate := Fate.ofVerdict first
      ((⟨some (t.counter.advance before.length), false⟩ : Checker).check first.header).1
    received.fates = before.map (.kept · none) ++ fate :: after.map (.kept · none) ∧
      received.packets = before ++ (fate.received?.toList ++ after) ∧
      received.log = fate.events before.length := by
  intro received fate
  have hmem : ∀ p ∈ before ++ first :: after, p ∈ t.emission units := by
    intro p hp
    rw [h, List.append_assoc]
    rcases List.mem_append.mp hp with hp | hp
    · exact List.mem_append_left _ hp
    · exact List.mem_append_right _ (List.mem_append_right _ hp)
  obtain ⟨hjudged, htrailing⟩ := fates_receive_of_emission hmem
  have hconsecutive := t.consecutive_emission units
  rw [h, List.map_append, List.map_append, List.map_cons] at hconsecutive
  have hverdicts := Checker.verdicts_around_hole hconsecutive (by simpa using hne)
  rw [← List.map_cons, ← List.map_append, List.length_map, List.length_map] at hverdicts
  have hfates : received.fates =
      before.map (.kept · none) ++ fate :: after.map (.kept · none) := by
    rw [hverdicts, List.zipWith_append (by rw [List.length_replicate]), List.zipWith_cons_cons,
      fates_of_inSequence _ rfl, fates_of_inSequence _ rfl] at hjudged
    exact hjudged
  exact ⟨hfates, Reception.of_fates_kept_but_one hfates htrailing⟩

-- What the counter tells of the hole decides that fate: three cases.
theorem receive_after_round (h : t.emission units = before ++ hole ++ first :: after)
    (hne : before ≠ []) (hn : hole.length % 16 = 0) :
    let received := (withContinuityCheck true).receive
      ((before ++ first :: after).map Packet.encode).flatten
    received.packets = before ++ first :: after ∧ received.log = [] := by
  intro received
  obtain ⟨-, hp, hcounter⟩ := header_behind h
  obtain ⟨-, hpackets, hlog⟩ := receive_around_hole h hne
  rw [Checker.fst_check_after_round hp hcounter hn] at hpackets hlog
  exact ⟨hpackets, hlog⟩

theorem receive_after_gap (h : t.emission units = before ++ hole ++ first :: after)
    (hne : before ≠ []) (hlow : 1 ≤ hole.length % 16) (hhigh : hole.length % 16 ≤ 14) :
    let received := (withContinuityCheck true).receive
      ((before ++ first :: after).map Packet.encode).flatten
    received.packets = before ++ first :: after ∧
      ∃ gap, received.fates[before.length]? = some (.kept first (some gap)) ∧
        received.log = [.gap t.pid gap.expected gap.found] ∧
        (gap.found.value + 16 - gap.expected.value) % 16 = hole.length % 16 := by
  intro received
  obtain ⟨hpid, hp, hcounter⟩ := header_behind h
  obtain ⟨hfates, hpackets, hlog⟩ := receive_around_hole h hne
  obtain ⟨gap, hverdict, hwidth⟩ := Checker.fst_check_after_gap hp hcounter hlow hhigh
  rw [hverdict] at hfates hpackets hlog
  refine ⟨hpackets, gap, getElem?_fates_behind hfates, ?_, hwidth⟩
  rw [← hpid]
  exact hlog

theorem receive_after_fifteen (h : t.emission units = before ++ hole ++ first :: after)
    (hne : before ≠ []) (hn : hole.length % 16 = 15) :
    let received := (withContinuityCheck true).receive
      ((before ++ first :: after).map Packet.encode).flatten
    received.packets = before ++ after ∧
      received.fates[before.length]? = some (.dropped first) ∧
      received.log = [.duplicate t.pid] := by
  intro received
  obtain ⟨hpid, hp, hcounter⟩ := header_behind h
  obtain ⟨hfates, hpackets, hlog⟩ := receive_around_hole h hne
  rw [Checker.check_after_hole_of_fifteen hp hcounter hn] at hfates hpackets hlog
  refine ⟨hpackets, getElem?_fates_behind hfates, ?_⟩
  rw [← hpid]
  exact hlog

-- With only the front missing, all counters still go on by one.
theorem receive_behind_front (h : t.emission units = before ++ after) :
    let received := (withContinuityCheck true).receive (after.map Packet.encode).flatten
    received.packets = after ∧ received.log = [] := by
  intro received
  have hmem : ∀ p ∈ after, p ∈ t.emission units := by
    intro p hp
    rw [h]
    exact List.mem_append_right _ hp
  obtain ⟨hfates, htrailing⟩ := fates_receive_of_emission hmem
  have hconsecutive := t.consecutive_emission units
  rw [h, List.map_append, consecutive_append] at hconsecutive
  rw [Checker.verdicts_consecutive (Or.inl rfl) hconsecutive.2, List.length_map,
    fates_of_inSequence _ rfl] at hfates
  exact Reception.of_fates_kept hfates htrailing

/-- **Loss.**  A block of a track's packets is lost that has packets on both sides.  All that is
left is received, with nothing to tell after a hole of whole rounds of the counter, and otherwise
with one gap that shows the length of the hole modulo sixteen; only if that is fifteen, the packet
behind the hole is dropped as a duplicate instead.  If what is lost comes first, nothing of the rest
is missing. -/
theorem receive_after_loss (t : Track) (units : List PayloadUnit) :
    (∀ before hole after : List Bytes,
      (t.sendAll units (#[] : Array Bytes)).2.toList = before ++ hole ++ after →
      before ≠ [] → after ≠ [] →
      let received := (withContinuityCheck true).receive (before ++ after).flatten
      (hole.length % 16 = 0 →
        received.packets.map Packet.encode = before ++ after ∧ received.log = []) ∧
      (1 ≤ hole.length % 16 → hole.length % 16 ≤ 14 →
        received.packets.map Packet.encode = before ++ after ∧
        ∃ first gap, after.head? = some first.encode ∧
          received.fates[before.length]? = some (.kept first (some gap)) ∧
          received.log = [.gap t.pid gap.expected gap.found] ∧
          (gap.found.value + 16 - gap.expected.value) % 16 = hole.length % 16) ∧
      (hole.length % 16 = 15 →
        received.packets.map Packet.encode = before ++ after.tail ∧
        ∃ first, after.head? = some first.encode ∧
          received.fates[before.length]? = some (.dropped first) ∧
          received.log = [.duplicate t.pid])) ∧
    ∀ lost rest : List Bytes, (t.sendAll units (#[] : Array Bytes)).2.toList = lost ++ rest →
      let received := (withContinuityCheck true).receive rest.flatten
      received.packets.map Packet.encode = rest ∧ received.log = [] := by
  rw [Track.toList_sendAll]
  -- The three parts of the bytes are the bytes of three parts of the packets.
  refine ⟨fun before hole after hsplit hb ha => ?_, fun lost rest hsplit => ?_⟩
  · obtain ⟨front, behind, hemission, hfront, rfl⟩ := List.map_eq_append_iff.mp hsplit
    obtain ⟨before, hole, rfl, rfl, rfl⟩ := List.map_eq_append_iff.mp hfront
    obtain ⟨first, after, rfl⟩ : ∃ first after, behind = first :: after :=
      List.exists_cons_of_ne_nil fun hnil => ha (by rw [hnil]; rfl)
    have hne : before ≠ [] := fun hnil => hb (by rw [hnil]; rfl)
    rw [← List.map_append, List.length_map, List.length_map]
    intro received
    refine ⟨fun hn => ?_, fun hlow hhigh => ?_, fun hn => ?_⟩
    · obtain ⟨hpackets, hlog⟩ := receive_after_round hemission hne hn
      exact ⟨congrArg (List.map Packet.encode) hpackets, hlog⟩
    · obtain ⟨hpackets, gap, hfate, hlog, hwidth⟩ := receive_after_gap hemission hne hlow hhigh
      exact ⟨congrArg (List.map Packet.encode) hpackets, first, gap, rfl, hfate, hlog, hwidth⟩
    · obtain ⟨hpackets, hfate, hlog⟩ := receive_after_fifteen hemission hne hn
      have hleft : received.packets.map Packet.encode = (before ++ after).map Packet.encode :=
        congrArg (List.map Packet.encode) hpackets
      rw [List.map_append] at hleft
      exact ⟨hleft, first, rfl, hfate, hlog⟩
  · obtain ⟨lost, rest, hemission, rfl, rfl⟩ := List.map_eq_append_iff.mp hsplit
    intro received
    obtain ⟨hpackets, hlog⟩ := receive_behind_front hemission
    exact ⟨congrArg (List.map Packet.encode) hpackets, hlog⟩

/-- Behind a hole of fifteen a good packet is dropped. -/
theorem receive_behind_hole_of_fifteen :
    let t := Track.fresh ⟨0x100, by decide⟩ .h264
    let sent := (t.sendAll (List.replicate 18 ⟨[7], false⟩) (#[] : Array Bytes)).2.toList
    sent = sent.take 1 ++ (sent.drop 1).take 15 ++ sent.drop 16 ∧
      sent.take 1 ≠ [] ∧ sent.drop 16 ≠ [] ∧ ((sent.drop 1).take 15).length % 16 = 15 ∧
      ((withContinuityCheck true).receive (sent.take 1 ++ sent.drop 16).flatten).packets.map
        Packet.encode = sent.take 1 ++ (sent.drop 16).tail := by
  intro t sent
  have hsplit : sent = sent.take 1 ++ (sent.drop 1).take 15 ++ sent.drop 16 := by decide +kernel
  have hbefore : sent.take 1 ≠ [] := by decide +kernel
  have hafter : sent.drop 16 ≠ [] := by decide +kernel
  have hhole : ((sent.drop 1).take 15).length % 16 = 15 := by decide +kernel
  exact ⟨hsplit, hbefore, hafter, hhole,
    (((receive_after_loss t _).1 _ _ _ hsplit hbefore hafter).2.2 hhole).1⟩

end Receiver

end TransportStream
