import Mathlib.Data.Set.Insert
import TransportStream.Receiver

/-!
# Streams received beside one another

What is received on some streams is what would be received if nothing else had come: packets of
other streams and bytes that are no packet leave no trace (`Receiver.receive_selection`).  The two
runs are of different length, and are compared packet by packet through receivers that agree on the
streams in question.
-/

namespace TransportStream

open Layout Continuity

section Selection

variable (streams : Set Pid) [DecidablePred (· ∈ streams)]

/-- What was read is a packet of one of these streams. -/
def Packet.belongsTo : Except FramingError Packet → Bool
  | .ok p => p.header.pid ∈ streams
  | .error _ => false

/-- What came of a packet of one of these streams. -/
def Fate.belongsTo : Fate → Bool
  | .skipped _ => false
  | .dropped p => p.header.pid ∈ streams
  | .kept p _ => p.header.pid ∈ streams

/-- The bytes of the packets of these streams, and nothing else. -/
def selection (data : Bytes) : Bytes :=
  ((Chunks.whole packetSize data).filter fun chunk =>
    Packet.belongsTo streams (Packet.parse chunk)).flatten

end Selection

variable {streams : Set Pid} [DecidablePred (· ∈ streams)]

theorem Packet.parseAll_selection (data : Bytes) :
    parseAll (selection streams data) = (parseAll data).filter (belongsTo streams) := by
  have hsize : ∀ chunk ∈ (Chunks.whole packetSize data).filter fun chunk =>
      belongsTo streams (parse chunk), chunk.length = packetSize := by
    intro chunk hchunk
    exact Chunks.length_of_mem_whole (List.mem_filter.mp hchunk).1
  rw [parseAll, selection, Chunks.whole_flatten (by decide) hsize, parseAll, List.filter_map]
  rfl

theorem Fate.belongsTo_ofVerdict (p : Packet) (v : Verdict) :
    (ofVerdict p v).belongsTo streams = decide (p.header.pid ∈ streams) := by
  cases v <;> rfl

theorem Fate.filterMap_received_filter (fates : List Fate) :
    (fates.filter (belongsTo streams)).filterMap received? =
      (fates.filterMap received?).filter (·.header.pid ∈ streams) := by
  rw [List.filterMap_filter, List.filter_filterMap]
  congr 1
  funext fate
  cases fate with
  | skipped cause => rfl
  | dropped p => cases h : belongsTo streams (.dropped p) <;> rfl
  | kept p gap => rfl

namespace Receiver

/-! ## Two receivers -/

/-- Both receivers check continuity or both do not, and on these streams they have come equally
far. -/
inductive AgreeOn (streams : Set Pid) : Receiver → Receiver → Prop
  | unchecked : AgreeOn streams ⟨none⟩ ⟨none⟩
  | checked {t u : Tracker} (h : ∀ pid ∈ streams, t.checker pid = u.checker pid) :
    AgreeOn streams ⟨some t⟩ ⟨some u⟩

theorem AgreeOn.refl (streams : Set Pid) (r : Receiver) : AgreeOn streams r r := by
  obtain ⟨continuity⟩ := r
  cases continuity with
  | none => exact .unchecked
  | some t => exact .checked fun pid _ => rfl

variable {r s : Receiver} {item : Except FramingError Packet}

theorem belongsTo_step (r : Receiver) (item : Except FramingError Packet) :
    (r.step item).1.belongsTo streams = Packet.belongsTo streams item := by
  obtain ⟨continuity⟩ := r
  cases item with
  | error cause => rfl
  | ok p =>
    cases continuity with
    | none => rfl
    | some t => exact Fate.belongsTo_ofVerdict p _

-- What belongs to another stream, or to none, may come to one receiver alone.
theorem AgreeOn.step_other (h : AgreeOn streams r s)
    (hother : Packet.belongsTo streams item = false) : AgreeOn streams (r.step item).2 s := by
  cases item with
  | error cause => exact h
  | ok p =>
    have hp : p.header.pid ∉ streams := of_decide_eq_false hother
    cases h with
    | unchecked => exact .unchecked
    | @checked t u h =>
      apply AgreeOn.checked
      intro pid hpid
      have hne : p.header.pid ≠ pid := fun heq => hp (heq ▸ hpid)
      show (t.check p.header).2.checker pid = u.checker pid
      rw [Tracker.checker_check, if_neg hne]
      exact h pid hpid

-- A packet of one of the streams has the same fate with both.
theorem AgreeOn.step_own (h : AgreeOn streams r s)
    (hown : Packet.belongsTo streams item = true) :
    (r.step item).1 = (s.step item).1 ∧ AgreeOn streams (r.step item).2 (s.step item).2 := by
  cases item with
  | error cause => cases hown
  | ok p =>
    have hp : p.header.pid ∈ streams := of_decide_eq_true hown
    cases h with
    | unchecked => exact ⟨rfl, .unchecked⟩
    | @checked t u h =>
      refine ⟨?_, .checked fun pid hpid => ?_⟩
      · show Fate.ofVerdict p (t.check p.header).1 = Fate.ofVerdict p (u.check p.header).1
        rw [Tracker.fst_check, Tracker.fst_check, h _ hp]
      · show (t.check p.header).2.checker pid = (u.check p.header).2.checker pid
        rw [Tracker.checker_check, Tracker.checker_check, h pid hpid]

-- By induction on all that is read; the second run goes on only at what the streams select.
theorem AgreeOn.fates_run (h : AgreeOn streams r s) (items : List (Except FramingError Packet)) :
    (r.run items).1.filter (Fate.belongsTo streams) =
      (s.run (items.filter (Packet.belongsTo streams))).1 := by
  induction items generalizing r s with
  | nil => rfl
  | cons item rest ih =>
    show ((r.step item).1 :: ((r.step item).2.run rest).1).filter _ = _
    by_cases hown : Packet.belongsTo streams item = true
    · obtain ⟨hfate, hagree⟩ := h.step_own hown
      rw [List.filter_cons_of_pos (by rw [belongsTo_step]; exact hown),
        List.filter_cons_of_pos hown, ih hagree, hfate]
      rfl
    · rw [List.filter_cons_of_neg (by rw [belongsTo_step]; exact hown),
        List.filter_cons_of_neg hown, ih (h.step_other (Bool.eq_false_iff.mpr hown))]

/-! ## What is received on some streams -/

theorem fates_receive_selection (r : Receiver) (data : Bytes) :
    (r.receive data).fates.filter (Fate.belongsTo streams) =
      (r.receive (selection streams data)).fates := by
  have hrun := (AgreeOn.refl streams r).fates_run (Packet.parseAll data)
  rw [← Packet.parseAll_selection] at hrun
  exact hrun

theorem packets_receive_selection (r : Receiver) (data : Bytes) :
    (r.receive data).packets.filter (·.header.pid ∈ streams) =
      (r.receive (selection streams data)).packets := by
  unfold Reception.packets
  rw [← Fate.filterMap_received_filter, fates_receive_selection]

/-! ## Other streams, and bytes that are no packet -/

-- Between packets there may stand anything that the streams do not select.
theorem selection_insert {before between : Bytes} (after : Bytes)
    (hbefore : packetSize ∣ before.length) (hbetween : packetSize ∣ between.length)
    (hother : ∀ chunk ∈ Chunks.whole packetSize between,
      Packet.belongsTo streams (Packet.parse chunk) = false) :
    selection streams (before ++ between ++ after) = selection streams (before ++ after) := by
  have hnone : ((Chunks.whole packetSize between).filter fun chunk =>
      Packet.belongsTo streams (Packet.parse chunk)) = [] := by
    rw [List.filter_eq_nil_iff]
    intro chunk hchunk
    rw [hother chunk hchunk]
    exact Bool.false_ne_true
  have hboth : packetSize ∣ (before ++ between).length := by
    rw [List.length_append]
    exact Nat.dvd_add hbefore hbetween
  unfold selection
  rw [Chunks.whole_append (by decide) hboth, Chunks.whole_append (by decide) hbefore,
    Chunks.whole_append (by decide) hbefore, List.filter_append, List.filter_append, hnone,
    List.append_nil, List.filter_append]

/-- **Noninterference.**  From any state, with a check or without one, the packets received on some
streams are those that are received if all other packets, and all bytes that are no packet, are
left out before; so two inputs with the same packets of these streams give the same packets on
them, and at any packet boundary any number of other packets and of bytes that are no packet may
be inserted or deleted. -/
theorem receive_selection (r : Receiver) (streams : Set Pid) [DecidablePred (· ∈ streams)] :
    (∀ data : Bytes, (r.receive data).packets.filter (·.header.pid ∈ streams) =
      (r.receive (selection streams data)).packets) ∧
    (∀ a b : Bytes, selection streams a = selection streams b →
      (r.receive a).packets.filter (·.header.pid ∈ streams) =
        (r.receive b).packets.filter (·.header.pid ∈ streams)) ∧
    (∀ before between after : Bytes,
      packetSize ∣ before.length → packetSize ∣ between.length →
      (∀ chunk ∈ Chunks.whole packetSize between,
        Packet.belongsTo streams (Packet.parse chunk) = false) →
      (r.receive (before ++ between ++ after)).packets.filter (·.header.pid ∈ streams) =
        (r.receive (before ++ after)).packets.filter (·.header.pid ∈ streams)) := by
  refine ⟨fun data => ?_, fun a b hsame => ?_, fun before between after hb hx hother => ?_⟩
  · exact r.packets_receive_selection data
  · rw [packets_receive_selection, packets_receive_selection, hsame]
  · rw [packets_receive_selection, packets_receive_selection,
      selection_insert after hb hx hother]

set_option maxRecDepth 4000 in
/-- A packet of another stream and one with a wrong first byte come before a packet, and between it
and its repeat; they do not keep the repeat from being dropped. -/
theorem receive_around_foreign_bytes :
    let streams : Set Pid := {⟨0x123, by decide⟩}
    let packet : Bytes := [0x47, 0x41, 0x23, 0x3f, 182, 0] ++ List.replicate 181 0xff ++ [7]
    let foreign : Bytes := [0x47, 0x41, 0x24, 0x30, 182, 0] ++ List.replicate 181 0xff ++ [8]
    let corrupt : Bytes := [0x46, 0x41, 0x23, 0x30, 182, 0] ++ List.replicate 181 0xff ++ [9]
    let between := foreign ++ corrupt
    let r := withContinuityCheck true
    let received (data : Bytes) := (r.receive data).packets.filter (·.header.pid ∈ streams)
    selection streams (between ++ packet ++ packet) = selection streams (packet ++ packet) ∧
      received (between ++ packet ++ packet) = received (packet ++ packet) ∧
      packetSize ∣ packet.length ∧ packetSize ∣ between.length ∧
      (∀ chunk ∈ Chunks.whole packetSize between,
        Packet.belongsTo streams (Packet.parse chunk) = false) ∧
      received (packet ++ between ++ packet) = received (packet ++ packet) ∧
      selection streams (packet ++ between ++ packet) = packet ++ packet ∧
      (r.receive (packet ++ packet)).packets.map (·.payload) = [[7]] := by
  intro streams packet foreign corrupt between r received
  have hsame : selection streams (between ++ packet ++ packet) =
      selection streams (packet ++ packet) := by decide +kernel
  have hpacket : packetSize ∣ packet.length := by decide +kernel
  have hbetween : packetSize ∣ between.length := by decide +kernel
  have hother : ∀ chunk ∈ Chunks.whole packetSize between,
      Packet.belongsTo streams (Packet.parse chunk) = false := by decide +kernel
  obtain ⟨-, hcongr, hinsert⟩ := receive_selection r streams
  exact ⟨hsame, hcongr _ _ hsame, hpacket, hbetween, hother,
    hinsert packet between packet hpacket hbetween hother, by decide +kernel, by cbv⟩

end Receiver

end TransportStream
