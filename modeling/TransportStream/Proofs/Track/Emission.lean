import Mathlib.Algebra.Ring.Nat
import Mathlib.Data.List.SplitBy
import TransportStream.Proofs.Track.Packets
import TransportStream.Track.Store

/-!
# What several sends emit

Units sent one after the other, on one track or on the tracks of a store, and the packets that
reach the sink.  The counters of a track go on across its units, and its packets can be told apart
into units again (`unitPayloads_emission`).  Where tracks have identifiers of their own, the packets
with one identifier are those of its track alone (`TrackStore.filter_emission`).
-/

namespace TransportStream

open Layout Continuity

/-- The payloads of the units in some packets: the packets are cut before each one with a start
mark, and each piece is joined. -/
def unitPayloads (packets : List Packet) : List Bytes :=
  (packets.splitBy fun _ next => !next.header.payloadUnitStart).map
    fun unit => unit.flatMap (·.payload)

/-! ## One track -/

namespace Track

/-- The packets of each of several units sent one after the other. -/
def sentUnits (t : Track) : List PayloadUnit → List (List Packet)
  | [] => []
  | u :: rest => t.packets u :: (t.advance (packetCount u.payload.length)).sentUnits rest

/-- All packets of several units sent one after the other. -/
def emission (t : Track) (units : List PayloadUnit) : List Packet :=
  (t.sentUnits units).flatten

theorem emission_cons (t : Track) (u : PayloadUnit) (rest : List PayloadUnit) :
    t.emission (u :: rest) =
      t.packets u ++ (t.advance (packetCount u.payload.length)).emission rest :=
  List.flatten_cons

theorem sendAll_eq {σ : Type} [Sink σ] (t : Track) (units : List PayloadUnit) (sink : σ) :
    (t.sendAll units sink).2 = ((t.emission units).map Packet.encode).foldl Sink.write sink := by
  induction units generalizing t sink with
  | nil => rfl
  | cons u rest ih =>
    rw [sendAll, send, sendWith_eq, ih, emission_cons, List.map_append, List.foldl_append]

theorem toList_sendAll (t : Track) (units : List PayloadUnit) :
    (t.sendAll units (#[] : Array Bytes)).2.toList = (t.emission units).map Packet.encode := by
  simp [sendAll_eq]

theorem consecutive_emission (t : Track) (units : List PayloadUnit) :
    Consecutive t.counter ((t.emission units).map (·.header)) := by
  induction units generalizing t with
  | nil => exact consecutive_nil t.counter
  | cons u rest ih =>
    rw [emission_cons, List.map_append, consecutive_append, List.length_map, length_packets]
    exact ⟨consecutive_packets t u, ih _⟩

theorem mem_sentUnits {t : Track} {units : List PayloadUnit} {ps : List Packet}
    (h : ps ∈ t.sentUnits units) : ∃ n, ∃ u ∈ units, ps = (t.advance n).packets u := by
  induction units generalizing t with
  | nil => cases h
  | cons u rest ih =>
    rcases List.mem_cons.mp h with rfl | h
    · exact ⟨0, u, List.mem_cons_self, by simp⟩
    · obtain ⟨n, v, hv, rfl⟩ := ih h
      exact ⟨_, v, List.mem_cons_of_mem u hv, by rw [advance_advance]⟩

theorem mem_emission {t : Track} {units : List PayloadUnit} {p : Packet}
    (h : p ∈ t.emission units) : ∃ n, ∃ u ∈ units, p ∈ (t.advance n).packets u := by
  obtain ⟨ps, hps, hp⟩ := List.mem_flatten.mp h
  obtain ⟨n, u, hu, rfl⟩ := mem_sentUnits hps
  exact ⟨n, u, hu, hp⟩

theorem length_encode_of_mem_emission {t : Track} {units : List PayloadUnit} {p : Packet}
    (h : p ∈ t.emission units) : p.encode.length = packetSize := by
  obtain ⟨n, u, -, hp⟩ := mem_emission h
  exact length_encode_of_mem_packets hp

theorem pid_of_mem_emission {t : Track} {units : List PayloadUnit} {p : Packet}
    (h : p ∈ t.emission units) : p.header.pid = t.pid := by
  obtain ⟨n, u, -, hp⟩ := mem_emission h
  simpa using pid_of_mem_packets hp

/-! ### Telling units apart -/

theorem isChain_packets (t : Track) (u : PayloadUnit) :
    (t.packets u).IsChain fun _ next => !next.header.payloadUnitStart := by
  rw [List.isChain_iff_getElem]
  intro i hi
  rw [getElem_packets]
  rfl

theorem start_head_packets {t : Track} {u : PayloadUnit} (h : t.packets u ≠ []) :
    ((t.packets u).head h).header.payloadUnitStart = true := by
  rw [List.head_eq_getElem, getElem_packets]
  rfl

theorem packets_ne_nil_iff {t : Track} {u : PayloadUnit} : t.packets u ≠ [] ↔ u.payload ≠ [] := by
  rw [← flatMap_payload_packets t u]
  constructor
  · intro h hnil
    have hmem := List.head_mem h
    exact ne_nil_of_mem_pieces (payload_mem_pieces hmem) (List.flatMap_eq_nil_iff.mp hnil _ hmem)
  · intro h hnil
    rw [hnil] at h
    exact h rfl

-- Cutting the packets of several units before each start mark gives the units that have packets.
theorem splitBy_emission (t : Track) (units : List PayloadUnit) :
    (t.emission units).splitBy (fun _ next => !next.header.payloadUnitStart) =
      (t.sentUnits units).filter (· ≠ []) := by
  -- Each unit begins with a start mark and has no other, so a cut falls between units and nowhere
  -- else; units without packets have to go first, since they leave nothing to cut.
  rw [emission, ← List.flatten_filter_ne_nil]
  apply List.splitBy_flatten
  · intro h
    exact of_decide_eq_true (List.mem_filter.mp h).2 rfl
  · intro ps h
    obtain ⟨n, u, -, rfl⟩ := mem_sentUnits (List.mem_filter.mp h).1
    exact isChain_packets _ u
  · rw [List.isChain_iff_getElem]
    intro i hi
    have hne (j : Nat) (hj : j < ((t.sentUnits units).filter (· ≠ [])).length) :
        ((t.sentUnits units).filter (· ≠ []))[j] ≠ [] :=
      of_decide_eq_true (List.mem_filter.mp (List.getElem_mem hj)).2
    refine ⟨hne i (by omega), hne (i + 1) hi, ?_⟩
    obtain ⟨n, u, -, hu⟩ := mem_sentUnits (List.mem_filter.mp (List.getElem_mem hi)).1
    rw [Bool.not_eq_false']
    simp only [hu]
    exact start_head_packets _

theorem payloads_sentUnits (t : Track) (units : List PayloadUnit) :
    ((t.sentUnits units).filter (· ≠ [])).map (fun ps => ps.flatMap (·.payload)) =
      (units.map (·.payload)).filter (· ≠ []) := by
  induction units generalizing t with
  | nil => rfl
  | cons u rest ih =>
    rw [sentUnits, List.map_cons]
    by_cases h : u.payload = []
    · have hp : t.packets u = [] := by
        by_contra hne
        exact packets_ne_nil_iff.mp hne h
      rw [List.filter_cons_of_neg (by simpa using hp), List.filter_cons_of_neg (by simpa using h),
        ih]
    · have hp := packets_ne_nil_iff (t := t).mpr h
      rw [List.filter_cons_of_pos (by simpa using hp), List.filter_cons_of_pos (by simpa using h),
        List.map_cons, flatMap_payload_packets, ih]

/-- The units read from a track's packets are those with a payload, in the order of sending. -/
theorem unitPayloads_emission (t : Track) (units : List PayloadUnit) :
    unitPayloads (t.emission units) = (units.map (·.payload)).filter (· ≠ []) := by
  rw [unitPayloads, splitBy_emission, payloads_sentUnits]

end Track

/-! ## The tracks of a store -/

namespace TrackStore

def pid? (s : TrackStore) (h : TrackHandle) : Option Pid :=
  (s.get? h).map (·.pid)

/-- No two tracks have the same identifier. -/
def DistinctPids (s : TrackStore) : Prop :=
  (s.tracks.toList.map (·.pid)).Nodup

instance (s : TrackStore) : Decidable s.DistinctPids :=
  inferInstanceAs (Decidable (List.Nodup _))

/-- The packets of a unit on the track that a handle names. -/
def packets (s : TrackStore) (h : TrackHandle) (u : PayloadUnit) : List Packet :=
  match s.get? h with
  | some t => t.packets u
  | none => []

/-- The store with the track that a handle names `n` packets later. -/
def advance (s : TrackStore) (h : TrackHandle) (n : Nat) : TrackStore :=
  match s.get? h with
  | some t => s.set h (t.advance n)
  | none => s

/-- All packets of several units sent one after the other, each on its own track. -/
def emission (s : TrackStore) : List (TrackHandle × PayloadUnit) → List Packet
  | [] => []
  | (h, u) :: rest =>
    s.packets h u ++ (s.advance h (Track.packetCount u.payload.length)).emission rest

variable {s : TrackStore} {h k : TrackHandle} {t : Track}

theorem sendWith_eq {σ : Type} (write : σ → Bytes → σ) (s : TrackStore) (h : TrackHandle)
    (u : PayloadUnit) (sink : σ) :
    s.sendWith write h u sink = (s.advance h (Track.packetCount u.payload.length),
      ((s.packets h u).map Packet.encode).foldl write sink) := by
  cases hget : s.get? h with
  | none => simp only [sendWith, advance, packets, hget]; rfl
  | some t => simp only [sendWith, advance, packets, hget, Track.sendWith_eq]

theorem sendAll_eq {σ : Type} [Sink σ] (s : TrackStore) (calls : List (TrackHandle × PayloadUnit))
    (sink : σ) :
    (s.sendAll calls sink).2 = ((s.emission calls).map Packet.encode).foldl Sink.write sink := by
  induction calls generalizing s sink with
  | nil => rfl
  | cons call rest ih =>
    obtain ⟨h, u⟩ := call
    rw [sendAll, send, sendWith_eq, ih, emission, List.map_append, List.foldl_append]

-- A collection of packets, and one stream of bytes.
theorem toList_sendAll_packets (s : TrackStore) (calls : List (TrackHandle × PayloadUnit)) :
    (s.sendAll calls (#[] : Array Bytes)).2.toList = (s.emission calls).map Packet.encode := by
  simp [sendAll_eq]

theorem toList_sendAll_stream (s : TrackStore) (calls : List (TrackHandle × PayloadUnit)) :
    (s.sendAll calls (#[] : Array UInt8)).2.toList =
      ((s.emission calls).map Packet.encode).flatten := by
  simp [sendAll_eq]

@[simp] theorem get?_advance_self (hget : s.get? h = some t) (n : Nat) :
    (s.advance h n).get? h = some (t.advance n) := by
  simp [advance, hget]

@[simp] theorem get?_advance_of_ne (hne : h ≠ k) (n : Nat) : (s.advance h n).get? k = s.get? k := by
  rw [advance]
  cases s.get? h with
  | none => rfl
  | some t => simp [hne]

theorem pid?_of_get? (hget : s.get? h = some t) : s.pid? h = some t.pid := by
  rw [pid?, hget]
  rfl

-- Sending changes no identifier.
@[simp] theorem pid?_advance (s : TrackStore) (h k : TrackHandle) (n : Nat) :
    (s.advance h n).pid? k = s.pid? k := by
  by_cases hne : h = k
  · subst hne
    cases hget : s.get? h with
    | none => rw [advance, hget]
    | some t => rw [pid?, pid?, get?_advance_self hget, hget]; rfl
  · rw [pid?, pid?, get?_advance_of_ne hne]

theorem pid?_eq_getElem? (s : TrackStore) (h : TrackHandle) :
    s.pid? h = (s.tracks.toList.map (·.pid))[h.index]? := by
  rw [pid?, get?, List.getElem?_map, Array.getElem?_toList]

-- Where identifiers are distinct, they tell handles apart.
theorem DistinctPids.eq_of_pid?_eq (hs : s.DistinctPids) {pid : Pid} (hh : s.pid? h = some pid)
    (hk : s.pid? k = some pid) : h = k := by
  rw [pid?_eq_getElem?] at hh hk
  have hlt := (List.getElem?_eq_some_iff.mp hh).1
  have hindex := (List.getElem?_inj hlt hs).mp (hh.trans hk.symm)
  cases h; cases k
  exact congrArg TrackHandle.mk hindex

theorem DistinctPids.advance (hs : s.DistinctPids) (h : TrackHandle) (n : Nat) :
    (s.advance h n).DistinctPids := by
  have hsame : (s.advance h n).tracks.toList.map (·.pid) = s.tracks.toList.map (·.pid) := by
    apply List.ext_getElem?
    intro i
    have := s.pid?_advance h ⟨i⟩ n
    rw [pid?_eq_getElem?, pid?_eq_getElem?] at this
    exact this
  rw [DistinctPids, hsame]
  exact hs

@[simp] theorem isSome_get?_advance (s : TrackStore) (h k : TrackHandle) (n : Nat) :
    ((s.advance h n).get? k).isSome = (s.get? k).isSome := by
  have := congrArg Option.isSome (s.pid?_advance h k n)
  rw [pid?, pid?, Option.isSome_map, Option.isSome_map] at this
  exact this

-- Each call adds as many packets as its payload needs.
theorem length_emission {calls : List (TrackHandle × PayloadUnit)}
    (hcalls : ∀ call ∈ calls, (s.get? call.1).isSome) :
    (s.emission calls).length =
      (calls.map fun call => Track.packetCount call.2.payload.length).sum := by
  induction calls generalizing s with
  | nil => rfl
  | cons call rest ih =>
    obtain ⟨h, u⟩ := call
    have hrest := ih (s := s.advance h (Track.packetCount u.payload.length)) fun c hc => by
      rw [isSome_get?_advance]
      exact hcalls c (List.mem_cons_of_mem _ hc)
    obtain ⟨t, hget⟩ := Option.isSome_iff_exists.mp (hcalls (h, u) List.mem_cons_self)
    have hown : s.packets h u = t.packets u := by rw [packets, hget]
    rw [emission, List.length_append, hown, Track.length_packets, hrest, List.map_cons,
      List.sum_cons]

theorem mem_emission {calls : List (TrackHandle × PayloadUnit)} {p : Packet}
    (hp : p ∈ s.emission calls) :
    p.encode.length = packetSize ∧ ∃ h, s.pid? h = some p.header.pid := by
  induction calls generalizing s with
  | nil => cases hp
  | cons call rest ih =>
    obtain ⟨h, u⟩ := call
    rcases List.mem_append.mp hp with hp | hp
    · cases hget : s.get? h with
      | none => rw [packets, hget] at hp; cases hp
      | some t =>
        rw [packets, hget] at hp
        refine ⟨Track.length_encode_of_mem_packets hp, h, ?_⟩
        rw [Track.pid_of_mem_packets hp]
        exact pid?_of_get? hget
    · obtain ⟨hsize, k, hk⟩ := ih hp
      rw [pid?_advance] at hk
      exact ⟨hsize, k, hk⟩

-- Among all packets sent, those with the identifier of a track are the ones that were sent on it.
theorem filter_emission (hs : s.DistinctPids) (hget : s.get? h = some t)
    (calls : List (TrackHandle × PayloadUnit)) :
    (s.emission calls).filter (·.header.pid = t.pid) =
      t.emission ((calls.filter (·.1 = h)).map (·.2)) := by
  -- By induction on the calls: one on the track itself moves its counter on, and one on another
  -- track leaves it as it was and adds only packets with another identifier.
  induction calls generalizing s t with
  | nil => rfl
  | cons call rest ih =>
    obtain ⟨k, u⟩ := call
    rw [emission, List.filter_append]
    by_cases hk : k = h
    · subst hk
      have hown : (s.packets k u).filter (·.header.pid = t.pid) = t.packets u := by
        rw [packets, hget]
        exact List.filter_eq_self.mpr fun p hp => decide_eq_true (Track.pid_of_mem_packets hp)
      have hrest := ih (hs.advance k (Track.packetCount u.payload.length))
        (get?_advance_self hget _)
      rw [hown, List.filter_cons_of_pos (by simp), List.map_cons, Track.emission_cons, ← hrest]
      rfl
    · have hother : (s.packets k u).filter (·.header.pid = t.pid) = [] := by
        rw [List.filter_eq_nil_iff]
        intro p hp heq
        rw [packets] at hp
        cases hget' : s.get? k with
        | none => rw [hget'] at hp; cases hp
        | some t' =>
          rw [hget'] at hp
          have hpid : t'.pid = t.pid :=
            (Track.pid_of_mem_packets hp).symm.trans (of_decide_eq_true heq)
          exact hk (hs.eq_of_pid?_eq (pid?_of_get? hget') (hpid ▸ pid?_of_get? hget))
      have hrest := ih (hs.advance k (Track.packetCount u.payload.length))
        ((get?_advance_of_ne hk _).trans hget)
      rw [hother, List.nil_append, List.filter_cons_of_neg (by simpa using hk), hrest]

-- On each identifier the counters of all packets sent go on by one.
theorem consecutive_filter_emission (hs : s.DistinctPids)
    (calls : List (TrackHandle × PayloadUnit)) (pid : Pid) :
    ∃ k, Consecutive k (((s.emission calls).filter (·.header.pid = pid)).map (·.header)) := by
  by_cases hpid : ∃ h, s.pid? h = some pid
  · obtain ⟨h, hh⟩ := hpid
    obtain ⟨t, hget, rfl⟩ := Option.map_eq_some_iff.mp hh
    rw [filter_emission hs hget]
    exact ⟨t.counter, t.consecutive_emission _⟩
  -- No track has the identifier, so no packet has it.
  · have hnone : (s.emission calls).filter (·.header.pid = pid) = [] := by
      rw [List.filter_eq_nil_iff]
      intro p hp heq
      obtain ⟨-, h, hh⟩ := mem_emission hp
      exact hpid ⟨h, hh.trans (congrArg some (of_decide_eq_true heq))⟩
    rw [hnone]
    exact ⟨Counter.ofNat 0, consecutive_nil _⟩

end TrackStore

end TransportStream
