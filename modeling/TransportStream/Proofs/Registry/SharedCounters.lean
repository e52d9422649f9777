import Mathlib.Data.List.DropRight
import TransportStream.Proofs.Registry.Session

/-!
# Counters that several holders share

Whoever holds a handle to a track moves its counter, and every other holder of that track sees it.
The counter stands where it was last put, by one of them or when the track was made, and as many
steps further as packets were sent on the track since, by whomever.  Copies are tracks of their own.
All this holds after any calls in any order (`Session.shared_counters`).
-/

namespace TransportStream

open Continuity

/-! ## Accounts of one track -/

namespace TrackEvent

/-- The value at which an event puts the counter of a track. -/
def given? (k : TrackHandle) : TrackEvent → Option Nat
  | made h t => if h = k then some t.counter.value else none
  | set h n => if h = k then some n else none
  | sent _ _ => none

def packet? (k : TrackHandle) : TrackEvent → Option Bytes
  | sent h packet => if h = k then some packet else none
  | made _ _ | set _ _ => none

/-- The packets that were sent on a track since its counter was last put somewhere. -/
def sentSince (k : TrackHandle) (events : List TrackEvent) : List Bytes :=
  (events.rtakeWhile fun e => (e.given? k).isNone).filterMap (·.packet? k)

/-- Where the counter of a track was last put: by an event, or else where it stood at the start. -/
def basis (k : TrackHandle) (start : Option Track) (events : List TrackEvent) : Nat :=
  (events.filterMap (·.given? k)).getLast?.getD (start.elim 0 (·.counter.value))

variable {k : TrackHandle} {past : List TrackEvent} {e : TrackEvent}

theorem sentSince_concat_of_given {n : Nat} (h : e.given? k = some n) :
    sentSince k (past ++ [e]) = [] := by
  rw [sentSince, List.rtakeWhile_concat_neg _ _ _ (by rw [h]; exact Bool.false_ne_true)]
  rfl

theorem sentSince_concat (h : e.given? k = none) :
    sentSince k (past ++ [e]) = sentSince k past ++ (e.packet? k).toList := by
  rw [sentSince, List.rtakeWhile_concat_pos _ _ _ (by rw [h]; rfl), List.filterMap_append]
  cases hp : e.packet? k with
  | none => rw [List.filterMap_cons_none hp]; rfl
  | some packet => rw [List.filterMap_cons_some hp]; rfl

theorem basis_concat_of_given {n : Nat} (h : e.given? k = some n) (start : Option Track) :
    basis k start (past ++ [e]) = n := by
  rw [basis, List.filterMap_append, List.filterMap_cons_some h, List.filterMap_nil,
    List.getLast?_concat]
  rfl

theorem basis_concat (h : e.given? k = none) (start : Option Track) :
    basis k start (past ++ [e]) = basis k start past := by
  rw [basis, List.filterMap_append, List.filterMap_cons_none h, List.filterMap_nil,
    List.append_nil]
  rfl

-- Events on other tracks enter no account.
theorem given?_of_ne (h : e.handle ≠ k) : e.given? k = none := by
  cases e with
  | made | set => exact if_neg h
  | sent => rfl

theorem packet?_of_ne (h : e.handle ≠ k) : e.packet? k = none := by
  cases e with
  | made | set => rfl
  | sent => exact if_neg h

theorem eq_sent_of_packet? {packet : Bytes} (h : e.packet? k = some packet) :
    e = .sent k packet := by
  cases e with
  | made | set => cases h
  | sent h' packet' =>
    obtain ⟨rfl, heq⟩ := Option.ite_none_right_eq_some.mp h
    rw [Option.some.inj heq]

theorem sentSince_concat_of_ne (h : e.handle ≠ k) :
    sentSince k (past ++ [e]) = sentSince k past := by
  rw [sentSince_concat (given?_of_ne h), packet?_of_ne h]
  exact List.append_nil _

/-- What events leave of a track has its counter where it was last put and as many steps further as
packets were sent since. -/
theorem counter_of_foldl {start : Option Track} {events : List TrackEvent} {t : Track}
    (h : events.foldl (effect k) start = some t) :
    t.counter.value = (basis k start events + (sentSince k events).length) % 16 := by
  induction events using List.reverseRecOn generalizing t with
  | nil =>
    obtain rfl : start = some t := h
    exact (Nat.mod_eq_of_lt t.counter.value_lt).symm
  | append_singleton past e ih =>
    rw [List.foldl_concat] at h
    by_cases hk : e.handle = k
    · cases e with
      | made h' u =>
        obtain rfl : h' = k := hk
        have hgiven : (made h' u).given? h' = some u.counter.value := if_pos rfl
        rw [effect, if_pos rfl, Option.some.injEq] at h
        rw [basis_concat_of_given hgiven, sentSince_concat_of_given hgiven, ← h]
        exact (Nat.mod_eq_of_lt u.counter.value_lt).symm
      | set h' n =>
        obtain rfl : h' = k := hk
        have hgiven : (set h' n).given? h' = some n := if_pos rfl
        rw [effect, if_pos rfl] at h
        obtain ⟨u, -, rfl⟩ := Option.map_eq_some_iff.mp h
        rw [basis_concat_of_given hgiven, sentSince_concat_of_given hgiven]
        rfl
      | sent h' packet =>
        obtain rfl : h' = k := hk
        have hpacket : (sent h' packet).packet? h' = some packet := if_pos rfl
        rw [effect, if_pos rfl] at h
        obtain ⟨u, hu, rfl⟩ := Option.map_eq_some_iff.mp h
        rw [basis_concat rfl, sentSince_concat rfl, hpacket, Option.toList_some, List.length_append,
          List.length_singleton, Track.advance, Counter.value_advance, ih hu]
        omega
    · rw [effect_of_ne hk] at h
      rw [basis_concat (given?_of_ne hk), sentSince_concat_of_ne hk, ih h]

end TrackEvent

namespace Session

open TrackEvent

variable {s : Session} {h k : TrackHandle} {t : Track}

/-! ## Packets sent -/

-- A packet that is sent in a call carries the counter behind the one that its track has then.
theorem sent_of_events {c : Call} {past rest : List TrackEvent} {packet : Bytes}
    (hevents : s.events c = past ++ .sent h packet :: rest) :
    ∃ t p, past.foldl (effect h) (s.store.get? h) = some t ∧ Packet.parse packet = .ok p ∧
      p.header.control.hasPayload = true ∧ p.header.counter = t.counter.next := by
  have hmem : .sent h packet ∈ s.events c := by
    rw [hevents]
    exact List.mem_append_right past List.mem_cons_self
  cases c with
  | addTrack | get | copy =>
    -- These do nothing but make tracks.
    rcases mem_events hmem with ⟨h', t', hmade, -⟩ | ⟨holder, hc, -⟩
    · cases hmade
    · cases hc
  | setCounter holder n =>
    simp only [events] at hmem
    split at hmem
    · cases List.mem_singleton.mp hmem
    · cases hmem
  | send holder u =>
    cases hold : s.holding? holder with
    | none => simp only [events, hold, List.not_mem_nil] at hmem
    | some named =>
      obtain ⟨h', t⟩ := named
      have hget := get?_of_holding? hold
      simp only [events, hold, toList_send hget, List.map_map] at hevents
      obtain ⟨before, after, hpackets, rfl, hafter⟩ := List.map_eq_append_iff.mp hevents
      obtain ⟨p, after, rfl, hp, -⟩ := List.map_eq_cons_iff.mp hafter
      obtain ⟨rfl, rfl⟩ := TrackEvent.sent.inj hp
      have hsize := Track.length_encode_of_mem_packets (t := t) (u := u) (p := p) (by
        rw [hpackets]
        exact List.mem_append_right before List.mem_cons_self)
      have hheaders := t.consecutive_packets u
      rw [hpackets, List.map_append, List.map_cons, consecutive_append, consecutive_cons] at hheaders
      obtain ⟨-, ⟨hpayload, hcounter⟩, -⟩ := hheaders
      refine ⟨t.advance before.length, p, ?_, Packet.parse_encode hsize, hpayload, ?_⟩
      · rw [← List.map_map, foldl_effect_sent, if_pos rfl, List.length_map, hget]
        rfl
      · rw [hcounter, List.length_map]
        rfl

theorem sent_of_trace {calls : List Call} {past rest : List TrackEvent} {packet : Bytes}
    (htrace : s.trace calls = past ++ .sent h packet :: rest) :
    ∃ t p, past.foldl (effect h) (s.store.get? h) = some t ∧ Packet.parse packet = .ok p ∧
      p.header.control.hasPayload = true ∧ p.header.counter = t.counter.next := by
  induction calls generalizing s past with
  | nil => cases past <;> cases htrace
  | cons c calls ih =>
    rw [trace, List.append_eq_append_iff] at htrace
    rcases htrace with ⟨later, rfl, htrace⟩ | ⟨now, hevents, hnow⟩
    · rw [List.foldl_append, ← get?_step]
      exact ih htrace
    · cases now with
      | nil =>
        -- The packet is the first thing to happen behind this call.
        rw [List.append_nil] at hevents
        have hnext : (s.step c).trace calls = [] ++ .sent h packet :: rest := hnow.symm
        rw [← hevents, ← get?_step]
        exact ih hnext
      | cons e now =>
        rw [List.cons_append, List.cons.injEq] at hnow
        rw [← hnow.1] at hevents
        exact sent_of_events hevents

/-- At any moment of a run, the packets that were sent on a track since its counter was last put
somewhere carry the counters that follow. -/
theorem consecutive_sentSince {calls : List Call} {past : List TrackEvent}
    (hpast : past <+: s.trace calls) (k : TrackHandle) :
    ∃ packets : List Packet, (sentSince k past).map Packet.parse = packets.map .ok ∧
      Consecutive (Counter.ofNat (basis k (s.store.get? k) past)) (packets.map (·.header)) := by
  induction past using List.reverseRecOn with
  | nil => exact ⟨[], rfl, consecutive_nil _⟩
  | append_singleton past e ih =>
    obtain ⟨packets, hparse, hconsecutive⟩ := ih ((List.prefix_append past [e]).trans hpast)
    cases hgiven : e.given? k with
    | some n => exact ⟨[], by rw [sentSince_concat_of_given hgiven]; rfl, consecutive_nil _⟩
    | none =>
      rw [sentSince_concat hgiven, basis_concat hgiven]
      cases hpacket : e.packet? k with
      | none => exact ⟨packets, by rw [Option.toList_none, List.append_nil, hparse], hconsecutive⟩
      | some packet =>
        rw [eq_sent_of_packet? hpacket] at hpast
        obtain ⟨rest, htrace⟩ := hpast
        rw [List.append_assoc, List.singleton_append] at htrace
        obtain ⟨t, p, hfold, hp, hpayload, hcounter⟩ := sent_of_trace htrace.symm
        have hlen : (sentSince k past).length = packets.length := by
          rw [← List.length_map (fun data => Packet.parse data), hparse, List.length_map]
        have hbefore : t.counter =
            (Counter.ofNat (basis k (s.store.get? k) past)).advance packets.length := by
          apply Counter.ext
          rw [counter_of_foldl hfold, hlen, Counter.value_advance, Counter.value_ofNat,
            Nat.mod_add_mod]
        refine ⟨packets ++ [p], ?_, ?_⟩
        · rw [Option.toList_some, List.map_append, List.map_append, hparse, List.map_singleton, hp]
          rfl
        · rw [List.map_append, consecutive_append, List.length_map, ← hbefore]
          exact ⟨hconsecutive, consecutive_cons.mpr ⟨⟨hpayload, hcounter⟩, consecutive_nil _⟩⟩

/-! ## Handles -/

theorem getElem?_held_step {holder : Nat} (hheld : s.held[holder]? = some h) (c : Call) :
    (s.step c).held[holder]? = some h := by
  -- Handles are only added, behind those that were given out before.
  have hgrown (k : TrackHandle) : (s.held ++ [k])[holder]? = some h := by
    rw [List.getElem?_append_left (List.getElem?_eq_some_iff.mp hheld).1, hheld]
  cases c with
  | addTrack | get | copy =>
    simp only [step]
    split
    · exact hgrown _
    · exact hheld
  | setCounter | send => simp only [step]; split <;> exact hheld

theorem holding?_step {holder : Nat} (hold : s.holding? holder = some (h, t)) (c : Call) :
    ∃ u, (s.step c).holding? holder = some (h, u) ∧ u.pid = t.pid ∧ u.streamType = t.streamType := by
  obtain ⟨hheld, hget⟩ := holding?_eq_some_iff.mp hold
  obtain ⟨u, hgetu, hsame⟩ := exists_get?_step hget c
  exact ⟨u, holding?_eq_some_iff.mpr ⟨getElem?_held_step hheld c, hgetu⟩, hsame⟩

-- A handle names one track for good, and what the track is does not change.
theorem holding?_after {holder : Nat} (hold : s.holding? holder = some (h, t))
    (calls : List Call) :
    ∃ u, (s.after calls).holding? holder = some (h, u) ∧ u.pid = t.pid ∧
      u.streamType = t.streamType := by
  induction calls generalizing s t with
  | nil => exact ⟨t, hold, rfl, rfl⟩
  | cons c rest ih =>
    obtain ⟨u, hstep, hpid, htype⟩ := holding?_step hold c
    obtain ⟨v, hafter, hpid', htype'⟩ := ih hstep
    exact ⟨v, hafter, hpid'.trans hpid, htype'.trans htype⟩

-- Only those who hold the track can change it.
theorem get?_step_of_other {c : Call} (hget : s.store.get? k = some t)
    (hother : ∀ holder, c.changes? = some holder → s.held[holder]? ≠ some k) :
    (s.step c).store.get? k = some t := by
  have hne : ∀ e ∈ s.events c, e.handle ≠ k := by
    rintro e he rfl
    rcases mem_events he with ⟨h, u, rfl, hnone⟩ | ⟨holder, hc, hheld, -⟩
    · rw [TrackEvent.handle, hnone] at hget
      cases hget
    · exact hother holder hc hheld
  rw [get?_step, foldl_effect_of_ne hne, hget]

/-- Every handle that was given out or that the registry keeps names a track.  A handle without a
track might come to name a copy that somebody else makes. -/
structure Live (s : Session) : Prop where
  held : ∀ h ∈ s.held, (s.store.get? h).isSome
  listed : ∀ h ∈ s.registry.handles, (s.store.get? h).isSome

theorem isSome_get?_step (hk : (s.store.get? k).isSome) (c : Call) :
    ((s.step c).store.get? k).isSome := by
  obtain ⟨t, hget⟩ := Option.isSome_iff_exists.mp hk
  obtain ⟨u, hgetu, -⟩ := exists_get?_step hget c
  exact Option.isSome_iff_exists.mpr ⟨u, hgetu⟩

theorem Live.step (hl : s.Live) (c : Call) : (s.step c).Live := by
  -- The handles from before stay live; what is left to see is the one that the call gives out.
  have hheld : ∀ h ∈ s.held, ((s.step c).store.get? h).isSome :=
    fun h hh => isSome_get?_step (hl.held h hh) c
  have hlisted : ∀ h ∈ s.registry.handles, ((s.step c).store.get? h).isSome :=
    fun h hh => isSome_get?_step (hl.listed h hh) c
  have hadded (t : Track) : ((s.store.add t).2.get? (s.store.add t).1).isSome := by
    simp
  cases c with
  | addTrack streamType =>
    cases hpid : s.registry.freshPid with
    | error e =>
      simp only [Session.step, Registry.addTrack_of_refused hpid]
      exact hl
    | ok pid =>
      simp only [Session.step, Registry.addTrack_of_freshPid hpid] at hheld hlisted ⊢
      constructor
      · exact List.forall_mem_append.mpr ⟨hheld, List.forall_mem_singleton.mpr (hadded _)⟩
      · intro h hh
        rcases Array.mem_push.mp hh with hh | rfl
        · exact hlisted h hh
        · exact hadded _
  | get pid =>
    simp only [Session.step]
    split
    next h hfound =>
      refine ⟨List.forall_mem_append.mpr ⟨hl.held, List.forall_mem_singleton.mpr ?_⟩, hl.listed⟩
      exact hl.listed h (Array.mem_of_find?_eq_some hfound)
    next => exact hl
  | copy holder =>
    cases hold : s.holding? holder with
    | none =>
      simp only [Session.step, hold]
      exact hl
    | some named =>
      simp only [Session.step, hold] at hheld hlisted ⊢
      exact ⟨List.forall_mem_append.mpr ⟨hheld, List.forall_mem_singleton.mpr (hadded _)⟩, hlisted⟩
  | setCounter | send =>
    simp only [Session.step] at hheld hlisted ⊢
    split
    next hold =>
      simp only [hold] at hheld hlisted
      exact ⟨hheld, hlisted⟩
    next => exact hl

theorem Live.after (hl : s.Live) (calls : List Call) : (s.after calls).Live := by
  induction calls generalizing s with
  | nil => exact hl
  | cons c rest ih => exact ih (hl.step c)

theorem Live.not_mem (hl : s.Live) (hnone : s.store.get? k = none) :
    k ∉ s.held ∧ k ∉ s.registry.handles := by
  have hdead : (s.store.get? k).isSome ≠ true := by rw [hnone]; exact Bool.false_ne_true
  exact ⟨fun hk => hdead (hl.held k hk), fun hk => hdead (hl.listed k hk)⟩

-- Who asks for a copy gets a track of its own that is like the other, for now.
theorem step_copy {holder : Nat} (hold : s.holding? holder = some (h, t)) :
    ∃ k, s.store.get? k = none ∧ s.events (.copy holder) = [.made k t] ∧
      (s.step (.copy holder)).holding? s.held.length = some (k, t) := by
  refine ⟨(s.store.add t).1, s.store.get?_fst_add t, by simp only [events, hold], ?_⟩
  rw [holding?_eq_some_iff]
  simp only [Session.step, hold]
  exact ⟨List.getElem?_concat_length, s.store.get?_add_self t⟩

theorem step_addTrack_made {streamType : StreamType}
    (hmade : .made h t ∈ s.events (.addTrack streamType)) :
    t.counter.value = 15 ∧ t.streamType = streamType ∧
      (s.step (.addTrack streamType)).holding? s.held.length = some (h, t) := by
  cases hpid : s.registry.freshPid with
  | error e => simp only [events, Registry.addTrack_of_refused hpid, List.not_mem_nil] at hmade
  | ok pid =>
    simp only [events, Registry.addTrack_of_freshPid hpid, TrackStore.get?_add_self,
      Option.toList_some, List.map_cons, List.map_nil, List.mem_singleton,
      TrackEvent.made.injEq] at hmade
    obtain ⟨rfl, rfl⟩ := hmade
    refine ⟨rfl, rfl, holding?_eq_some_iff.mpr ?_⟩
    simp only [Session.step, Registry.addTrack_of_freshPid hpid]
    exact ⟨List.getElem?_concat_length, s.store.get?_add_self _⟩

/-- **Counters under any order of calls.**  After any calls by holders of handles, several of whom
may have one track, a holder still has the track that it had, with its identifier and stream type;
the counter that it reads there is where the last call on the track put it, by whichever handle, or
where it was at the start or when the track was made, and as many steps further as packets were sent
on the track since.  Those packets carry consecutive counters, whoever sent them, and that is so at
every moment on the way.  A call leaves all tracks alone but that of the holder who calls.  New
tracks and copies are named by handles that nobody had. -/
theorem shared_counters {s : Session} (hs : s.Live) (calls : List Call) :
    let now := s.after calls
    let events := s.trace calls
    (∀ holder h t, s.holding? holder = some (h, t) →
      ∃ u, now.holding? holder = some (h, u) ∧ u.pid = t.pid ∧ u.streamType = t.streamType) ∧
    (∀ holder h t, now.holding? holder = some (h, t) →
      t.counter.value =
        (basis h (s.store.get? h) events + (sentSince h events).length) % 16) ∧
    (∀ h past, past <+: events →
      ∃ packets : List Packet, (sentSince h past).map Packet.parse = packets.map .ok ∧
        Consecutive (Counter.ofNat (basis h (s.store.get? h) past)) (packets.map (·.header))) ∧
    (∀ c k t, now.store.get? k = some t →
      (∀ holder, c.changes? = some holder → now.held[holder]? ≠ some k) →
        (now.step c).store.get? k = some t) ∧
    (∀ streamType h t, .made h t ∈ now.events (.addTrack streamType) →
      now.store.get? h = none ∧ h ∉ now.held ∧ h ∉ now.registry.handles ∧
        t.counter.value = 15 ∧ t.streamType = streamType ∧
        (now.step (.addTrack streamType)).holding? now.held.length = some (h, t)) ∧
    (∀ holder h t, now.holding? holder = some (h, t) →
      ∃ k, now.store.get? k = none ∧ k ∉ now.held ∧ k ∉ now.registry.handles ∧
        now.events (.copy holder) = [.made k t] ∧
        (now.step (.copy holder)).holding? now.held.length = some (k, t)) := by
  intro now events
  have hnow : now.Live := hs.after calls
  refine ⟨fun holder h t hold => holding?_after hold calls, fun holder h t hold => ?_,
    fun h past hpast => consecutive_sentSince hpast h,
    fun c k t hget => get?_step_of_other hget, fun streamType h t hmade => ?_,
    fun holder h t hold => ?_⟩
  · apply counter_of_foldl
    rw [← get?_after]
    exact get?_of_holding? hold
  · have hnone := get?_of_made hmade
    obtain ⟨hheld, hlisted⟩ := hnow.not_mem hnone
    exact ⟨hnone, hheld, hlisted, step_addTrack_made hmade⟩
  · obtain ⟨k, hnone, hevents, hcopy⟩ := step_copy hold
    obtain ⟨hheld, hlisted⟩ := hnow.not_mem hnone
    exact ⟨k, hnone, hheld, hlisted, hevents, hcopy⟩

/-- Two holders send on one track, and a third on a copy that was taken before the counter was
set. -/
theorem counter_of_two_holders_and_copy :
    let s : Session := ⟨.startingAt ⟨0x100, by decide⟩, {}, []⟩
    let calls : List Call := [.addTrack .h264, .get ⟨0x100, by decide⟩, .copy 0, .setCounter 1 14,
      .send 0 ⟨List.replicate 200 1, false⟩, .send 1 ⟨[2], true⟩, .send 2 ⟨[3], false⟩]
    let now := s.after calls
    let shared : Track := ⟨⟨0x100, by decide⟩, .h264, Counter.ofNat 1⟩
    let copy : Track := ⟨⟨0x100, by decide⟩, .h264, Counter.ofNat 0⟩
    s.Live ∧ now.holding? 0 = some (⟨0⟩, shared) ∧ now.holding? 1 = some (⟨0⟩, shared) ∧
      shared.counter.value = (14 + 3) % 16 ∧
      now.holding? 2 = some (⟨1⟩, copy) ∧ copy.counter.value = (15 + 1) % 16 := by
  intro s calls now shared copy
  have hs : s.Live := ⟨List.forall_mem_nil _, by decide⟩
  have hcounter := (shared_counters hs calls).2.1
  have hfirst : now.holding? 0 = some (⟨0⟩, shared) := by decide +kernel
  have hsecond : now.holding? 1 = some (⟨0⟩, shared) := by decide +kernel
  have hthird : now.holding? 2 = some (⟨1⟩, copy) := by decide +kernel
  refine ⟨hs, hfirst, hsecond, ?_, hthird, ?_⟩
  · have hbasis : basis ⟨0⟩ (s.store.get? ⟨0⟩) (s.trace calls) = 14 := by decide +kernel
    have hsent : (sentSince ⟨0⟩ (s.trace calls)).length = 3 := by decide +kernel
    rw [hcounter 0 ⟨0⟩ shared hfirst, hbasis, hsent]
  · have hbasis : basis ⟨1⟩ (s.store.get? ⟨1⟩) (s.trace calls) = 15 := by decide +kernel
    have hsent : (sentSince ⟨1⟩ (s.trace calls)).length = 1 := by decide +kernel
    rw [hcounter 2 ⟨1⟩ copy hthird, hbasis, hsent]

end Session

end TransportStream
