import TransportStream.Proofs.Track.Emission
import TransportStream.Session

/-!
# What becomes of tracks

The events of a call say what it leaves of every track, and by induction the events of a run say all
that has become of it (`Session.get?_after`).  No call changes the identifier of a track or its
stream type (`Session.exists_get?_step`).
-/

namespace TransportStream

/-! ## New tracks -/

namespace TrackStore

/-- What of a track never changes: the number of its identifier, and its stream type. -/
def kind? (s : TrackStore) (h : TrackHandle) : Option (Nat × StreamType) :=
  (s.get? h).map fun t => (t.pid.value, t.streamType)

theorem kind?_of_get? {s : TrackStore} {h : TrackHandle} {t : Track} (hget : s.get? h = some t) :
    s.kind? h = some (t.pid.value, t.streamType) := by
  rw [kind?, hget]
  rfl

end TrackStore

namespace Registry

/-- A registry with an identifier to hand out gives it to a fresh track in a place of its own. -/
theorem addTrack_of_freshPid {r : Registry} {pid : Pid} (h : r.freshPid = .ok pid)
    (store : TrackStore) (streamType : StreamType) :
    r.addTrack store streamType = .ok ((store.add (Track.fresh pid streamType)).1,
      { nextPid := r.nextPid + 1,
        handles := r.handles.push (store.add (Track.fresh pid streamType)).1 },
      (store.add (Track.fresh pid streamType)).2) := by
  rw [addTrack, h]
  rfl

theorem addTrack_of_refused {r : Registry} {e : InvalidPid} (h : r.freshPid = .error e)
    (store : TrackStore) (streamType : StreamType) : r.addTrack store streamType = .error e := by
  rw [addTrack, h]
  rfl

end Registry

/-! ## What a run makes of tracks -/

namespace Session

variable {s : Session} {holder : Nat} {h k : TrackHandle} {t : Track}

theorem holding?_eq_some_iff :
    s.holding? holder = some (h, t) ↔ s.held[holder]? = some h ∧ s.store.get? h = some t := by
  simp only [holding?, Option.bind_eq_some_iff, Option.map_eq_some_iff, Prod.mk.injEq]
  constructor
  · rintro ⟨k, hk, u, hget, rfl, rfl⟩
    exact ⟨hk, hget⟩
  · rintro ⟨hk, hget⟩
    exact ⟨h, hk, t, hget, rfl, rfl⟩

theorem get?_of_holding? (hold : s.holding? holder = some (h, t)) : s.store.get? h = some t :=
  (holding?_eq_some_iff.mp hold).2

-- Every packet of a unit counts for one step.
theorem foldl_effect_sent (k h : TrackHandle) (packets : List Bytes) (track : Option Track) :
    (packets.map (.sent h)).foldl (TrackEvent.effect k) track =
      if h = k then track.map (·.advance packets.length) else track := by
  induction packets generalizing track with
  | nil => cases track <;> simp
  | cons packet rest ih =>
    rw [List.map_cons, List.foldl_cons, ih, TrackEvent.effect]
    by_cases hk : h = k
    · rw [if_pos hk, if_pos hk, if_pos hk, Option.map_map, List.length_cons, Nat.add_comm]
      congr 1
      funext t
      exact t.advance_advance 1 rest.length
    · rw [if_neg hk, if_neg hk, if_neg hk]

theorem toList_send (hget : s.store.get? h = some t) (u : PayloadUnit) :
    (s.store.send h u (#[] : Array Bytes)).2.toList = (t.packets u).map Packet.encode := by
  simp [TrackStore.send, TrackStore.sendWith_eq, TrackStore.packets, hget]

theorem foldl_effect_of_ne {events : List TrackEvent} (h : ∀ e ∈ events, e.handle ≠ k)
    (track : Option Track) : events.foldl (TrackEvent.effect k) track = track := by
  induction events with
  | nil => rfl
  | cons e rest ih =>
    rw [List.foldl_cons, TrackEvent.effect_of_ne (h e List.mem_cons_self)]
    exact ih fun x hx => h x (List.mem_cons_of_mem e hx)

/-- The events of a call say what it leaves of every track. -/
theorem get?_step (s : Session) (c : Call) (k : TrackHandle) :
    (s.step c).store.get? k = (s.events c).foldl (TrackEvent.effect k) (s.store.get? k) := by
  cases c with
  | addTrack streamType =>
    cases hpid : s.registry.freshPid with
    | error e => simp only [step, events, Registry.addTrack_of_refused hpid, List.foldl_nil]
    | ok pid =>
      simp only [step, events, Registry.addTrack_of_freshPid hpid, TrackStore.get?_add_self,
        Option.toList_some, List.map_cons, List.map_nil, List.foldl_cons, List.foldl_nil]
      exact TrackStore.get?_add s.store _ k
  | get pid =>
    simp only [step, events, List.foldl_nil]
    split <;> rfl
  | copy holder =>
    cases hold : s.holding? holder with
    | none => simp only [step, events, hold, List.foldl_nil]
    | some named =>
      obtain ⟨h, t⟩ := named
      simp only [step, events, hold, List.foldl_cons, List.foldl_nil]
      exact TrackStore.get?_add s.store t k
  | setCounter holder n =>
    cases hold : s.holding? holder with
    | none => simp only [step, events, hold, List.foldl_nil]
    | some named =>
      obtain ⟨h, t⟩ := named
      have hget := get?_of_holding? hold
      simp only [step, events, hold, List.foldl_cons, List.foldl_nil, TrackStore.setCounter, hget,
        TrackEvent.effect]
      by_cases hk : h = k
      · subst hk
        simp [hget]
      · simp [hk]
  | send holder u =>
    cases hold : s.holding? holder with
    | none => simp only [step, events, hold, List.foldl_nil]
    | some named =>
      obtain ⟨h, t⟩ := named
      have hget := get?_of_holding? hold
      simp only [step, events, hold]
      rw [foldl_effect_sent, toList_send hget, TrackStore.send, TrackStore.sendWith_eq]
      by_cases hk : h = k
      · subst hk
        simp [hget]
      · simp [hk]

/-- The events of a run say what it leaves of every track. -/
theorem get?_after (s : Session) (calls : List Call) (k : TrackHandle) :
    (s.after calls).store.get? k =
      (s.trace calls).foldl (TrackEvent.effect k) (s.store.get? k) := by
  induction calls generalizing s with
  | nil => rfl
  | cons c rest ih =>
    rw [trace, List.foldl_append, ← get?_step]
    exact ih (s.step c)

/-! ## What never changes -/

/-- What happens in a call: a track is made in a place where there was none, or something else
happens to the track of the holder who calls. -/
theorem mem_events {c : Call} {e : TrackEvent} (he : e ∈ s.events c) :
    (∃ h t, e = .made h t ∧ s.store.get? h = none) ∨
      ∃ holder, c.changes? = some holder ∧ s.held[holder]? = some e.handle ∧
        ∀ h t, e ≠ .made h t := by
  cases c with
  | addTrack streamType =>
    cases hpid : s.registry.freshPid with
    | error e => simp only [events, Registry.addTrack_of_refused hpid, List.not_mem_nil] at he
    | ok pid =>
      simp only [events, Registry.addTrack_of_freshPid hpid, TrackStore.get?_add_self,
        Option.toList_some, List.map_cons, List.map_nil, List.mem_singleton] at he
      exact .inl ⟨_, _, he, s.store.get?_fst_add _⟩
  | get pid => cases he
  | copy holder =>
    simp only [events] at he
    split at he
    next => exact .inl ⟨_, _, List.mem_singleton.mp he, s.store.get?_fst_add _⟩
    next => cases he
  | setCounter holder n =>
    simp only [events] at he
    split at he
    next hold =>
      rw [List.mem_singleton.mp he]
      exact .inr ⟨holder, rfl, (holding?_eq_some_iff.mp hold).1, fun _ _ => TrackEvent.noConfusion⟩
    next => cases he
  | send holder u =>
    simp only [events] at he
    split at he
    next hold =>
      obtain ⟨packet, -, rfl⟩ := List.mem_map.mp he
      exact .inr ⟨holder, rfl, (holding?_eq_some_iff.mp hold).1, fun _ _ => TrackEvent.noConfusion⟩
    next => cases he

theorem get?_of_made {c : Call} (hmade : .made h t ∈ s.events c) : s.store.get? h = none := by
  rcases mem_events hmade with ⟨h', t', heq, hnone⟩ | ⟨-, -, -, hother⟩
  · rw [(TrackEvent.made.inj heq).1]
    exact hnone
  · exact absurd rfl (hother h t)

-- No event changes the identifier of a track or its stream type, save that which makes it.
theorem kind_effect {e : TrackEvent} (hmade : ∀ t, e ≠ .made k t) (track : Option Track) :
    (e.effect k track).map (fun t => (t.pid.value, t.streamType)) =
      track.map fun t => (t.pid.value, t.streamType) := by
  cases e with
  | made h t =>
    have hne : h ≠ k := fun heq => hmade t (heq ▸ rfl)
    rw [TrackEvent.effect, if_neg hne]
  | set | sent =>
    rw [TrackEvent.effect]
    split
    · rw [Option.map_map]
      rfl
    · rfl

theorem foldl_effect_kind {events : List TrackEvent} (hmade : ∀ t, .made k t ∉ events)
    (track : Option Track) :
    (events.foldl (TrackEvent.effect k) track).map (fun t => (t.pid.value, t.streamType)) =
      track.map fun t => (t.pid.value, t.streamType) := by
  induction events generalizing track with
  | nil => rfl
  | cons e rest ih =>
    have hfirst (t : Track) : e ≠ .made k t := fun he => hmade t (he ▸ List.mem_cons_self)
    rw [List.foldl_cons, ih fun t ht => hmade t (List.mem_cons_of_mem _ ht), kind_effect hfirst]

theorem kind?_step (hget : s.store.get? k = some t) (c : Call) :
    (s.step c).store.kind? k = s.store.kind? k := by
  have hmade (u : Track) : .made k u ∉ s.events c := by
    intro hmem
    rw [get?_of_made hmem] at hget
    cases hget
  rw [TrackStore.kind?, get?_step, foldl_effect_kind hmade]
  rfl

theorem exists_get?_step (hget : s.store.get? k = some t) (c : Call) :
    ∃ u, (s.step c).store.get? k = some u ∧ u.pid = t.pid ∧ u.streamType = t.streamType := by
  have hkind := kind?_step hget c
  rw [TrackStore.kind?_of_get? hget] at hkind
  obtain ⟨u, hgetu, heq⟩ := Option.map_eq_some_iff.mp hkind
  obtain ⟨hpid, htype⟩ := Prod.mk.inj heq
  exact ⟨u, hgetu, Pid.ext hpid, htype⟩

end Session

end TransportStream
