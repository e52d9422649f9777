import TransportStream.Proofs.Registry.Session

/-!
# Identifiers that a registry hands out

A registry hands out identifiers one after the other, from the one that it began with until it comes
to that of null packets.  Whatever is done with the tracks in between does not matter to it
(`Session.registry_after`).
-/

namespace TransportStream

-- Below the identifier of null packets all are elementary from the first such on.
theorem Pid.isNull_eq_false {p : Pid} (h : p.value < null.value) : p.isNull = false :=
  beq_eq_false_iff_ne.mpr (Nat.ne_of_lt h)

theorem Pid.isElementary_of_le {p : Pid} (hlow : firstElementary ≤ p) (hhigh : p.value < null.value) :
    p.isElementary = true := by
  rw [isElementary_eq, isNull_eq_false hhigh, isReserved,
    decide_eq_false (Nat.not_lt.mpr hlow)]
  rfl

/-! ## What a registry lists -/

/-- A registry that began at `first` has made tracks with these stream types, in this order. -/
structure Registry.Lists (first : Pid) (made : List StreamType) (r : Registry)
    (store : TrackStore) : Prop where
  nextPid : r.nextPid = first.value + made.length
  nextPid_le : r.nextPid ≤ Pid.null.value
  kinds : r.handles.toList.map store.kind? =
    (made.mapIdx fun i streamType => (first.value + i, streamType)).map some

namespace Registry.Lists

variable {first : Pid} {made : List StreamType} {r : Registry} {store : TrackStore}

theorem size_eq (hl : r.Lists first made store) : r.size = made.length := by
  have hlen := congrArg List.length hl.kinds
  rw [List.length_map, List.length_map, List.length_mapIdx, Array.length_toList] at hlen
  exact hlen

-- In each place there is a track, and its identifier tells the place.
theorem exists_get? (hl : r.Lists first made store) {i : Nat} {h : TrackHandle}
    (hi : r.handles.toList[i]? = some h) :
    ∃ t, store.get? h = some t ∧ t.pid.value = first.value + i ∧ made[i]? = some t.streamType := by
  have hkind := congrArg (·[i]?) hl.kinds
  simp only [List.getElem?_map, List.getElem?_mapIdx, hi, Option.map_map] at hkind
  obtain ⟨streamType, hmade, hkind⟩ := Option.map_eq_some_iff.mp hkind.symm
  obtain ⟨t, hget, ht⟩ := Option.map_eq_some_iff.mp hkind.symm
  obtain ⟨hpid, rfl⟩ := Prod.mk.inj ht
  exact ⟨t, hget, hpid, hmade⟩

theorem kinds_tracks (hl : r.Lists first made store) :
    (r.tracks store).map (fun t => (t.pid.value, t.streamType)) =
      made.mapIdx fun i streamType => (first.value + i, streamType) := by
  have hkinds := congrArg (List.filterMap id) hl.kinds
  rw [List.filterMap_map, List.filterMap_map] at hkinds
  rw [tracks, List.map_filterMap]
  exact hkinds.trans List.filterMap_some

theorem value_pid_tracks (hl : r.Lists first made store) {i : Nat}
    (hi : i < (r.tracks store).length) : (r.tracks store)[i].pid.value = first.value + i := by
  have hkind := congrArg (·[i]?) hl.kinds_tracks
  simp only [List.getElem?_map, List.getElem?_mapIdx, List.getElem?_eq_getElem hi,
    Option.map_some] at hkind
  obtain ⟨streamType, -, heq⟩ := Option.map_eq_some_iff.mp hkind.symm
  exact (Prod.mk.inj heq).1.symm

theorem nodup_pids (hl : r.Lists first made store) : ((r.tracks store).map (·.pid)).Nodup := by
  rw [List.Nodup, List.pairwise_iff_getElem]
  intro i j hi hj hij heq
  rw [List.getElem_map, List.getElem_map] at heq
  rw [List.length_map] at hi hj
  have hvalue := congrArg Pid.value heq
  rw [hl.value_pid_tracks hi, hl.value_pid_tracks hj] at hvalue
  omega

theorem length_tracks (hl : r.Lists first made store) : (r.tracks store).length = made.length := by
  have hlen := congrArg List.length hl.kinds_tracks
  rw [List.length_map, List.length_mapIdx] at hlen
  exact hlen

theorem pid_of_mem_tracks (hl : r.Lists first made store) {t : Track} (ht : t ∈ r.tracks store) :
    first ≤ t.pid ∧ t.pid.value < Pid.null.value := by
  obtain ⟨i, hi, rfl⟩ := List.getElem_of_mem ht
  have hpid := hl.value_pid_tracks hi
  rw [hl.length_tracks] at hi
  have := hl.nextPid
  have := hl.nextPid_le
  exact ⟨show first.value ≤ _ by omega, by omega⟩

/-! ### Looking a track up -/

-- The track in a place is found by its identifier, since those before it have others.
theorem get?_eq_some_iff (hl : r.Lists first made store) {pid : Pid} {h : TrackHandle} :
    r.get? store pid = some h ↔
      first ≤ pid ∧ r.handles.toList[pid.value - first.value]? = some h := by
  rw [get?, ← Array.find?_toList, List.find?_eq_some_iff_getElem]
  constructor
  · rintro ⟨hpid, i, hi, rfl, -⟩
    obtain ⟨t, hget, hvalue, -⟩ := hl.exists_get? (List.getElem?_eq_getElem hi)
    rw [hget] at hpid
    have heq : t.pid = pid := beq_iff_eq.mp hpid
    subst heq
    refine ⟨show first.value ≤ t.pid.value by omega, ?_⟩
    rw [show t.pid.value - first.value = i by omega]
    exact List.getElem?_eq_getElem hi
  · rintro ⟨hle, hplace⟩
    have hle : first.value ≤ pid.value := hle
    obtain ⟨t, hget, hvalue, -⟩ := hl.exists_get? hplace
    obtain ⟨hi, hhandle⟩ := List.getElem?_eq_some_iff.mp hplace
    refine ⟨?_, _, hi, hhandle, ?_⟩
    · rw [hget]
      exact beq_iff_eq.mpr (Pid.ext (show t.pid.value = pid.value by omega))
    · intro j hj
      obtain ⟨u, hgetj, hvaluej, -⟩ :=
        hl.exists_get? (List.getElem?_eq_getElem (Nat.lt_trans hj hi))
      have hne : u.pid ≠ pid := fun heq => by
        have := congrArg Pid.value heq
        omega
      rw [hgetj, Bool.not_eq_true']
      exact beq_eq_false_iff_ne.mpr hne

theorem isSome_get?_iff (hl : r.Lists first made store) (pid : Pid) :
    (r.get? store pid).isSome ↔ first ≤ pid ∧ pid.value < first.value + r.size := by
  have hsize : r.handles.toList.length = r.size := Array.length_toList
  rw [Option.isSome_iff_exists]
  constructor
  · rintro ⟨h, hget⟩
    obtain ⟨hle, hplace⟩ := hl.get?_eq_some_iff.mp hget
    have hi := (List.getElem?_eq_some_iff.mp hplace).1
    exact ⟨hle, by omega⟩
  · rintro ⟨hle, hlt⟩
    have hle' : first.value ≤ pid.value := hle
    exact ⟨_, hl.get?_eq_some_iff.mpr ⟨hle, List.getElem?_eq_getElem (by omega)⟩⟩

-- The track that is found is the only one with its identifier.
theorem get?_unique (hl : r.Lists first made store) {pid : Pid} {h : TrackHandle}
    (hfound : r.get? store pid = some h) :
    ∃ t, store.get? h = some t ∧ t.pid = pid ∧ made[pid.value - first.value]? = some t.streamType ∧
      ∀ k ∈ r.handles, ∀ u, store.get? k = some u → u.pid = pid → k = h := by
  obtain ⟨hle, hplace⟩ := hl.get?_eq_some_iff.mp hfound
  have hle : first.value ≤ pid.value := hle
  obtain ⟨t, hget, hvalue, hmade⟩ := hl.exists_get? hplace
  refine ⟨t, hget, Pid.ext (by omega), hmade, ?_⟩
  intro k hk u hgetk hpid
  obtain ⟨j, hj⟩ := List.getElem?_of_mem (Array.mem_toList_iff.mpr hk)
  obtain ⟨v, hgetv, hvaluev, -⟩ := hl.exists_get? hj
  obtain rfl : u = v := Option.some.inj (hgetk.symm.trans hgetv)
  rw [← hpid, show u.pid.value - first.value = j by omega, hj] at hplace
  exact Option.some.inj hplace

/-! ### A new track -/

theorem startingAt (first : Pid) (store : TrackStore) :
    (Registry.startingAt first).Lists first [] store where
  nextPid := rfl
  nextPid_le := Nat.le_of_lt_succ first.value_lt
  kinds := rfl

theorem freshPid_eq_ok (hl : r.Lists first made store)
    (hfit : first.value + made.length < Pid.null.value) :
    ∃ pid, r.freshPid = .ok pid ∧ pid.value = first.value + made.length := by
  have hnull : Pid.null.value = 0x1fff := rfl
  let pid : Pid := ⟨first.value + made.length, by omega⟩
  exact ⟨pid, freshPid_eq_ok_iff.mpr ⟨hl.nextPid, by rw [hl.nextPid]; omega⟩, rfl⟩

-- At the identifier of null packets the registry stops.
theorem freshPid_eq_error (hl : r.Lists first made store)
    (hfull : Pid.null.value ≤ first.value + made.length) :
    r.freshPid = .error ⟨Pid.null.value⟩ := by
  have hnext : r.nextPid = Pid.null.value :=
    Nat.le_antisymm hl.nextPid_le (by rw [hl.nextPid]; exact hfull)
  rw [freshPid, hnext]
  rfl

theorem addTrack (hl : r.Lists first made store)
    (hfit : first.value + made.length < Pid.null.value) (streamType : StreamType) :
    ∃ h t registry after, r.addTrack store streamType = .ok (h, registry, after) ∧
      store.get? h = none ∧ after.get? h = some t ∧ t.pid.value = first.value + made.length ∧
      t.streamType = streamType ∧ t.counter.value = 15 ∧
      registry.handles = r.handles.push h ∧
      registry.Lists first (made ++ [streamType]) after := by
  obtain ⟨pid, hpid, hvalue⟩ := hl.freshPid_eq_ok hfit
  have hget := store.get?_add_self (Track.fresh pid streamType)
  refine ⟨_, _, _, _, addTrack_of_freshPid hpid store streamType, store.get?_fst_add _, hget, hvalue,
    rfl, rfl, rfl, ?_, ?_, ?_⟩
  · rw [List.length_append, List.length_singleton, ← Nat.add_assoc, ← hl.nextPid]
  · rw [hl.nextPid]
    exact hfit
  · -- The tracks that were there keep their kinds, and the new one comes behind them.
    have hold : r.handles.toList.map (store.add (Track.fresh pid streamType)).2.kind? =
        r.handles.toList.map store.kind? := by
      apply List.map_congr_left
      intro k hk
      obtain ⟨i, hi⟩ := List.getElem?_of_mem hk
      obtain ⟨t, hgetk, -⟩ := hl.exists_get? hi
      rw [TrackStore.kind?_of_get? hgetk,
        TrackStore.kind?_of_get? (TrackStore.get?_add_of_get? hgetk _)]
    rw [Array.toList_push, List.map_append, hold, hl.kinds, List.mapIdx_concat, List.map_append,
      List.map_singleton, TrackStore.kind?_of_get? hget, ← hvalue]
    rfl

end Registry.Lists

/-! ## Runs -/

/-- The stream type that a registry is asked to make a track with. -/
def Call.streamType? : Call → Option StreamType
  | .addTrack streamType => some streamType
  | .get _ | .copy _ | .setCounter .. | .send .. => none

namespace Session

variable {s : Session} {first : Pid} {made : List StreamType}

theorem registry_step {c : Call} (hc : c.streamType? = none) : (s.step c).registry = s.registry := by
  cases c with
  | addTrack streamType => cases hc
  | get pid => simp only [step]; split <;> rfl
  | copy holder => simp only [step]; split <;> rfl
  | setCounter holder n => simp only [step]; split <;> rfl
  | send holder u => simp only [step]; split <;> rfl

theorem step_addTrack_refused {e : InvalidPid} {streamType : StreamType}
    (h : s.registry.addTrack s.store streamType = .error e) :
    s.step (.addTrack streamType) = s := by
  simp only [step, h]

-- What is done with tracks changes nothing that the registry shows.
theorem lists_step_other (hl : s.registry.Lists first made s.store) {c : Call}
    (hc : c.streamType? = none) : (s.step c).registry.Lists first made (s.step c).store := by
  rw [registry_step hc]
  refine ⟨hl.nextPid, hl.nextPid_le, ?_⟩
  rw [← hl.kinds]
  apply List.map_congr_left
  intro k hk
  obtain ⟨i, hi⟩ := List.getElem?_of_mem hk
  obtain ⟨t, hget, -⟩ := hl.exists_get? hi
  exact kind?_step hget c

-- The stream types of the tracks made are those asked for, as many as there are identifiers.
theorem lists_step_addTrack {asked : List StreamType}
    (hl : s.registry.Lists first (asked.take (Pid.null.value - first.value)) s.store)
    (streamType : StreamType) :
    (s.step (.addTrack streamType)).registry.Lists first
      ((asked ++ [streamType]).take (Pid.null.value - first.value))
      (s.step (.addTrack streamType)).store := by
  have hfirst := first.value_lt
  have hnull : Pid.null.value = 0x1fff := rfl
  by_cases hfit : asked.length < Pid.null.value - first.value
  · have hmade : asked.take (Pid.null.value - first.value) = asked :=
      List.take_of_length_le (Nat.le_of_lt hfit)
    rw [hmade] at hl
    obtain ⟨h, t, registry, store, hadd, -, -, -, -, -, -, hnext⟩ :=
      hl.addTrack (by omega) streamType
    rw [List.take_of_length_le (by rw [List.length_append, List.length_singleton]; omega)]
    simp only [step, hadd]
    exact hnext
  · have hmade : (asked.take (Pid.null.value - first.value)).length = Pid.null.value - first.value :=
      List.length_take_of_le (Nat.not_lt.mp hfit)
    have hrefused := Registry.addTrack_of_refused (hl.freshPid_eq_error (by omega)) s.store streamType
    rw [List.take_append_of_le_length (Nat.not_lt.mp hfit), step_addTrack_refused hrefused]
    exact hl

theorem lists_after (first : Pid) (store : TrackStore) (held : List TrackHandle)
    (calls : List Call) :
    let now := (Session.mk (.startingAt first) store held).after calls
    now.registry.Lists first
      ((calls.filterMap Call.streamType?).take (Pid.null.value - first.value)) now.store := by
  intro now
  induction calls using List.reverseRecOn with
  | nil =>
    rw [List.filterMap_nil, List.take_nil]
    exact .startingAt first store
  | append_singleton calls c ih =>
    show (Session.after _ _).registry.Lists _ _ (Session.after _ _).store
    rw [after_concat, List.filterMap_append]
    cases htype : c.streamType? with
    | none =>
      rw [List.filterMap_cons_none htype, List.filterMap_nil, List.append_nil]
      exact lists_step_other ih htype
    | some streamType =>
      cases c with
      | addTrack =>
        cases htype
        exact lists_step_addTrack ih streamType
      | get | copy | setCounter | send => cases htype

/-- **Identifiers over a whole run.**  A registry that began at `first` was asked for tracks, and
whoever holds handles has sent on tracks, set counters, copied tracks and looked some up.  The next
track asked for has the next identifier, the stream type that was asked for and a counter that puts
its first packet at zero, unless all identifiers below that of null packets are taken; then the
request is refused and changes nothing.  The registry lists the tracks that it made in their order,
and finds each by its identifier. -/
theorem registry_after (first : Pid) (store : TrackStore) (held : List TrackHandle)
    (calls : List Call) :
    let now := (Session.mk (.startingAt first) store held).after calls
    let asked := calls.filterMap Call.streamType?
    let made := asked.take (Pid.null.value - first.value)
    let tracks := now.registry.tracks now.store
    (∀ streamType,
      (first.value + asked.length < Pid.null.value →
        ∃ h t registry after, now.registry.addTrack now.store streamType = .ok (h, registry, after) ∧
          now.store.get? h = none ∧ after.get? h = some t ∧
          t.pid.value = first.value + asked.length ∧ t.streamType = streamType ∧
          t.counter.value = 15 ∧ registry.handles = now.registry.handles.push h) ∧
      (Pid.null.value ≤ first.value + asked.length →
        now.registry.addTrack now.store streamType = .error ⟨Pid.null.value⟩ ∧
          now.step (.addTrack streamType) = now)) ∧
    (∀ c, c.streamType? = none → (now.step c).registry = now.registry) ∧
    tracks.map (fun t => (t.pid.value, t.streamType)) =
      made.mapIdx (fun i streamType => (first.value + i, streamType)) ∧
    (tracks.map (·.pid)).Nodup ∧
    (∀ t ∈ tracks, t.pid.isNull = false ∧
      (Pid.firstElementary ≤ first → t.pid.isElementary = true)) ∧
    now.registry.size = made.length ∧
    (∀ pid, (now.registry.get? now.store pid).isSome ↔
      first ≤ pid ∧ pid.value < first.value + now.registry.size) ∧
    (∀ pid h, now.registry.get? now.store pid = some h →
      ∃ t, now.store.get? h = some t ∧ t.pid = pid ∧
        made[pid.value - first.value]? = some t.streamType ∧
        ∀ k ∈ now.registry.handles, ∀ u, now.store.get? k = some u → u.pid = pid → k = h) ∧
    now.registry.nextPid = first.value + made.length ∧ now.registry.nextPid ≤ Pid.null.value := by
  intro now asked made tracks
  have hl : now.registry.Lists first made now.store := lists_after first store held calls
  have hfirst := first.value_lt
  have hnull : Pid.null.value = 0x1fff := rfl
  refine ⟨fun streamType => ⟨fun hfit => ?_, fun hfull => ?_⟩, fun c => registry_step,
    hl.kinds_tracks, hl.nodup_pids, fun t ht => ?_, hl.size_eq, hl.isSome_get?_iff,
    fun pid h => hl.get?_unique, hl.nextPid, hl.nextPid_le⟩
  · have hmade : made = asked := List.take_of_length_le (by omega)
    rw [hmade] at hl
    obtain ⟨h, t, registry, after, hadd, hnew, hget, hpid, htype, hcounter, hhandles, -⟩ :=
      hl.addTrack hfit streamType
    exact ⟨h, t, registry, after, hadd, hnew, hget, hpid, htype, hcounter, hhandles⟩
  · have hmade : made.length = Pid.null.value - first.value :=
      List.length_take_of_le (by omega)
    have hrefused := Registry.addTrack_of_refused (hl.freshPid_eq_error (by omega)) now.store streamType
    exact ⟨hrefused, step_addTrack_refused hrefused⟩
  · obtain ⟨hlow, hhigh⟩ := hl.pid_of_mem_tracks ht
    exact ⟨Pid.isNull_eq_false hhigh,
      fun hfirst => Pid.isElementary_of_le (Nat.le_trans hfirst hlow) hhigh⟩

/-- The last identifier is handed out, the counter of its track is set, and there is no other. -/
theorem registry_at_last_identifier :
    let calls : List Call := [.addTrack .h264, .setCounter 0 3, .addTrack .adtsAac]
    let now := (Session.mk (.startingAt Pid.lastElementary) {} []).after calls
    Pid.null.value ≤ Pid.lastElementary.value + (calls.filterMap Call.streamType?).length ∧
      now.registry.addTrack now.store .h265 = .error ⟨0x1fff⟩ ∧
      (now.registry.tracks now.store).map (fun t => (t.pid.value, t.streamType)) =
        [(0x1ffe, .h264)] := by
  intro calls now
  have hrun := registry_after Pid.lastElementary {} [] calls
  have hfull : Pid.null.value ≤
      Pid.lastElementary.value + (calls.filterMap Call.streamType?).length := by decide
  exact ⟨hfull, ((hrun.1 .h265).2 hfull).1, hrun.2.2.1⟩

end Session

end TransportStream
