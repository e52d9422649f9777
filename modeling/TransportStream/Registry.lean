import TransportStream.Log
import TransportStream.Settings
import TransportStream.Track.Store

/-!
# Track registries

A registry hands out identifiers in order, each to a new track, until it comes to the identifier of
null packets.
-/

namespace TransportStream

/-- The number of the next identifier, and the tracks made so far in order. -/
structure Registry where
  nextPid : Nat
  handles : Array TrackHandle := #[]

namespace Registry

def startingAt (first : Pid) : Registry :=
  { nextPid := first.value }

def ofSettings (s : Settings) : Registry :=
  startingAt s.firstElementaryPid

def size (r : Registry) : Nat :=
  r.handles.size

def isEmpty (r : Registry) : Bool :=
  r.handles.isEmpty

def tracks (r : Registry) (store : TrackStore) : List Track :=
  r.handles.toList.filterMap store.get?

def get? (r : Registry) (store : TrackStore) (pid : Pid) : Option TrackHandle :=
  r.handles.find? fun h => (store.get? h).any (·.pid == pid)

/-- The identifier that the next track will have; the one of null packets is not handed out. -/
def freshPid (r : Registry) : Except InvalidPid Pid := do
  let pid ← Pid.ofNat? r.nextPid
  if pid.isNull then .error ⟨pid.value⟩ else .ok pid

def addTrack (r : Registry) (store : TrackStore) (streamType : StreamType) :
    Except InvalidPid (TrackHandle × Registry × TrackStore) := do
  let pid ← r.freshPid
  let (handle, store) := store.add (Track.fresh pid streamType)
  .ok (handle, { nextPid := r.nextPid + 1, handles := r.handles.push handle }, store)

def addTrackLog (r : Registry) (streamType : StreamType) : List LogEvent :=
  match r.freshPid with
  | .ok pid => [.registered pid streamType]
  | .error _ => []

/-- An identifier is handed out exactly as long as its number is below that of null packets. -/
theorem freshPid_eq_ok_iff {r : Registry} {pid : Pid} :
    r.freshPid = .ok pid ↔ r.nextPid = pid.value ∧ r.nextPid < 0x1fff := by
  have hgiven : r.freshPid = .ok pid ↔ Pid.ofNat? r.nextPid = .ok pid ∧ ¬ pid.isNull = true := by
    unfold freshPid
    cases Pid.ofNat? r.nextPid with
    | error e => simp [bind, Except.bind]
    | ok p =>
      simp only [bind, Except.bind, Except.ok.injEq]
      split
      next hnull =>
        simp only [reduceCtorEq, false_iff, not_and, Decidable.not_not]
        rintro rfl
        exact hnull
      next hnull =>
        simp only [Except.ok.injEq, iff_self_and]
        rintro rfl
        exact hnull
  have hlt := pid.value_lt
  have hnull : Pid.null.value = 0x1fff := rfl
  rw [hgiven, Pid.ofNat?_eq_ok_iff, Pid.isNull_iff, Pid.ext_iff, hnull]
  omega

end Registry

end TransportStream
