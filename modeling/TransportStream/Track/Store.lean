import TransportStream.Track.Sending

/-!
# Shared tracks

Several holders may send on one track, and each sees the counter that another left.  So tracks live
in a store, and holders have handles.  Whoever wants a track of its own adds a copy.
-/

namespace TransportStream

/-- Names a track in a store.  Equal handles name the same track. -/
structure TrackHandle where
  index : Nat
  deriving DecidableEq

/-- All tracks, each with an identity of its own. -/
structure TrackStore where
  tracks : Array Track := #[]

namespace TrackStore

def get? (s : TrackStore) (h : TrackHandle) : Option Track :=
  s.tracks[h.index]?

def add (s : TrackStore) (t : Track) : TrackHandle × TrackStore :=
  (⟨s.tracks.size⟩, ⟨s.tracks.push t⟩)

/-- Replace the track that a handle names; every holder of the handle sees the new one. -/
def set (s : TrackStore) (h : TrackHandle) (t : Track) : TrackStore :=
  ⟨s.tracks.setIfInBounds h.index t⟩

def setCounter (s : TrackStore) (h : TrackHandle) (n : Nat) : TrackStore :=
  match s.get? h with
  | some t => s.set h (t.setCounter n)
  | none => s

def sendWith {σ : Type} (write : σ → Bytes → σ) (s : TrackStore) (h : TrackHandle)
    (u : PayloadUnit) (sink : σ) : TrackStore × σ :=
  match s.get? h with
  | some t =>
    let (t, sink) := t.sendWith write u sink
    (s.set h t, sink)
  | none => (s, sink)

def send {σ : Type} [Sink σ] (s : TrackStore) (h : TrackHandle) (u : PayloadUnit) (sink : σ) :
    TrackStore × σ :=
  s.sendWith Sink.write h u sink

/-- Send units one after the other, each on the track that its handle names, all to one sink. -/
def sendAll {σ : Type} [Sink σ] (s : TrackStore) :
    List (TrackHandle × PayloadUnit) → σ → TrackStore × σ
  | [], sink => (s, sink)
  | (h, u) :: rest, sink =>
    let (s, sink) := s.send h u sink
    s.sendAll rest sink

def sendLog (s : TrackStore) (h : TrackHandle) (u : PayloadUnit) : List LogEvent :=
  match s.get? h with
  | some t => t.sendLog u
  | none => []

@[simp] theorem get?_add_self (s : TrackStore) (t : Track) :
    (s.add t).2.get? (s.add t).1 = some t := by
  simp [add, get?]

@[simp] theorem get?_fst_add (s : TrackStore) (t : Track) : s.get? (s.add t).1 = none := by
  simp [add, get?]

theorem get?_add_of_get? {s : TrackStore} {h : TrackHandle} {t : Track} (hs : s.get? h = some t)
    (u : Track) : (s.add u).2.get? h = some t := by
  have hlt : h.index < s.tracks.size := by
    obtain ⟨hlt, _⟩ := Array.getElem?_eq_some_iff.mp hs
    exact hlt
  simpa [add, get?, Array.getElem?_push, Nat.ne_of_lt hlt] using hs

theorem get?_add (s : TrackStore) (t : Track) (k : TrackHandle) :
    (s.add t).2.get? k = if (s.add t).1 = k then some t else s.get? k := by
  by_cases hk : (s.add t).1 = k
  · rw [if_pos hk, ← hk, get?_add_self]
  · rw [if_neg hk]
    cases hget : s.get? k with
    | some u => exact get?_add_of_get? hget t
    | none =>
      have hle : s.tracks.size ≤ k.index := Array.getElem?_eq_none_iff.mp hget
      have hne : k.index ≠ s.tracks.size := fun h => hk (congrArg TrackHandle.mk h.symm)
      exact Array.getElem?_eq_none_iff.mpr (by simp only [add, Array.size_push]; omega)

@[simp] theorem get?_set_self {s : TrackStore} {h : TrackHandle} {t : Track}
    (hs : s.get? h = some t) (u : Track) : (s.set h u).get? h = some u := by
  obtain ⟨hlt, _⟩ := Array.getElem?_eq_some_iff.mp hs
  simp [set, get?, hlt]

@[simp] theorem get?_set_of_ne (s : TrackStore) {h k : TrackHandle} (hne : h ≠ k) (u : Track) :
    (s.set h u).get? k = s.get? k := by
  have : h.index ≠ k.index := fun e => hne (by cases h; cases k; simp_all)
  simp [set, get?, Array.getElem?_setIfInBounds_ne this]

end TrackStore

end TransportStream
