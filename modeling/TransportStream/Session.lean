import TransportStream.Registry

/-!
# Sessions

A registry gives out handles, and their holders send on the tracks behind them and set their
counters, each in any order.  Several holders may have one track, and a holder may take a copy that
nobody else has.  What a call does to tracks is told by events.
-/

namespace TransportStream

/-- What is asked of a registry, or of a track by one of those who hold a handle to it.  Holders are
numbered in the order in which they got their handles. -/
inductive Call where
  | addTrack (streamType : StreamType)
  | get (pid : Pid)
  | copy (holder : Nat)
  | setCounter (holder : Nat) (n : Nat)
  | send (holder : Nat) (u : PayloadUnit)

/-- The holder whose track a call may change. -/
def Call.changes? : Call → Option Nat
  | .setCounter holder _ | .send holder _ => some holder
  | .addTrack _ | .get _ | .copy _ => none

/-- What happens to the track that a handle names. -/
inductive TrackEvent where
  | made (h : TrackHandle) (t : Track)
  | set (h : TrackHandle) (n : Nat)
  | sent (h : TrackHandle) (packet : Bytes)
  deriving DecidableEq

namespace TrackEvent

def handle : TrackEvent → TrackHandle
  | made h _ | set h _ | sent h _ => h

/-- What an event leaves of the track that `k` names, if there was one. -/
def effect (k : TrackHandle) (track : Option Track) : TrackEvent → Option Track
  | made h t => if h = k then some t else track
  | set h n => if h = k then track.map (·.setCounter n) else track
  | sent h _ => if h = k then track.map (·.advance 1) else track

theorem effect_of_ne {k : TrackHandle} {e : TrackEvent} (h : e.handle ≠ k) (track : Option Track) :
    e.effect k track = track := by
  cases e <;> exact if_neg h

end TrackEvent

/-- A registry, the tracks, and the handles that were given out, one to each holder. -/
structure Session where
  registry : Registry
  store : TrackStore
  held : List TrackHandle

namespace Session

/-- A registry that nobody has used yet. -/
def ofRegistry (registry : Registry) : Session :=
  ⟨registry, {}, []⟩

/-! ## Calls -/

/-- The handle of a holder, and the track that it names. -/
def holding? (s : Session) (holder : Nat) : Option (TrackHandle × Track) :=
  s.held[holder]?.bind fun h => (s.store.get? h).map fun t => (h, t)

/-- One call.  Who gets a handle by it is the next holder. -/
def step (s : Session) : Call → Session
  | .addTrack streamType =>
    match s.registry.addTrack s.store streamType with
    | .ok (h, registry, store) => ⟨registry, store, s.held ++ [h]⟩
    | .error _ => s
  | .get pid =>
    match s.registry.get? s.store pid with
    | some h => { s with held := s.held ++ [h] }
    | none => s
  | .copy holder =>
    match s.holding? holder with
    | some (_, t) => { s with store := (s.store.add t).2, held := s.held ++ [(s.store.add t).1] }
    | none => s
  | .setCounter holder n =>
    match s.holding? holder with
    | some (h, _) => { s with store := s.store.setCounter h n }
    | none => s
  | .send holder u =>
    match s.holding? holder with
    | some (h, _) => { s with store := (s.store.send h u (#[] : Array Bytes)).1 }
    | none => s

def after (s : Session) (calls : List Call) : Session :=
  calls.foldl step s

theorem after_concat (s : Session) (calls : List Call) (c : Call) :
    s.after (calls ++ [c]) = (s.after calls).step c :=
  List.foldl_append

/-! ## Events -/

/-- What a call makes happen to tracks, packet by packet. -/
def events (s : Session) : Call → List TrackEvent
  | .addTrack streamType =>
    match s.registry.addTrack s.store streamType with
    | .ok (h, _, store) => (store.get? h).toList.map (.made h)
    | .error _ => []
  | .get _ => []
  | .copy holder =>
    match s.holding? holder with
    | some (_, t) => [.made (s.store.add t).1 t]
    | none => []
  | .setCounter holder n =>
    match s.holding? holder with
    | some (h, _) => [.set h n]
    | none => []
  | .send holder u =>
    match s.holding? holder with
    | some (h, _) => (s.store.send h u (#[] : Array Bytes)).2.toList.map (.sent h)
    | none => []

def trace (s : Session) : List Call → List TrackEvent
  | [] => []
  | c :: rest => s.events c ++ (s.step c).trace rest

/-! ## Logs -/

/-- What a call tells. -/
def log (s : Session) : Call → List LogEvent
  | .addTrack streamType => s.registry.addTrackLog streamType
  | .send holder u =>
    match s.holding? holder with
    | some (h, _) => s.store.sendLog h u
    | none => []
  | .get _ | .copy _ | .setCounter .. => []

end Session

end TransportStream
