import TransportStream.Receiver
import TransportStream.Registry
import TransportStream.Settings

/-!
# Demonstration

Two tracks send ten units each into one stream; the stream is read back and each track is summed
up.
-/

namespace TransportStream.Demo

/-- What a run leaves behind: its exit code and the lines that it writes. -/
structure Outcome where
  exitCode : UInt8
  output : List String
  errors : List String

def videoUnit (round : Nat) : PayloadUnit :=
  { payload := List.replicate (1024 + round * 7) 0 }

def audioUnit : PayloadUnit :=
  { payload := List.replicate 256 0 }

/-- In each of ten rounds both tracks send a unit. -/
def schedule (video audio : TrackHandle) : List (TrackHandle × PayloadUnit) :=
  (List.range 10).flatMap fun round => [(video, videoUnit round), (audio, audioUnit)]

def streamLine (bytes : Nat) : String :=
  "Wrote " ++ toString (bytes / Layout.packetSize) ++ " packets (" ++ toString bytes ++
    " bytes, up to " ++ toString Layout.maxPayload ++ " payload bytes each)"

/-- The line for a track: its packets among those received, their stuffing, and its counter. -/
def trackLine (received : List Packet) (t : Track) : String :=
  let own := received.filter (·.header.pid == t.pid)
  "pid " ++ t.pid.text ++ " (" ++ t.streamType.name ++ "): " ++ toString own.length ++
    " packets, " ++ toString ((own.map (·.field.stuffing)).foldl (· + ·) 0) ++
    " stuffing bytes, cc now " ++ toString t.counter.value

def report (s : Settings) : Except InvalidPid (List String) := do
  let (video, registry, store) ← (Registry.ofSettings s).addTrack {} .h264
  let (audio, registry, store) ← registry.addTrack store .adtsAac
  let (store, stream) := store.sendAll (schedule video audio) (#[] : Array UInt8)
  let received := ((Receiver.ofSettings s).receive stream.toList).packets
  .ok (streamLine stream.size :: (registry.tracks store).map (trackLine received))

/-- Run the demonstration.  Where the identifiers run out, nothing is reported but that. -/
def run (s : Settings) : Outcome :=
  match report s with
  | .ok lines => ⟨0, lines, []⟩
  | .error e => ⟨1, [], ["Error: InvalidPid(" ++ toString e.number ++ ")"]⟩

end TransportStream.Demo
