import TransportStream.Counter
import TransportStream.FramingError
import TransportStream.Settings.Error
import TransportStream.StreamType

/-!
# Log events

What is worth telling about a run, as data.  An operation that logs has a companion that lists its
events in order; `text` and `level` say how an event is shown.
-/

namespace TransportStream

inductive LogLevel where
  | trace
  | debug
  | warn
  deriving DecidableEq

def LogLevel.name : LogLevel → String
  | trace => "TRACE"
  | debug => "DEBUG"
  | warn => "WARN"

-- A unit that is sent tells of itself first and then of each of its packets.
inductive LogEvent where
  | sending (bytes : Nat) (pid : Pid) (packets : Nat) (forceStart : Bool)
  | sent (pid : Pid) (counter : Counter) (start : Bool) (payload stuffing : Nat)
  | registered (pid : Pid) (streamType : StreamType)
  | trailing (bytes : Nat)
  | skipped (index : Nat) (cause : FramingError)
  | duplicate (pid : Pid)
  | gap (pid : Pid) (expected found : Counter)
  | settingsRefused (cause : SettingsError)
  deriving DecidableEq

namespace LogEvent

def level : LogEvent → LogLevel
  | sent .. => .trace
  | gap .. | settingsRefused .. => .warn
  | sending .. | registered .. | trailing .. | skipped .. | duplicate .. => .debug

/-- An event as it is told, at its level. -/
def leveled (e : LogEvent) : LogLevel × LogEvent :=
  (e.level, e)

def text : LogEvent → String
  | sending bytes pid packets forceStart =>
      "packetizing " ++ toString bytes ++ " bytes on pid " ++ pid.text ++ " into " ++
        toString packets ++ " packets (force_pusi " ++ toString forceStart ++ ")"
  | sent pid counter start payload stuffing =>
      "pid " ++ pid.text ++ " cc " ++ toString counter.value ++ " pusi " ++ toString start ++
        " payload " ++ toString payload ++ " stuffing " ++ toString stuffing
  | registered pid streamType =>
      "registered track pid=" ++ pid.text ++ " stream_type=" ++ streamType.name
  | trailing bytes => "ignoring " ++ toString bytes ++ " trailing bytes"
  | skipped index cause => "skipping packet " ++ toString index ++ ": " ++ cause.message
  | duplicate pid => "dropping duplicate packet on pid " ++ pid.text
  | gap pid expected found =>
      "continuity gap on pid " ++ pid.text ++ ": expected " ++ toString expected.value ++
        ", found " ++ toString found.value
  | settingsRefused cause => "ignoring configuration: " ++ cause.message

end LogEvent

end TransportStream
