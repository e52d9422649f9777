import TransportStream.Log
import TransportStream.Settings.Lines

/-!
# Sources of settings

Settings come from their defaults, then from environment variables, then from a file; what comes
later wins.  The first fault in this order makes all sources invalid, and then the defaults hold.
-/

namespace TransportStream

inductive Content where
  | text (s : String)
  | undecodable
  deriving DecidableEq

def Content.ofBytes (bytes : ByteArray) : Content :=
  match String.fromUTF8? bytes with
  | some s => .text s
  | none => .undecodable

inductive Entry where
  | directory
  | file (content : Content)
  deriving DecidableEq

structure Sources where
  environment : String → Option Content := fun _ => none
  entry : String → Option Entry := fun _ => none

def SettingKey.variableName : SettingKey → String
  | firstElementaryPid => "TSFRAME_FIRST_PID"
  | continuityCheck => "TSFRAME_CONTINUITY_CHECK"

namespace Sources

/-- The files that may hold settings; only the first that exists is read. -/
def fileNames : List String := ["tsframe.toml", "tsframe_config.toml"]

def setVariable (src : Sources) (name : String) (value : Option Content) : Sources :=
  { src with environment := fun n => if n = name then value else src.environment n }

def setEntry (src : Sources) (name : String) (entry : Option Entry) : Sources :=
  { src with entry := fun n => if n = name then entry else src.entry n }

/-- Apply the variable for a setting.  One that is not text counts as not set. -/
def applyVariable (src : Sources) (key : SettingKey) (s : Settings) :
    Except SettingsError Settings :=
  match src.environment key.variableName with
  | some (.text value) => (key.read value).map s.set
  | _ => .ok s

/-- Apply the first file that exists. -/
def applyFile (src : Sources) (s : Settings) : Except SettingsError Settings :=
  match fileNames.findSome? src.entry with
  | none => .ok s
  | some .directory => .error (.unreadable .directory)
  | some (.file .undecodable) => .error (.unreadable .encoding)
  | some (.file (.text content)) => (s.applyText content).result

end Sources

namespace Settings

def fromSources (src : Sources) : Except SettingsError Settings := do
  let s ← src.applyVariable .firstElementaryPid {}
  let s ← src.applyVariable .continuityCheck s
  src.applyFile s

/-- The settings that hold with these sources: the defaults if the sources are at fault. -/
def load (src : Sources) : Settings :=
  match fromSources src with
  | .ok s => s
  | .error _ => {}

def loadLog (src : Sources) : List LogEvent :=
  match fromSources src with
  | .ok _ => []
  | .error e => [.settingsRefused e]

end Settings

end TransportStream
