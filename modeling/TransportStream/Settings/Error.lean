import TransportStream.Pid

/-!
# Settings errors

Why a source of settings is refused.
-/

namespace TransportStream

inductive ReadFailure where
  | directory
  | encoding
  deriving DecidableEq

def ReadFailure.message : ReadFailure → String
  | directory => "Is a directory (os error 21)"
  | encoding => "stream did not contain valid UTF-8"

inductive SettingsError where
  | noSeparator (line : String)
  | unknownKey (key : String)
  /-- The value is not a 16-bit numeral. -/
  | notPid (value : String)
  /-- The value is a 16-bit numeral, but not an identifier. -/
  | invalidPid (cause : InvalidPid)
  | notBoolean (value : String)
  | unreadable (cause : ReadFailure)
  deriving DecidableEq

def SettingsError.message : SettingsError → String
  | noSeparator line => "invalid config: expected key = value: " ++ line
  | unknownKey key => "invalid config: unknown key: " ++ key
  | notPid value => "invalid config: not a pid: " ++ value
  | invalidPid cause => cause.message
  | notBoolean value => "invalid config: not a boolean: " ++ value
  | unreadable cause => "io error: " ++ cause.message

end TransportStream
