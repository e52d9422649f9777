import TransportStream.Pid

/-!
# Settings

What a user may set, and the values that hold where nothing is set.
-/

namespace TransportStream

def Settings.usualFirstPid : Pid := ⟨0x100, by decide⟩

@[ext] structure Settings where
  firstElementaryPid : Pid := Settings.usualFirstPid
  continuityCheck : Bool := true
  deriving DecidableEq

inductive Setting where
  | firstElementaryPid (pid : Pid)
  | continuityCheck (enabled : Bool)
  deriving DecidableEq

def Settings.set (s : Settings) : Setting → Settings
  | .firstElementaryPid pid => { s with firstElementaryPid := pid }
  | .continuityCheck enabled => { s with continuityCheck := enabled }

end TransportStream
