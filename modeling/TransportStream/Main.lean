import TransportStream.Demo
import TransportStream.Settings.Host

/-!
# Command line

Reads the settings from the environment and the working directory, runs the demonstration, and
prints what it leaves behind.
-/

open TransportStream

namespace TransportStream.CommandLine

def readVariable (name : String) : BaseIO (Option Content) := do
  return (← IO.getEnv name).map .text

/-- What a name in the working directory belongs to.  What exists but is not a readable file counts
as a directory. -/
def readEntry (name : String) : BaseIO (Option Entry) := do
  match ← (IO.FS.readBinFile name).toBaseIO with
  | .ok bytes => return some (.file (.ofBytes bytes))
  | .error (.noFileOrDirectory ..) => return none
  | .error _ => return some .directory

def readSources : BaseIO Sources := do
  let mut sources : Sources := {}
  for key in [SettingKey.firstElementaryPid, SettingKey.continuityCheck] do
    sources := sources.setVariable key.variableName (← readVariable key.variableName)
  for name in Sources.fileNames do
    sources := sources.setEntry name (← readEntry name)
  return sources

end TransportStream.CommandLine

def main : IO UInt32 := do
  let host := ({ sources := ← CommandLine.readSources } : Host).reload
  let outcome := Demo.run host.current
  for line in outcome.output do IO.println line
  for line in outcome.errors do IO.eprintln line
  return outcome.exitCode.toUInt32
