import TransportStream.Settings.Sources

/-!
# Published settings

A process loads its settings when they are first asked for, and again whenever it is told to; in
between it keeps what it has, whatever becomes of its sources.
-/

namespace TransportStream

/-- A process after a load: its surroundings, and the settings that it goes by.  Where the load found
nothing set, or found a fault, those are the usual ones. -/
structure Host where
  sources : Sources := {}
  current : Settings := {}

namespace Host

/-- Change the surroundings; the settings stay as they are. -/
def withSources (h : Host) (change : Sources → Sources) : Host :=
  { h with sources := change h.sources }

/-- Load the settings, for the first time or again. -/
def reload (h : Host) : Host :=
  { h with current := Settings.load h.sources }

def reloadLog (h : Host) : List LogEvent :=
  Settings.loadLog h.sources

end Host

end TransportStream
