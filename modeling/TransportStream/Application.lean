import TransportStream.Receiver
import TransportStream.Session
import TransportStream.Settings.Host

/-!
# Applications

An application changes its surroundings, reloads its settings, reads them, and makes receivers and
registries that it then uses, all in any order.  What it has made is numbered, and every use names
the number.
-/

namespace TransportStream

/-- What an application does.  Receivers, registries and copies of settings are numbered in the order
in which they were made. -/
inductive Action where
  | changeSources (change : Sources → Sources)
  | reload
  /-- Take a copy of the settings that hold. -/
  | readCurrent
  /-- Take what the sources hold, if they hold anything valid. -/
  | readSources
  | newSettings
  | applyText (index : Nat) (text : String)
  | newReceiver
  | newReceiverWith (enabled : Bool)
  | receive (index : Nat) (data : Bytes)
  | newRegistry
  | newRegistryAt (first : Pid)
  | call (index : Nat) (c : Call)

namespace Action

def changed : Action → Sources → Sources
  | changeSources change, src => change src
  | reload, src | readCurrent, src | readSources, src | newSettings, src | applyText .., src
  | newReceiver, src | newReceiverWith _, src | receive .., src | newRegistry, src
  | newRegistryAt _, src | call .., src => src

/-- The bytes that a receiver is given. -/
def pieceFor? (index : Nat) : Action → Option Bytes
  | receive i data => if i = index then some data else none
  | changeSources _ | reload | readCurrent | readSources | newSettings | applyText .. | newReceiver
  | newReceiverWith _ | newRegistry | newRegistryAt _ | call .. => none

/-- What is asked of a registry, or of a track by one who has it from there. -/
def callFor? (index : Nat) : Action → Option Call
  | call i c => if i = index then some c else none
  | changeSources _ | reload | readCurrent | readSources | newSettings | applyText .. | newReceiver
  | newReceiverWith _ | receive .. | newRegistry | newRegistryAt _ => none

end Action

/-- An application: its surroundings and the settings that hold, and what it has made. -/
structure Application where
  host : Host
  copies : List Settings := []
  receivers : List Receiver := []
  sessions : List Session := []

namespace Application

/-- An application after a load that left the usual settings; from then on its surroundings are
these. -/
def start (src : Sources) : Application :=
  { host := { sources := src } }

def step (p : Application) : Action → Application
  | .changeSources change => { p with host := p.host.withSources change }
  | .reload => { p with host := p.host.reload }
  | .readCurrent => { p with copies := p.copies ++ [p.host.current] }
  | .readSources =>
    match Settings.fromSources p.host.sources with
    | .ok s => { p with copies := p.copies ++ [s] }
    | .error _ => p
  | .newSettings => { p with copies := p.copies ++ [{}] }
  | .applyText index text =>
    { p with copies := p.copies.modify index fun s => (s.applyText text).settings }
  | .newReceiver => { p with receivers := p.receivers ++ [.ofSettings p.host.current] }
  | .newReceiverWith enabled =>
    { p with receivers := p.receivers ++ [.withContinuityCheck enabled] }
  | .receive index data =>
    { p with receivers := p.receivers.modify index fun r => (r.receive data).receiver }
  | .newRegistry =>
    { p with sessions := p.sessions ++ [.ofRegistry (.ofSettings p.host.current)] }
  | .newRegistryAt first =>
    { p with sessions := p.sessions ++ [.ofRegistry (.startingAt first)] }
  | .call index c => { p with sessions := p.sessions.modify index fun s => s.step c }

def after (p : Application) (actions : List Action) : Application :=
  actions.foldl step p

theorem after_append (p : Application) (before rest : List Action) :
    p.after (before ++ rest) = (p.after before).after rest :=
  List.foldl_append

/-! ## Uses and logs -/

/-- What comes of an action for a receiver. -/
def reception? (p : Application) (index : Nat) (a : Action) : Option Reception :=
  (a.pieceFor? index).bind fun data => p.receivers[index]?.map fun r => r.receive data

/-- What comes of all uses of a receiver. -/
def receptions (p : Application) (index : Nat) : List Action → List Reception
  | [] => []
  | a :: rest => (p.reception? index a).toList ++ (p.step a).receptions index rest

/-- What an action makes happen to the tracks of a registry. -/
def trackEvents (p : Application) (index : Nat) : List Action → List TrackEvent
  | [] => []
  | a :: rest =>
    ((a.callFor? index).bind fun c => p.sessions[index]?.map fun s => s.events c).getD [] ++
      (p.step a).trackEvents index rest

def log (p : Application) : Action → List LogEvent
  | .reload => p.host.reloadLog
  | .receive index data => (p.receivers[index]?.map fun r => (r.receive data).log).getD []
  | .call index c => (p.sessions[index]?.map fun s => s.log c).getD []
  | .changeSources _ | .readCurrent | .readSources | .newSettings | .applyText .. | .newReceiver
  | .newReceiverWith _ | .newRegistry | .newRegistryAt _ => []

def logAll (p : Application) : List Action → List LogEvent
  | [] => []
  | a :: rest => p.log a ++ (p.step a).logAll rest

end Application

end TransportStream
