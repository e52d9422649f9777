import TransportStream.Continuity
import TransportStream.Log
import TransportStream.Packet.Cursor
import TransportStream.Settings

/-!
# Receivers

A receiver reads packets and, if it checks continuity, leaves out those that repeat the one before.
Every packet's worth of bytes has exactly one fate; what is received and what is told both follow
from the fates.  Bytes may come in any number of pieces that end at packet boundaries
(`receive_append`).
-/

namespace TransportStream

open Continuity

-- Bytes that are no packet are skipped, and a packet that repeats the one before is dropped.
inductive Fate where
  | skipped (cause : FramingError)
  | dropped (packet : Packet)
  | kept (packet : Packet) (gap : Option Gap)
  deriving DecidableEq

namespace Fate

def ofVerdict (packet : Packet) : Verdict → Fate
  | .inSequence => .kept packet none
  | .duplicate => .dropped packet
  | .gap gap => .kept packet (some gap)

/-- What comes of a packet's worth of bytes where nothing is checked. -/
def unchecked : Except FramingError Packet → Fate
  | .error cause => skipped cause
  | .ok packet => kept packet none

def received? : Fate → Option Packet
  | kept packet _ => some packet
  | skipped _ | dropped _ => none

def events (index : Nat) : Fate → List LogEvent
  | skipped cause => [.skipped index cause]
  | dropped packet => [.duplicate packet.header.pid]
  | kept packet (some gap) => [.gap packet.header.pid gap.expected gap.found]
  | kept _ none => []

end Fate

/-- A receiver, with the state of its continuity check if it has one. -/
structure Receiver where
  continuity : Option Tracker

/-- What came of some bytes, and the receiver afterwards. -/
structure Reception where
  fates : List Fate
  /-- The number of bytes at the end that are less than a packet. -/
  trailing : Nat
  receiver : Receiver

namespace Reception

def packets (r : Reception) : List Packet :=
  r.fates.filterMap Fate.received?

/-- What the reception tells: bytes left over at the end come first, then each fate in order. -/
def log (r : Reception) : List LogEvent :=
  (if r.trailing = 0 then [] else [.trailing r.trailing]) ++
    (r.fates.mapIdx fun index fate => fate.events index).flatten

end Reception

namespace Receiver

def withContinuityCheck (enabled : Bool) : Receiver :=
  ⟨if enabled then some {} else none⟩

def ofSettings (s : Settings) : Receiver :=
  withContinuityCheck s.continuityCheck

/-- The fate of one packet's worth of bytes that was read.  What is not a packet does not touch the
check. -/
def step (r : Receiver) : Except FramingError Packet → Fate × Receiver
  | .error cause => (.skipped cause, r)
  | .ok packet =>
    match r.continuity with
    | none => (.kept packet none, r)
    | some tracker =>
      let (verdict, tracker) := tracker.check packet.header
      (.ofVerdict packet verdict, ⟨some tracker⟩)

def run (r : Receiver) : List (Except FramingError Packet) → List Fate × Receiver
  | [] => ([], r)
  | item :: rest =>
    let (fate, r) := r.step item
    let (fates, r) := r.run rest
    (fate :: fates, r)

def receive (r : Receiver) (data : Bytes) : Reception :=
  let (fates, receiver) := r.run (Packet.parseAll data)
  ⟨fates, data.length % Layout.packetSize, receiver⟩

/-- Receive pieces one after the other: what came of each, and the receiver after the last. -/
def receiveAll (r : Receiver) : List Bytes → List Reception × Receiver
  | [] => ([], r)
  | piece :: rest =>
    let reception := r.receive piece
    let (receptions, r) := reception.receiver.receiveAll rest
    (reception :: receptions, r)

/-- Call the cursor up to its end, and step with each item. -/
def draw (r : Receiver) (c : Packet.Cursor) : List Fate × Receiver :=
  match _h : c.next? with
  | none => ([], r)
  | some (item, d) =>
    let (fate, r) := r.step item
    let (fates, r) := r.draw d
    (fate :: fates, r)
termination_by c.remaining
decreasing_by have := Packet.Cursor.remaining_next? (by assumption); omega

theorem run_append (r : Receiver) (a b : List (Except FramingError Packet)) :
    r.run (a ++ b) = ((r.run a).1 ++ ((r.run a).2.run b).1, ((r.run a).2.run b).2) := by
  induction a generalizing r with
  | nil => rfl
  | cons item a ih => simp only [List.cons_append, run, ih]

@[simp] theorem length_run (r : Receiver) (items : List (Except FramingError Packet)) :
    (r.run items).1.length = items.length := by
  induction items generalizing r with
  | nil => rfl
  | cons item rest ih => simp [run, ih]

@[simp] theorem run_none (items : List (Except FramingError Packet)) :
    ((⟨none⟩ : Receiver).run items).1 = items.map Fate.unchecked := by
  induction items with
  | nil => rfl
  | cons item rest ih => cases item <;> simp only [run, step, ih, List.map_cons, Fate.unchecked]

/-- Receiving goes on at a packet boundary as if there were none. -/
theorem receive_append (r : Receiver) {a b : Bytes} (h : Layout.packetSize ∣ a.length) :
    (r.receive (a ++ b)).fates = (r.receive a).fates ++ ((r.receive a).receiver.receive b).fates ∧
      (r.receive (a ++ b)).receiver = ((r.receive a).receiver.receive b).receiver := by
  simp [receive, Packet.parseAll_append h, run_append]

@[simp] theorem fates_receive_none (data : Bytes) :
    ((⟨none⟩ : Receiver).receive data).fates = (Packet.parseAll data).map Fate.unchecked :=
  run_none _

@[simp] theorem length_fates (r : Receiver) (data : Bytes) :
    (r.receive data).fates.length = data.length / Layout.packetSize :=
  (length_run r _).trans (Packet.length_parseAll data)

end Receiver

end TransportStream
