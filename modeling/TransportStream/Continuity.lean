import Std.Data.HashMap
import TransportStream.Header

/-!
# Continuity checks

The counter of a stream goes on by one with every packet that carries payload.  One repeat of such
a packet is a retransmission; anything else out of order means that packets are missing.  A tracker
keeps one check for each stream, and the checks do not touch one another (`checker_check`).
-/

namespace TransportStream.Continuity

/-- The counter that would have been in order, and the one that came. -/
structure Gap where
  expected : Counter
  found : Counter
  deriving DecidableEq

inductive Verdict where
  | inSequence
  /-- The packet repeats the one before. -/
  | duplicate
  | gap (gap : Gap)
  deriving DecidableEq

/-- In sequence if the counter that came is the expected one. -/
def Verdict.ofCounters (expected found : Counter) : Verdict :=
  if found = expected then .inSequence else .gap ⟨expected, found⟩

/-! ## One stream -/

/-- The counter of the last packet with payload, and whether that packet was already repeated. -/
structure Checker where
  last : Option Counter := none
  duplicateSeen : Bool := false
  deriving DecidableEq

namespace Checker

/-- Check one packet against those before.  The first packet is always in sequence.  A packet
without payload has to show the last counter and changes nothing. -/
def check (c : Checker) (h : Header) : Verdict × Checker :=
  match c.last with
  | none =>
    (.inSequence, if h.control.hasPayload then { c with last := some h.counter } else c)
  | some last =>
    if h.control.hasPayload = false then (.ofCounters last h.counter, c)
    else if h.counter = last ∧ c.duplicateSeen = false then
      (.duplicate, { c with duplicateSeen := true })
    -- After a gap the check goes on from the counter that came, a second repeat included.
    else (.ofCounters last.next h.counter, { last := some h.counter, duplicateSeen := false })

def reset (_ : Checker) : Checker := {}

def after (c : Checker) (headers : List Header) : Checker :=
  headers.foldl (fun c h => (c.check h).2) c

/-- What is said about each of some packets, in order. -/
def verdicts (c : Checker) : List Header → List Verdict
  | [] => []
  | h :: rest => (c.check h).1 :: verdicts (c.check h).2 rest

end Checker

/-! ## All streams -/

/-- A checker for every stream that was seen. -/
structure Tracker where
  checkers : Std.HashMap Pid Checker := ∅

/-- What a tracker is asked to do. -/
inductive Event where
  | check (header : Header)
  | reset
  deriving DecidableEq

namespace Tracker

def checker (t : Tracker) (pid : Pid) : Checker :=
  t.checkers.getD pid {}

def check (t : Tracker) (h : Header) : Verdict × Tracker :=
  let (verdict, checker) := (t.checker h.pid).check h
  (verdict, ⟨t.checkers.insert h.pid checker⟩)

/-- Forget all streams. -/
def reset (_ : Tracker) : Tracker := {}

def after (t : Tracker) (headers : List Header) : Tracker :=
  headers.foldl (fun t h => (t.check h).2) t

/-- What is said about each of some packets, in order. -/
def verdicts (t : Tracker) : List Header → List Verdict
  | [] => []
  | h :: rest => (t.check h).1 :: verdicts (t.check h).2 rest

/-- What a tracker says to an event, and the tracker afterwards.  To a reset it says nothing. -/
def handle (t : Tracker) : Event → Option Verdict × Tracker
  | .check h => ((t.check h).1, (t.check h).2)
  | .reset => (none, t.reset)

def afterEvents (t : Tracker) (events : List Event) : Tracker :=
  events.foldl (fun t e => (t.handle e).2) t

/-- What a tracker says to each of some events, in order. -/
def answers (t : Tracker) : List Event → List (Option Verdict)
  | [] => []
  | e :: rest => (t.handle e).1 :: answers (t.handle e).2 rest

@[simp] theorem checker_empty (pid : Pid) : ({} : Tracker).checker pid = {} := by
  simp [checker]

@[simp] theorem fst_check (t : Tracker) (h : Header) :
    (t.check h).1 = ((t.checker h.pid).check h).1 := rfl

/-- A check moves the checker of the packet's own stream and no other. -/
theorem checker_check (t : Tracker) (h : Header) (pid : Pid) :
    (t.check h).2.checker pid =
      if h.pid = pid then ((t.checker pid).check h).2 else t.checker pid := by
  simp only [check, checker, Std.HashMap.getD_insert, beq_iff_eq]
  split
  next heq => rw [heq]
  next => rfl

end Tracker

end TransportStream.Continuity
