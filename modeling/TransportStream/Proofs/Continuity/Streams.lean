import Mathlib.Data.List.DropRight
import TransportStream.Proofs.Continuity.Runs

/-!
# Streams do not touch one another

A tracker is asked to check packets of many streams, in any order, and now and then to start over.
To each stream it is a checker of its own (`Tracker.checker_handle`), so what it says about a packet
depends on the packets of the same stream since the last reset and on nothing else
(`Tracker.answers_of_streams`).
-/

namespace TransportStream.Continuity

/-! ## Events -/

namespace Event

def header? : Event → Option Header
  | check header => some header
  | reset => none

/-- Packets of one stream concern it, and every reset does. -/
def concerns (pid : Pid) : Event → Bool
  | check header => header.pid = pid
  | reset => true

end Event

/-- The packets since the last reset. -/
def sinceReset (past : List Event) : List Header :=
  (past.rtakeWhile (· ≠ .reset)).filterMap Event.header?

/-- What there is to say to an event after others: what a new checker says that has seen the packets
of the same stream since the last reset. -/
def answerAfter (past : List Event) : Event → Option Verdict
  | .check h => some ((({} : Checker).after ((sinceReset past).filter (·.pid = h.pid))).check h).1
  | .reset => none

theorem sinceReset_concat_check (past : List Event) (h : Header) :
    sinceReset (past ++ [.check h]) = sinceReset past ++ [h] := by
  unfold sinceReset
  rw [List.rtakeWhile_concat_pos _ _ _ (by simp), List.filterMap_append]
  rfl

theorem sinceReset_concat_reset (past : List Event) : sinceReset (past ++ [.reset]) = [] := by
  unfold sinceReset
  rw [List.rtakeWhile_concat_neg _ _ _ (by decide)]
  rfl

/-! ## One stream -/

namespace Checker

/-- What an event does to the checker of one stream. -/
def handle (c : Checker) (pid : Pid) : Event → Checker
  | .check h => if h.pid = pid then (c.check h).2 else c
  | .reset => c.reset

def afterEvents (c : Checker) (pid : Pid) (events : List Event) : Checker :=
  events.foldl (fun c e => c.handle pid e) c

theorem afterEvents_concat (c : Checker) (pid : Pid) (events : List Event) (e : Event) :
    c.afterEvents pid (events ++ [e]) = (c.afterEvents pid events).handle pid e :=
  List.foldl_concat ..

-- From the start, a checker is where the packets of its stream since the last reset have led it.
theorem afterEvents_eq_after (pid : Pid) (events : List Event) :
    ({} : Checker).afterEvents pid events =
      ({} : Checker).after ((sinceReset events).filter (·.pid = pid)) := by
  induction events using List.reverseRecOn with
  | nil => rfl
  | append_singleton past e ih =>
    rw [afterEvents_concat, ih]
    cases e with
    | reset => rw [sinceReset_concat_reset]; rfl
    | check h =>
      rw [sinceReset_concat_check, List.filter_append]
      by_cases hpid : h.pid = pid
      · rw [List.filter_cons_of_pos (by simpa using hpid), List.filter_nil, after_append, handle,
          if_pos hpid]
        rfl
      · rw [List.filter_cons_of_neg (by simpa using hpid), List.filter_nil, List.append_nil, handle,
          if_neg hpid]

theorem handle_of_not_concerns {pid : Pid} {e : Event} (h : e.concerns pid = false) (c : Checker) :
    c.handle pid e = c := by
  cases e with
  | reset => cases h
  | check header => exact if_neg (of_decide_eq_false h)

theorem afterEvents_filter (c : Checker) (pid : Pid) (events : List Event) :
    c.afterEvents pid (events.filter (·.concerns pid)) = c.afterEvents pid events := by
  induction events generalizing c with
  | nil => rfl
  | cons e rest ih =>
    cases hc : e.concerns pid with
    | true => rw [List.filter_cons_of_pos hc]; exact ih (c.handle pid e)
    | false =>
      rw [List.filter_cons_of_neg (by rw [hc]; exact Bool.false_ne_true), ih]
      show c.afterEvents pid rest = (c.handle pid e).afterEvents pid rest
      rw [handle_of_not_concerns hc]

end Checker

/-! ## All streams -/

namespace Tracker

/-- An event does to the checker of each stream what it means to that stream alone. -/
theorem checker_handle (t : Tracker) (e : Event) (pid : Pid) :
    (t.handle e).2.checker pid = (t.checker pid).handle pid e := by
  cases e with
  | check h => exact t.checker_check h pid
  | reset => exact checker_empty pid

theorem checker_afterEvents (t : Tracker) (events : List Event) (pid : Pid) :
    (t.afterEvents events).checker pid = (t.checker pid).afterEvents pid events := by
  induction events generalizing t with
  | nil => rfl
  | cons e rest ih =>
    show ((t.handle e).2.afterEvents rest).checker pid =
      ((t.checker pid).handle pid e).afterEvents pid rest
    rw [ih, checker_handle]

theorem answers_append (t : Tracker) (a b : List Event) :
    t.answers (a ++ b) = t.answers a ++ (t.afterEvents a).answers b := by
  induction a generalizing t with
  | nil => rfl
  | cons e a ih => rw [List.cons_append, answers, ih]; rfl

-- The answer to an event is that of the tracker which the events before it have left.
theorem getElem?_answers (t : Tracker) (events : List Event) (i : Nat) :
    (t.answers events)[i]? =
      events[i]?.map fun e => ((t.afterEvents (events.take i)).handle e).1 := by
  induction events generalizing t i with
  | nil => rfl
  | cons e rest ih =>
    cases i with
    | zero => rfl
    | succ i =>
      rw [answers, List.getElem?_cons_succ, List.getElem?_cons_succ, List.take_succ_cons, ih]
      rfl

-- A packet is judged by what its stream has made of a new checker.
theorem fst_check_afterEvents (past : List Event) (h : Header) :
    ((({} : Tracker).afterEvents past).check h).1 =
      ((({} : Checker).afterEvents h.pid past).check h).1 := by
  rw [fst_check, checker_afterEvents, checker_empty]

theorem fst_handle_afterEvents (past : List Event) (e : Event) :
    ((({} : Tracker).afterEvents past).handle e).1 = answerAfter past e := by
  cases e with
  | reset => rfl
  | check h =>
    show some ((({} : Tracker).afterEvents past).check h).1 = _
    rw [fst_check_afterEvents, Checker.afterEvents_eq_after]
    rfl

/-- **Streams are independent.**  Whatever a new tracker is asked, it says about each packet what a
new checker says that saw only the packets of the same stream since the last reset; so events that
do not concern a stream change nothing that is said about it, neither by being there nor by their
order; and after a reset all answers are those of a new tracker. -/
theorem answers_of_streams :
    (∀ events : List Event, ({} : Tracker).answers events =
      events.mapIdx fun i e => answerAfter (events.take i) e) ∧
    (∀ (a b : List Event) (h : Header),
      a.filter (·.concerns h.pid) = b.filter (·.concerns h.pid) →
      ((({} : Tracker).afterEvents a).check h).1 = ((({} : Tracker).afterEvents b).check h).1) ∧
    (∀ (t : Tracker) (before later : List Event), t.answers (before ++ .reset :: later) =
      t.answers before ++ none :: ({} : Tracker).answers later) := by
  refine ⟨fun events => ?_, fun a b h hsame => ?_, fun t before later => ?_⟩
  · apply List.ext_getElem?
    intro i
    rw [getElem?_answers, List.getElem?_mapIdx]
    simp only [fst_handle_afterEvents]
  · rw [fst_check_afterEvents, fst_check_afterEvents, ← Checker.afterEvents_filter _ _ a, hsame,
      Checker.afterEvents_filter]
  · rw [answers_append]
    rfl

/-- Packets of another stream around a reset change nothing: with them and without them, one packet of
the own stream is missing. -/
theorem verdict_beside_other_stream :
    let own (n : Nat) : Header := { pid := ⟨0x100, by decide⟩, counter := Counter.ofNat n }
    let other (n : Nat) : Header := { pid := ⟨0x101, by decide⟩, counter := Counter.ofNat n }
    let alone : List Event := [.check (own 3), .reset, .check (own 7)]
    let beside : List Event := [.check (other 1), .check (own 3), .check (other 8), .reset,
      .check (other 2), .check (own 7), .check (other 2)]
    beside.filter (·.concerns (own 9).pid) = alone.filter (·.concerns (own 9).pid) ∧
      ((({} : Tracker).afterEvents beside).check (own 9)).1 =
        ((({} : Tracker).afterEvents alone).check (own 9)).1 ∧
      ((({} : Tracker).afterEvents beside).check (own 9)).1 =
        .gap ⟨Counter.ofNat 8, Counter.ofNat 9⟩ := by
  intro own other alone beside
  have hsame : beside.filter (·.concerns (own 9).pid) = alone.filter (·.concerns (own 9).pid) := by
    decide
  have hequal := answers_of_streams.2.1 beside alone (own 9) hsame
  have hgap : ((({} : Tracker).afterEvents alone).check (own 9)).1 =
      .gap ⟨Counter.ofNat 8, Counter.ofNat 9⟩ := by
    rw [fst_check_afterEvents]
    rfl
  exact ⟨hsame, hequal, hequal.trans hgap⟩

end Tracker

end TransportStream.Continuity
