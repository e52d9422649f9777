import TransportStream.Continuity

/-!
# Runs of continuity checks

Headers checked one after the other, by one checker or by the tracker of all streams.  What the
tracker says about the packets of one stream is what the checker of that stream says about them
alone (`Tracker.verdicts_of_pid`).  Packets whose counters go on by one are in sequence, and the
checker ends at the counter of the last (`Checker.verdicts_consecutive`,
`Checker.after_consecutive`).
-/

namespace TransportStream.Continuity

/-! ## One stream -/

namespace Checker

variable {c : Checker} {h : Header}

theorem check_first (hlast : c.last = none) (hpayload : h.control.hasPayload = true) :
    c.check h = (.inSequence, { c with last := some h.counter }) := by
  simp only [check, hlast, hpayload, if_true]

theorem snd_check_of_no_payload (hpayload : h.control.hasPayload = false) :
    (c.check h).2 = c := by
  cases hlast : c.last with
  | none => simp only [check, hlast, hpayload, Bool.false_eq_true, if_false]
  | some last => simp only [check, hlast, hpayload, if_true]

theorem check_repeat (hlast : c.last = some h.counter) (hpayload : h.control.hasPayload = true)
    (hseen : c.duplicateSeen = false) :
    c.check h = (.duplicate, { c with duplicateSeen := true }) := by
  simp only [check, hlast, hpayload, hseen, Bool.true_eq_false, if_false, and_self, if_true]

-- What is not the first repeat of a packet moves the checker on, in sequence or over a gap.
theorem check_other {last : Counter} (hlast : c.last = some last)
    (hpayload : h.control.hasPayload = true)
    (hother : ¬ (h.counter = last ∧ c.duplicateSeen = false)) :
    c.check h = (.ofCounters last.next h.counter, ⟨some h.counter, false⟩) := by
  simp only [check, hlast, hpayload, Bool.true_eq_false, if_false, if_neg hother]

theorem after_append (c : Checker) (a b : List Header) :
    c.after (a ++ b) = (c.after a).after b :=
  List.foldl_append

theorem verdicts_append (c : Checker) (a b : List Header) :
    c.verdicts (a ++ b) = c.verdicts a ++ (c.after a).verdicts b := by
  induction a generalizing c with
  | nil => rfl
  | cons h a ih => rw [List.cons_append, verdicts, ih]; rfl

-- The verdict on a packet is that of the checker which the packets before it have left.
theorem getElem?_verdicts (c : Checker) (headers : List Header) (i : Nat) :
    (c.verdicts headers)[i]? =
      headers[i]?.map fun h => ((c.after (headers.take i)).check h).1 := by
  induction headers generalizing c i with
  | nil => rfl
  | cons h rest ih =>
    cases i with
    | zero => rfl
    | succ i =>
      rw [verdicts, List.getElem?_cons_succ, List.getElem?_cons_succ, List.take_succ_cons, ih]
      rfl

end Checker

/-! ## All streams -/

namespace Tracker

@[simp] theorem length_verdicts (t : Tracker) (headers : List Header) :
    (t.verdicts headers).length = headers.length := by
  induction headers generalizing t with
  | nil => rfl
  | cons h rest ih => rw [verdicts, List.length_cons, ih, List.length_cons]

/-- Among the verdicts of a run, those on the packets of one stream are the verdicts of that
stream's checker in a run over these packets alone. -/
theorem verdicts_of_pid (t : Tracker) (headers : List Header) (pid : Pid) :
    ((headers.zip (t.verdicts headers)).filter (·.1.pid = pid)).map Prod.snd =
      (t.checker pid).verdicts (headers.filter (·.pid = pid)) := by
  induction headers generalizing t with
  | nil => rfl
  | cons h rest ih =>
    have hrest := ih (t.check h).2
    rw [checker_check] at hrest
    by_cases hpid : h.pid = pid
    · rw [if_pos hpid] at hrest
      simp only [verdicts, List.zip_cons_cons, List.filter_cons, hpid, decide_true, if_true,
        List.map_cons, hrest, Checker.verdicts, fst_check]
    · rw [if_neg hpid] at hrest
      simp only [verdicts, List.zip_cons_cons, List.filter_cons, hpid, decide_false,
        Bool.false_eq_true, if_false, hrest]

-- Verdicts are those of the tracker if on each stream they are those of its checker.
theorem verdicts_eq_of_streams {t : Tracker} {headers : List Header} {vs : List Verdict}
    (hlength : vs.length = headers.length)
    (h : ∀ pid, ((headers.zip vs).filter (·.1.pid = pid)).map Prod.snd =
      (t.checker pid).verdicts (headers.filter (·.pid = pid))) :
    t.verdicts headers = vs := by
  induction headers generalizing t vs with
  | nil => exact (List.eq_nil_of_length_eq_zero hlength).symm
  | cons x rest ih =>
    obtain ⟨v, tail, rfl⟩ := List.exists_cons_of_length_eq_add_one hlength
    -- The stream of the first packet tells its verdict, and with the first packet gone every stream
    -- tells the others.
    have hfirst := h x.pid
    rw [List.zip_cons_cons, List.filter_cons_of_pos (by simp), List.map_cons,
      List.filter_cons_of_pos (by simp), Checker.verdicts, List.cons.injEq] at hfirst
    have htail : (t.check x).2.verdicts rest = tail := by
      apply ih (Nat.succ.inj hlength)
      intro pid
      rw [checker_check]
      by_cases hpid : x.pid = pid
      · subst hpid
        rw [if_pos rfl]
        exact hfirst.2
      · have hother := h pid
        rw [List.zip_cons_cons, List.filter_cons_of_neg (by simpa using hpid),
          List.filter_cons_of_neg (by simpa using hpid)] at hother
        rw [if_neg hpid]
        exact hother
    have hv : v = ((t.checker x.pid).check x).1 := hfirst.1
    rw [verdicts, htail, fst_check, hv]

-- With packets of one stream only, the tracker says what the checker of the stream says.
theorem verdicts_eq_checker (t : Tracker) {headers : List Header} {pid : Pid}
    (h : ∀ x ∈ headers, x.pid = pid) : t.verdicts headers = (t.checker pid).verdicts headers := by
  have hself : headers.filter (·.pid = pid) = headers :=
    List.filter_eq_self.mpr fun x hx => decide_eq_true (h x hx)
  have hzip : (headers.zip (t.verdicts headers)).filter (·.1.pid = pid) =
      headers.zip (t.verdicts headers) :=
    List.filter_eq_self.mpr fun x hx => decide_eq_true (h x.1 (List.of_mem_zip hx).1)
  have := t.verdicts_of_pid headers pid
  rw [hzip, hself, List.map_snd_zip (Nat.le_of_eq (t.length_verdicts headers))] at this
  exact this

end Tracker

/-! ## Counters that go on by one -/

/-- All packets carry payload, and their counters go on from `counter` one by one. -/
def Consecutive (counter : Counter) (headers : List Header) : Prop :=
  ∀ i h, headers[i]? = some h → h.control.hasPayload = true ∧ h.counter = counter.advance (i + 1)

@[simp] theorem consecutive_nil (k : Counter) : Consecutive k [] := by
  intro i h hi
  cases hi

@[simp] theorem consecutive_append {k : Counter} {a b : List Header} :
    Consecutive k (a ++ b) ↔ Consecutive k a ∧ Consecutive (k.advance a.length) b := by
  constructor
  · intro hab
    refine ⟨fun i h hi => ?_, fun i h hi => ?_⟩
    · exact hab i h (by rw [List.getElem?_append_left (List.getElem?_eq_some_iff.mp hi).1, hi])
    · have := hab (a.length + i) h (by rw [List.getElem?_append_right (by omega),
        Nat.add_sub_cancel_left, hi])
      rw [Counter.advance_advance, ← Nat.add_assoc]
      exact this
  · rintro ⟨ha, hb⟩ i h hi
    by_cases hlt : i < a.length
    · rw [List.getElem?_append_left hlt] at hi
      exact ha i h hi
    · rw [List.getElem?_append_right (by omega)] at hi
      have := hb _ h hi
      rw [Counter.advance_advance, show a.length + (i - a.length + 1) = i + 1 by omega] at this
      exact this

-- Any part of such packets is such again, from where the part begins.
theorem Consecutive.of_infix {k : Counter} {part headers : List Header}
    (h : Consecutive k headers) (hpart : part <:+: headers) : ∃ k', Consecutive k' part := by
  obtain ⟨before, after, rfl⟩ := hpart
  rw [consecutive_append, consecutive_append] at h
  exact ⟨_, h.1.2⟩

@[simp] theorem consecutive_cons {k : Counter} {h : Header} {rest : List Header} :
    Consecutive k (h :: rest) ↔
      (h.control.hasPayload = true ∧ h.counter = k.next) ∧ Consecutive k.next rest := by
  have hone : Consecutive k [h] ↔ h.control.hasPayload = true ∧ h.counter = k.next := by
    constructor
    · intro hc
      exact hc 0 h rfl
    · intro hh i x hi
      cases i with
      | zero => cases hi; exact hh
      | succ i => cases hi
  rw [show h :: rest = [h] ++ rest from rfl, consecutive_append, hone]
  rfl

namespace Checker

/-- The checker has seen nothing yet, or last a packet with this counter. -/
def InStep (c : Checker) (counter : Counter) : Prop :=
  c = {} ∨ c.last = some counter

-- A packet with the next counter is in sequence, whether or not the one before was repeated.
theorem check_next {c : Checker} {k : Counter} {h : Header} (hc : c.InStep k)
    (hpayload : h.control.hasPayload = true) (hnext : h.counter = k.next) :
    c.check h = (.inSequence, ⟨some h.counter, false⟩) := by
  rcases hc with rfl | hlast
  · exact check_first rfl hpayload
  · have hother : ¬ (h.counter = k ∧ c.duplicateSeen = false) := fun hand =>
      k.next_ne (hnext.symm.trans hand.1)
    rw [check_other hlast hpayload hother, Verdict.ofCounters, if_pos hnext]

theorem after_consecutive {c : Checker} {k : Counter} {headers : List Header} (hc : c.InStep k)
    (hheaders : Consecutive k headers) (hne : headers ≠ []) :
    c.after headers = ⟨some (k.advance headers.length), false⟩ := by
  induction headers generalizing c k with
  | nil => exact absurd rfl hne
  | cons h rest ih =>
    obtain ⟨⟨hpayload, hnext⟩, hrest⟩ := consecutive_cons.mp hheaders
    have hstep : c.after (h :: rest) = (⟨some h.counter, false⟩ : Checker).after rest := by
      rw [after, List.foldl_cons, check_next hc hpayload hnext]; rfl
    rw [hstep, hnext]
    by_cases hnil : rest = []
    · subst hnil; rfl
    · rw [ih (Or.inr rfl) hrest hnil, Counter.next, Counter.advance_advance, List.length_cons,
        Nat.add_comm]

theorem verdicts_consecutive {c : Checker} {k : Counter} {headers : List Header}
    (hc : c.InStep k) (hheaders : Consecutive k headers) :
    c.verdicts headers = List.replicate headers.length .inSequence := by
  induction headers generalizing c k with
  | nil => rfl
  | cons h rest ih =>
    obtain ⟨⟨hpayload, hnext⟩, hrest⟩ := consecutive_cons.mp hheaders
    rw [verdicts, check_next hc hpayload hnext, ih (k := k.next) (Or.inr (by rw [hnext])) hrest]
    rfl

end Checker

/-- If the counters of each stream go on by one from where its checker stands, every packet is in
sequence, however the streams are interleaved. -/
theorem Tracker.verdicts_inSequence {t : Tracker} {headers : List Header}
    (h : ∀ pid, ∃ k, (t.checker pid).InStep k ∧ Consecutive k (headers.filter (·.pid = pid))) :
    t.verdicts headers = List.replicate headers.length .inSequence := by
  rw [List.eq_replicate_iff]
  -- Each verdict is also one of the verdicts on its own stream, where the counters go on by one.
  refine ⟨t.length_verdicts headers, fun v hv => ?_⟩
  obtain ⟨i, hi, hv⟩ := List.getElem_of_mem hv
  have hlen := t.length_verdicts headers
  have hmem : (headers[i], v) ∈ headers.zip (t.verdicts headers) := by
    rw [← hv, ← List.getElem_zip (h := by rw [List.length_zip]; omega)]
    exact List.getElem_mem _
  obtain ⟨k, hk, hconsecutive⟩ := h headers[i].pid
  have hown : v ∈ (t.checker headers[i].pid).verdicts
      (headers.filter (·.pid = headers[i].pid)) := by
    rw [← t.verdicts_of_pid]
    exact List.mem_map.mpr ⟨_, List.mem_filter.mpr ⟨hmem, decide_eq_true rfl⟩, rfl⟩
  rw [Checker.verdicts_consecutive hk hconsecutive] at hown
  exact List.eq_of_mem_replicate hown

end TransportStream.Continuity
