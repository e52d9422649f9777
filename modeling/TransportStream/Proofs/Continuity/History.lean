import TransportStream.Proofs.Continuity.Runs

/-!
# What a checker remembers

A checker keeps one counter and one flag, and yet each of its verdicts is a function of everything
that came before (`Checker.verdicts_of_history`).  The counter is that of the last packet with
payload.  The flag holds the parity of the run of equal counters at the end: it is set where that
run has even length.
-/

namespace TransportStream.Continuity

/-! ## The rule -/

def payloadCounters (past : List Header) : List Counter :=
  (past.filter (·.control.hasPayload)).map (·.counter)

/-- How many packets with payload, counted from the last one back, all have the given counter. -/
def repeats (past : List Header) (counter : Counter) : Nat :=
  ((payloadCounters past).reverse.takeWhile (· = counter)).length

/-- What there is to say about a packet after a history. -/
def verdictAfter (past : List Header) (h : Header) : Verdict :=
  match (payloadCounters past).getLast? with
  | none => .inSequence
  | some last =>
    if h.control.hasPayload = false then
      if h.counter = last then .inSequence else .gap ⟨last, h.counter⟩
    else if repeats past h.counter % 2 = 1 then .duplicate
    else if h.counter = last.next then .inSequence
    else .gap ⟨last.next, h.counter⟩

/-! ## One more packet -/

theorem payloadCounters_concat (past : List Header) (h : Header) :
    payloadCounters (past ++ [h]) =
      if h.control.hasPayload then payloadCounters past ++ [h.counter]
      else payloadCounters past := by
  cases hp : h.control.hasPayload <;> simp [payloadCounters, hp]

theorem payloadCounters_filter (past : List Header) :
    payloadCounters (past.filter (·.control.hasPayload)) = payloadCounters past := by
  rw [payloadCounters, List.filter_filter]
  simp only [Bool.and_self]
  rfl

theorem verdictAfter_congr {a b : List Header} (h : payloadCounters a = payloadCounters b)
    (x : Header) : verdictAfter a x = verdictAfter b x := by
  unfold verdictAfter repeats
  rw [h]

theorem repeats_concat_of_hasPayload (past : List Header) {h : Header}
    (hp : h.control.hasPayload = true) (counter : Counter) :
    repeats (past ++ [h]) counter =
      if h.counter = counter then repeats past counter + 1 else 0 := by
  rw [repeats, payloadCounters_concat, if_pos hp, List.reverse_concat]
  by_cases heq : h.counter = counter
  · rw [List.takeWhile_cons_of_pos (by simpa using heq), if_pos heq, List.length_cons, repeats]
  · rw [List.takeWhile_cons_of_neg (by simpa using heq), if_neg heq, List.length_nil]

theorem repeats_concat_of_no_payload (past : List Header) {h : Header}
    (hp : h.control.hasPayload = false) (counter : Counter) :
    repeats (past ++ [h]) counter = repeats past counter := by
  rw [repeats, payloadCounters_concat, if_neg (by rw [hp]; exact Bool.false_ne_true), repeats]

-- Only the counter at the end of a history can stand in a run at its end.
theorem repeats_eq_zero_of_ne {past : List Header} {counter : Counter}
    (h : (payloadCounters past).getLast? ≠ some counter) : repeats past counter = 0 := by
  rw [← List.head?_reverse] at h
  rw [repeats]
  cases hr : (payloadCounters past).reverse with
  | nil => rfl
  | cons last rest =>
    have hne : last ≠ counter := by rw [hr] at h; exact fun heq => h (congrArg some heq)
    rw [List.takeWhile_cons_of_neg (by simpa using hne), List.length_nil]

/-! ## The two fields as functions of the history -/

/-- What the two fields of a checker stand for after a history. -/
structure Checker.Remembers (c : Checker) (past : List Header) : Prop where
  last : c.last = (payloadCounters past).getLast?
  duplicateSeen : ∀ counter, c.last = some counter →
    (c.duplicateSeen = true ↔ repeats past counter % 2 = 0)
  unset : c.last = none → c.duplicateSeen = false

namespace Checker.Remembers

variable {c : Checker} {past : List Header}

theorem new : Remembers {} [] where
  last := rfl
  duplicateSeen := by intro counter h; cases h
  unset := by intro _; rfl

-- The flag tells whether the run at the end has even length.
theorem odd_of_unseen (hc : c.Remembers past) {k : Counter} (hl : c.last = some k)
    (hseen : c.duplicateSeen = false) : repeats past k % 2 = 1 := by
  have hflag := hc.duplicateSeen k hl
  rw [hseen] at hflag
  have hodd : ¬ repeats past k % 2 = 0 := fun h0 => Bool.noConfusion (hflag.mpr h0)
  omega

theorem even_of_seen (hc : c.Remembers past) {k : Counter} (hl : c.last = some k)
    (hseen : ¬ c.duplicateSeen = false) : repeats past k % 2 = 0 := by
  apply (hc.duplicateSeen k hl).mp
  rwa [Bool.not_eq_false] at hseen

-- The verdict on the next packet is the one that the history calls for.
theorem fst_check (hc : c.Remembers past) (h : Header) : (c.check h).1 = verdictAfter past h := by
  have hlast := hc.last
  cases hl : c.last with
  | none =>
    rw [hl] at hlast
    simp only [check, verdictAfter, hl, ← hlast]
  | some last =>
    rw [hl] at hlast
    simp only [verdictAfter, ← hlast]
    by_cases hp : h.control.hasPayload = true
    · rw [if_neg (by rw [hp]; exact Bool.noConfusion)]
      by_cases heq : h.counter = last
      -- A repeat, which the flag takes for the first one where the run so far has odd length.
      · subst heq
        by_cases hseen : c.duplicateSeen = false
        · rw [check_repeat hl hp hseen, if_pos (hc.odd_of_unseen hl hseen)]
        · have heven := hc.even_of_seen hl hseen
          rw [check_other hl hp (fun hand => hseen hand.2), if_neg (by omega), Verdict.ofCounters]
      -- A new counter: no run of it stands at the end.
      · have hzero : repeats past h.counter = 0 :=
          repeats_eq_zero_of_ne (by rw [← hlast]; exact fun h0 => heq (Option.some.inj h0).symm)
        rw [check_other hl hp (fun hand => heq hand.1), hzero, if_neg (by decide),
          Verdict.ofCounters]
    · rw [Bool.not_eq_true] at hp
      rw [if_pos hp, check, hl]
      simp only [hp, if_true, Verdict.ofCounters]

-- After a packet with payload both fields speak of its counter alone.
theorem snd_check_of_hasPayload (hc : c.Remembers past) {h : Header}
    (hp : h.control.hasPayload = true) :
    (c.check h).2.last = some h.counter ∧
      ((c.check h).2.duplicateSeen = true ↔ (repeats past h.counter + 1) % 2 = 0) := by
  have hlast := hc.last
  -- The first repeat sets the flag, the second one clears it, and a new counter starts a new run.
  by_cases hl : c.last = some h.counter
  · by_cases hseen : c.duplicateSeen = false
    · have hodd := hc.odd_of_unseen hl hseen
      rw [check_repeat hl hp hseen]
      exact ⟨hl, fun _ => by omega, fun _ => rfl⟩
    · have heven := hc.even_of_seen hl hseen
      rw [check_other hl hp (fun hand => hseen hand.2)]
      exact ⟨rfl, fun h0 => Bool.noConfusion h0, fun h0 => by omega⟩
  · rw [repeats_eq_zero_of_ne (hlast ▸ hl)]
    cases hl' : c.last with
    | none =>
      rw [check_first hl' hp]
      have hunset : ¬ c.duplicateSeen = true := by rw [hc.unset hl']; exact Bool.false_ne_true
      exact ⟨rfl, fun h0 => absurd h0 hunset, fun h0 => by omega⟩
    | some last =>
      rw [check_other hl' hp (fun hand => hl (by rw [hl', hand.1]))]
      exact ⟨rfl, fun h0 => Bool.noConfusion h0, fun h0 => by omega⟩

theorem snd_check (hc : c.Remembers past) (h : Header) : (c.check h).2.Remembers (past ++ [h]) := by
  by_cases hp : h.control.hasPayload = true
  · obtain ⟨hlast, hflag⟩ := hc.snd_check_of_hasPayload hp
    refine ⟨?_, fun counter hcounter => ?_, fun hnone => ?_⟩
    · rw [payloadCounters_concat, if_pos hp, List.getLast?_concat, hlast]
    · rw [hlast, Option.some.injEq] at hcounter
      rw [← hcounter, repeats_concat_of_hasPayload past hp, if_pos rfl]
      exact hflag
    · rw [hlast] at hnone; cases hnone
  · rw [Bool.not_eq_true] at hp
    rw [snd_check_of_no_payload hp]
    refine ⟨?_, fun counter hcounter => ?_, hc.unset⟩
    · rw [payloadCounters_concat, if_neg (by rw [hp]; exact Bool.false_ne_true), hc.last]
    · rw [repeats_concat_of_no_payload past hp]
      exact hc.duplicateSeen counter hcounter

-- A checker that ran over further packets remembers these too.
theorem after (hc : c.Remembers past) (headers : List Header) :
    (c.after headers).Remembers (past ++ headers) := by
  induction headers generalizing c past with
  | nil => rw [List.append_nil]; exact hc
  | cons h rest ih =>
    have := ih (hc.snd_check h)
    rw [List.append_assoc, List.singleton_append] at this
    exact this

end Checker.Remembers

/-! ## Every verdict of a run -/

-- What a new checker says about a packet after some others.
theorem Checker.fst_check_after (past : List Header) (h : Header) :
    ((({} : Checker).after past).check h).1 = verdictAfter past h :=
  (Checker.Remembers.new.after past).fst_check h

theorem repeats_append {past run : List Header} {counter : Counter}
    (hrun : ∀ r ∈ run, r.control.hasPayload = true ∧ r.counter = counter) :
    repeats (past ++ run) counter = repeats past counter + run.length := by
  induction run generalizing past with
  | nil => rw [List.append_nil]; rfl
  | cons r run ih =>
    obtain ⟨hp, heq⟩ := hrun r List.mem_cons_self
    have hone := repeats_concat_of_hasPayload past hp counter
    rw [if_pos heq] at hone
    rw [List.append_cons, ih (fun x hx => hrun x (List.mem_cons_of_mem r hx)), hone,
      List.length_cons]
    omega

-- A repeat is a duplicate or a gap, by turns.
theorem verdictAfter_of_repeats_pos {past : List Header} {h : Header}
    (hp : h.control.hasPayload = true) (hpos : 0 < repeats past h.counter) :
    verdictAfter past h =
      if repeats past h.counter % 2 = 1 then .duplicate
      else .gap ⟨h.counter.next, h.counter⟩ := by
  have hlast : (payloadCounters past).getLast? = some h.counter := by
    by_cases heq : (payloadCounters past).getLast? = some h.counter
    · exact heq
    · have := repeats_eq_zero_of_ne heq
      omega
  have hpayload : ¬ h.control.hasPayload = false := by rw [hp]; exact Bool.noConfusion
  have hnext : ¬ h.counter = h.counter.next := fun heq => h.counter.next_ne heq.symm
  simp only [verdictAfter, hlast, if_neg hpayload, if_neg hnext]

/-- **Verdicts are functions of the history.**  Each verdict of a new checker is the one that the
packets before call for; of these, packets without payload do not count; and in a run of packets
with one counter all but the first are duplicates and gaps by turns. -/
theorem Checker.verdicts_of_history :
    (∀ headers : List Header, ({} : Checker).verdicts headers =
      headers.mapIdx fun i h => verdictAfter (headers.take i) h) ∧
    (∀ (past : List Header) (h : Header), ((({} : Checker).after past).check h).1 =
      ((({} : Checker).after (past.filter (·.control.hasPayload))).check h).1) ∧
    (∀ (past run : List Header) (counter : Counter),
      (∀ r ∈ run, r.control.hasPayload = true ∧ r.counter = counter) →
      ∀ i < run.length, 0 < repeats past counter + i →
        ((({} : Checker).after past).verdicts run)[i]? = some
          (if (repeats past counter + i) % 2 = 1 then .duplicate
            else .gap ⟨counter.next, counter⟩)) := by
  refine ⟨fun headers => ?_, fun past h => ?_, fun past run counter hrun i hi hpos => ?_⟩
  · apply List.ext_getElem?
    intro i
    rw [getElem?_verdicts, List.getElem?_mapIdx]
    simp only [fst_check_after]
  · rw [fst_check_after, fst_check_after, verdictAfter_congr (payloadCounters_filter past).symm]
  · obtain ⟨hp, heq⟩ := hrun run[i] (List.getElem_mem hi)
    have hk : repeats (past ++ run.take i) run[i].counter = repeats past counter + i := by
      rw [heq, repeats_append (fun r hr => hrun r (List.mem_of_mem_take hr)),
        List.length_take_of_le (by omega)]
    rw [getElem?_verdicts, List.getElem?_eq_getElem hi, Option.map_some, ← after_append,
      fst_check_after, verdictAfter_of_repeats_pos hp (by omega), hk, heq]

/-- The third repeat of a packet is a duplicate again, whatever stood between without payload. -/
theorem Checker.verdict_on_third_repeat :
    let packet : Header := { counter := Counter.ofNat 5 }
    let bare : Header := { control := .adaptationOnly, counter := Counter.ofNat 9 }
    (∀ r ∈ [packet, packet], r.control.hasPayload = true ∧ r.counter = Counter.ofNat 5) ∧
      1 < [packet, packet].length ∧ 0 < repeats [packet, bare, packet] (Counter.ofNat 5) + 1 ∧
      ((({} : Checker).after [packet, bare, packet]).verdicts [packet, packet])[1]? =
        some .duplicate :=
  ⟨by decide, by decide, by decide,
    Checker.verdicts_of_history.2.2 _ _ (Counter.ofNat 5) (by decide) 1 (by decide) (by decide)⟩

end TransportStream.Continuity
