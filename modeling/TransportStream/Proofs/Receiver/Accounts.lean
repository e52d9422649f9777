import TransportStream.Proofs.Continuity.Runs
import TransportStream.Receiver.Effects

/-!
# What comes of every chunk

A call goes over its bytes one packet's worth at a time, and does something about each before it
looks at the next (`Receiver.perform`).  What it does follows from what the chunk reads as and what
the check says of it behind the chunks before, and every chunk is accounted for once: among the
packets that are returned, or in the log (`Receiver.receive_accounted`).
-/

namespace TransportStream

open Layout Continuity

/-! ## What is due -/

namespace Effect

/-- What is due for the chunk with this index, from what it reads as and what the check says of the
packet; without a check nothing is said. -/
def due (index : Nat) (reading : Except FramingError Packet)
    (verdict? : Packet → Option Verdict) : List Effect :=
  match reading with
  | .error cause => [tell .debug (.skipped index cause)]
  | .ok p =>
    match verdict? p with
    | some .duplicate => [tell .debug (.duplicate p.header.pid)]
    | some (.gap gap) => [tell .warn (.gap p.header.pid gap.expected gap.found), give p]
    | some .inSequence | none => [give p]

end Effect

def LogEvent.isSkipped : LogEvent → Bool
  | skipped .. => true
  | _ => false

def LogEvent.isDuplicate : LogEvent → Bool
  | duplicate _ => true
  | _ => false

namespace Fate

def effects (index : Nat) : Fate → List Effect
  | skipped cause => [.tell .debug (.skipped index cause)]
  | dropped p => [.tell .debug (.duplicate p.header.pid)]
  | kept p (some gap) => [.tell .warn (.gap p.header.pid gap.expected gap.found), .give p]
  | kept p none => [.give p]

theorem given_effects (f : Fate) (index : Nat) :
    (f.effects index).filterMap Effect.given? = f.received?.toList := by
  rcases f with cause | p | ⟨p, _ | gap⟩ <;> rfl

theorem told_effects (f : Fate) (index : Nat) :
    (f.effects index).filterMap Effect.told? = (f.events index).map LogEvent.leveled := by
  rcases f with cause | p | ⟨p, _ | gap⟩ <;> rfl

-- A fate is seen once: in what is returned, or in one of two kinds of events.
theorem counted_once (f : Fate) (index : Nat) :
    f.received?.toList.length + (f.events index).countP LogEvent.isSkipped +
      (f.events index).countP LogEvent.isDuplicate = 1 := by
  rcases f with cause | p | ⟨p, _ | gap⟩ <;> rfl

theorem given_all (fates : List Fate) (index : Nat → Nat) :
    ((fates.mapIdx fun i f => f.effects (index i)).flatten).filterMap Effect.given? =
      fates.filterMap received? := by
  induction fates generalizing index with
  | nil => rfl
  | cons f rest ih =>
    rw [List.mapIdx_cons, List.flatten_cons, List.filterMap_append, given_effects,
      ih fun i => index (i + 1), List.filterMap_cons]
    cases f.received? <;> rfl

theorem told_all (fates : List Fate) (index : Nat → Nat) :
    ((fates.mapIdx fun i f => f.effects (index i)).flatten).filterMap Effect.told? =
      ((fates.mapIdx fun i f => f.events (index i)).flatten).map LogEvent.leveled := by
  induction fates generalizing index with
  | nil => rfl
  | cons f rest ih =>
    rw [List.mapIdx_cons, List.flatten_cons, List.filterMap_append, told_effects,
      ih fun i => index (i + 1), List.mapIdx_cons, List.flatten_cons, List.map_append]

theorem trailing_not_mem_events (f : Fate) (index bytes : Nat) :
    .trailing bytes ∉ f.events index := by
  rcases f with cause | p | ⟨p, _ | gap⟩ <;> simp [events]

theorem told_of_unchecked {item : Except FramingError Packet} {index : Nat} {e : LogEvent}
    (h : e ∈ (unchecked item).events index) : e.level ≠ .warn ∧ e.isDuplicate = false := by
  cases item with
  | error cause =>
    cases List.mem_singleton.mp h
    exact ⟨LogLevel.noConfusion, rfl⟩
  | ok p => cases h

end Fate

namespace Receiver

/-! ## What the check says -/

/-- The headers of the packets among some chunks. -/
def headers (chunks : List Bytes) : List Header :=
  chunks.filterMap fun chunk => (Packet.parse chunk).toOption.map (·.header)

/-- What the check says of a packet that comes behind some chunks, if there is a check. -/
def verdictBehind? (r : Receiver) (before : List Bytes) (p : Packet) : Option Verdict :=
  r.continuity.map fun t => ((t.after (headers before)).check p.header).1

variable {r : Receiver} {chunk : Bytes}

theorem headers_cons_of_error {cause : FramingError} (h : Packet.parse chunk = .error cause)
    (before : List Bytes) : headers (chunk :: before) = headers before := by
  rw [headers, List.filterMap_cons, h]
  rfl

theorem headers_cons_of_ok {p : Packet} (h : Packet.parse chunk = .ok p) (before : List Bytes) :
    headers (chunk :: before) = p.header :: headers before := by
  rw [headers, List.filterMap_cons, h]
  rfl

-- One chunk more before a packet is one step more of the receiver.
theorem verdictBehind?_step (r : Receiver) (chunk : Bytes) (before : List Bytes) :
    (r.step (Packet.parse chunk)).2.verdictBehind? before = r.verdictBehind? (chunk :: before) := by
  obtain ⟨continuity⟩ := r
  funext q
  cases h : Packet.parse chunk with
  | error cause => rw [verdictBehind?, verdictBehind?, headers_cons_of_error h]; rfl
  | ok p =>
    rw [verdictBehind?, verdictBehind?, headers_cons_of_ok h]
    cases continuity with
    | none => rfl
    | some t => rfl

/-! ## Fates as effects -/

theorem due_eq (r : Receiver) (index : Nat) (item : Except FramingError Packet) :
    Effect.due index item (r.verdictBehind? []) = (r.step item).1.effects index := by
  obtain ⟨continuity⟩ := r
  cases item with
  | error cause => rfl
  | ok p =>
    cases continuity with
    | none => rfl
    | some t =>
      have hverdict : verdictBehind? ⟨some t⟩ [] p = some (t.check p.header).1 := rfl
      simp only [Effect.due, hverdict, step]
      cases (t.check p.header).1 <;> rfl

theorem handle_eq (r : Receiver) (index : Nat) (chunk : Bytes) :
    r.handle index chunk =
      ((r.step (Packet.parse chunk)).1.effects index, (r.step (Packet.parse chunk)).2) := by
  obtain ⟨continuity⟩ := r
  rw [handle]
  cases Packet.parse chunk with
  | error cause => rfl
  | ok p =>
    cases continuity with
    | none => rfl
    | some t =>
      simp only [step]
      cases (t.check p.header).1 <;> rfl

-- The loop does what the fates of the chunks say, and leaves the same receiver.
theorem handleAll_eq (r : Receiver) (index : Nat) (chunks : List Bytes) :
    r.handleAll index chunks =
      (((r.run (chunks.map Packet.parse)).1.mapIdx fun i f => f.effects (index + i)).flatten,
        (r.run (chunks.map Packet.parse)).2) := by
  induction chunks generalizing r index with
  | nil => rfl
  | cons chunk rest ih =>
    simp only [handleAll, handle_eq, ih, List.map_cons, run, List.mapIdx_cons, List.flatten_cons,
      Nat.add_assoc, Nat.add_comm 1, Nat.add_zero]

/-- What the fate of each chunk asks for is what is due behind the chunks before it. -/
theorem effects_run (r : Receiver) (index : Nat) (chunks : List Bytes) :
    ((r.run (chunks.map Packet.parse)).1.mapIdx fun i f => f.effects (index + i)) =
      chunks.mapIdx fun i chunk => Effect.due (index + i) (Packet.parse chunk)
        (r.verdictBehind? (chunks.take i)) := by
  induction chunks generalizing r index with
  | nil => rfl
  | cons chunk rest ih =>
    have hrest := ih (r.step (Packet.parse chunk)).2 (index + 1)
    simp only [verdictBehind?_step, Nat.add_assoc, Nat.add_comm 1] at hrest
    simp only [List.map_cons, run, List.mapIdx_cons, List.take_succ_cons, List.take_zero, hrest,
      due_eq]

/-! ## What is returned -/

-- With a check a packet may be left out, and none is added or moved.
theorem received_run_sublist (r : Receiver) (items : List (Except FramingError Packet)) :
    ((r.run items).1.filterMap Fate.received?).Sublist
      ((items.map Fate.unchecked).filterMap Fate.received?) := by
  induction items generalizing r with
  | nil => exact .slnil
  | cons item rest ih =>
    have hrest := ih (r.step item).2
    obtain ⟨continuity⟩ := r
    cases item with
    | error cause => exact hrest
    | ok p =>
      cases continuity with
      | none => exact hrest.cons_cons p
      | some t =>
        show ((Fate.ofVerdict p (t.check p.header).1 :: _).filterMap Fate.received?).Sublist _
        cases (t.check p.header).1 with
        | inSequence => exact hrest.cons_cons p
        | duplicate => exact hrest.cons p
        | gap gap => exact hrest.cons_cons p

end Receiver

/-! ## What is told -/

namespace Reception

theorem mem_log_iff {r : Reception} {e : LogEvent} :
    e ∈ r.log ↔ (r.trailing ≠ 0 ∧ e = .trailing r.trailing) ∨
      ∃ i, ∃ h : i < r.fates.length, e ∈ r.fates[i].events i := by
  rw [log, List.mem_append, List.mem_flatten]
  constructor
  · rintro (h | ⟨events, hevents, h⟩)
    · split at h
      next => cases h
      next hne => exact .inl ⟨hne, List.mem_singleton.mp h⟩
    · obtain ⟨i, hi, rfl⟩ := List.mem_mapIdx.mp hevents
      exact .inr ⟨i, hi, h⟩
  · rintro (⟨hne, rfl⟩ | ⟨i, hi, h⟩)
    · rw [if_neg hne]
      exact .inl (List.mem_singleton_self _)
    · exact .inr ⟨_, List.mem_mapIdx.mpr ⟨i, hi, rfl⟩, h⟩

theorem trailing_mem_log_iff {r : Reception} :
    (∃ bytes, .trailing bytes ∈ r.log) ↔ r.trailing ≠ 0 := by
  constructor
  · rintro ⟨bytes, h⟩
    obtain ⟨hne, -⟩ | ⟨i, hi, h⟩ := mem_log_iff.mp h
    · exact hne
    · exact absurd h (r.fates[i].trailing_not_mem_events i bytes)
  · intro hne
    exact ⟨_, mem_log_iff.mpr (.inl ⟨hne, rfl⟩)⟩

-- By induction on the fates; `index` says at which index each of them stands.
theorem counted_once (fates : List Fate) (index : Nat → Nat) :
    (fates.filterMap Fate.received?).length +
        ((fates.mapIdx fun i f => f.events (index i)).flatten).countP LogEvent.isSkipped +
        ((fates.mapIdx fun i f => f.events (index i)).flatten).countP LogEvent.isDuplicate =
      fates.length := by
  induction fates generalizing index with
  | nil => rfl
  | cons f rest ih =>
    have hfirst := f.counted_once (index 0)
    have hrest := ih fun i => index (i + 1)
    have hreceived : ((f :: rest).filterMap Fate.received?).length =
        f.received?.toList.length + (rest.filterMap Fate.received?).length := by
      rw [List.filterMap_cons]
      cases f.received? with
      | none => exact (Nat.zero_add _).symm
      | some p => exact Nat.add_comm _ 1
    rw [List.mapIdx_cons, List.flatten_cons, List.countP_append, List.countP_append,
      List.length_cons, hreceived]
    omega

-- What is told of the end of the bytes counts for no chunk.
theorem counted (r : Reception) :
    r.packets.length + r.log.countP LogEvent.isSkipped + r.log.countP LogEvent.isDuplicate =
      r.fates.length := by
  have hfates := counted_once r.fates id
  simp only [id] at hfates
  rw [log, List.countP_append, List.countP_append, packets, ← hfates]
  split
  next => rw [List.countP_nil, List.countP_nil, Nat.zero_add, Nat.zero_add]
  next =>
    have hskipped : [LogEvent.trailing r.trailing].countP LogEvent.isSkipped = 0 := rfl
    have hduplicate : [LogEvent.trailing r.trailing].countP LogEvent.isDuplicate = 0 := rfl
    rw [hskipped, hduplicate, Nat.zero_add, Nat.zero_add]

end Reception

namespace Receiver

/-! ## A whole call -/

theorem perform_eq (r : Receiver) (data : Bytes) :
    r.perform data =
      ((if data.length % packetSize = 0 then []
          else [.tell .debug (.trailing (data.length % packetSize))]) ++
        ((r.receive data).fates.mapIdx fun i f => f.effects i).flatten,
      (r.receive data).receiver) := by
  simp only [perform, handleAll_eq, Nat.zero_add]
  rfl

theorem given_perform (r : Receiver) (data : Bytes) :
    (r.perform data).1.filterMap Effect.given? = (r.receive data).packets := by
  have hfates := Fate.given_all (r.receive data).fates id
  simp only [id] at hfates
  rw [perform_eq, List.filterMap_append, hfates, Reception.packets]
  split <;> rfl

theorem told_perform (r : Receiver) (data : Bytes) :
    (r.perform data).1.filterMap Effect.told? = (r.receive data).log.map LogEvent.leveled := by
  have hfates := Fate.told_all (r.receive data).fates id
  have htrailing : (r.receive data).trailing = data.length % packetSize := rfl
  simp only [id] at hfates
  rw [perform_eq, List.filterMap_append, hfates, Reception.log, List.map_append, htrailing]
  split <;> rfl

-- Without a check nothing is said of any packet.
theorem log_of_unchecked {r : Receiver} (h : r.continuity = none) {data : Bytes} {e : LogEvent}
    (he : e ∈ (r.receive data).log) : e.level ≠ .warn ∧ e.isDuplicate = false := by
  obtain ⟨continuity⟩ := r
  subst h
  obtain ⟨-, rfl⟩ | ⟨i, hi, he⟩ := Reception.mem_log_iff.mp he
  · exact ⟨LogLevel.noConfusion, rfl⟩
  · simp only [fates_receive_none, List.getElem_map] at he
    exact Fate.told_of_unchecked he

/-- **Every chunk is accounted for.**  A call, from whatever state and with a check or without one,
tells of the bytes at the end that are less than a packet, if there are any, and then does for each
whole chunk in turn what is due: it tells of bytes that are no packet, by their index and what is
wrong with them, or of a packet that the check calls a duplicate, or it returns the packet, told of
before if the check finds a gap.  What is returned and what is told are all of this in order, so the
packets that are returned and the chunks that are told of as no packet or as duplicates are as many
as there are chunks.  Without a check there are neither duplicates nor warnings, and with one the
same packets are returned but for some that are left out. -/
theorem receive_accounted (r : Receiver) (data : Bytes) :
    let chunks := Chunks.whole 188 data
    let rest := data.length % 188
    let reception := r.receive data
    let effects := (if rest = 0 then [] else [Effect.tell .debug (.trailing rest)]) ++
      (chunks.mapIdx fun i chunk =>
        Effect.due i (Packet.parse chunk) (r.verdictBehind? (chunks.take i))).flatten
    r.perform data = (effects, reception.receiver) ∧
    reception.packets = effects.filterMap Effect.given? ∧
    reception.log.map LogEvent.leveled = effects.filterMap Effect.told? ∧
    reception.packets.length + reception.log.countP LogEvent.isSkipped +
      reception.log.countP LogEvent.isDuplicate = data.length / 188 ∧
    ((∃ bytes, .trailing bytes ∈ reception.log) ↔ rest ≠ 0) ∧
    (r.continuity = none → ∀ e ∈ reception.log, e.level ≠ .warn ∧ e.isDuplicate = false) ∧
    reception.packets.Sublist ((⟨none⟩ : Receiver).receive data).packets := by
  intro chunks rest reception effects
  have hperform : r.perform data = (effects, reception.receiver) := by
    have hdue := r.effects_run 0 chunks
    simp only [Nat.zero_add] at hdue
    rw [perform_eq]
    exact congrArg (fun due => (_ ++ List.flatten due, reception.receiver)) hdue
  have heffects : (r.perform data).1 = effects := congrArg Prod.fst hperform
  refine ⟨hperform, ?_, ?_, ?_, Reception.trailing_mem_log_iff, fun h e => log_of_unchecked h,
    ?_⟩
  · rw [← heffects, given_perform]
  · rw [← heffects, told_perform]
  · rw [reception.counted]
    exact r.length_fates data
  · rw [Reception.packets, Reception.packets, fates_receive_none]
    exact r.received_run_sublist (Packet.parseAll data)

set_option maxRecDepth 4000 in
/-- Bytes with a wrong first byte, a packet, its repeat, a packet behind a gap, and two bytes more. -/
theorem receive_accounted_of_four :
    let pid : Pid := ⟨0x123, by decide⟩
    let packet (flags counter last : UInt8) : Bytes :=
      [0x47, flags, 0x23, counter, 182, 0] ++ List.replicate 181 0xff ++ [last]
    let corrupt : Bytes := 0x46 :: (packet 0x41 0x30 6).drop 1
    let data := corrupt ++ packet 0x41 0x3f 7 ++ packet 0x41 0x3f 7 ++ packet 0x01 0x32 8 ++
      [0x47, 0x01]
    let told : List (LogLevel × LogEvent) := [(.debug, .trailing 2),
      (.debug, .skipped 0 (.malformedHeader 0x46)), (.debug, .duplicate pid),
      (.warn, .gap pid (Counter.ofNat 0) (Counter.ofNat 2))]
    let on := (withContinuityCheck true).receive data
    let off := (withContinuityCheck false).receive data
    on.log.map LogEvent.leveled = told ∧
      ((withContinuityCheck true).perform data).1.filterMap Effect.told? = told ∧
      on.packets.map (·.payload) = [[7], [8]] ∧
      on.packets.length + on.log.countP LogEvent.isSkipped +
        on.log.countP LogEvent.isDuplicate = 4 ∧
      on.packets.Sublist off.packets ∧ (withContinuityCheck false).continuity = none ∧
      ∀ e ∈ off.log, e.level ≠ .warn ∧ e.isDuplicate = false := by
  intro pid packet corrupt data told on off
  obtain ⟨hperform, -, hlog, hcount, -, -, hsublist⟩ :=
    receive_accounted (withContinuityCheck true) data
  obtain ⟨-, -, -, -, -, hunchecked, -⟩ := receive_accounted (withContinuityCheck false) data
  have htold : on.log.map LogEvent.leveled = told := by cbv
  have hpayloads : on.packets.map (·.payload) = [[7], [8]] := by cbv
  have hlength : data.length / 188 = 4 := by cbv
  refine ⟨htold, ?_, hpayloads, hcount.trans hlength, hsublist, rfl, hunchecked rfl⟩
  rw [congrArg Prod.fst hperform, ← hlog]
  exact htold

end Receiver

end TransportStream
