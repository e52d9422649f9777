import TransportStream.Proofs.Settings.Application

/-!
# What reloads publish

The settings that hold are those of the last reload, whole: what the sources said at that time if
they were valid, and the usual ones if they were not.  Nothing else that an application does changes
them, and only a reload that fails warns of settings.  What is made from the settings keeps what it
was made with (`Application.current_is_published`).
-/

namespace TransportStream

/-! ## Warnings about settings -/

/-- The cause of which a warning about settings tells. -/
def LogEvent.refusal? : LogEvent → Option SettingsError
  | settingsRefused cause => some cause
  | sending .. | sent .. | registered .. | trailing _ | skipped .. | duplicate _ | gap .. => none

theorem Reception.refusal?_of_mem_log {r : Reception} {event : LogEvent} (h : event ∈ r.log) :
    event.refusal? = none := by
  rw [log, List.mem_append, List.mem_flatten] at h
  obtain h | ⟨events, hevents, h⟩ := h
  · split at h
    · cases h
    · rw [List.mem_singleton.mp h, LogEvent.refusal?]
  · obtain ⟨index, hindex, rfl⟩ := List.mem_mapIdx.mp hevents
    cases hfate : r.fates[index] with
    | skipped cause =>
      rw [hfate, Fate.events, List.mem_singleton] at h
      rw [h, LogEvent.refusal?]
    | dropped packet =>
      rw [hfate, Fate.events, List.mem_singleton] at h
      rw [h, LogEvent.refusal?]
    | kept packet gap =>
      rw [hfate] at h
      cases gap with
      | none => cases h
      | some gap =>
        rw [Fate.events, List.mem_singleton] at h
        rw [h, LogEvent.refusal?]

theorem Track.refusal?_of_mem_sendLog {t : Track} {u : PayloadUnit} {event : LogEvent}
    (h : event ∈ t.sendLog u) : event.refusal? = none := by
  rw [sendLog] at h
  split at h
  · cases h
  · rcases List.mem_cons.mp h with rfl | h
    · rfl
    · obtain ⟨packet, -, rfl⟩ := List.mem_map.mp h
      rfl

theorem Session.refusal?_of_mem_log {s : Session} {c : Call} {event : LogEvent}
    (h : event ∈ s.log c) : event.refusal? = none := by
  cases c with
  | addTrack streamType =>
    rw [log, Registry.addTrackLog] at h
    split at h
    · rw [List.mem_singleton.mp h, LogEvent.refusal?]
    · cases h
  | send holder u =>
    rw [log] at h
    split at h
    · rw [TrackStore.sendLog] at h
      split at h
      · exact Track.refusal?_of_mem_sendLog h
      · cases h
    · cases h
  | get | copy | setCounter => cases h

namespace Settings

/-- What is at fault with the sources, if anything is. -/
def fault? (src : Sources) : Option SettingsError :=
  match fromSources src with
  | .ok _ => none
  | .error e => some e

theorem filterMap_refusal?_loadLog (src : Sources) :
    (loadLog src).filterMap LogEvent.refusal? = (fault? src).toList := by
  rw [loadLog, fault?]
  cases fromSources src with
  | ok s => rfl
  | error e => rfl

end Settings

namespace Application

variable {p : Application} {a : Action}

/-! ## What an action does to the settings that hold -/

/-- Only a reload puts other settings in place, and it takes nothing over from those before. -/
theorem host_step (p : Application) (a : Action) :
    (p.step a).host = { sources := a.changed p.host.sources,
                        current := match a with
                          | .reload => Settings.load p.host.sources
                          | _ => p.host.current } := by
  cases a with
  | readSources => rw [step]; split <;> rfl
  | changeSources | reload | readCurrent | newSettings | applyText | newReceiver | newReceiverWith
  | receive | newRegistry | newRegistryAt | call => rfl

theorem current_step_of_ne (h : a ≠ .reload) : (p.step a).host.current = p.host.current := by
  rw [host_step]
  cases a with
  | reload => exact absurd rfl h
  | changeSources | readCurrent | readSources | newSettings | applyText | newReceiver
  | newReceiverWith | receive | newRegistry | newRegistryAt | call => rfl

theorem refusal?_of_mem_log (h : a ≠ .reload) {event : LogEvent} (hevent : event ∈ p.log a) :
    event.refusal? = none := by
  cases a with
  | reload => exact absurd rfl h
  | receive index data =>
    rw [log] at hevent
    cases hr : p.receivers[index]? with
    | none => rw [hr] at hevent; cases hevent
    | some r => rw [hr] at hevent; exact Reception.refusal?_of_mem_log hevent
  | call index c =>
    rw [log] at hevent
    cases hs : p.sessions[index]? with
    | none => rw [hs] at hevent; cases hevent
    | some s => rw [hs] at hevent; exact Session.refusal?_of_mem_log hevent
  | changeSources | readCurrent | readSources | newSettings | applyText | newReceiver
  | newReceiverWith | newRegistry | newRegistryAt => cases hevent

/-! ## Runs -/

/-- What becomes of the sources by some actions. -/
def sourcesAfter (src : Sources) (actions : List Action) : Sources :=
  actions.foldl (fun src a => a.changed src) src

/-- What the reloads among some actions find to be at fault. -/
def reloadFaults (src : Sources) : List Action → List SettingsError
  | [] => []
  | .reload :: rest => (Settings.fault? src).toList ++ reloadFaults src rest
  | a :: rest => reloadFaults (a.changed src) rest

theorem sources_after (p : Application) (actions : List Action) :
    (p.after actions).host.sources = sourcesAfter p.host.sources actions := by
  induction actions generalizing p with
  | nil => rfl
  | cons a rest ih =>
    rw [after, List.foldl_cons, ← after, ih, host_step, sourcesAfter, sourcesAfter, List.foldl_cons]

theorem current_after_of_not_mem {actions : List Action} (h : .reload ∉ actions) :
    (p.after actions).host.current = p.host.current := by
  induction actions generalizing p with
  | nil => rfl
  | cons a rest ih =>
    rw [List.mem_cons, not_or] at h
    obtain ⟨ha, hrest⟩ := h
    exact (ih hrest).trans (current_step_of_ne (Ne.symm ha))

/-- All warnings about settings come from reloads that fail, one from each. -/
theorem filterMap_refusal?_logAll (p : Application) (actions : List Action) :
    (p.logAll actions).filterMap LogEvent.refusal? = reloadFaults p.host.sources actions := by
  induction actions generalizing p with
  | nil => rfl
  | cons a rest ih =>
    rw [logAll, List.filterMap_append, ih, host_step]
    by_cases ha : a = .reload
    · subst ha
      rw [reloadFaults, log, Host.reloadLog, Settings.filterMap_refusal?_loadLog]
      rfl
    · rw [List.filterMap_eq_nil_iff.mpr fun event => refusal?_of_mem_log ha, List.nil_append]
      rw [reloadFaults]
      exact ha

/-- A reload and no other one after it. -/
theorem current_after_reload {before rest : List Action} (h : .reload ∉ rest) :
    (p.after (before ++ .reload :: rest)).host.current =
      Settings.load (sourcesAfter p.host.sources before) := by
  have hlater : (p.after (before ++ .reload :: rest)).host.current =
      ((p.after before).step .reload).host.current := by
    rw [after_append]
    exact current_after_of_not_mem h
  rw [hlater, host_step, sources_after]

theorem log_reload (before : List Action) :
    (p.after before).log .reload = Settings.loadLog (sourcesAfter p.host.sources before) := by
  rw [log, Host.reloadLog, sources_after]

/-! ## What is made from the settings -/

/-- A receiver that is made from the settings, as it is from then on. -/
theorem receiver_of_newReceiver (p : Application) (rest : List Action) :
    let lone := Receiver.withContinuityCheck p.host.current.continuityCheck
    let pieces := rest.filterMap (Action.pieceFor? p.receivers.length)
    (p.after (.newReceiver :: rest)).receivers[p.receivers.length]? =
        some (lone.receiveAll pieces).2 ∧
      (p.step .newReceiver).receptions p.receivers.length rest = (lone.receiveAll pieces).1 :=
  receiver_after (p := p.step .newReceiver) List.getElem?_concat_length rest

theorem session_of_newRegistry (p : Application) (rest : List Action) :
    let lone := Session.ofRegistry (.startingAt p.host.current.firstElementaryPid)
    let calls := rest.filterMap (Action.callFor? p.sessions.length)
    (p.after (.newRegistry :: rest)).sessions[p.sessions.length]? = some (lone.after calls) ∧
      (p.step .newRegistry).trackEvents p.sessions.length rest = lone.trace calls :=
  session_after (p := p.step .newRegistry) List.getElem?_concat_length rest

/-- **Publication.**  A load has left the usual settings, and then an application does anything.  As
long as it does not reload, the usual settings hold.  After a reload, and until the next one, what the
sources held at that reload holds if it was valid; if it was not, the usual settings hold, all of
them, and the reload warns of it once.  No other warnings about settings are given.  A receiver and
a registry that are made from the settings are, in all that is done with them later, those that are
made with the values that held when they were made. -/
theorem current_is_published (src : Sources) (history : List Action) :
    let now := (start src).after history
    (.reload ∉ history → now.host.current = {}) ∧
    (∀ before rest, history = before ++ .reload :: rest →
      let earlier := (start src).after before
      match Settings.fromSources (sourcesAfter src before) with
      | .ok s => earlier.log .reload = [] ∧ (.reload ∉ rest → now.host.current = s)
      | .error e =>
        (earlier.log .reload).map (fun event => (event.level, event.text)) =
            [(.warn, "ignoring configuration: " ++ e.message)] ∧
          (.reload ∉ rest → now.host.current = {})) ∧
    ((start src).logAll history).filterMap LogEvent.refusal? = reloadFaults src history ∧
    (∀ before rest, history = before ++ .newReceiver :: rest →
      let made := (start src).after before
      let index := made.receivers.length
      let lone := Receiver.withContinuityCheck made.host.current.continuityCheck
      let pieces := rest.filterMap (Action.pieceFor? index)
      now.receivers[index]? = some (lone.receiveAll pieces).2 ∧
        (made.step .newReceiver).receptions index rest = (lone.receiveAll pieces).1) ∧
    (∀ before rest, history = before ++ .newRegistry :: rest →
      let made := (start src).after before
      let index := made.sessions.length
      let lone := Session.ofRegistry (.startingAt made.host.current.firstElementaryPid)
      let calls := rest.filterMap (Action.callFor? index)
      now.sessions[index]? = some (lone.after calls) ∧
        (made.step .newRegistry).trackEvents index rest = lone.trace calls) := by
  intro now
  refine ⟨fun h => current_after_of_not_mem h, ?_, filterMap_refusal?_logAll _ history, ?_, ?_⟩
  · rintro before rest rfl earlier
    have hlog : earlier.log .reload = Settings.loadLog (sourcesAfter src before) := log_reload before
    have hcurrent (h : .reload ∉ rest) :
        now.host.current = Settings.load (sourcesAfter src before) := current_after_reload h
    rw [Settings.loadLog] at hlog
    rw [Settings.load] at hcurrent
    cases hread : Settings.fromSources (sourcesAfter src before) with
    | ok s =>
      rw [hread] at hlog hcurrent
      exact ⟨hlog, hcurrent⟩
    | error e =>
      rw [hread] at hlog hcurrent
      rw [hlog]
      exact ⟨rfl, hcurrent⟩
  · rintro before rest rfl made
    have hnow : now = made.after (.newReceiver :: rest) := after_append _ _ _
    rw [hnow]
    exact receiver_of_newReceiver made rest
  · rintro before rest rfl made
    have hnow : now = made.after (.newRegistry :: rest) := after_append _ _ _
    rw [hnow]
    exact session_of_newRegistry made rest

set_option maxRecDepth 4000 in
/-- A reload that fails after one that did not: no valid setting of either is left, but what was made
in between neither drops a repeat nor begins with another identifier. -/
theorem current_is_published_then_refused :
    let packet : Bytes := [0x47, 0x41, 0x23, 0x3f, 182, 0] ++ List.replicate 181 0xff ++ [7]
    let file : Entry := .file (.text "first_elementary_pid = 5\ncontinuity_check = maybe\n")
    let first : List Action :=
      [.changeSources (·.setVariable "TSFRAME_CONTINUITY_CHECK" (some (.text "no"))),
        .changeSources (·.setVariable "TSFRAME_FIRST_PID" (some (.text "0x200"))), .reload]
    let before := first ++ [.newReceiver, .newRegistry,
      .changeSources (·.setEntry "tsframe.toml" (some file))]
    let rest : List Action := [.receive 0 (packet ++ packet), .call 0 (.addTrack .h264)]
    let history := before ++ .reload :: rest
    let now := (start {}).after history
    let receiver := Receiver.withContinuityCheck false
    let session := Session.ofRegistry (.startingAt ⟨0x200, by decide⟩)
    ((start {}).after first).host.current = ⟨⟨0x200, by decide⟩, false⟩ ∧
      now.host.current = {} ∧
      ((start {}).logAll history).filterMap LogEvent.refusal? = [.notBoolean "maybe"] ∧
      now.receivers[0]? = some (receiver.receiveAll [packet ++ packet]).2 ∧
      ((receiver.receiveAll [packet ++ packet]).1.flatMap (·.packets)).map (·.payload) = [[7], [7]] ∧
      now.sessions[0]? = some (session.after [.addTrack .h264]) ∧
      session.trace [.addTrack .h264] = [.made ⟨0⟩ (Track.fresh ⟨0x200, by decide⟩ .h264)] := by
  intro packet file first before rest history now receiver session
  obtain ⟨-, hreload, hwarnings, hreceiver, hregistry⟩ := current_is_published {} history
  have hread : Settings.fromSources (sourcesAfter {} before) = .error (.notBoolean "maybe") := by rfl
  have hrefused := hreload before rest rfl
  simp only [hread] at hrefused
  have hkept := (hreceiver first _ rfl).1
  have hkept' := (hregistry (first ++ [.newReceiver]) _ rfl).1
  exact ⟨by rfl, hrefused.2 (by simp [rest]), hwarnings.trans (by rfl), hkept, by cbv, hkept', by rfl⟩

end Application

end TransportStream
