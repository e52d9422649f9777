import TransportStream.Application
import TransportStream.Proofs.Receiver.Pieces

/-!
# What an application makes

A receiver or a registry lives on its own from the moment that it is made: what becomes of it is what
becomes of it alone, under the uses that are made of it, whatever else the application does
(`Application.receiver_after`, `Application.session_after`).
-/

namespace TransportStream.Application

variable {p : Application} {index : Nat}

/-! ## A receiver alone -/

theorem getElem?_receivers_step {r : Receiver} (hr : p.receivers[index]? = some r) (a : Action) :
    (p.step a).receivers[index]? =
      some ((a.pieceFor? index).elim r fun data => (r.receive data).receiver) := by
  -- New receivers come behind those that are there.
  have hgrown (new : Receiver) : (p.receivers ++ [new])[index]? = some r := by
    rw [List.getElem?_append_left (List.getElem?_eq_some_iff.mp hr).1, hr]
  cases a with
  | newReceiver | newReceiverWith => exact hgrown _
  | receive i data =>
    rw [step, List.getElem?_modify, hr, Action.pieceFor?, Option.map_eq_map, Option.map_some]
    by_cases hi : i = index
    · rw [if_pos hi, if_pos hi]
      rfl
    · rw [if_neg hi, if_neg hi]
      rfl
  | readSources =>
    rw [step]
    split
    · exact hr
    · exact hr
  | changeSources | reload | readCurrent | newSettings | applyText | newRegistry | newRegistryAt
  | call => exact hr

/-- Whatever else is done, a receiver gives what it gives for the bytes that it is given. -/
theorem receiver_after {r : Receiver} (hr : p.receivers[index]? = some r) (actions : List Action) :
    (p.after actions).receivers[index]? =
        some (r.receiveAll (actions.filterMap (Action.pieceFor? index))).2 ∧
      p.receptions index actions = (r.receiveAll (actions.filterMap (Action.pieceFor? index))).1 := by
  induction actions generalizing p r with
  | nil => exact ⟨hr, rfl⟩
  | cons a rest ih =>
    obtain ⟨hafter, hreceptions⟩ := ih (getElem?_receivers_step hr a)
    rw [receptions, reception?, hreceptions]
    cases hpiece : a.pieceFor? index with
    | none =>
      rw [hpiece] at hafter
      rw [List.filterMap_cons_none hpiece]
      exact ⟨hafter, rfl⟩
    | some data =>
      rw [hpiece] at hafter
      rw [List.filterMap_cons_some hpiece, Receiver.receiveAll_cons, hr]
      exact ⟨hafter, rfl⟩

/-! ## A registry alone -/

theorem getElem?_sessions_step {s : Session} (hs : p.sessions[index]? = some s) (a : Action) :
    (p.step a).sessions[index]? = some ((a.callFor? index).elim s fun c => s.step c) := by
  have hgrown (new : Session) : (p.sessions ++ [new])[index]? = some s := by
    rw [List.getElem?_append_left (List.getElem?_eq_some_iff.mp hs).1, hs]
  cases a with
  | newRegistry | newRegistryAt => exact hgrown _
  | call i c =>
    rw [step, List.getElem?_modify, hs, Action.callFor?, Option.map_eq_map, Option.map_some]
    by_cases hi : i = index
    · rw [if_pos hi, if_pos hi]
      rfl
    · rw [if_neg hi, if_neg hi]
      rfl
  | readSources =>
    rw [step]
    split
    · exact hs
    · exact hs
  | changeSources | reload | readCurrent | newSettings | applyText | newReceiver | newReceiverWith
  | receive => exact hs

/-- Whatever else is done, a registry and its tracks come to what the calls on them lead to. -/
theorem session_after {s : Session} (hs : p.sessions[index]? = some s) (actions : List Action) :
    (p.after actions).sessions[index]? =
        some (s.after (actions.filterMap (Action.callFor? index))) ∧
      p.trackEvents index actions = s.trace (actions.filterMap (Action.callFor? index)) := by
  induction actions generalizing p s with
  | nil => exact ⟨hs, rfl⟩
  | cons a rest ih =>
    obtain ⟨hafter, hevents⟩ := ih (getElem?_sessions_step hs a)
    rw [trackEvents, hevents]
    cases hcall : a.callFor? index with
    | none =>
      rw [hcall] at hafter
      rw [List.filterMap_cons_none hcall]
      exact ⟨hafter, rfl⟩
    | some c =>
      rw [hcall] at hafter
      rw [List.filterMap_cons_some hcall, hs]
      exact ⟨hafter, rfl⟩

end TransportStream.Application
