import TransportStream.Settings.Value
import TransportStream.Text.Blank
import TransportStream.Text.Line

/-!
# Settings as text

Lines of the form `key = value`, with comments from `#` to the end of a line.  What a line says
does not depend on the settings so far, and the first bad line ends the reading, so a text is read
like its parts one after the other (`applyText_append`).
-/

namespace TransportStream.Settings

open Text

/-- A value without the double quotes around it, and then without the single quotes. -/
def unquote (value : List Char) : List Char :=
  strip (· == '\x27') (strip (· == '"') value)

/-- What a line sets; `none` if it is blank or only a comment. -/
def readLine (line : List Char) : Except SettingsError (Option Setting) :=
  let body := strip isBlank (line.takeWhile (· != '#'))
  if body = [] then .ok none
  else match cut? '=' body with
    | none => .error (.noSeparator (String.ofList body))
    | some (before, after) =>
      let key := String.ofList (strip isBlank before)
      let value := String.ofList (unquote (strip isBlank after))
      match SettingKey.ofName? key with
      | none => .error (.unknownKey key)
      | some key => (key.read value).map some

/-- The settings that a text leaves behind, and what was wrong with it. -/
structure Applied where
  settings : Settings
  fault : Option SettingsError
  deriving DecidableEq

/-- Apply a value for a setting; one that is refused sets nothing. -/
def applyValue (s : Settings) (key : SettingKey) (value : String) : Applied :=
  match key.read value with
  | .ok setting => ⟨s.set setting, none⟩
  | .error e => ⟨s, some e⟩

/-- Apply lines in order.  The first bad one is not applied, and nothing after it is. -/
def applyLines (s : Settings) : List (List Char) → Applied
  | [] => ⟨s, none⟩
  | line :: rest =>
    match readLine line with
    | .ok none => applyLines s rest
    | .ok (some setting) => applyLines (s.set setting) rest
    | .error e => ⟨s, some e⟩

def applyText (s : Settings) (text : String) : Applied :=
  applyLines s (lines text.toList)

def Applied.result (a : Applied) : Except SettingsError Settings :=
  match a.fault with
  | none => .ok a.settings
  | some e => .error e

theorem applyLines_append (s : Settings) (a b : List (List Char)) :
    applyLines s (a ++ b) =
      match (applyLines s a).fault with
      | none => applyLines (applyLines s a).settings b
      | some _ => applyLines s a := by
  induction a generalizing s with
  | nil => rfl
  | cons line a ih =>
    simp only [List.cons_append, applyLines]
    cases readLine line with
    | error e => rfl
    | ok setting? =>
      cases setting? with
      | none => exact ih s
      | some setting => exact ih (s.set setting)

/-- Two texts with a line feed between them are applied one after the other, unless the first one
is at fault. -/
theorem applyText_append (s : Settings) (a b : String) :
    s.applyText (a ++ "\n" ++ b) =
      match (s.applyText a).fault with
      | none => (s.applyText a).settings.applyText b
      | some _ => s.applyText a := by
  have h : (a ++ "\n" ++ b).toList = a.toList ++ '\n' :: b.toList := by
    simp [String.toList_append]
  rw [applyText, h, lines_append, applyLines_append]
  rfl

end TransportStream.Settings
