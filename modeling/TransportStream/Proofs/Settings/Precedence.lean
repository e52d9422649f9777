import TransportStream.Proofs.Settings.LineMeaning
import TransportStream.Settings.Sources

/-!
# Which source counts

Of several faults in the sources of settings the first counts, in the order in which the sources are
read, and of several values the last.  So a bad variable makes the sources invalid even where the
file would have set the same thing (`Settings.fromSources_precedence`).
-/

namespace TransportStream

open Text

namespace Sources

/-! ## What the sources hold -/

/-- What the first name that is taken belongs to. -/
def firstEntry? (src : Sources) : Option Entry :=
  (src.entry "tsframe.toml").or (src.entry "tsframe_config.toml")

/-- The lines of the file that counts; none if there is no such file, or if it is not text. -/
def fileLines (src : Sources) : List (List Char) :=
  match src.firstEntry? with
  | some (.file (.text content)) => lines content.toList
  | _ => []

/-- The variable for a setting has a value that the setting does not accept. -/
def VariableFault (src : Sources) (key : SettingKey) (e : SettingsError) : Prop :=
  ∃ value, src.environment key.variableName = some (.text value) ∧ key.Refuses value e

/-- The file that counts cannot be read, or has a bad line. -/
inductive FileFault (src : Sources) : SettingsError → Prop
  | directory (h : src.firstEntry? = some .directory) : FileFault src (.unreadable .directory)
  | encoding (h : src.firstEntry? = some (.file .undecodable)) :
      FileFault src (.unreadable .encoding)
  | line {e : SettingsError} (h : Settings.FirstBad src.fileLines e) : FileFault src e

/-- How a setting stands that the sources leave without fault: as the last line for it says, else as
its variable says, else as it is without any source. -/
inductive Gives (src : Sources) (key : SettingKey) : Setting → Prop
  | line {setting : Setting} (h : Settings.LastSets src.fileLines setting)
      (hkey : setting.key = key) : Gives src key setting
  | variable {value : String} {setting : Setting} (hlines : Settings.Unset src.fileLines key)
      (h : src.environment key.variableName = some (.text value))
      (haccepts : key.Accepts value setting) : Gives src key setting
  | default (hlines : Settings.Unset src.fileLines key)
      (h : ∀ value, src.environment key.variableName ≠ some (.text value)) :
      Gives src key (({} : Settings).at key)

/-- What is wrong with the sources: the first fault in the order in which they are read. -/
def FirstFault (src : Sources) (e : SettingsError) : Prop :=
  src.VariableFault .firstElementaryPid e ∨
    (∀ e', ¬ src.VariableFault .firstElementaryPid e') ∧
      (src.VariableFault .continuityCheck e ∨
        (∀ e', ¬ src.VariableFault .continuityCheck e') ∧ src.FileFault e)

variable {src : Sources} {key : SettingKey} {s : Settings} {e : SettingsError}

theorem environment_setVariable_self (src : Sources) (name : String) (value : Option Content) :
    (src.setVariable name value).environment name = value :=
  if_pos rfl

theorem environment_setVariable_of_ne {name other : String} (h : other ≠ name)
    (value : Option Content) :
    (src.setVariable name value).environment other = src.environment other :=
  if_neg h

theorem entry_setEntry_of_ne {name other : String} (h : other ≠ name) (entry : Option Entry) :
    (src.setEntry name entry).entry other = src.entry other :=
  if_neg h

/-! ## A variable -/

theorem applyVariable_of_text {value : String}
    (h : src.environment key.variableName = some (.text value)) (s : Settings) :
    src.applyVariable key s = (key.read value).map s.set := by
  simp only [applyVariable, h]

theorem applyVariable_of_not_text
    (h : ∀ value, src.environment key.variableName ≠ some (.text value)) (s : Settings) :
    src.applyVariable key s = .ok s := by
  unfold applyVariable
  split
  next value hvalue => exact absurd hvalue (h value)
  next => rfl

theorem applyVariable_eq_error_iff :
    src.applyVariable key s = .error e ↔ src.VariableFault key e := by
  constructor
  · intro h
    by_cases htext : ∃ value, src.environment key.variableName = some (.text value)
    · obtain ⟨value, hvalue⟩ := htext
      rw [applyVariable_of_text hvalue] at h
      cases hread : key.read value with
      | error e' =>
        rw [hread] at h
        cases h
        exact ⟨value, hvalue, SettingKey.read_eq_error_iff.mp hread⟩
      | ok setting =>
        rw [hread] at h
        cases h
    · rw [applyVariable_of_not_text (not_exists.mp htext)] at h
      cases h
  · rintro ⟨value, hvalue, hrefuses⟩
    rw [applyVariable_of_text hvalue, SettingKey.read_of_refuses hrefuses]
    rfl

theorem exists_applyVariable_eq_ok_iff :
    (∃ s', src.applyVariable key s = .ok s') ↔ ∀ e, ¬ src.VariableFault key e := by
  constructor
  · rintro ⟨s', h⟩ e hfault
    rw [applyVariable_eq_error_iff.mpr hfault] at h
    cases h
  · intro hgood
    cases h : src.applyVariable key s with
    | error e => exact absurd (applyVariable_eq_error_iff.mp h) (hgood e)
    | ok s' => exact ⟨s', rfl⟩

-- A variable is for one setting and leaves the other as it is.
theorem at_of_applyVariable {s' : Settings} (h : src.applyVariable key s = .ok s') :
    ((∃ value, src.environment key.variableName = some (.text value) ∧
        key.Accepts value (s'.at key)) ∨
      (∀ value, src.environment key.variableName ≠ some (.text value)) ∧ s'.at key = s.at key) ∧
    ∀ other, other ≠ key → s'.at other = s.at other := by
  by_cases htext : ∃ value, src.environment key.variableName = some (.text value)
  · obtain ⟨value, hvalue⟩ := htext
    rw [applyVariable_of_text hvalue] at h
    cases hread : key.read value with
    | error e =>
      rw [hread] at h
      cases h
    | ok setting =>
      rw [hread] at h
      cases h
      have haccepts := SettingKey.read_eq_ok_iff.mp hread
      obtain rfl := haccepts.key_eq
      refine ⟨.inl ⟨value, hvalue, ?_⟩, fun other hne => by simp [hne.symm]⟩
      simpa using haccepts
  · have hnot := not_exists.mp htext
    rw [applyVariable_of_not_text hnot] at h
    cases h
    exact ⟨.inr ⟨hnot, rfl⟩, fun _ _ => rfl⟩

/-! ## The file -/

theorem findSome?_fileNames (src : Sources) : fileNames.findSome? src.entry = src.firstEntry? := by
  rw [fileNames, List.findSome?_cons, List.findSome?_cons, List.findSome?_nil, firstEntry?]
  cases src.entry "tsframe.toml" <;> cases src.entry "tsframe_config.toml" <;> rfl

-- A file that is text is read like its lines.
theorem applyFile_of_text {content : String} (h : src.firstEntry? = some (.file (.text content)))
    (s : Settings) : src.applyFile s = (s.applyLines src.fileLines).result := by
  simp only [applyFile, findSome?_fileNames, fileLines, h]
  rfl

theorem fileLines_of_not_text (h : ∀ content, src.firstEntry? ≠ some (.file (.text content))) :
    src.fileLines = [] := by
  unfold fileLines
  split
  next content hcontent => exact absurd hcontent (h content)
  next => rfl

-- Without a text there is no line that could be at fault.
theorem fileFault_iff_of_not_text (h : ∀ content, src.firstEntry? ≠ some (.file (.text content))) :
    src.FileFault e ↔ src.applyFile s = .error e := by
  have hnone : ¬ Settings.FirstBad src.fileLines e := by
    rw [fileLines_of_not_text h]
    rintro ⟨before, line, after, heq, -⟩
    cases before <;> cases heq
  simp only [applyFile, findSome?_fileNames]
  constructor
  · rintro (h | h | h)
    · simp only [h]
    · simp only [h]
    · exact absurd h hnone
  · split
    next => intro h; cases h
    next hdir => rintro ⟨⟩; exact .directory hdir
    next hfile => rintro ⟨⟩; exact .encoding hfile
    next content hfile => exact absurd hfile (h content)

theorem applyFile_eq_error_iff : src.applyFile s = .error e ↔ src.FileFault e := by
  by_cases htext : ∃ content, src.firstEntry? = some (.file (.text content))
  · obtain ⟨content, hfile⟩ := htext
    rw [applyFile_of_text hfile, Settings.Applied.result_eq_error_iff,
      Settings.fault_applyLines_eq_some_iff]
    constructor
    · exact .line
    · rintro (h | h | h)
      · rw [hfile] at h
        cases h
      · rw [hfile] at h
        cases h
      · exact h
  · exact (fileFault_iff_of_not_text (not_exists.mp htext)).symm

theorem at_of_applyFile {s' : Settings} (h : src.applyFile s = .ok s') (key : SettingKey) :
    Settings.LastSets src.fileLines (s'.at key) ∨
      Settings.Unset src.fileLines key ∧ s'.at key = s.at key := by
  by_cases htext : ∃ content, src.firstEntry? = some (.file (.text content))
  · obtain ⟨content, hfile⟩ := htext
    rw [applyFile_of_text hfile, Settings.Applied.result_eq_ok_iff] at h
    obtain ⟨hfault, rfl⟩ := h
    exact Settings.at_applyLines hfault key
  · have hnot := not_exists.mp htext
    simp only [applyFile, findSome?_fileNames] at h
    split at h
    next =>
      cases h
      rw [fileLines_of_not_text hnot]
      exact .inr ⟨List.forall_mem_nil _, rfl⟩
    next => cases h
    next => cases h
    next content hfile => exact absurd hfile (hnot content)

end Sources

/-! ## All sources -/

namespace Settings

theorem bind_eq_error_iff {α β : Type} {x : Except SettingsError α}
    {f : α → Except SettingsError β} {e : SettingsError} :
    (x >>= f) = .error e ↔ x = .error e ∨ ∃ a, x = .ok a ∧ f a = .error e := by
  cases x with
  | error e' => simp [bind, Except.bind]
  | ok a => simp [bind, Except.bind]

theorem bind_eq_ok_iff {α β : Type} {x : Except SettingsError α}
    {f : α → Except SettingsError β} {b : β} :
    (x >>= f) = .ok b ↔ ∃ a, x = .ok a ∧ f a = .ok b := by
  cases x with
  | error e => simp [bind, Except.bind]
  | ok a => simp [bind, Except.bind]

variable {src : Sources} {s : Settings} {e : SettingsError}

theorem fromSources_eq_error_iff : fromSources src = .error e ↔ src.FirstFault e := by
  have hbind : fromSources src = .error e ↔
      src.applyVariable .firstElementaryPid {} = .error e ∨
        ∃ s₁, src.applyVariable .firstElementaryPid {} = .ok s₁ ∧
          (src.applyVariable .continuityCheck s₁ = .error e ∨
            ∃ s₂, src.applyVariable .continuityCheck s₁ = .ok s₂ ∧ src.applyFile s₂ = .error e) := by
    simp only [fromSources, bind_eq_error_iff]
  simp only [hbind, Sources.applyVariable_eq_error_iff, Sources.applyFile_eq_error_iff,
    Sources.FirstFault]
  constructor
  · rintro (h | ⟨s₁, hfirst, h | ⟨s₂, hsecond, h⟩⟩)
    · exact .inl h
    · exact .inr ⟨Sources.exists_applyVariable_eq_ok_iff.mp ⟨s₁, hfirst⟩, .inl h⟩
    · exact .inr ⟨Sources.exists_applyVariable_eq_ok_iff.mp ⟨s₁, hfirst⟩,
        .inr ⟨Sources.exists_applyVariable_eq_ok_iff.mp ⟨s₂, hsecond⟩, h⟩⟩
  · rintro (h | ⟨hfirst, h | ⟨hsecond, h⟩⟩)
    · exact .inl h
    · obtain ⟨s₁, hs₁⟩ := Sources.exists_applyVariable_eq_ok_iff.mpr hfirst
      exact .inr ⟨s₁, hs₁, .inl h⟩
    · obtain ⟨s₁, hs₁⟩ := Sources.exists_applyVariable_eq_ok_iff.mpr hfirst
      obtain ⟨s₂, hs₂⟩ := Sources.exists_applyVariable_eq_ok_iff.mpr hsecond
      exact .inr ⟨s₁, hs₁, .inr ⟨s₂, hs₂, h⟩⟩

-- The sources are invalid exactly if there is a fault anywhere.
theorem exists_firstFault_iff :
    (∃ e, src.FirstFault e) ↔
      (∃ e, src.VariableFault .firstElementaryPid e) ∨
        (∃ e, src.VariableFault .continuityCheck e) ∨ ∃ e, src.FileFault e := by
  constructor
  · rintro ⟨e, h | ⟨-, h | ⟨-, h⟩⟩⟩
    · exact .inl ⟨e, h⟩
    · exact .inr (.inl ⟨e, h⟩)
    · exact .inr (.inr ⟨e, h⟩)
  · intro h
    by_cases hfirst : ∃ e, src.VariableFault .firstElementaryPid e
    · obtain ⟨e, hfirst⟩ := hfirst
      exact ⟨e, .inl hfirst⟩
    · by_cases hsecond : ∃ e, src.VariableFault .continuityCheck e
      · obtain ⟨e, hsecond⟩ := hsecond
        exact ⟨e, .inr ⟨not_exists.mp hfirst, .inl hsecond⟩⟩
      · obtain ⟨e, h⟩ := (h.resolve_left hfirst).resolve_left hsecond
        exact ⟨e, .inr ⟨not_exists.mp hfirst, .inr ⟨not_exists.mp hsecond, h⟩⟩⟩

theorem fromSources_eq_ok (h : fromSources src = .ok s) :
    ∃ s₁ s₂, src.applyVariable .firstElementaryPid {} = .ok s₁ ∧
      src.applyVariable .continuityCheck s₁ = .ok s₂ ∧ src.applyFile s₂ = .ok s := by
  simp only [fromSources, bind_eq_ok_iff] at h
  obtain ⟨s₁, hfirst, s₂, hsecond, hfile⟩ := h
  exact ⟨s₁, s₂, hfirst, hsecond, hfile⟩

-- Where all variables are applied, each setting stands as its own variable says.
theorem at_of_variables {s₁ s₂ : Settings}
    (hfirst : src.applyVariable .firstElementaryPid {} = .ok s₁)
    (hsecond : src.applyVariable .continuityCheck s₁ = .ok s₂) (key : SettingKey) :
    (∃ value, src.environment key.variableName = some (.text value) ∧
        key.Accepts value (s₂.at key)) ∨
      (∀ value, src.environment key.variableName ≠ some (.text value)) ∧
        s₂.at key = ({} : Settings).at key := by
  obtain ⟨hpid, hothers⟩ := Sources.at_of_applyVariable hfirst
  obtain ⟨hcheck, hothers'⟩ := Sources.at_of_applyVariable hsecond
  cases key with
  | firstElementaryPid =>
    rw [hothers' .firstElementaryPid (by decide)]
    exact hpid
  | continuityCheck =>
    rw [hothers .continuityCheck (by decide)] at hcheck
    exact hcheck

theorem gives_of_fromSources (h : fromSources src = .ok s) (key : SettingKey) :
    src.Gives key (s.at key) := by
  obtain ⟨s₁, s₂, hfirst, hsecond, hfile⟩ := fromSources_eq_ok h
  obtain hlast | ⟨hunset, hat⟩ := Sources.at_of_applyFile hfile key
  · exact .line hlast (s.key_at key)
  · rw [hat]
    obtain ⟨value, hvalue, haccepts⟩ | ⟨hnot, hdefault⟩ := at_of_variables hfirst hsecond key
    · exact .variable hunset hvalue haccepts
    · rw [hdefault]
      exact .default hunset hnot

/-! ### What does not matter -/

/-- Two surroundings give the same settings, or the same fault, if their variables agree as far as
they are text and the same entry counts. -/
theorem fromSources_congr {src src' : Sources}
    (henvironment : ∀ (key : SettingKey) (value : String),
      src.environment key.variableName = some (.text value) ↔
        src'.environment key.variableName = some (.text value))
    (hentry : src.firstEntry? = src'.firstEntry?) : fromSources src = fromSources src' := by
  have hvariable : src.applyVariable = src'.applyVariable := by
    funext key s
    by_cases htext : ∃ value, src.environment key.variableName = some (.text value)
    · obtain ⟨value, hvalue⟩ := htext
      rw [Sources.applyVariable_of_text hvalue,
        Sources.applyVariable_of_text ((henvironment key value).mp hvalue)]
    · have hnot := not_exists.mp htext
      rw [Sources.applyVariable_of_not_text hnot, Sources.applyVariable_of_not_text fun value h =>
        hnot value ((henvironment key value).mpr h)]
  have hfile : src.applyFile = src'.applyFile := by
    funext s
    simp only [Sources.applyFile, Sources.findSome?_fileNames, hentry]
  simp only [fromSources, hvariable, hfile]

/-- **Precedence of the sources.**  Reading the sources fails exactly if a variable that is text has a
value that its setting does not accept, or the first entry that there is cannot be read as text or has
a bad line; the error is that of the first of these, whatever later sources say.  Where it does not
fail, each setting stands as the last line for it in the file says, else as its variable says, else as
it is without any source.  A second entry behind the first does not matter, and a variable that is
not text counts as not set. -/
theorem fromSources_precedence (src : Sources) :
    ((∃ e, fromSources src = .error e) ↔
      (∃ e, src.VariableFault .firstElementaryPid e) ∨
        (∃ e, src.VariableFault .continuityCheck e) ∨ ∃ e, src.FileFault e) ∧
    (∀ e, fromSources src = .error e ↔ src.FirstFault e) ∧
    (∀ s, fromSources src = .ok s → ∀ key, src.Gives key (s.at key)) ∧
    (∀ entry, (src.entry "tsframe.toml").isSome →
      fromSources (src.setEntry "tsframe_config.toml" entry) = fromSources src) ∧
    (∀ key : SettingKey, src.environment key.variableName = some .undecodable →
      fromSources (src.setVariable key.variableName none) = fromSources src) := by
  refine ⟨?_, fun e => fromSources_eq_error_iff, fun s => gives_of_fromSources, ?_, ?_⟩
  · rw [← exists_firstFault_iff]
    exact exists_congr fun e => fromSources_eq_error_iff
  · intro entry hfirst
    apply fromSources_congr
    · exact fun key value => Iff.rfl
    · obtain ⟨first, hfirst⟩ := Option.isSome_iff_exists.mp hfirst
      rw [Sources.firstEntry?, Sources.firstEntry?,
        Sources.entry_setEntry_of_ne (by decide), hfirst]
      rfl
  · intro key hvariable
    apply fromSources_congr
    · intro other value
      by_cases hname : other.variableName = key.variableName
      · rw [hname, Sources.environment_setVariable_self, hvariable]
        simp
      · rw [Sources.environment_setVariable_of_ne hname]
    · rfl

/-- A file sets again what variables set; the bad value of a variable counts all the same. -/
theorem fromSources_overridden :
    let file : Entry := .file (.text "first_elementary_pid = 5 # low\n\nfirst_elementary_pid='0x0200'\n")
    let src : Sources := (({} : Sources).setEntry "tsframe.toml" (some file)).setVariable
      "TSFRAME_CONTINUITY_CHECK" (some (.text "no"))
    let bad : Sources := src.setVariable "TSFRAME_FIRST_PID" (some (.text "0x2000"))
    fromSources src = .ok ⟨⟨0x200, by decide⟩, false⟩ ∧
      src.Gives .firstElementaryPid (.firstElementaryPid ⟨0x200, by decide⟩) ∧
      src.Gives .continuityCheck (.continuityCheck false) ∧
      fromSources (src.setEntry "tsframe_config.toml" (some .directory)) =
        .ok ⟨⟨0x200, by decide⟩, false⟩ ∧
      fromSources bad = .error (.invalidPid ⟨0x2000⟩) ∧ bad.FirstFault (.invalidPid ⟨0x2000⟩) := by
  intro file src bad
  have hok : fromSources src = .ok ⟨⟨0x200, by decide⟩, false⟩ := by rfl
  have herror : fromSources bad = .error (.invalidPid ⟨0x2000⟩) := by rfl
  obtain ⟨-, -, hgives, hsecond, -⟩ := fromSources_precedence src
  have hfirst : (src.entry "tsframe.toml").isSome := by decide
  exact ⟨hok, hgives _ hok .firstElementaryPid, hgives _ hok .continuityCheck,
    (hsecond (some .directory) hfirst).trans hok, herror,
    ((fromSources_precedence bad).2.1 _).mp herror⟩

end Settings

end TransportStream
