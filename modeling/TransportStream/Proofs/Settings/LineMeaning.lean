import TransportStream.Proofs.Settings.Values
import TransportStream.Settings.Lines

/-!
# What the lines of a text say

A line sets something, or is bad for a reason, or says nothing.  Of several lines the first bad one
is what is wrong with them (`Settings.fault_applyLines_eq_some_iff`).  Where none is bad, a setting
has the value that the last line for it gives, or the one from before if there is no such line
(`Settings.at_applyLines`).
-/

namespace TransportStream

/-! ## Settings by their keys -/

/-- The setting that is set. -/
def Setting.key : Setting → SettingKey
  | firstElementaryPid _ => .firstElementaryPid
  | continuityCheck _ => .continuityCheck

/-- How a setting stands. -/
def Settings.at (s : Settings) : SettingKey → Setting
  | .firstElementaryPid => .firstElementaryPid s.firstElementaryPid
  | .continuityCheck => .continuityCheck s.continuityCheck

namespace SettingKey

theorem ofName?_eq_some_iff {name : String} {key : SettingKey} :
    ofName? name = some key ↔ key.name = name := by
  constructor
  · unfold ofName?
    split
    next h => rintro ⟨⟩; exact h.symm
    next =>
      split
      next h => rintro ⟨⟩; exact h.symm
      next => intro h; cases h
  · rintro rfl
    exact ofName?_name key

theorem ofName?_eq_none_iff {name : String} :
    ofName? name = none ↔ ∀ key : SettingKey, key.name ≠ name := by
  rw [Option.eq_none_iff_forall_ne_some]
  exact forall_congr' fun key => not_congr ofName?_eq_some_iff

theorem Accepts.key_eq {key : SettingKey} {value : String} {setting : Setting}
    (h : key.Accepts value setting) : setting.key = key := by
  cases h <;> rfl

end SettingKey

namespace Settings

open Text

@[simp] theorem key_at (s : Settings) (key : SettingKey) : (s.at key).key = key := by
  cases key <;> rfl

@[simp] theorem at_set_self (s : Settings) (setting : Setting) :
    (s.set setting).at setting.key = setting := by
  cases setting <;> rfl

@[simp] theorem at_set_of_ne (s : Settings) {setting : Setting} {key : SettingKey}
    (h : setting.key ≠ key) : (s.set setting).at key = s.at key := by
  cases setting <;> cases key <;> first | rfl | exact absurd rfl h

/-! ## One line -/

/-- What stands on a line before its comment, without the blanks around it. -/
def lineBody (line : List Char) : List Char :=
  strip isBlank (line.takeWhile (· != '#'))

/-- A line has a name before its first equals sign and a value behind it. -/
def LineNames (line : List Char) (name value : String) : Prop :=
  ∃ before after, lineBody line = before ++ '=' :: after ∧ '=' ∉ before ∧
    name = String.ofList (strip isBlank before) ∧
    value = String.ofList (unquote (strip isBlank after))

/-- A line sets something. -/
def LineSets (line : List Char) (setting : Setting) : Prop :=
  ∃ (key : SettingKey) (value : String), LineNames line key.name value ∧ key.Accepts value setting

/-- A line is bad, for a reason. -/
inductive LineFault (line : List Char) : SettingsError → Prop
  | noSeparator (hne : lineBody line ≠ []) (h : '=' ∉ lineBody line) :
      LineFault line (.noSeparator (String.ofList (lineBody line)))
  | unknownKey {name value : String} (h : LineNames line name value)
      (hname : ∀ key : SettingKey, key.name ≠ name) : LineFault line (.unknownKey name)
  | value {key : SettingKey} {value : String} {e : SettingsError}
      (h : LineNames line key.name value) (hrefuses : key.Refuses value e) : LineFault line e

theorem readLine_eq (line : List Char) :
    readLine line =
      if lineBody line = [] then .ok none
      else match cut? '=' (lineBody line) with
        | none => .error (.noSeparator (String.ofList (lineBody line)))
        | some (before, after) =>
          match SettingKey.ofName? (String.ofList (strip isBlank before)) with
          | none => .error (.unknownKey (String.ofList (strip isBlank before)))
          | some key => (key.read (String.ofList (unquote (strip isBlank after)))).map some :=
  rfl

theorem readLine_of_lineNames {line : List Char} {name value : String}
    (h : LineNames line name value) :
    readLine line =
      match SettingKey.ofName? name with
      | none => .error (.unknownKey name)
      | some key => (key.read value).map some := by
  obtain ⟨before, after, hbody, hfirst, rfl, rfl⟩ := h
  have hcut : cut? '=' (lineBody line) = some (before, after) := cut?_eq_some_iff.mpr ⟨hbody, hfirst⟩
  have hne : lineBody line ≠ [] := by
    rw [hbody]
    simp
  rw [readLine_eq, if_neg hne, hcut]

theorem readLine_of_lineSets {line : List Char} {setting : Setting} (h : LineSets line setting) :
    readLine line = .ok (some setting) := by
  obtain ⟨key, value, hnames, haccepts⟩ := h
  rw [readLine_of_lineNames hnames, SettingKey.ofName?_name]
  simp only [SettingKey.read_of_accepts haccepts]
  rfl

theorem readLine_of_lineFault {line : List Char} {e : SettingsError} (h : LineFault line e) :
    readLine line = .error e := by
  cases h with
  | noSeparator hne h =>
    rw [readLine_eq, if_neg hne, cut?_eq_none_iff.mpr h]
  | unknownKey h hname =>
    rw [readLine_of_lineNames h, SettingKey.ofName?_eq_none_iff.mpr hname]
  | value h hrefuses =>
    rw [readLine_of_lineNames h, SettingKey.ofName?_name]
    simp only [SettingKey.read_of_refuses hrefuses]
    rfl

-- A line is one of the three.
theorem readLine_cases (line : List Char) :
    readLine line = .ok none ∨ (∃ setting, LineSets line setting) ∨ ∃ e, LineFault line e := by
  by_cases hne : lineBody line = []
  · left
    rw [readLine_eq, if_pos hne]
  · right
    cases hcut : cut? '=' (lineBody line) with
    | none => exact .inr ⟨_, .noSeparator hne (cut?_eq_none_iff.mp hcut)⟩
    | some parts =>
      obtain ⟨before, after⟩ := parts
      obtain ⟨hbody, hfirst⟩ := cut?_eq_some_iff.mp hcut
      have hnames : LineNames line (String.ofList (strip isBlank before))
          (String.ofList (unquote (strip isBlank after))) :=
        ⟨before, after, hbody, hfirst, rfl, rfl⟩
      cases hname : SettingKey.ofName? (String.ofList (strip isBlank before)) with
      | none => exact .inr ⟨_, .unknownKey hnames (SettingKey.ofName?_eq_none_iff.mp hname)⟩
      | some key =>
        rw [← SettingKey.ofName?_eq_some_iff.mp hname] at hnames
        obtain ⟨setting, -, haccepts⟩ | ⟨e, -, hrefuses⟩ := key.read_cases
          (String.ofList (unquote (strip isBlank after)))
        · exact .inl ⟨setting, key, _, hnames, haccepts⟩
        · exact .inr ⟨e, .value hnames hrefuses⟩

theorem readLine_eq_some_iff {line : List Char} {setting : Setting} :
    readLine line = .ok (some setting) ↔ LineSets line setting := by
  refine ⟨fun hread => ?_, readLine_of_lineSets⟩
  obtain h | ⟨setting', h⟩ | ⟨e, h⟩ := readLine_cases line
  · rw [h] at hread
    cases hread
  · rw [readLine_of_lineSets h] at hread
    cases hread
    exact h
  · rw [readLine_of_lineFault h] at hread
    cases hread

theorem readLine_eq_error_iff {line : List Char} {e : SettingsError} :
    readLine line = .error e ↔ LineFault line e := by
  refine ⟨fun hread => ?_, readLine_of_lineFault⟩
  obtain h | ⟨setting, h⟩ | ⟨e', h⟩ := readLine_cases line
  · rw [h] at hread
    cases hread
  · rw [readLine_of_lineSets h] at hread
    cases hread
  · rw [readLine_of_lineFault h] at hread
    cases hread
    exact h

/-! ## Several lines -/

theorem Applied.result_eq_error_iff {a : Applied} {e : SettingsError} :
    a.result = .error e ↔ a.fault = some e := by
  unfold result
  cases a.fault <;> simp

theorem Applied.result_eq_ok_iff {a : Applied} {s : Settings} :
    a.result = .ok s ↔ a.fault = none ∧ a.settings = s := by
  unfold result
  cases a.fault <;> simp

/-- What is wrong with some lines: the first bad one. -/
def FirstBad (ls : List (List Char)) (e : SettingsError) : Prop :=
  ∃ before line after, ls = before ++ line :: after ∧ (∀ l ∈ before, ∀ e', ¬ LineFault l e') ∧
    LineFault line e

/-- The lines say nothing of a setting. -/
def Unset (ls : List (List Char)) (key : SettingKey) : Prop :=
  ∀ l ∈ ls, ∀ setting, LineSets l setting → setting.key ≠ key

/-- What the last of some lines that is for the setting says. -/
def LastSets (ls : List (List Char)) (setting : Setting) : Prop :=
  ∃ before line after, ls = before ++ line :: after ∧ LineSets line setting ∧ Unset after setting.key

theorem firstBad_cons_of_bad {line : List Char} {e' : SettingsError} (h : LineFault line e')
    {rest : List (List Char)} {e : SettingsError} :
    FirstBad (line :: rest) e ↔ LineFault line e := by
  constructor
  · rintro ⟨before, bad, after, heq, hgood, hbad⟩
    cases before with
    | nil =>
      obtain ⟨rfl, -⟩ := List.cons.inj heq
      exact hbad
    | cons first before =>
      obtain ⟨rfl, -⟩ := List.cons.inj heq
      exact absurd h (hgood line List.mem_cons_self e')
  · exact fun hbad => ⟨[], line, rest, rfl, List.forall_mem_nil _, hbad⟩

theorem firstBad_cons_of_good {line : List Char} (h : ∀ e', ¬ LineFault line e')
    {rest : List (List Char)} {e : SettingsError} :
    FirstBad (line :: rest) e ↔ FirstBad rest e := by
  constructor
  · rintro ⟨before, bad, after, heq, hgood, hbad⟩
    cases before with
    | nil =>
      obtain ⟨rfl, -⟩ := List.cons.inj heq
      exact absurd hbad (h e)
    | cons first before =>
      obtain ⟨rfl, rfl⟩ := List.cons.inj heq
      exact ⟨before, bad, after, rfl, (List.forall_mem_cons.mp hgood).2, hbad⟩
  · rintro ⟨before, bad, after, rfl, hgood, hbad⟩
    exact ⟨line :: before, bad, after, rfl, List.forall_mem_cons.mpr ⟨h, hgood⟩, hbad⟩

theorem not_lineFault_of_readLine {line : List Char} {setting? : Option Setting}
    (h : readLine line = .ok setting?) (e : SettingsError) : ¬ LineFault line e := by
  intro hbad
  rw [readLine_of_lineFault hbad] at h
  cases h

/-- Lines are at fault exactly if one of them is bad, and then for the reason of the first. -/
theorem fault_applyLines_eq_some_iff {s : Settings} {ls : List (List Char)} {e : SettingsError} :
    (applyLines s ls).fault = some e ↔ FirstBad ls e := by
  induction ls generalizing s with
  | nil =>
    constructor
    · intro h
      cases h
    · rintro ⟨before, line, after, heq, -⟩
      cases before <;> cases heq
  | cons line rest ih =>
    rw [applyLines]
    split
    next hread => rw [ih, firstBad_cons_of_good (not_lineFault_of_readLine hread)]
    next hread => rw [ih, firstBad_cons_of_good (not_lineFault_of_readLine hread)]
    next e' hread =>
      rw [firstBad_cons_of_bad (readLine_eq_error_iff.mp hread), ← readLine_eq_error_iff, hread,
        Option.some.injEq, Except.error.injEq]

theorem LastSets.cons {rest : List (List Char)} {setting : Setting} (h : LastSets rest setting)
    (line : List Char) : LastSets (line :: rest) setting := by
  obtain ⟨before, last, after, rfl, hsets, hunset⟩ := h
  exact ⟨line :: before, last, after, rfl, hsets, hunset⟩

/-- Where no line is bad, a setting stands as the last line for it says, and as it stood before if no
line is for it. -/
theorem at_applyLines {s : Settings} {ls : List (List Char)} (h : (applyLines s ls).fault = none)
    (key : SettingKey) :
    LastSets ls ((applyLines s ls).settings.at key) ∨
      Unset ls key ∧ (applyLines s ls).settings.at key = s.at key := by
  induction ls generalizing s with
  | nil => exact .inr ⟨List.forall_mem_nil _, rfl⟩
  | cons line rest ih =>
    rw [applyLines] at h ⊢
    split at h
    next hread =>
      have hsilent (setting : Setting) : LineSets line setting → setting.key ≠ key := by
        intro hsets
        rw [readLine_of_lineSets hsets] at hread
        cases hread
      obtain hlast | ⟨hunset, hat⟩ := ih h
      · exact .inl (hlast.cons line)
      · exact .inr ⟨List.forall_mem_cons.mpr ⟨hsilent, hunset⟩, hat⟩
    next setting hread =>
      have hsets := readLine_eq_some_iff.mp hread
      obtain hlast | ⟨hunset, hat⟩ := ih h
      · exact .inl (hlast.cons line)
      · by_cases hkey : setting.key = key
        · -- This line is the last one for the setting.
          subst hkey
          rw [hat, at_set_self]
          exact .inl ⟨[], line, rest, rfl, hsets, hunset⟩
        · have hother (x : Setting) : LineSets line x → x.key ≠ key := by
            intro hx
            rw [readLine_of_lineSets hx] at hread
            cases hread
            exact hkey
          rw [hat, at_set_of_ne s hkey]
          exact .inr ⟨List.forall_mem_cons.mpr ⟨hother, hunset⟩, rfl⟩
    next => cases h

end Settings

end TransportStream
