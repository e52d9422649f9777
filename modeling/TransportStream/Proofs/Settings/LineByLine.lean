import Mathlib.Data.List.TakeWhile
import Mathlib.Logic.Relation
import TransportStream.Proofs.Settings.LineMeaning

/-!
# Texts line by line

What a text does to the settings follows from what its lines say, one after the other; lines that say
nothing do not count (`Settings.applyLines_eq`).  So it does not matter how a line ends, and blank
lines and comments may be put in anywhere (`Settings.applyText_of_annotates`).  What a text leaves
behind, at fault or not, is told in `Settings.applyText_line_by_line`.
-/

namespace TransportStream

namespace Text

/-! ## Ends of lines -/

/-- A line without the carriage return at its end. -/
def dropReturn (line : List Char) : List Char :=
  if line.getLast? = some '\r' then line.dropLast else line

/-- The lines among the pieces between line feeds: a carriage return before a line feed belongs to the
end of the line, and behind the last line feed there is a line only if something stands there. -/
def endedLines : List (List Char) → List (List Char)
  | [] => []
  | [last] => if last = [] then [] else [last]
  | piece :: next :: rest => dropReturn piece :: endedLines (next :: rest)

def textLines (text : String) : List (List Char) :=
  endedLines (lines text.toList)

theorem lines_of_not_mem {cs : List Char} (h : '\n' ∉ cs) : lines cs = [cs] := by
  induction cs with
  | nil => rfl
  | cons c cs ih =>
    obtain ⟨hc, hcs⟩ := not_or.mp (mt List.mem_cons.mpr h)
    rw [lines, if_neg (Ne.symm hc), ih hcs]

-- The last line feed, if there is one, parts the text.
theorem exists_last_piece (cs : List Char) :
    ∃ front last, cs = front ++ last ∧ '\n' ∉ last ∧ (front = [] ∨ ∃ f, front = f ++ ['\n']) := by
  by_cases h : '\n' ∈ cs
  · obtain ⟨last, front, heq, hnot⟩ := List.eq_append_cons_of_mem (List.mem_reverse.mpr h)
    refine ⟨front.reverse ++ ['\n'], last.reverse, ?_, by rwa [List.mem_reverse], .inr ⟨_, rfl⟩⟩
    rw [← List.reverse_reverse cs, heq]
    simp
  · exact ⟨[], cs, rfl, h, .inl rfl⟩

/-! ## Blanks at the end -/

theorem strip_append {p : Char → Bool} {cs ds : List Char} (h : ∀ c ∈ ds, p c = true) :
    strip p (cs ++ ds) = strip p cs := by
  rw [strip, strip, List.dropWhile_append]
  split
  next hnone =>
    rw [List.isEmpty_iff.mp hnone, List.dropWhile_eq_nil_iff.mpr h]
  next =>
    have hreverse : ∀ c ∈ ds.reverse, p c = true := fun c hc => h c (List.mem_reverse.mp hc)
    rw [List.reverse_append, List.dropWhile_append_of_pos hreverse]

end Text

namespace Settings

open Text

/-! ## What a line says -/

/-- What a line says, if it says anything: what it sets, or what is wrong with it. -/
def says? (line : List Char) : Option (Except SettingsError Setting) :=
  match readLine line with
  | .ok none => none
  | .ok (some setting) => some (.ok setting)
  | .error e => some (.error e)

/-- Do what is said, up to the first thing that is wrong. -/
def applySayings (s : Settings) : List (Except SettingsError Setting) → Applied
  | [] => ⟨s, none⟩
  | .ok setting :: rest => applySayings (s.set setting) rest
  | .error e :: _ => ⟨s, some e⟩

/-- All that the lines of a text say. -/
def sayings (cs : List Char) : List (Except SettingsError Setting) :=
  (lines cs).filterMap says?

theorem applyLines_eq (s : Settings) (ls : List (List Char)) :
    applyLines s ls = applySayings s (ls.filterMap says?) := by
  induction ls generalizing s with
  | nil => rfl
  | cons line rest ih =>
    rw [applyLines, List.filterMap_cons, says?]
    cases readLine line with
    | error e => rfl
    | ok setting? =>
      cases setting? with
      | none => exact ih s
      | some setting => exact ih (s.set setting)

theorem applyText_eq (s : Settings) (text : String) :
    s.applyText text = applySayings s (sayings text.toList) :=
  applyLines_eq s _

-- Nothing else of a line counts than what stands on it before its comment.
theorem says?_congr {line line' : List Char} (h : lineBody line = lineBody line') :
    says? line = says? line' := by
  rw [says?, says?, readLine_eq, readLine_eq, h]

theorem says?_eq_none {line : List Char} (h : lineBody line = []) : says? line = none := by
  rw [says?, readLine_eq, if_pos h]

theorem lineBody_append_blanks {blanks : List Char} (h : ∀ c ∈ blanks, isBlank c = true)
    (line : List Char) : lineBody (line ++ blanks) = lineBody line := by
  rw [lineBody, lineBody, List.takeWhile_append]
  split
  next hall =>
    have hline : line.takeWhile (· != '#') = line :=
      (List.takeWhile_prefix _).eq_of_length hall
    rw [hline]
    exact strip_append fun c hc => h c ((List.takeWhile_prefix _).subset hc)
  next => rfl

-- So a carriage return at the end of a line does not count.
theorem isBlank_return : ∀ c ∈ ['\r'], isBlank c = true :=
  List.forall_mem_singleton.mpr (by decide)

theorem lineBody_append_comment (line note : List Char) :
    lineBody (line ++ '#' :: note) = lineBody line := by
  rw [lineBody, lineBody, List.takeWhile_append]
  split
  next hall =>
    have hline : line.takeWhile (· != '#') = line :=
      (List.takeWhile_prefix _).eq_of_length hall
    rw [hline, List.takeWhile_cons_of_neg (by decide), List.append_nil]
  next => rfl

theorem lineBody_dropReturn (line : List Char) : lineBody (dropReturn line) = lineBody line := by
  unfold dropReturn
  split
  next h =>
    obtain ⟨front, rfl⟩ := List.getLast?_eq_some_iff.mp h
    rw [List.dropLast_concat, lineBody_append_blanks isBlank_return]
  next => rfl

theorem filterMap_says?_endedLines (pieces : List (List Char)) :
    (endedLines pieces).filterMap says? = pieces.filterMap says? := by
  induction pieces using endedLines.induct with
  | case1 => rfl
  | case2 => rfl
  | case3 last hne => rw [endedLines, if_neg hne]
  | case4 piece next rest ih =>
    have hfirst := says?_congr (lineBody_dropReturn piece)
    cases h : says? piece with
    | none =>
      rw [endedLines, List.filterMap_cons_none (hfirst.trans h), List.filterMap_cons_none h, ih]
    | some saying =>
      rw [endedLines, List.filterMap_cons_some (hfirst.trans h), List.filterMap_cons_some h, ih]

/-- A text is applied like its lines, with their ends taken off. -/
theorem applyText_eq_applyLines (s : Settings) (text : String) :
    s.applyText text = s.applyLines (textLines text) := by
  rw [applyLines_eq, textLines, filterMap_says?_endedLines, applyText_eq, sayings]

/-! ## Blank lines and comments -/

/-- A line that is blank, or blank up to a comment. -/
def Silent (line : String) : Prop :=
  '\n' ∉ line.toList ∧ ∃ blanks rest : String, line = blanks ++ rest ∧
    (∀ c ∈ blanks.toList, isBlank c = true) ∧ (rest = "" ∨ ∃ note, rest = "#" ++ note)

/-- A text and the same text with one line more that is blank or a comment, before any of its lines or
behind the last, or with one comment more at the end of a line. -/
inductive Annotates : String → String → Prop
  | lineBefore {before line after : String} (hbefore : before = "" ∨ ∃ b, before = b ++ "\n")
      (hline : Silent line) : Annotates (before ++ after) (before ++ line ++ "\n" ++ after)
  | lineBehind {text ending line : String} (hending : ending = "\n" ∨ ending = "\r\n")
      (hline : Silent line) : Annotates text (text ++ ending ++ line)
  | lineAtEnd {text line : String} (htext : text = "" ∨ ∃ b, text = b ++ "\n")
      (hline : Silent line) : Annotates text (text ++ line)
  | comment {before note after : String} (hnote : '\n' ∉ note.toList)
      (hafter : after = "" ∨ ∃ a, after = "\n" ++ a ∨ after = "\r\n" ++ a) :
      Annotates (before ++ after) (before ++ "#" ++ note ++ after)

theorem sayings_append (a b : List Char) : sayings (a ++ '\n' :: b) = sayings a ++ sayings b := by
  rw [sayings, lines_append, List.filterMap_append, sayings, sayings]

theorem sayings_of_not_mem {line : List Char} (h : '\n' ∉ line) :
    sayings line = (says? line).toList := by
  rw [sayings, lines_of_not_mem h, List.filterMap_cons]
  cases says? line <;> rfl

theorem sayings_of_silent {line : String} (h : Silent line) : sayings line.toList = [] := by
  obtain ⟨hline, blanks, rest, rfl, hblanks, hrest⟩ := h
  have hbody : lineBody (blanks ++ rest).toList = lineBody ([] ++ blanks.toList) := by
    rw [String.toList_append, List.nil_append]
    obtain rfl | ⟨note, rfl⟩ := hrest
    · rw [String.toList_empty, List.append_nil]
    · rw [String.toList_append]
      exact lineBody_append_comment _ _
  have hnone : says? (blanks ++ rest).toList = none :=
    says?_eq_none (hbody.trans (lineBody_append_blanks hblanks []))
  rw [sayings_of_not_mem hline, hnone]
  rfl

-- What stands before the start of a line says the same whatever is behind it.
theorem sayings_front {front a b : List Char} (hfront : front = [] ∨ ∃ f, front = f ++ ['\n'])
    (h : sayings a = sayings b) : sayings (front ++ a) = sayings (front ++ b) := by
  obtain rfl | ⟨f, rfl⟩ := hfront
  · exact h
  · rw [List.append_assoc, List.append_assoc, List.singleton_append, List.singleton_append,
      sayings_append, sayings_append, h]

-- The same for what stands behind the end of a line.
theorem sayings_line {line line' back : List Char} (hline : '\n' ∉ line) (hline' : '\n' ∉ line')
    (hbody : lineBody line = lineBody line') (hback : back = [] ∨ ∃ b, back = '\n' :: b) :
    sayings (line ++ back) = sayings (line' ++ back) := by
  have hsame : sayings line = sayings line' := by
    rw [sayings_of_not_mem hline, sayings_of_not_mem hline', says?_congr hbody]
  obtain rfl | ⟨b, rfl⟩ := hback
  · rw [List.append_nil, List.append_nil, hsame]
  · rw [sayings_append, sayings_append, hsame]

theorem sayings_comment {note ending back : List Char} (before : List Char) (hnote : '\n' ∉ note)
    (hending : ending = [] ∨ ending = ['\r']) (hback : back = [] ∨ ∃ b, back = '\n' :: b) :
    sayings (before ++ '#' :: note ++ ending ++ back) = sayings (before ++ ending ++ back) := by
  obtain ⟨front, line, rfl, hline, hfront⟩ := exists_last_piece before
  have hfeed : '\n' ∉ ending := by
    obtain rfl | rfl := hending <;> decide
  have hblank : ∀ c ∈ ending, isBlank c = true := by
    obtain rfl | rfl := hending
    · exact List.forall_mem_nil _
    · exact isBlank_return
  have hbody : lineBody (line ++ '#' :: note ++ ending) = lineBody (line ++ ending) := by
    rw [lineBody_append_blanks hblank, lineBody_append_blanks hblank, lineBody_append_comment]
  have hsame : sayings (line ++ '#' :: note ++ ending ++ back) = sayings (line ++ ending ++ back) := by
    apply sayings_line _ _ hbody hback
    · simp [hline, hnote, hfeed]
    · simp [hline, hfeed]
  simpa only [List.append_assoc] using sayings_front hfront hsame

theorem sayings_return (cs : List Char) : sayings (cs ++ ['\r']) = sayings cs := by
  obtain ⟨front, line, rfl, hline, hfront⟩ := exists_last_piece cs
  have hsame : sayings (line ++ ['\r']) = sayings line := by
    rw [sayings_of_not_mem (by simp [hline]), sayings_of_not_mem hline,
      says?_congr (lineBody_append_blanks isBlank_return line)]
  rw [List.append_assoc]
  exact sayings_front hfront hsame

theorem toList_front {text : String} (h : text = "" ∨ ∃ b, text = b ++ "\n") :
    text.toList = [] ∨ ∃ f, text.toList = f ++ ['\n'] := by
  obtain rfl | ⟨b, rfl⟩ := h
  · exact .inl rfl
  · exact .inr ⟨b.toList, String.toList_append⟩

theorem sayings_of_annotates {a b : String} (h : Annotates a b) :
    sayings b.toList = sayings a.toList := by
  cases h with
  | @lineBefore before line after hbefore hline =>
    have hsame : sayings (line.toList ++ '\n' :: after.toList) = sayings after.toList := by
      rw [sayings_append, sayings_of_silent hline, List.nil_append]
    simpa [String.toList_append] using sayings_front (toList_front hbefore) hsame
  | @lineBehind text ending line hending hline =>
    obtain rfl | rfl := hending
    · have hsame : sayings (a.toList ++ '\n' :: line.toList) = sayings a.toList := by
        rw [sayings_append, sayings_of_silent hline, List.append_nil]
      simpa [String.toList_append] using hsame
    · have hsame : sayings ((a.toList ++ ['\r']) ++ '\n' :: line.toList) = sayings a.toList := by
        rw [sayings_append, sayings_of_silent hline, List.append_nil, sayings_return]
      simpa [String.toList_append] using hsame
  | @lineAtEnd text line htext hline =>
    have hnothing : sayings line.toList = sayings [] := sayings_of_silent hline
    simpa [String.toList_append] using sayings_front (toList_front htext) hnothing
  | @comment before note after hnote hafter =>
    obtain rfl | ⟨rest, rfl | rfl⟩ := hafter
    · simpa [String.toList_append] using
        sayings_comment before.toList hnote (.inl rfl) (.inl rfl)
    · simpa [String.toList_append] using
        sayings_comment before.toList hnote (.inl rfl) (.inr ⟨rest.toList, rfl⟩)
    · simpa [String.toList_append] using
        sayings_comment before.toList hnote (.inr rfl) (.inr ⟨rest.toList, rfl⟩)

/-- Blank lines and comments, as many as there may be, do not matter. -/
theorem applyText_of_annotates {a b : String} (h : Relation.ReflTransGen Annotates a b)
    (s : Settings) : s.applyText b = s.applyText a := by
  induction h with
  | refl => rfl
  | tail _ hstep ih => rw [applyText_eq, sayings_of_annotates hstep, ← applyText_eq, ih]

/-! ## Faults, and the last line for a setting -/

/-- No line is for the setting. -/
def Unnamed (ls : List (List Char)) (key : SettingKey) : Prop :=
  ∀ l ∈ ls, ∀ value, ¬ LineNames l key.name value

/-- What a line sets, where no line behind it is for the setting, not even a bad one. -/
def LastNames (ls : List (List Char)) (setting : Setting) : Prop :=
  ∃ before line after, ls = before ++ line :: after ∧ LineSets line setting ∧
    Unnamed after setting.key

theorem not_lineFault_of_fault_eq_none {s : Settings} {ls : List (List Char)}
    (h : (applyLines s ls).fault = none) : ∀ l ∈ ls, ∀ e, ¬ LineFault l e := by
  induction ls generalizing s with
  | nil => exact List.forall_mem_nil _
  | cons line rest ih =>
    rw [applyLines] at h
    split at h
    next hread => exact List.forall_mem_cons.mpr ⟨not_lineFault_of_readLine hread, ih h⟩
    next hread => exact List.forall_mem_cons.mpr ⟨not_lineFault_of_readLine hread, ih h⟩
    next => cases h

-- Where no line is bad, a line that is for a setting sets it.
theorem Unset.unnamed {ls : List (List Char)} {key : SettingKey} (h : Unset ls key)
    (hgood : ∀ l ∈ ls, ∀ e, ¬ LineFault l e) : Unnamed ls key := by
  intro l hl value hnames
  obtain ⟨setting, -, haccepts⟩ | ⟨e, -, hrefuses⟩ := key.read_cases value
  · exact h l hl setting ⟨key, value, hnames, haccepts⟩ haccepts.key_eq
  · exact hgood l hl e (.value hnames hrefuses)

/-- Lines at fault leave behind what the lines before the first bad one leave behind. -/
theorem applyLines_of_bad (s : Settings) {before : List (List Char)} {line : List Char}
    {e : SettingsError} (hgood : ∀ l ∈ before, ∀ e', ¬ LineFault l e') (hbad : LineFault line e)
    (after : List (List Char)) :
    (applyLines s before).fault = none ∧
      applyLines s (before ++ line :: after) = ⟨(applyLines s before).settings, some e⟩ := by
  have hnone : (applyLines s before).fault = none := by
    rw [Option.eq_none_iff_forall_ne_some]
    intro e' hfault
    obtain ⟨_, bad, _, rfl, -, hbad'⟩ := fault_applyLines_eq_some_iff.mp hfault
    exact hgood bad (by simp) e' hbad'
  refine ⟨hnone, ?_⟩
  rw [applyLines_append, hnone]
  simp only [applyLines, readLine_of_lineFault hbad]

/-! ## All texts -/

/-- **Texts line by line.**  Two texts with a line feed between them are applied one after the other,
and if the first one is at fault the second one does not count.  A text is at fault exactly if a line of
it is bad; the first bad line tells the reason and sets nothing, and what stays are the settings that the
lines before it leave behind.  Where a text is not at fault, each setting stands as the last line for it
says, and as it stood before if no line is for it.  Lines that are blank or comments, put in anywhere,
and comments at the end of any line change neither the settings nor the fault. -/
theorem applyText_line_by_line (s : Settings) :
    (∀ a b : String,
      (∀ e, (s.applyText a).fault = some e → s.applyText (a ++ "\n" ++ b) = s.applyText a) ∧
      ((s.applyText a).fault = none →
        s.applyText (a ++ "\n" ++ b) = (s.applyText a).settings.applyText b)) ∧
    (∀ (text : String) (e : SettingsError),
      (s.applyText text).fault = some e ↔
        ∃ before line after, textLines text = before ++ line :: after ∧
          (∀ l ∈ before, ∀ e', ¬ LineFault l e') ∧ LineFault line e ∧
          s.applyLines before = ⟨(s.applyText text).settings, none⟩) ∧
    (∀ text : String, (s.applyText text).fault = none → ∀ key : SettingKey,
      LastNames (textLines text) ((s.applyText text).settings.at key) ∨
        Unnamed (textLines text) key ∧ (s.applyText text).settings.at key = s.at key) ∧
    (∀ a b : String, Relation.ReflTransGen Annotates a b → s.applyText b = s.applyText a) := by
  refine ⟨fun a b => ⟨fun e h => ?_, fun h => ?_⟩, fun text e => ?_, fun text h key => ?_,
    fun a b h => applyText_of_annotates h s⟩
  · rw [applyText_append, h]
  · rw [applyText_append, h]
  · rw [applyText_eq_applyLines, fault_applyLines_eq_some_iff]
    constructor
    · rintro ⟨before, line, after, heq, hgood, hbad⟩
      obtain ⟨hnone, hall⟩ := applyLines_of_bad s hgood hbad after
      refine ⟨before, line, after, heq, hgood, hbad, ?_⟩
      rw [heq, hall, ← hnone]
    · rintro ⟨before, line, after, heq, hgood, hbad, -⟩
      exact ⟨before, line, after, heq, hgood, hbad⟩
  · rw [applyText_eq_applyLines] at h ⊢
    have hgood := not_lineFault_of_fault_eq_none h
    obtain ⟨before, line, after, heq, hsets, hunset⟩ | ⟨hunset, hat⟩ := at_applyLines h key
    · refine .inl ⟨before, line, after, heq, hsets, hunset.unnamed fun l hl => hgood l ?_⟩
      rw [heq]
      exact List.mem_append_right _ (List.mem_cons_of_mem _ hl)
    · exact .inr ⟨hunset.unnamed hgood, hat⟩

/-- A good text, the same with a comment on its first line and one behind its last, and a text with an
identifier that is out of range, behind the good one and before it once more. -/
theorem applyText_out_of_range :
    let s : Settings := {}
    let good := "continuity_check = no" ++ "\r\nfirst_elementary_pid = '0x20'"
    let noted := "continuity_check = no" ++ "#" ++ " quiet" ++ "\r\nfirst_elementary_pid = '0x20'"
    let closed := noted ++ "\n" ++ "\t # end"
    let bad := "first_elementary_pid = 8192\ncontinuity_check = yes"
    let left : Settings := ⟨⟨0x20, by decide⟩, false⟩
    s.applyText good = ⟨left, none⟩ ∧
      Relation.ReflTransGen Annotates good closed ∧ s.applyText closed = ⟨left, none⟩ ∧
      LastNames (textLines good) (.continuityCheck false) ∧
      s.applyText (good ++ "\n" ++ bad) = ⟨left, some (.invalidPid ⟨8192⟩)⟩ ∧
      s.applyText (good ++ "\n" ++ bad ++ "\n" ++ good) = s.applyText (good ++ "\n" ++ bad) := by
  intro s good noted closed bad left
  have hgood : s.applyText good = ⟨left, none⟩ := by decide +kernel
  have hbad : left.applyText bad = ⟨left, some (.invalidPid ⟨8192⟩)⟩ := by decide +kernel
  have hcomment : Annotates good noted :=
    .comment (by decide) (.inr ⟨"first_elementary_pid = '0x20'", .inr (by decide)⟩)
  have hline : Annotates noted closed :=
    .lineBehind (.inl rfl) ⟨by decide, "\t ", "# end", by decide, List.all_eq_true.mp (by decide),
      .inr ⟨" end", by decide⟩⟩
  have hclosed : Relation.ReflTransGen Annotates good closed :=
    .tail (.single hcomment) hline
  obtain ⟨happend, -, hlast, hannotates⟩ := applyText_line_by_line s
  have hnames := hlast good (by rw [hgood]) .continuityCheck
  rw [hgood] at hnames
  -- The setting is not as it was, so a line is for it.
  have hchanged : left.at .continuityCheck ≠ s.at .continuityCheck := by decide
  have hboth : s.applyText (good ++ "\n" ++ bad) = ⟨left, some (.invalidPid ⟨8192⟩)⟩ := by
    rw [(happend good bad).2 (by rw [hgood]), hgood, hbad]
  have hstays := (happend (good ++ "\n" ++ bad) good).1 (.invalidPid ⟨8192⟩) (by rw [hboth])
  exact ⟨hgood, hclosed, (hannotates good closed hclosed).trans hgood,
    hnames.resolve_right fun h => hchanged h.2, hboth, hstays⟩

-- Blanks are those of Unicode, and a value may stand in double quotes.
example : ({} : Settings).applyText "\u00a0first_elementary_pid\u2003=\u3000\"0x20\"\u0085" =
    ⟨⟨⟨0x20, by decide⟩, true⟩, none⟩ := by
  decide +kernel

end Settings

end TransportStream
