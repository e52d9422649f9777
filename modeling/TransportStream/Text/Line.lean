/-!
# Lines and their parts

Cutting text at line feeds, cutting a line at a separator, and taking characters off both ends.
-/

namespace TransportStream.Text

/-- The lines of a text, without the line feeds between them. -/
def lines : List Char → List (List Char)
  | [] => [[]]
  | c :: cs =>
    if c = '\n' then [] :: lines cs
    else match lines cs with
      | [] => [[c]]
      | line :: rest => (c :: line) :: rest

/-- What stands before and after the first `sep`. -/
def cut? (sep : Char) : List Char → Option (List Char × List Char)
  | [] => none
  | c :: cs =>
    if c = sep then some ([], cs)
    else (cut? sep cs).map fun (before, after) => (c :: before, after)

/-- The text without the characters of class `p` at either end. -/
def strip (p : Char → Bool) (cs : List Char) : List Char :=
  ((cs.dropWhile p).reverse.dropWhile p).reverse

theorem lines_ne_nil (cs : List Char) : lines cs ≠ [] := by
  cases cs with
  | nil => simp [lines]
  | cons c cs =>
    rw [lines]
    split
    · simp
    · split <;> simp

/-- A line feed ends a line whatever stands on its two sides. -/
theorem lines_append (a b : List Char) : lines (a ++ '\n' :: b) = lines a ++ lines b := by
  induction a with
  | nil => simp [lines]
  | cons c a ih =>
    simp only [List.cons_append, lines, ih]
    split
    · rfl
    · cases h : lines a with
      | nil => exact absurd h (lines_ne_nil a)
      | cons line rest => rfl

/-- Cutting finds the first separator and loses nothing but it. -/
theorem cut?_eq_some_iff {sep : Char} {cs before after : List Char} :
    cut? sep cs = some (before, after) ↔ cs = before ++ sep :: after ∧ sep ∉ before := by
  induction cs generalizing before with
  | nil => simp [cut?]
  | cons c cs ih =>
    rw [cut?]
    split
    next h =>
      subst h
      constructor
      · intro heq; cases heq; simp
      · rintro ⟨heq, hnot⟩
        cases before with
        | nil => cases heq; rfl
        | cons b before => cases heq; simp at hnot
    next h =>
      simp only [Option.map_eq_some_iff, Prod.exists, Prod.mk.injEq]
      constructor
      · rintro ⟨before', after', hcut, rfl, rfl⟩
        obtain ⟨rfl, hnot⟩ := ih.mp hcut
        exact ⟨rfl, by simp [Ne.symm h, hnot]⟩
      · rintro ⟨heq, hnot⟩
        cases before with
        | nil => cases heq; exact absurd rfl h
        | cons b before =>
          cases heq
          exact ⟨before, after, ih.mpr ⟨rfl, fun hmem => hnot (by simp [hmem])⟩, rfl, rfl⟩

/-- A text has no cut exactly if the separator does not occur in it. -/
theorem cut?_eq_none_iff {sep : Char} {cs : List Char} : cut? sep cs = none ↔ sep ∉ cs := by
  induction cs with
  | nil => simp [cut?]
  | cons c cs ih =>
    rw [cut?]
    split
    next h => simp [h]
    next h => simp [ih, Ne.symm h]

end TransportStream.Text
