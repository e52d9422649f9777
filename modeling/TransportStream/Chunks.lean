/-!
# Chunks

A list cut into runs of one size.  The runs joined again are the part of the list that they were
cut from (`flatten_first`), and cutting goes on where an earlier cut stopped (`first_add`).
-/

namespace TransportStream.Chunks

variable {α : Type}

/-- The first `count` runs of `size` elements; a run is short where the list ends. -/
def first (size : Nat) : Nat → List α → List (List α)
  | 0, _ => []
  | count + 1, l => l.take size :: first size count (l.drop size)

/-- All runs of exactly `size` elements, without the shorter rest. -/
def whole (size : Nat) (l : List α) : List (List α) :=
  first size (l.length / size) l

@[simp] theorem length_first (size count : Nat) (l : List α) :
    (first size count l).length = count := by
  induction count generalizing l with
  | zero => rfl
  | succ count ih => simp [first, ih]

@[simp] theorem length_whole (size : Nat) (l : List α) : (whole size l).length = l.length / size :=
  length_first size _ l

theorem getElem?_first (size count : Nat) (l : List α) (i : Nat) (h : i < count) :
    (first size count l)[i]? = some ((l.drop (size * i)).take size) := by
  induction count generalizing l i with
  | zero => omega
  | succ count ih =>
    cases i with
    | zero => simp [first]
    | succ i =>
      simp only [first, List.getElem?_cons_succ]
      rw [ih _ i (by omega), List.drop_drop, Nat.mul_succ, Nat.add_comm]

theorem first_add (size m n : Nat) (l : List α) :
    first size (m + n) l = first size m l ++ first size n (l.drop (size * m)) := by
  induction m generalizing l with
  | zero => simp [first]
  | succ m ih =>
    rw [Nat.succ_add, first, first, ih, List.drop_drop, Nat.mul_succ, List.cons_append,
      Nat.add_comm size]

@[simp] theorem flatten_first (size count : Nat) (l : List α) :
    (first size count l).flatten = l.take (size * count) := by
  induction count generalizing l with
  | zero => simp [first]
  | succ count ih =>
    simp only [first, List.flatten_cons, ih]
    rw [Nat.mul_succ, Nat.add_comm, List.take_add]

/-- Runs of one size, joined and cut again, are the same runs. -/
theorem first_flatten {size : Nat} {runs : List (List α)} (h : ∀ r ∈ runs, r.length = size) :
    first size runs.length runs.flatten = runs := by
  induction runs with
  | nil => rfl
  | cons r rest ih =>
    have hr : r.length = size := h r (by simp)
    simp only [List.length_cons, List.flatten_cons, first]
    rw [List.take_left' hr, List.drop_left' hr, ih fun x hx => h x (by simp [hx])]

theorem length_flatten_of_length_eq {size : Nat} {runs : List (List α)}
    (h : ∀ r ∈ runs, r.length = size) : runs.flatten.length = size * runs.length := by
  induction runs with
  | nil => rfl
  | cons r rest ih =>
    rw [List.flatten_cons, List.length_append, h r List.mem_cons_self,
      ih fun x hx => h x (List.mem_cons_of_mem r hx), List.length_cons, Nat.mul_succ, Nat.add_comm]

theorem length_le_of_mem_first {size count : Nat} {l run : List α}
    (hrun : run ∈ first size count l) : run.length ≤ size := by
  induction count generalizing l with
  | zero => cases hrun
  | succ count ih =>
    rcases List.mem_cons.mp hrun with rfl | hrun
    · exact List.length_take_le size l
    · exact ih hrun

-- What stands behind the runs does not matter to them.
theorem first_append_of_le {size count : Nat} {l : List α} (h : size * count ≤ l.length)
    (l' : List α) : first size count (l ++ l') = first size count l := by
  induction count generalizing l with
  | zero => rfl
  | succ count ih =>
    rw [Nat.mul_succ] at h
    simp only [first]
    rw [List.take_append_of_le_length (by omega), List.drop_append_of_le_length (by omega),
      ih (by rw [List.length_drop]; omega)]

/-- Full runs, joined and cut without a bound on their number, are the same runs. -/
theorem whole_flatten {size : Nat} (hsize : 0 < size) {runs : List (List α)}
    (h : ∀ r ∈ runs, r.length = size) : whole size runs.flatten = runs := by
  rw [whole, length_flatten_of_length_eq h, Nat.mul_div_cancel_left _ hsize, first_flatten h]

-- Every run of a list that is long enough is full.
theorem length_of_mem_first {size count : Nat} {l : List α} (h : size * count ≤ l.length)
    {run : List α} (hrun : run ∈ first size count l) : run.length = size := by
  induction count generalizing l with
  | zero => simp [first] at hrun
  | succ count ih =>
    rw [Nat.mul_succ] at h
    rcases List.mem_cons.mp hrun with rfl | hrun
    · rw [List.length_take]; omega
    · exact ih (by rw [List.length_drop]; omega) hrun

theorem length_of_mem_whole {size : Nat} {l run : List α} (h : run ∈ whole size l) :
    run.length = size :=
  length_of_mem_first (Nat.mul_div_le l.length size) h

/-- Whole runs of a list that begins with full runs are those runs and then the whole runs of
the remainder. -/
theorem whole_append {size : Nat} (hsize : 0 < size) {a b : List α} (h : size ∣ a.length) :
    whole size (a ++ b) = whole size a ++ whole size b := by
  obtain ⟨m, hm⟩ := h
  have ha : a.length / size = m := by rw [hm, Nat.mul_div_cancel_left m hsize]
  have hab : (a ++ b).length / size = m + b.length / size := by
    rw [List.length_append, hm, Nat.mul_add_div hsize]
  rw [whole, hab, first_add, whole, ha, whole, List.drop_left' hm]
  rw [first_append_of_le (by omega)]

-- A shorter rest at the end has no part in the whole runs.
theorem whole_take {size : Nat} (hsize : 0 < size) (l : List α) :
    whole size (l.take (size * (l.length / size))) = whole size l := by
  have hle : size * (l.length / size) ≤ l.length := Nat.mul_div_le l.length size
  have hlen : (l.take (size * (l.length / size))).length = size * (l.length / size) :=
    List.length_take_of_le hle
  have hfirst := first_append_of_le (Nat.le_of_eq hlen.symm) (l.drop (size * (l.length / size)))
  rw [List.take_append_drop] at hfirst
  rw [whole, hlen, Nat.mul_div_cancel_left _ hsize, ← hfirst, whole]

end TransportStream.Chunks
