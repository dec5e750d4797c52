import Mathlib.Data.List.Basic

/-!
# The entries of a list that pass a test

`l.filter p` keeps the entries that pass `p`, and the `i`-th entry of `l`, if it passes, is at
`l.countPBefore p i` there.  The lemmas say what a change of `l` at `i` is for the list of the
entries that pass.
-/

namespace Selected

variable {α : Type*} {p : α → Bool} {l : List α} {i : Nat} {a : α}

theorem getElem?_filter (h : l[i]? = some a) (ha : p a = true) :
    (l.filter p)[l.countPBefore p i]? = some a := by
  induction l generalizing i with
  | nil => cases h
  | cons b l ih =>
    cases i with
    | zero =>
      obtain rfl := Option.some.inj h
      rw [List.countPBefore_zero, List.filter_cons_of_pos ha]
      rfl
    | succ i =>
      rw [List.countPBefore_cons_succ]
      by_cases hb : p b = true
      · rw [if_pos hb, List.filter_cons_of_pos hb]
        exact ih h
      · rw [if_neg hb, List.filter_cons_of_neg hb]
        exact ih h

/-- An entry is replaced by one that passes as well. -/
theorem filter_set (h : l[i]? = some a) (ha : p a = true) {b : α} (hb : p b = true) :
    (l.set i b).filter p = (l.filter p).set (l.countPBefore p i) b := by
  induction l generalizing i with
  | nil => cases h
  | cons c l ih =>
    cases i with
    | zero =>
      obtain rfl := Option.some.inj h
      rw [List.set_cons_zero, List.filter_cons_of_pos hb, List.filter_cons_of_pos ha,
        List.countPBefore_zero, List.set_cons_zero]
    | succ i =>
      rw [List.set_cons_succ, List.countPBefore_cons_succ]
      by_cases hc : p c = true
      · rw [if_pos hc, List.filter_cons_of_pos hc, List.filter_cons_of_pos hc, ih h,
          List.set_cons_succ]
      · rw [if_neg hc, List.filter_cons_of_neg hc, List.filter_cons_of_neg hc, ih h]

/-- An entry that does not pass is replaced by another one. -/
theorem filter_set_of_neg (h : l[i]? = some a) (ha : p a = false) {b : α} (hb : p b = false) :
    (l.set i b).filter p = l.filter p := by
  induction l generalizing i with
  | nil => cases h
  | cons c l ih =>
    cases i with
    | zero =>
      obtain rfl := Option.some.inj h
      rw [List.set_cons_zero, List.filter_cons_of_neg (by rw [hb]; exact Bool.false_ne_true),
        List.filter_cons_of_neg (by rw [ha]; exact Bool.false_ne_true)]
    | succ i => rw [List.set_cons_succ, List.filter_cons, List.filter_cons, ih h]

theorem filter_eraseIdx (h : l[i]? = some a) (ha : p a = true) :
    (l.eraseIdx i).filter p = (l.filter p).eraseIdx (l.countPBefore p i) := by
  induction l generalizing i with
  | nil => cases h
  | cons c l ih =>
    cases i with
    | zero =>
      obtain rfl := Option.some.inj h
      rw [List.eraseIdx_cons_zero, List.filter_cons_of_pos ha, List.countPBefore_zero,
        List.eraseIdx_cons_zero]
    | succ i =>
      rw [List.eraseIdx_cons_succ, List.countPBefore_cons_succ]
      by_cases hc : p c = true
      · rw [if_pos hc, List.filter_cons_of_pos hc, List.filter_cons_of_pos hc, ih h,
          List.eraseIdx_cons_succ]
      · rw [if_neg hc, List.filter_cons_of_neg hc, List.filter_cons_of_neg hc, ih h]

theorem filter_eraseIdx_of_neg (h : l[i]? = some a) (ha : p a = false) :
    (l.eraseIdx i).filter p = l.filter p := by
  induction l generalizing i with
  | nil => cases h
  | cons c l ih =>
    cases i with
    | zero =>
      obtain rfl := Option.some.inj h
      rw [List.eraseIdx_cons_zero, List.filter_cons_of_neg (by rw [ha]; exact Bool.false_ne_true)]
    | succ i => rw [List.eraseIdx_cons_succ, List.filter_cons, List.filter_cons, ih h]

theorem countPBefore_append (h : i ≤ l.length) (m : List α) :
    (l ++ m).countPBefore p i = l.countPBefore p i := by
  rw [List.countPBefore_eq_countP_take, List.countPBefore_eq_countP_take,
    List.take_append_of_le_length h]

theorem countPBefore_length : l.countPBefore p l.length = (l.filter p).length := by
  rw [List.countPBefore_length, List.countP_eq_length_filter]

/-- A change that does not show to the test. -/
theorem countPBefore_set {j : Nat} (h : l[j]? = some a) {b : α} (hb : p b = p a) :
    (l.set j b).countPBefore p i = l.countPBefore p i := by
  induction l generalizing i j with
  | nil => cases h
  | cons c l ih =>
    cases i with
    | zero => rw [List.countPBefore_zero, List.countPBefore_zero]
    | succ i =>
      cases j with
      | zero =>
        obtain rfl := Option.some.inj h
        rw [List.set_cons_zero, List.countPBefore_cons_succ, List.countPBefore_cons_succ, hb]
      | succ j =>
        rw [List.set_cons_succ, List.countPBefore_cons_succ, List.countPBefore_cons_succ, ih h]

/-- Two entries that pass are at different places. -/
theorem countPBefore_inj {j : Nat} {b : α} (hi : l[i]? = some a) (ha : p a = true)
    (hj : l[j]? = some b) (hb : p b = true) (h : l.countPBefore p i = l.countPBefore p j) :
    i = j := by
  obtain ⟨hlt, rfl⟩ := List.getElem?_eq_some_iff.mp hi
  obtain ⟨hlt', rfl⟩ := List.getElem?_eq_some_iff.mp hj
  rw [← List.findIdxNth_countPBefore_of_lt_length_of_pos ha, h,
    List.findIdxNth_countPBefore_of_lt_length_of_pos hb]

end Selected
