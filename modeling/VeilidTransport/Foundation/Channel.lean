import Mathlib.Data.List.Basic
import Mathlib.Logic.Relation
import Mathlib.Order.Defs.PartialOrder

/-!
# First-in first-out channels

The abstract model of a reliable ordered stream: everything put in so far, and
how many entries have come out.  An entry comes out once and in the order it
was put in, so what has come out is always a prefix of what was put in.

`Step` is the channel's only behaviour, one entry put in or one taken out;
`reaches_iff_le` says that the states it leads to are exactly the later ones in
the order `c ≤ d` (the log of `d` extends that of `c` and its cursor is not
behind), so an implementation refines the channel as soon as its abstraction
never goes back in that order.
-/

universe u

/-- A first-in first-out channel: the entries put in so far and how many of
them have come out. -/
@[ext] structure Channel (α : Type u) where
  log : List α
  cursor : Nat
  cursor_le : cursor ≤ log.length

namespace Channel
variable {α : Type u}

/-- The channel nothing was put into. -/
def empty : Channel α := ⟨[], 0, Nat.le_refl 0⟩

/-- What has come out, in order. -/
def delivered (c : Channel α) : List α := c.log.take c.cursor

/-- One entry is put in. -/
def put (c : Channel α) (a : α) : Channel α :=
  ⟨c.log ++ [a], c.cursor, by have := c.cursor_le; simp; omega⟩

/-- The oldest entry still inside comes out. -/
def get (c : Channel α) (h : c.cursor < c.log.length) : Channel α :=
  ⟨c.log, c.cursor + 1, h⟩

/-- The behaviour of a channel. -/
inductive Step : Channel α → Channel α → Prop where
  | put (c : Channel α) (a : α) : Step c (c.put a)
  | get (c : Channel α) (h : c.cursor < c.log.length) : Step c (c.get h)

/-- A run of the channel. -/
abbrev Reaches : Channel α → Channel α → Prop := Relation.ReflTransGen Step

instance : Preorder (Channel α) where
  le c d := c.log <+: d.log ∧ c.cursor ≤ d.cursor
  le_refl _ := ⟨List.prefix_rfl, Nat.le_refl _⟩
  le_trans _ _ _ h k := ⟨h.1.trans k.1, Nat.le_trans h.2 k.2⟩

theorem Step.le {c d : Channel α} (h : Step c d) : c ≤ d := by
  cases h with
  | put a => exact ⟨List.prefix_append _ _, Nat.le_refl _⟩
  | get h => exact ⟨List.prefix_rfl, Nat.le_succ _⟩

/-- Putting in a list of entries is a run. -/
theorem reaches_log (c : Channel α) (as : List α) :
    Reaches c ⟨c.log ++ as, c.cursor, by have := c.cursor_le; simp; omega⟩ := by
  induction as generalizing c with
  | nil =>
    have : c = ⟨c.log ++ [], c.cursor, by have := c.cursor_le; simp; omega⟩ := by ext <;> simp
    exact this ▸ .refl
  | cons a as ih =>
    refine .head (.put c a) ?_
    have := ih (c.put a)
    simpa [put] using this

/-- Taking out entries up to a later cursor is a run. -/
theorem reaches_cursor (c : Channel α) (n : Nat) (h : c.cursor ≤ n) (hn : n ≤ c.log.length) :
    Reaches c ⟨c.log, n, hn⟩ := by
  obtain ⟨d, rfl⟩ := Nat.exists_eq_add_of_le h
  induction d with
  | zero => exact .refl
  | succ d ih =>
    refine (ih (by omega) (by omega)).tail ?_
    exact .get ⟨c.log, c.cursor + d, by omega⟩ (by simp only; omega)

/-- **The states a run leads to are the later ones.** -/
theorem reaches_iff_le {c d : Channel α} : Reaches c d ↔ c ≤ d := by
  constructor
  · intro h
    induction h with
    | refl => exact le_refl c
    | tail _ hs ih => exact le_trans ih hs.le
  · rintro ⟨⟨z, hz⟩, hcur⟩
    obtain ⟨log, cursor, hle⟩ := d
    subst hz
    exact (reaches_log c z).trans (reaches_cursor ⟨c.log ++ z, c.cursor, _⟩ cursor hcur hle)

end Channel
