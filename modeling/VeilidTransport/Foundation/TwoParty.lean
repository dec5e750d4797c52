import Mathlib.Logic.Function.Basic

/-!
# Two parties

A system of two parties holds one value for each `Side`.  A fact about one party
and its peer is stated once, for a side `d` and `d.other`.
-/

universe u

inductive Side where
  | left
  | right
  deriving DecidableEq

namespace Side

def other : Side → Side
  | left => right
  | right => left

@[simp] theorem other_other (d : Side) : d.other.other = d := by cases d <;> rfl

theorem other_ne (d : Side) : d.other ≠ d := by cases d <;> decide

theorem ne_other (d : Side) : d ≠ d.other := (other_ne d).symm

theorem eq_or_eq_other (d e : Side) : e = d ∨ e = d.other := by
  cases d <;> cases e <;> simp [other]

end Side

/-- One value for each side. -/
structure Pair (α : Type u) where
  left : α
  right : α

namespace Pair
variable {α : Type u}

def get (p : Pair α) : Side → α
  | .left => p.left
  | .right => p.right

def set (p : Pair α) (d : Side) (a : α) : Pair α :=
  match d with
  | .left => { p with left := a }
  | .right => { p with right := a }

theorem get_left (p : Pair α) : p.get .left = p.left := rfl

theorem get_right (p : Pair α) : p.get .right = p.right := rfl

@[simp] theorem get_set_self (p : Pair α) (d : Side) (a : α) : (p.set d a).get d = a := by
  cases d <;> rfl

@[simp] theorem get_set_other (p : Pair α) (d : Side) (a : α) :
    (p.set d a).get d.other = p.get d.other := by
  cases d <;> rfl

@[simp] theorem set_get (p : Pair α) (d : Side) : p.set d (p.get d) = p := by
  cases d <;> rfl

@[simp] theorem set_set (p : Pair α) (d : Side) (a b : α) : (p.set d a).set d b = p.set d b := by
  cases d <;> rfl

/-- The value `a` at the side `d`, and `b` at the other. -/
def of (d : Side) (a b : α) : Pair α :=
  match d with
  | .left => ⟨a, b⟩
  | .right => ⟨b, a⟩

@[simp] theorem get_of (d : Side) (a b : α) : (of d a b).get d = a := by cases d <;> rfl

@[simp] theorem get_of_other (d : Side) (a b : α) : (of d a b).get d.other = b := by
  cases d <;> rfl

@[simp] theorem set_of (d : Side) (a b c : α) : (of d a b).set d c = of d c b := by
  cases d <;> rfl

theorem of_other (d : Side) (a b : α) : of d.other b a = of d a b := by cases d <;> rfl

theorem of_get (p : Pair α) (d : Side) : of d (p.get d) (p.get d.other) = p := by cases d <;> rfl

/-- What holds of every side after one has changed. -/
theorem set_forall {p : Pair α} {d : Side} {a : α} {P : Side → α → Prop}
    (hself : P d a) (hother : P d.other (p.get d.other)) (e : Side) :
    P e ((p.set d a).get e) := by
  rcases Side.eq_or_eq_other d e with rfl | rfl
  · rw [get_set_self]
    exact hself
  · rw [get_set_other]
    exact hother

/-- What holds between every side and its peer after one has changed. -/
theorem set_forall_peer {p : Pair α} {d : Side} {a : α} {R : Side → α → α → Prop}
    (hself : R d a (p.get d.other)) (hother : R d.other (p.get d.other) a) (e : Side) :
    R e ((p.set d a).get e) ((p.set d a).get e.other) := by
  rcases Side.eq_or_eq_other d e with rfl | rfl
  · rw [get_set_self, get_set_other]
    exact hself
  · rw [get_set_other, Side.other_other, get_set_self]
    exact hother

end Pair
