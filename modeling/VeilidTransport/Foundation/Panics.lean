import Mathlib.Algebra.Order.Ring.Nat
import Mathlib.Data.List.Basic

/-!
# Computations that may panic

An operation that has no answer outside its range panics there.  A computation of
`Except Panic α` returns a value or panics, and a `do` block panics where its first part
does.  Each partial operation has one lemma, which says where it returns and what.
-/

universe u v

/-- Why a computation panics. -/
inductive Panic where
  /-- The value of an `Option` or a `Result` that has none. -/
  | noValue
  /-- A range that ends behind the end of a slice. -/
  | outOfRange
  /-- A sum that leaves the range of its type. -/
  | overflow
  /-- `panic!`. -/
  | explicit
  deriving DecidableEq

namespace Panic
variable {α : Type u} {β : Type v}

def unwrap (o : Option α) : Except Panic α :=
  match o with
  | some a => .ok a
  | none => .error .noValue

/-- `&data[..n]`. -/
def sliceTo (data : List α) (n : Nat) : Except Panic (List α) :=
  if n ≤ data.length then .ok (data.take n) else .error .outOfRange

/-- `&data[n..]`. -/
def sliceFrom (data : List α) (n : Nat) : Except Panic (List α) :=
  if n ≤ data.length then .ok (data.drop n) else .error .outOfRange

/-- `data.drain(..n)`: what is taken out, and what is left. -/
def drainTo (data : List α) (n : Nat) : Except Panic (List α × List α) :=
  if n ≤ data.length then .ok (data.take n, data.drop n) else .error .outOfRange

/-- `a + b` on words of so many bits. -/
def add (bits a b : Nat) : Except Panic Nat :=
  if a + b < 2 ^ bits then .ok (a + b) else .error .overflow

/-- The computation does not panic. -/
def Returns (x : Except Panic α) : Prop := ∃ a, x = .ok a

@[simp] theorem returns_ok (a : α) : Returns (.ok a) := ⟨a, rfl⟩

@[simp] theorem not_returns_error (p : Panic) : ¬ Returns (.error p : Except Panic α) := by
  rintro ⟨a, ha⟩
  cases ha

@[simp] theorem ok_bind {γ δ : Type u} (a : γ) (f : γ → Except Panic δ) :
    ((Except.ok a : Except Panic γ) >>= f) = f a := rfl

@[simp] theorem error_bind {γ δ : Type u} (p : Panic) (f : γ → Except Panic δ) :
    ((Except.error p : Except Panic γ) >>= f) = .error p := rfl

/-- What goes on without panicking returns exactly where it begins. -/
theorem returns_bind_iff {γ δ : Type u} {x : Except Panic γ} {f : γ → Except Panic δ}
    (hf : ∀ a, Returns (f a)) : Returns (x >>= f) ↔ Returns x := by
  cases x with
  | error p =>
    rw [error_bind]
    exact ⟨fun h => absurd h (not_returns_error p), fun h => absurd h (not_returns_error p)⟩
  | ok a =>
    rw [ok_bind]
    exact ⟨fun _ => returns_ok a, fun _ => hf a⟩

theorem sliceTo_of_le {data : List α} {n : Nat} (h : n ≤ data.length) :
    sliceTo data n = .ok (data.take n) := if_pos h

theorem sliceFrom_of_le {data : List α} {n : Nat} (h : n ≤ data.length) :
    sliceFrom data n = .ok (data.drop n) := if_pos h

theorem drainTo_of_le {data : List α} {n : Nat} (h : n ≤ data.length) :
    drainTo data n = .ok (data.take n, data.drop n) := if_pos h

theorem add_of_lt {bits a b : Nat} (h : a + b < 2 ^ bits) : add bits a b = .ok (a + b) := if_pos h

end Panic
