import Mathlib.Data.List.Basic
import Mathlib.Logic.Relation

/-!
# Tasks over a shared state

A `Pool` is a shared state and the tasks that run over it, each one at its own
program counter.  `advance` takes one task one atomic step further, so a list of
task indices is an interleaving.

Where at most one task at a time is inside a critical section, the shared state can
be described as in a program without interleaving: by `idle` while no task is
inside, and by `busy t` while one is inside at `t` (`Guarded`).  Two rules keep it
so, one for a step of a task outside (`Guarded.advance_outside`) and one for a step
that no other task inside can see (`Guarded.advance_alone`).

`Solo` is a task that runs with no other beside it.
-/

universe u v

/-- A shared state, and the program counters of the tasks over it. -/
structure Pool (σ : Type u) (π : Type v) where
  shared : σ
  tasks : List π

namespace Pool
variable {σ : Type u} {π : Type v}

def spawn (p : Pool σ π) (t : π) : Pool σ π := { p with tasks := p.tasks ++ [t] }

/-- The `i`-th task takes a step. -/
def advance (next : π → σ → π × σ) (p : Pool σ π) (i : Nat) : Pool σ π :=
  match p.tasks[i]? with
  | none => p
  | some t => ⟨(next t p.shared).2, p.tasks.set i (next t p.shared).1⟩

/-- What a step leads to: nothing changes, or a task has taken its step. -/
@[elab_as_elim]
theorem advance_rule {motive : Pool σ π → Prop} (next : π → σ → π × σ) (p : Pool σ π) (i : Nat)
    (stays : motive p) (steps : ∀ t, p.tasks[i]? = some t →
      motive ⟨(next t p.shared).2, p.tasks.set i (next t p.shared).1⟩) :
    motive (advance next p i) := by
  unfold advance
  split
  · exact stays
  · next t hi => exact steps t hi

/-- A task that runs alone comes from one program counter and state to another. -/
abbrev Solo (next : π → σ → π × σ) : π × σ → π × σ → Prop :=
  Relation.ReflTransGen fun a b => next a.1 a.2 = b

theorem Solo.step {next : π → σ → π × σ} {t : π} {s : σ} {b c : π × σ} (h : next t s = b)
    (hc : Solo next b c) : Solo next (t, s) c :=
  .head h hc

theorem Solo.of_advance {next : π → σ → π × σ} {t t' : π} {s s' : σ} (n : Nat)
    (h : (List.replicate n 0).foldl (advance next) ⟨s, [t]⟩ = ⟨s', [t']⟩) :
    Solo next (t, s) (t', s') := by
  induction n generalizing t s with
  | zero =>
    obtain ⟨rfl, ht⟩ := (Pool.mk.injEq _ _ _ _).mp h
    obtain ⟨rfl, -⟩ := List.cons.inj ht
    exact .refl
  | succ n ih => exact .head rfl (ih h)

/-- **A run of a task alone is a run of the pool**: only this task takes steps. -/
theorem Solo.advances {next : π → σ → π × σ} {t t' : π} {s s' : σ}
    (h : Solo next (t, s) (t', s')) (ts : List π) :
    ∃ n, (List.replicate n ts.length).foldl (advance next) ⟨s, ts ++ [t]⟩ = ⟨s', ts ++ [t']⟩ := by
  obtain ⟨a, ha⟩ : ∃ a : π × σ, a = (t, s) := ⟨_, rfl⟩
  rw [← ha] at h
  induction h using Relation.ReflTransGen.head_induction_on generalizing t s with
  | refl =>
    obtain ⟨rfl, rfl⟩ := (Prod.mk.injEq _ _ _ _).mp ha
    exact ⟨0, rfl⟩
  | head hstep _ ih =>
    subst ha
    obtain ⟨n, hn⟩ := ih hstep.symm
    refine ⟨n + 1, ?_⟩
    have hadv : advance next ⟨s, ts ++ [t]⟩ ts.length = ⟨(next t s).2, ts ++ [(next t s).1]⟩ := by
      simp [advance]
    rw [List.replicate_succ, List.foldl_cons, hadv]
    exact hn

/-- **What the tasks hold together**, when one of them goes on. -/
theorem flatMap_set_perm {γ : Type*} (f : π → List γ) {l : List π} {i : Nat} {t : π}
    (h : l[i]? = some t) (t' : π) :
    ((l.set i t').flatMap f ++ f t).Perm (l.flatMap f ++ f t') := by
  induction l generalizing i with
  | nil => cases h
  | cons u l ih =>
    cases i with
    | zero =>
      obtain rfl := Option.some.inj h
      simp only [List.set_cons_zero, List.flatMap_cons]
      calc
        (f t' ++ l.flatMap f ++ f u).Perm (f t' ++ (f u ++ l.flatMap f)) := by
          rw [List.append_assoc]
          exact List.perm_append_comm.append_left _
        List.Perm _ (f u ++ l.flatMap f ++ f t') := List.perm_append_comm
    | succ i =>
      simp only [List.set_cons_succ, List.flatMap_cons, List.append_assoc]
      exact (ih h).append_left _

/-- A critical section: which tasks are inside, and what the shared state is like. -/
structure Section (σ : Type u) (π : Type v) where
  inside : π → Prop
  /-- The shared state while no task is inside. -/
  idle : σ → Prop
  /-- The shared state while this task is inside. -/
  busy : π → σ → Prop

/-- At most one task is inside, and the shared state is as the section says. -/
structure Guarded (S : Section σ π) (p : Pool σ π) : Prop where
  lone : ∀ (i j : Nat) (t u : π), p.tasks[i]? = some t → p.tasks[j]? = some u →
    S.inside t → S.inside u → i = j
  idle : (∀ t ∈ p.tasks, ¬ S.inside t) → S.idle p.shared
  busy : ∀ t ∈ p.tasks, S.inside t → S.busy t p.shared

variable {S : Section σ π} {p : Pool σ π} {i : Nat} {t t' : π} {s' : σ}

/-- A task of the list is the one replaced or another one of the old list. -/
theorem getElem?_set_cases {l : List π} {j : Nat} {u : π} (h : (l.set i t)[j]? = some u) :
    (j = i ∧ u = t) ∨ (j ≠ i ∧ l[j]? = some u) := by
  rw [List.getElem?_set] at h
  by_cases hj : i = j
  · rw [if_pos hj] at h
    split at h
    · exact .inl ⟨hj.symm, (Option.some.inj h).symm⟩
    · cases h
  · rw [if_neg hj] at h
    exact .inr ⟨fun h' => hj h'.symm, h⟩

theorem Guarded.spawn (h : p.Guarded S) (ht : ¬ S.inside t) : (p.spawn t).Guarded S := by
  have hold : ∀ (j : Nat) (u : π), (p.spawn t).tasks[j]? = some u → S.inside u →
      p.tasks[j]? = some u := by
    intro j u hu hin
    rw [Pool.spawn] at hu
    by_cases hj : j < p.tasks.length
    · rwa [List.getElem?_append_left hj] at hu
    · rw [List.getElem?_append_right (by omega)] at hu
      obtain rfl := List.mem_singleton.mp (List.mem_of_getElem? hu)
      exact absurd hin ht
  refine ⟨?_, ?_, ?_⟩
  · intro j k u v hu hv hin hin'
    exact h.lone j k u v (hold j u hu hin) (hold k v hv hin') hin hin'
  · intro hout
    exact h.idle fun u hu => hout u (List.mem_append_left _ hu)
  · intro u hu hin
    obtain ⟨j, hj⟩ := List.mem_iff_getElem?.mp hu
    exact h.busy u (List.mem_of_getElem? (hold j u hj hin)) hin

/-- **A step outside**: a task that is not inside, before or after, may change the
shared state in ways no task inside can see. -/
theorem Guarded.advance_outside (h : p.Guarded S) (hi : p.tasks[i]? = some t)
    (ht : ¬ S.inside t) (ht' : ¬ S.inside t') (hidle : S.idle p.shared → S.idle s')
    (hbusy : ∀ u, S.inside u → S.busy u p.shared → S.busy u s') :
    Guarded S ⟨s', p.tasks.set i t'⟩ := by
  have hold : ∀ (j : Nat) (u : π), (p.tasks.set i t')[j]? = some u → S.inside u →
      p.tasks[j]? = some u := by
    intro j u hu hin
    obtain ⟨-, rfl⟩ | ⟨-, hu⟩ := getElem?_set_cases hu
    · exact absurd hin ht'
    · exact hu
  refine ⟨?_, ?_, ?_⟩
  · intro j k u v hu hv hin hin'
    exact h.lone j k u v (hold j u hu hin) (hold k v hv hin') hin hin'
  · intro hout
    refine hidle (h.idle fun u hu hin => ?_)
    obtain ⟨j, hj⟩ := List.mem_iff_getElem?.mp hu
    by_cases hji : j = i
    · subst hji
      rw [hi] at hj
      obtain rfl := Option.some.inj hj
      exact ht hin
    · refine hout u (List.mem_iff_getElem?.mpr ⟨j, ?_⟩) hin
      rw [List.getElem?_set_ne (fun h' => hji h'.symm)]
      exact hj
  · intro u hu hin
    obtain ⟨j, hj⟩ := List.mem_iff_getElem?.mp hu
    exact hbusy u hin (h.busy u (List.mem_of_getElem? (hold j u hj hin)) hin)

/-- A change of the shared state that no task makes, and no task inside can see. -/
theorem Guarded.of_shared (h : p.Guarded S) (hidle : S.idle p.shared → S.idle s')
    (hbusy : ∀ u, S.inside u → S.busy u p.shared → S.busy u s') : Guarded S ⟨s', p.tasks⟩ :=
  ⟨h.lone, fun hout => hidle (h.idle hout), fun u hu hin => hbusy u hin (h.busy u hu hin)⟩

/-- **A step alone**: the task is the one inside, or no task is. -/
theorem Guarded.advance_alone (h : p.Guarded S) (hi : p.tasks[i]? = some t)
    (halone : S.inside t ∨ ∀ u ∈ p.tasks, ¬ S.inside u)
    (hbusy : S.inside t' → S.busy t' s') (hidle : ¬ S.inside t' → S.idle s') :
    Guarded S ⟨s', p.tasks.set i t'⟩ := by
  have hout : ∀ (j : Nat) (u : π), (p.tasks.set i t')[j]? = some u → S.inside u →
      j = i ∧ u = t' := by
    intro j u hu hin
    obtain hu | ⟨hj, hu⟩ := getElem?_set_cases hu
    · exact hu
    · rcases halone with ht | hnone
      · exact absurd (h.lone j i u t hu hi hin ht) hj
      · exact absurd hin (hnone u (List.mem_of_getElem? hu))
  refine ⟨?_, ?_, ?_⟩
  · intro j k u v hu hv hin hin'
    rw [(hout j u hu hin).1, (hout k v hv hin').1]
  · intro hnone
    refine hidle (hnone t' (List.mem_iff_getElem?.mpr ⟨i, ?_⟩))
    rw [List.getElem?_set_self (List.getElem?_eq_some_iff.mp hi).1]
  · intro u hu hin
    obtain ⟨j, hj⟩ := List.mem_iff_getElem?.mp hu
    obtain ⟨-, rfl⟩ := hout j u hj hin
    exact hbusy hin

end Pool
