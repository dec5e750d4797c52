import Mathlib.Order.Basic

/-!
# Runs of a deterministic machine

A machine is a total step function `step : σ → α → σ`: the state `σ`, and an
action `α` that also carries every choice the environment makes (which message
arrives, how late the clock is, whether a call fails).  A disabled action leaves
the state alone, so a run is any list of actions and a reachable state is
`run step s as` for some `as`.

Four rules carry every result about runs.

* `invariant`: what every step keeps, every run keeps.
* `invariant_along`: what every step meeting a condition `ok` keeps, every run
  whose steps all meet it (`Along`) keeps.
* `le_run`: a measure that no step lowers is not lowered by a run.
* `prefixes_iff_along`: where a condition on the steps keeps the invariant, and only
  the condition keeps the states good, the runs with good states only are the runs
  along the condition; `prefixes_iff_along_of_fair` is this among fair runs, and
  `prefixes_iff_along_of_step_iff` where one step decides it.

`Reaches` says what some run leads to; its runs are put together with `Reaches.trans`.
-/

namespace Runs

variable {σ α : Type*} (step : σ → α → σ)

/-- The state reached from `s` by taking the actions `as` in order. -/
def run (s : σ) (as : List α) : σ := as.foldl step s

@[simp] theorem run_nil (s : σ) : run step s [] = s := rfl

@[simp] theorem run_cons (s : σ) (a : α) (as : List α) :
    run step s (a :: as) = run step (step s a) as := rfl

@[simp] theorem run_append (s : σ) (as bs : List α) :
    run step s (as ++ bs) = run step (run step s as) bs := List.foldl_append

/-- Every step of the run from `s` meets `ok` in the state it is taken in. -/
def Along (ok : σ → α → Prop) : σ → List α → Prop
  | _, [] => True
  | s, a :: as => ok s a ∧ Along ok (step s a) as

instance decidableAlong {ok : σ → α → Prop} [∀ s a, Decidable (ok s a)] :
    ∀ s as, Decidable (Along step ok s as)
  | _, [] => inferInstanceAs (Decidable True)
  | s, a :: as =>
    have : Decidable (Along step ok (step s a) as) := decidableAlong _ as
    inferInstanceAs (Decidable (ok s a ∧ Along step ok (step s a) as))

variable {step}

@[simp] theorem along_nil {ok : σ → α → Prop} {s : σ} : Along step ok s [] := trivial

@[simp] theorem along_cons {ok : σ → α → Prop} {s : σ} {a : α} {as : List α} :
    Along step ok s (a :: as) ↔ ok s a ∧ Along step ok (step s a) as := Iff.rfl

@[simp] theorem along_append {ok : σ → α → Prop} {s : σ} {as bs : List α} :
    Along step ok s (as ++ bs) ↔ Along step ok s as ∧ Along step ok (run step s as) bs := by
  induction as generalizing s with
  | nil => simp
  | cons a as ih => simp [ih, and_assoc]

/-- **What every step keeps, every run keeps.** -/
theorem invariant {Inv : σ → Prop} (hstep : ∀ s a, Inv s → Inv (step s a))
    {s : σ} (h : Inv s) (as : List α) : Inv (run step s as) := by
  induction as generalizing s with
  | nil => exact h
  | cons a as ih => exact ih (hstep s a h)

/-- **What every step meeting `ok` keeps, every run along `ok` keeps.** -/
theorem invariant_along {Inv : σ → Prop} {ok : σ → α → Prop}
    (hstep : ∀ s a, ok s a → Inv s → Inv (step s a))
    {s : σ} (h : Inv s) {as : List α} (hok : Along step ok s as) : Inv (run step s as) := by
  induction as generalizing s with
  | nil => exact h
  | cons a as ih => exact ih (hstep s a hok.1 h) hok.2

/-- A measure that no step lowers is not lowered by a run. -/
theorem le_run {ι : Type*} [Preorder ι] (f : σ → ι) (hmono : ∀ s a, f s ≤ f (step s a))
    (s : σ) (as : List α) : f s ≤ f (run step s as) := by
  induction as generalizing s with
  | nil => exact le_refl _
  | cons a as ih => exact le_trans (hmono s a) (ih _)

/-- Two conditions on the steps are one. -/
theorem along_and {ok ok' : σ → α → Prop} {s : σ} {as : List α} :
    Along step (fun s a => ok s a ∧ ok' s a) s as ↔ Along step ok s as ∧ Along step ok' s as := by
  induction as generalizing s with
  | nil => simp
  | cons a as ih =>
    rw [along_cons, along_cons, along_cons, ih]
    exact and_and_and_comm

theorem along_true (s : σ) (as : List α) : Along step (fun _ _ => True) s as := by
  induction as generalizing s with
  | nil => exact trivial
  | cons a as ih => exact ⟨trivial, ih (step s a)⟩

/-- A condition on the actions alone. -/
theorem along_const {ok : α → Prop} {s : σ} {as : List α} :
    Along step (fun _ a => ok a) s as ↔ ∀ a ∈ as, ok a := by
  induction as generalizing s with
  | nil => simp
  | cons a as ih => rw [along_cons, ih, List.forall_mem_cons]

/-- **The fair runs that stay good are those along `ok`**, if in fair steps `ok` keeps the
invariant, the invariant is good, and a step that leads to a good state meets `ok`. -/
theorem prefixes_iff_along_of_fair {Inv good : σ → Prop} {fair ok : σ → α → Prop}
    (hgood : ∀ s, Inv s → good s) (hstep : ∀ s a, fair s a → ok s a → Inv s → Inv (step s a))
    (hok : ∀ s a, fair s a → Inv s → good (step s a) → ok s a) {s : σ} (h : Inv s) {as : List α}
    (hfair : Along step fair s as) :
    (∀ bs, bs <+: as → good (run step s bs)) ↔ Along step ok s as := by
  constructor
  · intro hall
    induction as generalizing s with
    | nil => exact trivial
    | cons a as ih =>
      have ha : ok s a :=
        hok s a hfair.1 h (hall [a] ((List.prefix_cons_inj a).mpr List.nil_prefix))
      exact ⟨ha, ih (hstep s a hfair.1 ha h) hfair.2 fun bs hbs =>
        hall (a :: bs) ((List.prefix_cons_inj a).mpr hbs)⟩
  · rintro halong bs ⟨cs, rfl⟩
    have hboth : Along step (fun s a => fair s a ∧ ok s a) s bs :=
      along_and.mpr ⟨(along_append.mp hfair).1, (along_append.mp halong).1⟩
    exact hgood _ (invariant_along (fun s a h => hstep s a h.1 h.2) h hboth)

/-- **The runs that stay good are the runs along `ok`**, if `ok` keeps the invariant, the
invariant is good, and a step that leads to a good state meets `ok`. -/
theorem prefixes_iff_along {Inv good : σ → Prop} {ok : σ → α → Prop}
    (hgood : ∀ s, Inv s → good s) (hstep : ∀ s a, ok s a → Inv s → Inv (step s a))
    (hok : ∀ s a, Inv s → good (step s a) → ok s a) {s : σ} (h : Inv s) (as : List α) :
    (∀ bs, bs <+: as → good (run step s bs)) ↔ Along step ok s as := by
  exact prefixes_iff_along_of_fair hgood (fun s a _ => hstep s a) (fun s a _ => hok s a) h
    (along_true s as)

/-- Where the good states are an invariant by themselves: one step keeps the state good
exactly if it meets `ok`. -/
theorem prefixes_iff_along_of_step_iff (good : σ → Prop) {fair ok : σ → α → Prop}
    (hiff : ∀ s a, fair s a → good s → (good (step s a) ↔ ok s a)) {s : σ} (h : good s)
    {as : List α} (hfair : Along step fair s as) :
    (∀ bs, bs <+: as → good (run step s bs)) ↔ Along step ok s as :=
  prefixes_iff_along_of_fair (fun _ h => h) (fun s a hf hok h => (hiff s a hf h).mpr hok)
    (fun s a hf h hgood => (hiff s a hf h).mp hgood) h hfair

/-! ## What some run leads to -/

/-- Some run from `s` whose actions all meet `ok` leads to `t`. -/
def Reaches (step : σ → α → σ) (ok : α → Prop) (s t : σ) : Prop :=
  ∃ as, (∀ a ∈ as, ok a) ∧ run step s as = t

theorem Reaches.refl {ok : α → Prop} (s : σ) : Reaches step ok s s :=
  ⟨[], fun _ h => absurd h List.not_mem_nil, rfl⟩

theorem Reaches.single {ok : α → Prop} (s : σ) {a : α} (h : ok a) :
    Reaches step ok s (step s a) :=
  ⟨[a], fun _ hb => List.mem_singleton.mp hb ▸ h, rfl⟩

theorem Reaches.trans {ok : α → Prop} {s t u : σ} (h : Reaches step ok s t)
    (k : Reaches step ok t u) : Reaches step ok s u := by
  obtain ⟨as, has, rfl⟩ := h
  obtain ⟨bs, hbs, rfl⟩ := k
  refine ⟨as ++ bs, fun a ha => ?_, run_append step s as bs⟩
  exact (List.mem_append.mp ha).elim (has a) (hbs a)

/-- What every step meeting `ok` keeps is kept on the way. -/
theorem Reaches.invariant {Inv : σ → Prop} {ok : α → Prop}
    (hstep : ∀ s a, ok a → Inv s → Inv (step s a)) {s t : σ} (hr : Reaches step ok s t)
    (h : Inv s) : Inv t := by
  obtain ⟨as, has, rfl⟩ := hr
  exact invariant_along hstep h (along_const.mpr has)

end Runs
