import VeilidTransport.Republish
import VeilidTransport.Sample

/-!
# An active target exists

The target and its status are stored together where a route has been found, and
`update_target` clears both.  Two steps mark the target as active without looking whether
there is one: a `PING`, which writes the status only, and `update_local_address`, which
stores whatever `to_target` returned; the task of an `Attachment` checks it.
`active_exists_iff` says that in the runs in which these two find a target, and in no other,
an active target exists in every state.
-/

namespace VeilidTransport

open Runs

namespace Republish

/-- If the status of the target is `Active`, there is a target. -/
def ActiveExists (p : Republish) : Prop :=
  ∀ since, p.pool.shared.localTarget.2 = .active since → p.pool.shared.localTarget.1 ≠ none

/-- A `PING` vouches for a target that is there, and `update_local_address` stores one that
`to_target` has found. -/
def Backed (p : Republish) : Action → Prop
  | .advance i _ =>
    (p.pool.tasks[i]? = some .vouch → p.pool.shared.localTarget.1 ≠ none) ∧
      ∀ target, p.pool.tasks[i]? = some (.storeTarget target) → target ≠ none
  | _ => True

variable [KeyCodec]

/-- **One step of a task.** -/
theorem activeExists_next_iff {task : TargetTask} {answer : RouteAnswer} {c : Attachment}
    {ts ts' : List TargetTask} {b : Beat} (h : ActiveExists ⟨⟨c, ts⟩, b⟩) :
    ActiveExists ⟨⟨(task.next answer c).2, ts'⟩, b⟩ ↔
      (task = .vouch → c.localTarget.1 ≠ none) ∧
        ∀ target, task = .storeTarget target → target ≠ none := by
  by_cases hvouch : task = .vouch
  · subst hvouch
    constructor
    · intro hactive
      refine ⟨fun _ => hactive c.now rfl, fun target heq => ?_⟩
      cases heq
    · intro hbacked since _
      exact hbacked.1 rfl
  by_cases hstore : ∃ target, task = .storeTarget target
  · obtain ⟨target, rfl⟩ := hstore
    constructor
    · intro hactive
      refine ⟨fun heq => absurd heq hvouch, fun target' heq => ?_⟩
      cases heq
      exact hactive c.now rfl
    · intro hbacked since _
      exact hbacked.2 target rfl
  · have hbacked : (task = .vouch → c.localTarget.1 ≠ none) ∧
        ∀ target, task = .storeTarget target → target ≠ none :=
      ⟨fun heq => absurd heq hvouch, fun target heq => absurd ⟨target, heq⟩ hstore⟩
    refine iff_of_true (fun since hactive => ?_) hbacked
    rcases TargetTask.next_localTarget answer task c with
      hsame | ⟨target, hsome⟩ | ⟨heq, -⟩ | ⟨target, heq, -⟩ | hnone
    · simp only [hsame] at hactive ⊢
      exact h since hactive
    · simp only [hsome]
      exact Option.some_ne_none target
    · exact absurd heq hvouch
    · exact absurd ⟨target, heq⟩ hstore
    · simp only [hnone] at hactive
      cases hactive

/-- **One step.** -/
theorem activeExists_step_iff {p : Republish} (h : p.ActiveExists) (a : Action) :
    (p.step a).ActiveExists ↔ Backed p a := by
  have hupdated : ∀ b, ActiveExists ⟨updateTarget p.pool, b⟩ := by
    intro b since hactive
    cases hactive
  cases a with
  | attachment state publicInternetReady => exact iff_of_true h trivial
  | ping => exact iff_of_true h trivial
  | updateLocalAddress => exact iff_of_true h trivial
  | updateTarget => exact iff_of_true (hupdated _) trivial
  | checkRecord => exact iff_of_true h trivial
  | tick d => exact iff_of_true h trivial
  | heartbeat =>
    refine iff_of_true ?_ trivial
    unfold step heartbeat
    simp only
    split
    · exact h
    · exact h
    · split
      · exact hupdated _
      · exact h
  | advance i answer =>
    unfold step Backed Pool.advance
    simp only
    cases hi : p.pool.tasks[i]? with
    | none =>
      refine iff_of_true h ⟨fun heq => ?_, fun target heq => ?_⟩
      · cases heq
      · cases heq
    | some task =>
      simp only [Option.some.injEq]
      exact activeExists_next_iff h

/-- **When an active target exists**, in every state of a run of a new listener: as long as
each `PING` finds a target and each `update_local_address` has found one to store. -/
theorem active_exists_iff (now : Instant) (as : List Action) :
    (∀ bs, bs <+: as → (run step (start (newListener now)) bs).ActiveExists) ↔
      Along step Backed (start (newListener now)) as := by
  have hinit : (start (newListener now)).ActiveExists := by
    intro since hactive
    cases hactive
  exact prefixes_iff_along_of_step_iff ActiveExists (fun p a _ h => activeExists_step_iff h a)
    hinit (along_true _ as)

end Republish

open Sample

/-- A node creates its address, and `to_target` fails right after. -/
def Republish.unbackedAddress : List Republish.Action :=
  let created := RouteAnswer.mk (some (AttachmentTasks.sampleSafe 1)) none none .nothing
  .updateLocalAddress :: List.replicate 4 (.advance 0 created)

/-- The target is active, and there is none. -/
theorem Republish.active_without_target :
    ¬ (run Republish.step (start (newListener 0)) unbackedAddress).ActiveExists := by
  intro h
  exact h 0 rfl rfl

end VeilidTransport
