import VeilidTransport.Republish
import VeilidTransport.Sample

/-!
# Republishing while republishing

`update_target` marks the target as republishing, and `should_update_target` lets such a
mark stand for ten seconds.  The mark, and what a `PING` or an attachment writes over it,
are never older than an update still under way (`Marked`), so for ten seconds after an
update was started neither timer of the target fires.  But the other arms do not look at the
mark: an address whose DHT record has no status, a target that is not set or has no status,
and a record not seen for thirty seconds under an active target.

`republishes_apart_iff` says that in the runs in which the heartbeat decides with none of
these while an update of the last ten seconds is under way, and in no other, any two updates
under way were started more than ten seconds apart.
-/

namespace VeilidTransport

open Runs

/-- The status was written at this time or later, if it has a time. -/
def TargetStatus.NotBefore (since : Instant) : TargetStatus → Prop
  | .none => True
  | .republishing t => since ≤ t
  | .active t => since ≤ t

namespace Republish

/-- When the updates under way were started. -/
def pending (p : Republish) : List Instant := p.pool.tasks.filterMap TargetTask.since

/-- Any two updates under way were started more than ten seconds apart. -/
def Apart (p : Republish) : Prop := p.pending.Pairwise fun s t => s + secs 10 < t

/-- An update of the last ten seconds is under way. -/
def Recent (p : Republish) : Prop := ∃ since ∈ p.pending, p.pool.shared.now ≤ since + secs 10

/-- Nothing but a timer of the target asks for an update: the DHT record is not outdated, and
a node with a safe address has a target with a status. -/
def Settled (first : AddressReading) (second : TargetReading) : Prop :=
  dhtOutdated first.localAddress first.status first.time = false ∧
    (hasSafeAddress first.localAddress = true →
      second.localTarget.1 ≠ none ∧ second.localTarget.2 ≠ .none)

/-- The heartbeat decides on settled readings while a recent update is under way. -/
def Patient (p : Republish) : Action → Prop
  | .heartbeat => ∀ first second, p.beat = .decide first second → p.Recent → Settled first second
  | _ => True

/-- `update_target` is started by the heartbeat only. -/
def ByHeartbeat : Action → Prop
  | .updateTarget => False
  | _ => True

/-- What the heartbeat has read is not older than the updates under way. -/
def ReadAfter (p : Republish) : Prop :=
  match p.beat with
  | .readAddress => True
  | .readTarget _ => True
  | .decide _ second => second.time ≤ p.pool.shared.now ∧
      ∀ since ∈ p.pending, second.localTarget.2.NotBefore since

/-- **The invariant**: an update under way is in the past, and the status and the reading of
it were written after its mark. -/
structure Marked (p : Republish) : Prop where
  past : ∀ since ∈ p.pending, since ≤ p.pool.shared.now
  status : ∀ since ∈ p.pending, p.pool.shared.localTarget.2.NotBefore since
  reading : p.ReadAfter

/-! ## The decision -/

/-- **Where a recent update is under way, the timers of the target do not fire.** -/
theorem shouldUpdate_eq_false_iff {p : Republish} {first : AddressReading}
    {second : TargetReading} (h : p.Marked) (hbeat : p.beat = .decide first second)
    (hrecent : p.Recent) : shouldUpdate first second = false ↔ Settled first second := by
  obtain ⟨since, hmem, hnow⟩ := hrecent
  have hread := h.reading
  rw [ReadAfter, hbeat] at hread
  obtain ⟨htime, hafter⟩ := hread
  have hstatus := hafter since hmem
  have h1030 : secs 10 ≤ secs 30 := by decide
  unfold shouldUpdate Settled targetOutdated
  rw [Bool.or_eq_false_iff]
  refine and_congr_right fun _ => ?_
  cases hs : second.localTarget.2 with
  | none => cases hasSafeAddress first.localAddress <;> simp
  | republishing t =>
    rw [hs] at hstatus
    have hle : since ≤ t := hstatus
    have hquiet : ¬ t + secs 10 < second.time :=
      Nat.not_lt.mpr (htime.trans (hnow.trans (Nat.add_le_add_right hle _)))
    cases hasSafeAddress first.localAddress <;> simp [hquiet, Option.isSome_iff_ne_none]
  | active t =>
    rw [hs] at hstatus
    have hle : since ≤ t := hstatus
    have hquiet : ¬ t + secs 30 < second.time :=
      Nat.not_lt.mpr (htime.trans (hnow.trans (Nat.add_le_add hle h1030)))
    cases hasSafeAddress first.localAddress <;> simp [hquiet, Option.isSome_iff_ne_none]

/-! ## One step -/

/-- The updates under way after a step of a task are some of those before. -/
theorem filterMap_set_sublist {α β : Type} {f : α → Option β} {l : List α} {i : Nat} {t t' : α}
    (hi : l[i]? = some t) (h : f t' = f t ∨ f t' = none) :
    ((l.set i t').filterMap f).Sublist (l.filterMap f) := by
  induction l generalizing i with
  | nil => cases hi
  | cons u l ih =>
    cases i with
    | zero =>
      obtain rfl := Option.some.inj hi
      rw [List.set_cons_zero]
      rcases h with h | h
      · rw [List.filterMap_cons, List.filterMap_cons, h]
      · rw [List.filterMap_cons_none h]
        exact (List.sublist_cons_self u l).filterMap f
    | succ i =>
      rw [List.set_cons_succ, List.filterMap_cons, List.filterMap_cons]
      cases f u with
      | none => exact ih hi
      | some b => exact (ih hi).cons_cons b

variable [KeyCodec]

omit [KeyCodec] in
/-- What the invariant says, where no update is started and the time does not go back. -/
theorem Marked.of_sublist {p q : Republish} (h : p.Marked) (hbeat : q.beat = p.beat)
    (hpending : q.pending.Sublist p.pending) (hnow : p.pool.shared.now ≤ q.pool.shared.now)
    (hstatus : ∀ since ∈ p.pending, q.pool.shared.localTarget.2.NotBefore since) :
    q.Marked := by
  refine ⟨fun since hs => (h.past since (hpending.subset hs)).trans hnow,
    fun since hs => hstatus since (hpending.subset hs), ?_⟩
  have hread := h.reading
  unfold ReadAfter at hread ⊢
  rw [hbeat]
  split
  · trivial
  · trivial
  · next first second hb =>
    rw [hb] at hread
    exact ⟨hread.1.trans hnow, fun since hs => hread.2 since (hpending.subset hs)⟩

omit [KeyCodec] in
/-- A task is spawned that is no update. -/
theorem pending_spawn {p : Pool Attachment TargetTask} {b : Beat} {task : TargetTask}
    (h : task.since = none) : pending ⟨p.spawn task, b⟩ = pending ⟨p, b⟩ := by
  unfold pending Pool.spawn
  rw [List.filterMap_append, List.filterMap_cons_none h, List.filterMap_nil, List.append_nil]

/-- A step of a task starts no update. -/
theorem pending_advance (p : Republish) (i : Nat) (answer : RouteAnswer) :
    (p.step (.advance i answer)).pending.Sublist p.pending := by
  unfold step pending Pool.advance
  simp only
  split
  · exact List.Sublist.refl _
  · next task hi => exact filterMap_set_sublist hi (TargetTask.next_since answer task _)

/-- A step of a task writes no status but of now. -/
theorem marked_advance {p : Republish} (h : p.Marked) (i : Nat) (answer : RouteAnswer) :
    (p.step (.advance i answer)).Marked := by
  cases hi : p.pool.tasks[i]? with
  | none =>
    have hsame : p.step (.advance i answer) = p := by
      unfold step Pool.advance
      simp only [hi]
    rw [hsame]
    exact h
  | some task =>
    have hstep : (p.step (.advance i answer)).pool.shared = (task.next answer p.pool.shared).2 := by
      unfold step Pool.advance
      simp only [hi]
    have hnow : (p.step (.advance i answer)).pool.shared.now = p.pool.shared.now := by
      rw [hstep, TargetTask.next_now]
    refine h.of_sublist rfl (pending_advance p i answer) (Nat.le_of_eq hnow.symm) ?_
    intro since hs
    rw [hstep]
    rcases TargetTask.next_status answer task p.pool.shared with heq | heq | heq
    · rw [heq]
      exact h.status since hs
    · rw [heq]
      exact h.past since hs
    · rw [heq]
      trivial

omit [KeyCodec] in
theorem pending_updateTarget (p : Pool Attachment TargetTask) (b : Beat) :
    pending ⟨updateTarget p, b⟩ = pending ⟨p, b⟩ ++ [p.shared.now] := by
  unfold pending updateTarget Pool.spawn
  rw [List.filterMap_append]
  rfl

omit [KeyCodec] in
/-- **What the heartbeat does**: it reads, or it decides and starts an update or not. -/
theorem heartbeat_cases (p : Republish) :
    (p.heartbeat.pool = p.pool ∧ ∀ first second, p.beat = .decide first second →
        shouldUpdate first second = false) ∨
      ∃ first second, p.beat = .decide first second ∧ shouldUpdate first second = true ∧
        p.heartbeat = ⟨updateTarget p.pool, .readAddress⟩ := by
  unfold heartbeat
  cases hb : p.beat with
  | readAddress =>
    refine .inl ⟨rfl, fun first second h => ?_⟩
    cases h
  | readTarget first =>
    refine .inl ⟨rfl, fun first second h => ?_⟩
    cases h
  | decide first second =>
    cases hs : shouldUpdate first second with
    | true => exact .inr ⟨first, second, rfl, hs, by simp only [hs, if_true]⟩
    | false =>
      refine .inl ⟨by simp only [hs, Bool.false_eq_true, if_false], fun first' second' h => ?_⟩
      cases h
      exact hs

omit [KeyCodec] in
/-- The heartbeat reads what no update under way is younger than, and marks the target when it
starts one. -/
theorem marked_heartbeat {p : Republish} (h : p.Marked) : p.heartbeat.Marked := by
  rcases heartbeat_cases p with ⟨hpool, -⟩ | ⟨first, second, -, -, hstart⟩
  · have hpending : p.heartbeat.pending = p.pending := by rw [pending, hpool, pending]
    refine ⟨fun since hs => ?_, fun since hs => ?_, ?_⟩
    · rw [hpool]
      exact h.past since (hpending ▸ hs)
    · rw [hpool]
      exact h.status since (hpending ▸ hs)
    · unfold ReadAfter
      rw [hpending, hpool]
      unfold heartbeat
      cases p.beat with
      | readAddress => trivial
      | readTarget first => exact ⟨Nat.le_refl _, h.status⟩
      | decide first second => trivial
  · rw [hstart]
    have hpast : ∀ since ∈ pending ⟨updateTarget p.pool, .readAddress⟩,
        since ≤ p.pool.shared.now := by
      intro since hs
      rw [pending_updateTarget] at hs
      rcases List.mem_append.mp hs with hs | hs
      · exact h.past since hs
      · exact Nat.le_of_eq (List.mem_singleton.mp hs)
    exact ⟨hpast, hpast, trivial⟩

theorem marked_step {p : Republish} (h : p.Marked) {a : Action} (ha : ByHeartbeat a) :
    (p.step a).Marked := by
  have hspawn : ∀ task : TargetTask, task.since = none →
      Marked { p with pool := p.pool.spawn task } := by
    intro task htask
    have hpending := pending_spawn (p := p.pool) (b := p.beat) htask
    exact h.of_sublist rfl (by rw [hpending]) (Nat.le_refl _) h.status
  cases a with
  | attachment state publicInternetReady => exact hspawn _ rfl
  | ping => exact hspawn _ rfl
  | updateLocalAddress => exact hspawn _ rfl
  | updateTarget => exact ha.elim
  | checkRecord => exact hspawn _ rfl
  | advance i answer => exact marked_advance h i answer
  | heartbeat => exact marked_heartbeat h
  | tick d => exact h.of_sublist rfl (List.Sublist.refl _) (Nat.le_add_right _ d) h.status

/-- **One step.** -/
theorem apart_step_iff {p : Republish} (hm : p.Marked) (h : p.Apart) {a : Action}
    (ha : ByHeartbeat a) : (p.step a).Apart ↔ Patient p a := by
  have hspawn : ∀ task : TargetTask, task.since = none →
      Apart { p with pool := p.pool.spawn task } := by
    intro task htask
    unfold Apart
    rw [pending_spawn htask]
    exact h
  cases a with
  | attachment state publicInternetReady => exact iff_of_true (hspawn _ rfl) trivial
  | ping => exact iff_of_true (hspawn _ rfl) trivial
  | updateLocalAddress => exact iff_of_true (hspawn _ rfl) trivial
  | updateTarget => exact ha.elim
  | checkRecord => exact iff_of_true (hspawn _ rfl) trivial
  | advance i answer => exact iff_of_true (h.sublist (pending_advance p i answer)) trivial
  | tick d => exact iff_of_true h trivial
  | heartbeat =>
    show p.heartbeat.Apart ↔ ∀ first second, p.beat = .decide first second → p.Recent →
      Settled first second
    rcases heartbeat_cases p with ⟨hpool, hnot⟩ | ⟨first, second, hb, hs, hstart⟩
    · have hsame : p.heartbeat.Apart := by
        unfold Apart pending
        rw [hpool]
        exact h
      refine iff_of_true hsame fun first second hb hrecent => ?_
      exact (shouldUpdate_eq_false_iff hm hb hrecent).mp (hnot first second hb)
    · -- the update that is started now is apart from those under way if none is recent
      have hapart : p.heartbeat.Apart ↔ ¬ p.Recent := by
        unfold Apart
        rw [hstart, pending_updateTarget, List.pairwise_append]
        constructor
        · rintro ⟨-, -, hall⟩ ⟨since, hmem, hnow⟩
          exact Nat.not_lt.mpr hnow (hall since hmem _ (List.mem_singleton_self _))
        · intro hnone
          refine ⟨h, List.pairwise_singleton _ _, fun since hmem t ht => ?_⟩
          rw [List.mem_singleton.mp ht]
          exact Nat.not_le.mp fun hnow => hnone ⟨since, hmem, hnow⟩
      rw [hapart]
      constructor
      · intro hnone _ _ _ hrecent
        exact absurd hrecent hnone
      · intro hsettled hrecent
        have hfalse := (shouldUpdate_eq_false_iff hm hb hrecent).mpr
          (hsettled first second hb hrecent)
        rw [hs] at hfalse
        cases hfalse

/-- **When republishes do not overlap**, in every run of a safe listener from a state with
nothing under way. -/
theorem republishes_apart_iff (c : Attachment) {as : List Action} (has : ∀ a ∈ as, ByHeartbeat a) :
    (∀ bs, bs <+: as → (run step (start c) bs).Apart) ↔ Along step Patient (start c) as := by
  have hinit : (start c).Marked ∧ (start c).Apart := by
    refine ⟨⟨fun since hs => ?_, fun since hs => ?_, trivial⟩, List.Pairwise.nil⟩
    · cases hs
    · cases hs
  have hgood : ∀ p : Republish, p.Marked ∧ p.Apart → p.Apart := fun p h => h.2
  have hstep : ∀ (p : Republish) (a : Action), ByHeartbeat a → Patient p a →
      p.Marked ∧ p.Apart → (p.step a).Marked ∧ (p.step a).Apart :=
    fun p a ha hok h => ⟨marked_step h.1 ha, (apart_step_iff h.1 h.2 ha).mpr hok⟩
  have hok : ∀ (p : Republish) (a : Action), ByHeartbeat a → p.Marked ∧ p.Apart →
      (p.step a).Apart → Patient p a := fun p a ha h => (apart_step_iff h.1 h.2 ha).mp
  exact prefixes_iff_along_of_fair hgood hstep hok hinit (along_const.mpr has)

end Republish

open Sample

namespace Republish

/-- A new listener creates an address, and `to_target` has not answered yet; two heartbeats
follow each other after so many seconds. -/
def sampleBeats (n : Nat) : List Action :=
  let created := RouteAnswer.mk (some (AttachmentTasks.sampleSafe 1)) none none .nothing
  [.updateLocalAddress, .advance 0 created, .heartbeat, .heartbeat, .heartbeat, .tick (secs n),
    .heartbeat, .heartbeat, .heartbeat]

/-- Eleven seconds later a second update is started beside the first. -/
theorem republishes_apart_sample :
    (run step (start (newListener 0)) (sampleBeats 11)).Apart := by
  refine (republishes_apart_iff (newListener 0) ?_).mpr ?_ _ (List.prefix_refl _)
  · simp [sampleBeats, ByHeartbeat]
  · refine ⟨trivial, trivial, ?_, ?_, ?_, trivial, ?_, ?_, ?_, trivial⟩
    · intro _ _ hbeat
      cases hbeat
    · intro _ _ hbeat
      cases hbeat
    · rintro _ _ _ ⟨since, hmem, -⟩
      exact absurd hmem List.not_mem_nil
    · intro _ _ hbeat
      cases hbeat
    · intro _ _ hbeat
      cases hbeat
    · rintro _ _ _ ⟨since, hmem, hnow⟩
      have hfirst : since ∈ [secs 0] := hmem
      rw [List.mem_singleton.mp hfirst] at hnow
      exact absurd hnow (by decide)

/-- **Five seconds later too**: the target is marked as republishing, but it is not set. -/
theorem republishes_overlap :
    (run step (start (newListener 0)) (sampleBeats 5)).pending = [secs 0, secs 5] ∧
      ¬ (run step (start (newListener 0)) (sampleBeats 5)).Apart := by
  have hpending : (run step (start (newListener 0)) (sampleBeats 5)).pending =
      [secs 0, secs 5] := by rfl
  refine ⟨hpending, fun h => ?_⟩
  unfold Apart at h
  rw [hpending] at h
  revert h
  decide

end Republish
end VeilidTransport
