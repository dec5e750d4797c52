import VeilidTransport.Events
import VeilidTransport.Foundation.Pool

/-!
# Coming online

An `Attachment` update takes a safe listener online: if the listener is offline, and the
node is attached and its public internet is ready, a task creates an address and stores
it, finds the route to it and stores that, and announces the address.  Tasks of several
updates overlap at their awaits: `AttachmentTask.next` is one task as the atomic steps
between its locks and awaits.

Between the check that the listener is offline and the step that takes it online nothing
keeps a second task away.  `online_once` says that the interleavings in which a task
stores its address only while no other has are the ones that announce one address, and
in `online_twice` two are announced.
-/

namespace VeilidTransport

inductive ListenerStatus where
  | offline
  | online
  deriving DecidableEq

inductive TargetStatus where
  | none
  | republishing (since : Instant)
  | active (since : Instant)
  deriving DecidableEq

def AttachmentState.isAttached : AttachmentState → Bool
  | attachedWeak => true
  | attachedGood => true
  | attachedStrong => true
  | fullyAttached => true
  | overAttached => true
  | _ => false

/-- What the tasks share. -/
structure Attachment where
  isAttached : Bool
  publicInternetReady : Bool
  status : ListenerStatus
  localAddress : Option Address
  localTarget : Option Target × TargetStatus
  now : Instant
  /-- History: the events announced. -/
  events : List TransportEvent

/-- A task of `convert_update` for an `Attachment`, at its next step. -/
inductive AttachmentTask where
  /-- The block under the lock of `node_status`. -/
  | check (state : AttachmentState) (publicInternetReady : Bool)
  /-- `Address::new_safe`. -/
  | newSafe
  | storeAddress (localAddress : Address)
  | readTarget (localAddress : Address)
  /-- `to_target`. -/
  | toTarget (localAddress : Address)
  | storeTarget (localAddress : Address) (target : Target)
  /-- `ListenerStatus::Online`, and the answer. -/
  | goOnline (localAddress : Address)
  | done
  deriving DecidableEq

abbrev AttachmentTasks := Pool Attachment AttachmentTask

/-- What the network answers to an await. -/
structure Answer where
  /-- The address that `new_safe` has created, if it has. -/
  newSafe : Option Address
  /-- Whether `to_target` finds the route of the address. -/
  found : Bool

namespace AttachmentTask
variable [KeyCodec]

/-- **One atomic step of a task**; `route` is the route that is published for an
address. -/
def next (route : Address → Target) (answer : Answer) (task : AttachmentTask) (c : Attachment) :
    AttachmentTask × Attachment :=
  match task with
  | check state ready =>
    (if c.status = .offline ∧ ready ∧ state.isAttached then newSafe else done,
      { c with isAttached := state.isAttached, publicInternetReady := ready })
  | newSafe =>
    match answer.newSafe with
    | some localAddress => (storeAddress localAddress, c)
    | none => (done, c)
  | storeAddress localAddress =>
    (readTarget localAddress, { c with localAddress := some localAddress })
  | readTarget localAddress =>
    (if c.localTarget.1 = none then toTarget localAddress else goOnline localAddress, c)
  | toTarget localAddress =>
    (if answer.found then storeTarget localAddress (route localAddress)
      else goOnline localAddress, c)
  | storeTarget localAddress target =>
    (goOnline localAddress, { c with localTarget := (some target, .active c.now) })
  | goOnline localAddress =>
    (done, { c with
      status := .online
      events := c.events ++ [.newAddress localAddress.toMultiaddr] })
  | done => (done, c)

omit [KeyCodec] in
/-- The address a task has stored, while it is on its way to take the listener online. -/
def stored : AttachmentTask → Option Address
  | readTarget localAddress => some localAddress
  | toTarget localAddress => some localAddress
  | storeTarget localAddress _ => some localAddress
  | goOnline localAddress => some localAddress
  | _ => none

end AttachmentTask

namespace AttachmentTasks
open AttachmentTask
variable [KeyCodec] (route : Address → Target)

inductive Action where
  /-- An update arrives, and its task is spawned. -/
  | update (state : AttachmentState) (publicInternetReady : Bool)
  /-- The `i`-th task takes a step. -/
  | advance (i : Nat) (answer : Answer)
  | tick (d : Nat)

def step (p : AttachmentTasks) : Action → AttachmentTasks
  | .update state publicInternetReady => p.spawn (check state publicInternetReady)
  | .advance i answer => p.advance (next route answer) i
  | .tick d => { p with shared := { p.shared with now := p.shared.now + d } }

omit [KeyCodec] in
/-- A listener before its first update. -/
def start (localAddress : Option Address) (localTarget : Option Target × TargetStatus)
    (now : Instant) : AttachmentTasks :=
  ⟨⟨false, false, .offline, localAddress, localTarget, now, []⟩, []⟩

/-- The law: one address is announced at most; it is the one that is stored; and a target
that has been stored meanwhile is the route of the stored address. -/
structure Consistent (initial : Option Target) (p : AttachmentTasks) : Prop where
  once : p.shared.events.length ≤ 1
  address : ∀ listenAddr, .newAddress listenAddr ∈ p.shared.events →
    ∃ localAddress, p.shared.localAddress = some localAddress ∧
      listenAddr = localAddress.toMultiaddr
  target : p.shared.localTarget.1 = initial ∨
    ∃ localAddress, p.shared.localAddress = some localAddress ∧
      p.shared.localTarget.1 = some (route localAddress)

omit [KeyCodec] in
/-- A task stores its address only while the listener is offline and no other task that has
stored one is on its way. -/
def Alone (p : AttachmentTasks) : Action → Prop
  | .advance i _ => ∀ localAddress, p.tasks[i]? = some (storeAddress localAddress) →
      p.shared.status = .offline ∧ ∀ task ∈ p.tasks, task.stored = none
  | _ => True

/-- The way from the stored address to the status `Online` is a critical section. -/
def underWay (initial : Option Target) : Pool.Section Attachment AttachmentTask where
  inside task := task.stored ≠ none
  idle c := (c.status = .offline ∧ c.events = [] ∧ c.localTarget.1 = initial) ∨
    ∃ localAddress, c.status = .online ∧ c.localAddress = some localAddress ∧
      c.events = [.newAddress localAddress.toMultiaddr] ∧
      (c.localTarget.1 = initial ∨ c.localTarget.1 = some (route localAddress))
  busy task c := c.status = .offline ∧ c.events = [] ∧ c.localAddress = task.stored ∧
    (c.localTarget.1 = initial ∨ c.localTarget.1 = task.stored.map route)

/-- The target a task is about to store is the route of its address. -/
def Routed (task : AttachmentTask) : Prop :=
  ∀ localAddress target, task = storeTarget localAddress target → target = route localAddress

/-- **The invariant.** -/
structure Sound (initial : Option Target) (p : AttachmentTasks) : Prop where
  routed : ∀ task ∈ p.tasks, Routed route task
  guarded : p.Guarded (underWay route initial)

theorem Sound.consistent {initial : Option Target} {p : AttachmentTasks}
    (h : Sound route initial p) : Consistent route initial p := by
  by_cases hin : ∃ task ∈ p.tasks, task.stored ≠ none
  · obtain ⟨task, ht, hin⟩ := hin
    obtain ⟨-, hevents, haddress, htarget⟩ := h.guarded.busy task ht hin
    obtain ⟨localAddress, hs⟩ := Option.ne_none_iff_exists'.mp hin
    rw [hs] at haddress htarget
    refine ⟨?_, fun listenAddr hl => ?_, ?_⟩
    · rw [hevents]
      exact Nat.zero_le 1
    · rw [hevents] at hl
      exact absurd hl List.not_mem_nil
    · rcases htarget with ht | ht
      · exact .inl ht
      · exact .inr ⟨localAddress, haddress, ht⟩
  · obtain ⟨-, hevents, htarget⟩ | ⟨localAddress, -, haddress, hevents, htarget⟩ :=
      h.guarded.idle fun task ht h => hin ⟨task, ht, h⟩
    · refine ⟨?_, fun listenAddr hl => ?_, .inl htarget⟩
      · rw [hevents]
        exact Nat.zero_le 1
      · rw [hevents] at hl
        exact absurd hl List.not_mem_nil
    · refine ⟨?_, fun listenAddr hl => ?_, ?_⟩
      · rw [hevents]
        exact Nat.le_refl 1
      · rw [hevents] at hl
        have heq := List.mem_singleton.mp hl
        injection heq with heq
        exact ⟨localAddress, haddress, heq⟩
      · rcases htarget with ht | ht
        · exact .inl ht
        · exact .inr ⟨localAddress, haddress, ht⟩

theorem next_routed {task : AttachmentTask} (h : Routed route task) (answer : Answer)
    (c : Attachment) : Routed route (task.next route answer c).1 := by
  have hother : ∀ {t : AttachmentTask}, (∀ a target, t ≠ storeTarget a target) → Routed route t :=
    fun ht a target heq => absurd heq (ht a target)
  cases task with
  | toTarget localAddress =>
    show Routed route (if answer.found then _ else _)
    split
    · rintro a target heq
      injection heq with ha htarget
      rw [← htarget, ha]
    · exact hother (by simp)
  | check state ready =>
    show Routed route (if _ then _ else _)
    split <;> exact hother (by simp)
  | newSafe =>
    unfold next
    simp only
    split <;> exact hother (by simp)
  | readTarget localAddress =>
    show Routed route (if _ then _ else _)
    split <;> exact hother (by simp)
  | _ => exact hother (by simp [next])

/-- A task with nothing stored takes a step that the others do not see. -/
theorem Sound.outside {initial : Option Target} {p : AttachmentTasks} {i : Nat}
    {task task' : AttachmentTask} {c : Attachment} (h : Sound route initial p)
    (hi : p.tasks[i]? = some task) (hout : task.stored = none) (hout' : task'.stored = none)
    (hst : c.status = p.shared.status) (hev : c.events = p.shared.events)
    (haddr : c.localAddress = p.shared.localAddress)
    (htgt : c.localTarget = p.shared.localTarget) :
    Pool.Guarded (underWay route initial) ⟨c, p.tasks.set i task'⟩ := by
  refine h.guarded.advance_outside hi (fun hin => hin hout) (fun hin => hin hout') ?_ ?_
  · intro hidle
    unfold underWay at hidle ⊢
    simp only [hst, hev, haddr, htgt]
    exact hidle
  · intro u _ hu
    unfold underWay at hu ⊢
    simp only [hst, hev, haddr, htgt]
    exact hu

/-- A task on its way to take the listener online stays on it. -/
theorem Sound.inside {initial : Option Target} {p : AttachmentTasks} {i : Nat}
    {task task' : AttachmentTask} {c : Attachment} (h : Sound route initial p)
    (hi : p.tasks[i]? = some task) (hin : task.stored ≠ none)
    (hstored : task'.stored = task.stored) (hst : c.status = .offline) (hev : c.events = [])
    (haddr : c.localAddress = task.stored)
    (htgt : c.localTarget.1 = initial ∨ c.localTarget.1 = task.stored.map route) :
    Pool.Guarded (underWay route initial) ⟨c, p.tasks.set i task'⟩ := by
  have hin' : task'.stored ≠ none := by
    rw [hstored]
    exact hin
  refine h.guarded.advance_alone hi (.inl hin) (fun _ => ?_) fun hout => absurd hin' hout
  show _ ∧ _ ∧ _ = task'.stored ∧ (_ ∨ _ = task'.stored.map route)
  rw [hstored]
  exact ⟨hst, hev, haddr, htgt⟩

/-- A task stores its address, and no other is on its way. -/
theorem Sound.store {initial : Option Target} {p : AttachmentTasks} {i : Nat}
    {localAddress : Address} (h : Sound route initial p)
    (hi : p.tasks[i]? = some (storeAddress localAddress)) (hoffline : p.shared.status = .offline)
    (hnone : ∀ task ∈ p.tasks, task.stored = none) :
    Pool.Guarded (underWay route initial)
      ⟨{ p.shared with localAddress := some localAddress },
        p.tasks.set i (readTarget localAddress)⟩ := by
  have hout : ∀ u ∈ p.tasks, ¬ u.stored ≠ none := fun u hu hin => hin (hnone u hu)
  obtain ⟨-, hevents, htarget⟩ | ⟨a, honline, -⟩ := h.guarded.idle hout
  · have hin : (readTarget localAddress).stored ≠ none := by simp [stored]
    exact h.guarded.advance_alone hi (.inr hout)
      (fun _ => ⟨hoffline, hevents, rfl, .inl htarget⟩) fun hnot => absurd hin hnot
  · rw [hoffline] at honline
    cases honline

/-- **The step lemma**, for the task that takes a step. -/
theorem Sound.advance {initial : Option Target} {p : AttachmentTasks} {i : Nat}
    {task : AttachmentTask} {answer : Answer} (h : Sound route initial p)
    (hi : p.tasks[i]? = some task)
    (hok : ∀ localAddress, task = storeAddress localAddress →
      p.shared.status = .offline ∧ ∀ task ∈ p.tasks, task.stored = none) :
    Pool.Guarded (underWay route initial)
      ⟨(task.next route answer p.shared).2, p.tasks.set i (task.next route answer p.shared).1⟩ := by
  have hmem := List.mem_of_getElem? hi
  have hbusy : task.stored ≠ none → p.shared.status = .offline ∧ p.shared.events = [] ∧
      p.shared.localAddress = task.stored ∧ (p.shared.localTarget.1 = initial ∨
        p.shared.localTarget.1 = task.stored.map route) := h.guarded.busy task hmem
  cases task with
  | check state ready =>
    refine h.outside route hi rfl ?_ rfl rfl rfl rfl
    show AttachmentTask.stored (if _ then _ else _) = none
    split <;> rfl
  | newSafe =>
    unfold next
    simp only
    split
    · exact h.outside route hi rfl rfl rfl rfl rfl rfl
    · exact h.outside route hi rfl rfl rfl rfl rfl rfl
  | storeAddress localAddress =>
    obtain ⟨hoffline, hnone⟩ := hok localAddress rfl
    exact h.store route hi hoffline hnone
  | readTarget localAddress =>
    obtain ⟨hst, hev, haddr, htgt⟩ := hbusy (by simp [stored])
    refine h.inside route hi (by simp [stored]) ?_ hst hev haddr htgt
    show AttachmentTask.stored (if _ then _ else _) = _
    split <;> rfl
  | toTarget localAddress =>
    obtain ⟨hst, hev, haddr, htgt⟩ := hbusy (by simp [stored])
    refine h.inside route hi (by simp [stored]) ?_ hst hev haddr htgt
    show AttachmentTask.stored (if _ then _ else _) = _
    split <;> rfl
  | storeTarget localAddress target =>
    obtain ⟨hst, hev, haddr, -⟩ := hbusy (by simp [stored])
    have htarget : target = route localAddress := h.routed _ hmem localAddress target rfl
    exact h.inside route hi (by simp [stored]) rfl hst hev haddr (.inr (by rw [htarget]; rfl))
  | goOnline localAddress =>
    have hin : (goOnline localAddress).stored ≠ none := by simp [stored]
    obtain ⟨hst, hev, haddr, htgt⟩ := hbusy hin
    refine h.guarded.advance_alone hi (.inl hin) (fun h => absurd rfl h) fun _ => ?_
    refine .inr ⟨localAddress, rfl, haddr, ?_, htgt⟩
    show p.shared.events ++ _ = _
    rw [hev]
    rfl
  | done => exact h.outside route hi rfl rfl rfl rfl rfl rfl

theorem step_sound {initial : Option Target} (p : AttachmentTasks) (a : Action)
    (hok : Alone p a) (h : Sound route initial p) : Sound route initial (step route p a) := by
  cases a with
  | update state ready =>
    refine ⟨fun task ht => ?_, h.guarded.spawn fun hin => hin rfl⟩
    rcases List.mem_append.mp ht with ht | ht
    · exact h.routed task ht
    · obtain rfl := List.mem_singleton.mp ht
      exact fun _ _ heq => by cases heq
  | tick d => exact ⟨h.routed, h.guarded.lone, h.guarded.idle, h.guarded.busy⟩
  | advance i answer =>
    rw [step, Pool.advance]
    split
    · exact h
    · next task hi =>
      refine ⟨fun u hu => ?_, h.advance route hi fun a ha => hok a (ha ▸ hi)⟩
      rcases List.mem_or_eq_of_mem_set hu with hu | rfl
      · exact h.routed u hu
      · exact next_routed route (h.routed task (List.mem_of_getElem? hi)) answer p.shared

theorem sound_start (localAddress : Option Address)
    (localTarget : Option Target × TargetStatus) (now : Instant) :
    Sound route localTarget.1 (start localAddress localTarget now) := by
  refine ⟨fun _ h => absurd h List.not_mem_nil, ⟨fun i j t u hi => ?_,
    fun _ => .inl ⟨rfl, rfl, rfl⟩, fun _ h => absurd h List.not_mem_nil⟩⟩
  simp [start] at hi

end AttachmentTasks

/-! ## Every address that is stored is announced -/

namespace AttachmentTask

/-- The task is about to store its address. -/
def stores : AttachmentTask → Bool
  | storeAddress _ => true
  | _ => false

def weight (task : AttachmentTask) : Nat := if task.stored.isSome then 1 else 0

end AttachmentTask

namespace AttachmentTasks
open AttachmentTask
variable [KeyCodec] (route : Address → Target)

omit [KeyCodec] in
/-- The announcements there have been, and those under way. -/
def announcements (p : AttachmentTasks) : Nat :=
  p.shared.events.length + p.tasks.countP fun task => task.stored.isSome

/-- A listener that is online has announced an address. -/
def Announced (p : AttachmentTasks) : Prop := p.shared.status = .online → p.shared.events ≠ []

theorem step_announced (p : AttachmentTasks) (a : Action) (h : Announced p) :
    Announced (step route p a) := by
  cases a with
  | update state ready => exact h
  | tick d => exact h
  | advance i answer =>
    rw [step, Pool.advance]
    split
    · exact h
    · next task hi =>
      cases task with
      | goOnline localAddress => exact fun _ => by simp [next]
      | newSafe =>
        unfold next
        simp only
        split <;> exact h
      | _ => exact h

/-- **What a step of a task is worth**: a stored address counts one, and its announcement
takes its place. -/
theorem next_weight (answer : Answer) (task : AttachmentTask) (c : Attachment) :
    (task.next route answer c).2.events.length + (task.next route answer c).1.weight =
      c.events.length + task.weight + if task.stores then 1 else 0 := by
  cases task with
  | goOnline localAddress => simp [next, weight, stored, stores]
  | newSafe =>
    unfold next
    simp only
    split <;> rfl
  | check state ready =>
    show c.events.length + AttachmentTask.weight (if _ then _ else _) = _
    split <;> rfl
  | readTarget localAddress =>
    show c.events.length + AttachmentTask.weight (if _ then _ else _) = _
    split <;> rfl
  | toTarget localAddress =>
    show c.events.length + AttachmentTask.weight (if _ then _ else _) = _
    split <;> rfl
  | _ => rfl

/-- **No announcement is lost**, and a task that stores its address is one more. -/
theorem step_announcements (p : AttachmentTasks) (a : Action) :
    announcements p ≤ announcements (step route p a) ∧
      ∀ i answer task, a = .advance i answer → p.tasks[i]? = some task → task.stores = true →
        announcements (step route p a) = announcements p + 1 := by
  cases a with
  | update state ready =>
    refine ⟨?_, fun _ _ _ h => by cases h⟩
    simp only [announcements, step, Pool.spawn, List.countP_append]
    omega
  | tick d => exact ⟨Nat.le_refl _, fun _ _ _ h => by cases h⟩
  | advance i answer =>
    rw [step, Pool.advance]
    cases hi : p.tasks[i]? with
    | none =>
      refine ⟨Nat.le_refl _, fun j _ task heq hj => ?_⟩
      injection heq with hij
      rw [← hij, hi] at hj
      cases hj
    | some task =>
      obtain ⟨hlt, hget⟩ := List.getElem?_eq_some_iff.mp hi
      have hle : task.weight ≤ p.tasks.countP fun task => task.stored.isSome := by
        unfold weight
        split
        · next hs => exact List.countP_pos_iff.mpr ⟨task, List.mem_of_getElem? hi, hs⟩
        · exact Nat.zero_le _
      have hset : announcements
            ⟨(task.next route answer p.shared).2, p.tasks.set i (task.next route answer p.shared).1⟩ =
          announcements p + if task.stores then 1 else 0 := by
        have hw := next_weight route answer task p.shared
        have hcount := List.countP_set (p := fun task : AttachmentTask => task.stored.isSome)
          (a := (task.next route answer p.shared).1) hlt
        rw [hget] at hcount
        change _ = _ - task.weight + AttachmentTask.weight _ at hcount
        unfold announcements
        simp only
        omega
      refine ⟨?_, fun j _ u heq hj hs => ?_⟩
      · simp only
        omega
      · injection heq with hij
        rw [← hij, hi] at hj
        obtain rfl := Option.some.inj hj
        simp only
        rw [hset, if_pos hs]

/-- A run that ends with nothing under way and at most one announcement has been one in which
tasks store their addresses alone. -/
theorem along_alone {p : AttachmentTasks} (h : Announced p) (as : List Action)
    (hend : ∀ task ∈ (Runs.run (step route) p as).tasks, task.stored = none)
    (honce : (Runs.run (step route) p as).shared.events.length ≤ 1) :
    Runs.Along (step route) Alone p as := by
  induction as generalizing p with
  | nil => exact trivial
  | cons a as ih =>
    refine ⟨?_, ih (step_announced route p a h) hend honce⟩
    cases a with
    | update state ready => exact trivial
    | tick d => exact trivial
    | advance i answer =>
      intro localAddress hi
      have hlast : announcements (Runs.run (step route) (step route p (.advance i answer)) as) ≤
          1 := by
        have hzero : (Runs.run (step route) (step route p (.advance i answer)) as).tasks.countP
            (fun task => task.stored.isSome) = 0 := by
          rw [List.countP_eq_zero]
          intro task ht
          rw [hend task ht]
          simp
        unfold announcements
        rw [hzero]
        exact honce
      have hmono : announcements (step route p (.advance i answer)) ≤
          announcements (Runs.run (step route) (step route p (.advance i answer)) as) :=
        Runs.le_run announcements (fun q b => (step_announcements route q b).1) _ as
      have hone := (step_announcements route p (.advance i answer)).2 i answer _ rfl hi rfl
      unfold announcements at hone hmono hlast
      constructor
      · by_cases hon : p.shared.status = .online
        · have hpos := List.length_pos_iff.mpr (h hon)
          omega
        · cases hst : p.shared.status with
          | offline => rfl
          | online => exact absurd hst hon
      · intro task ht
        by_cases hs : task.stored.isSome = true
        · have hpos : 0 < p.tasks.countP fun task => task.stored.isSome :=
            List.countP_pos_iff.mpr ⟨task, ht, hs⟩
          omega
        · exact Option.not_isSome_iff_eq_none.mp hs

/-- **When coming online happens once and consistently**: in every run in which tasks store
their addresses alone, and, where nothing is left under way, in no other. -/
theorem online_once (localAddress : Option Address) (localTarget : Option Target × TargetStatus)
    (now : Instant) (as : List Action) :
    (Runs.Along (step route) Alone (start localAddress localTarget now) as →
      ∀ bs, bs <+: as → Consistent route localTarget.1
        (Runs.run (step route) (start localAddress localTarget now) bs)) ∧
    ((∀ task ∈ (Runs.run (step route) (start localAddress localTarget now) as).tasks,
        task.stored = none) →
      (∀ bs, bs <+: as → Consistent route localTarget.1
        (Runs.run (step route) (start localAddress localTarget now) bs)) →
      Runs.Along (step route) Alone (start localAddress localTarget now) as) := by
  constructor
  · rintro hok bs ⟨cs, rfl⟩
    have hsound := Runs.invariant_along (step_sound route)
      (sound_start route localAddress localTarget now) (Runs.along_append.mp hok).1
    exact hsound.consistent
  · intro hend hall
    exact along_alone route (fun h => by cases h) as hend (hall as List.prefix_rfl).once

end AttachmentTasks

namespace AttachmentTasks
open AttachmentTask Sample

/-- The address that `new_safe` creates with this key. -/
def sampleSafe (b : UInt8) : Address :=
  .safeAddress ⟨Address.vld0, keyOf b⟩ (some ⟨keyOf b, keyOf b⟩) (.active 0)

/-- The route to an address, which is hidden. -/
def sampleRoute (a : Address) : Target := .privateRoute a.key.value

/-- Two updates come in quick succession, and both find the listener offline. -/
def sampleAttached : List Action :=
  [.update .attachedWeak true, .update .attachedGood true,
    .advance 0 ⟨none, true⟩, .advance 1 ⟨none, true⟩] ++
  List.replicate 6 (.advance 0 ⟨some (sampleSafe 1), true⟩) ++
  List.replicate 6 (.advance 1 ⟨some (sampleSafe 2), true⟩)

/-- **A listener can come online twice**: two addresses are announced, and the target is the
route of the first while the second is stored. -/
theorem online_twice :
    ¬ ∀ bs, bs <+: sampleAttached → Consistent sampleRoute none
      (Runs.run (step sampleRoute) (start none (none, .none) 0) bs) := by
  intro h
  have honce := (h sampleAttached List.prefix_rfl).once
  revert honce
  decide

end AttachmentTasks
end VeilidTransport
