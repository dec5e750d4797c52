import VeilidTransport.Transport
import VeilidTransport.DialCopies
import VeilidTransport.Foundation.Runs

/-!
# The listener's events

`get_next_event` takes an update from `rx` and spawns a task that converts it, and then
takes an answer of an earlier task from `async_rx`.  A queue that is found empty keeps
the waker of the poll, and whoever pushes to it next wakes it; a task pushes its answer
and then wakes the waker of the poll that spawned it.  All these wake one and the same
task of the executor, so `woken` is one flag, and the next poll clears it.

An answer of a task may itself be `Poll::Pending`, and `get_next_event` returns what it
has taken.  It may be `Ready(None)` as well, and so is what `get_next_event` returns when no
updates are left to come; the caller takes that for `Poll::Pending`.  `poll_contract_iff`
says which runs keep the contract of a poll in spite of that; in `incoming_left` an incoming
connection stays in the queue.
-/

namespace VeilidTransport

inductive AttachmentState where
  | detached
  | attaching
  | attachedWeak
  | attachedGood
  | attachedStrong
  | fullyAttached
  | overAttached
  | detaching
  deriving DecidableEq

/-- What happens at Veilid. -/
inductive VeilidUpdate where
  | log
  | appMessage (packet : Payload)
  | appCall
  | attachment (state : AttachmentState) (publicInternetReady : Bool)
  | network
  | config
  | routeChange
  | valueChange
  | shutdown

inductive TransportEvent where
  /-- The address as the text of its multiaddr. -/
  | newAddress (listenAddr : List Char)
  | incoming (stream : Handle)
  deriving DecidableEq

/-- `Poll<Option<TransportEvent>>`. -/
inductive EventPoll where
  | ready (event : Option TransportEvent)
  | pending
  deriving DecidableEq

/-- The caller has nothing to hand on, and answers with `Poll::Pending`. -/
def EventPoll.idle : EventPoll → Bool
  | .pending => true
  | .ready none => true
  | .ready (some _) => false

/-- A spawned task of `get_next_event`, at its next step. -/
inductive ConvertTask where
  /-- `convert_update`, then `async_tx.send`. -/
  | convert (update : VeilidUpdate)
  /-- `waker.wake`. -/
  | wake
  | done

/-- A task that will still wake the poll that spawned it. -/
def ConvertTask.unfinished : ConvertTask → Bool
  | convert _ => true
  | wake => true
  | done => false

/-- The last call of `get_next_event`. -/
inductive EventCall where
  | none
  /-- It has polled `rx`, and will poll `async_rx`. -/
  | polling
  | returned (answer : EventPoll)
  deriving DecidableEq

structure VeilidListener where
  rx : List VeilidUpdate
  /-- Nobody sends updates any more. -/
  rxClosed : Bool
  /-- The waker is registered with `rx`. -/
  rxWaker : Bool
  asyncRx : List EventPoll
  /-- The waker is registered with `async_rx`. -/
  asyncRxWaker : Bool
  tasks : List ConvertTask
  /-- The executor's task has been woken for another poll. -/
  woken : Bool
  lastCall : EventCall

namespace VeilidListener

/-- `mpsc::channel(32)`, for both queues. -/
def capacity : Nat := 32

def new : VeilidListener := ⟨[], false, false, [], false, [], false, .none⟩

/-- `poll_recv` on `rx`, and the task for the update it finds. -/
def pollRx (l : VeilidListener) : VeilidListener :=
  if l.lastCall = .polling then l
  else
    match l.rx with
    | update :: rx =>
      { l with
        woken := false
        rx := rx
        tasks := l.tasks ++ [.convert update]
        lastCall := .polling }
    | [] =>
      if l.rxClosed then { l with woken := false, lastCall := .returned (.ready none) }
      else { l with woken := false, rxWaker := true, lastCall := .polling }

/-- `poll_recv` on `async_rx`, and the answer of `get_next_event`. -/
def pollAsyncRx (l : VeilidListener) : VeilidListener :=
  if l.lastCall = .polling then
    match l.asyncRx with
    | answer :: asyncRx => { l with asyncRx := asyncRx, lastCall := .returned answer }
    | [] => { l with asyncRxWaker := true, lastCall := .returned .pending }
  else l

/-- An update is sent to `rx`; its sender waits while the queue is full. -/
def send (l : VeilidListener) (update : VeilidUpdate) : VeilidListener :=
  if l.rxClosed ∨ capacity ≤ l.rx.length then l
  else { l with rx := l.rx ++ [update], woken := l.woken || l.rxWaker, rxWaker := false }

/-- The last sender of updates is dropped. -/
def close (l : VeilidListener) : VeilidListener :=
  { l with rxClosed := true, woken := l.woken || l.rxWaker, rxWaker := false }

/-- The `i`-th task takes a step; `answer` is what `convert_update` has come to, and the
task waits with it while `async_rx` is full. -/
def advance (l : VeilidListener) (i : Nat) (answer : EventPoll) : VeilidListener :=
  match l.tasks[i]? with
  | some (.convert _) =>
    if capacity ≤ l.asyncRx.length then l
    else { l with
      asyncRx := l.asyncRx ++ [answer]
      woken := l.woken || l.asyncRxWaker
      asyncRxWaker := false
      tasks := l.tasks.set i .wake }
  | some .wake => { l with woken := true, tasks := l.tasks.set i .done }
  | _ => l

inductive Action where
  | send (update : VeilidUpdate)
  | close
  /-- `get_next_event`, the first half. -/
  | pollRx
  /-- `get_next_event`, the second half. -/
  | pollAsyncRx
  | advance (i : Nat) (answer : EventPoll)

def step (l : VeilidListener) : Action → VeilidListener
  | .send update => l.send update
  | .close => l.close
  | .pollRx => l.pollRx
  | .pollAsyncRx => l.pollAsyncRx
  | .advance i answer => l.advance i answer

/-! ## The contract of a poll -/

/-- Another poll is due: it has been asked for, or a task will ask for it. -/
def Due (l : VeilidListener) : Prop :=
  l.woken = true ∨ ∃ task ∈ l.tasks, task.unfinished = true

instance (l : VeilidListener) : Decidable l.Due :=
  inferInstanceAs (Decidable (_ ∨ _))

/-- Whoever pushes to `rx` asks for a poll, or one is due. -/
def RxWatched (l : VeilidListener) : Prop := l.rx = [] ∧ l.rxWaker = true ∨ l.Due

/-- Whoever pushes to `async_rx` asks for a poll, or one is due. -/
def AsyncRxWatched (l : VeilidListener) : Prop :=
  l.asyncRx = [] ∧ l.asyncRxWaker = true ∨ l.Due

/-- No updates are left to come. -/
def Ended (l : VeilidListener) : Prop := l.rx = [] ∧ l.rxClosed = true

instance (l : VeilidListener) : Decidable l.Ended :=
  inferInstanceAs (Decidable (_ ∧ _))

/-- **The contract**: after `Poll::Pending`, both queues are watched.  So they are after
`Ready(None)`, which the caller answers with `Poll::Pending`, unless nothing is to come. -/
structure Contract (l : VeilidListener) : Prop where
  pending : l.lastCall = .returned .pending → l.RxWatched ∧ l.AsyncRxWatched
  readyNone : l.lastCall = .returned (.ready none) →
    (l.Ended ∨ l.RxWatched) ∧ (l.Ended ∧ l.asyncRx = [] ∨ l.AsyncRxWatched)

/-- An answer that is `Poll::Pending` or `Ready(None)` is taken only while another poll is
due; and when the updates have come to their end, with answers still in the queue, a task
is unfinished. -/
def Attended (l : VeilidListener) : Action → Prop
  | .pollRx => l.lastCall ≠ .polling → l.Ended → l.asyncRx ≠ [] →
      ∃ task ∈ l.tasks, task.unfinished = true
  | .pollAsyncRx => l.lastCall = .polling → l.asyncRx.head?.any EventPoll.idle = true → l.Due
  | _ => True

/-- **The invariant.** -/
structure Attentive (l : VeilidListener) : Prop where
  contract : l.Contract
  polling : l.lastCall = .polling → l.RxWatched
  rxWaker : l.rxClosed = true → l.rxWaker = false
  asyncRxWaker : l.asyncRx ≠ [] → l.asyncRxWaker = false

/-- What is watched stays so, if what is due stays due and a queue does not grow
unnoticed. -/
structure Minds (l l' : VeilidListener) : Prop where
  due : l.Due → l'.Due
  rx : l.rx = [] → l.rxWaker = true → l'.RxWatched
  asyncRx : l.asyncRx = [] → l'.asyncRx = [] ∧ l'.asyncRxWaker = l.asyncRxWaker ∨ l'.Due
  ended : l.Ended → l'.Ended

theorem Minds.rxWatched {l l' : VeilidListener} (hm : Minds l l') (h : l.RxWatched) :
    l'.RxWatched := by
  rcases h with ⟨hnil, hw⟩ | hd
  · exact hm.rx hnil hw
  · exact .inr (hm.due hd)

theorem Minds.asyncRxWatched {l l' : VeilidListener} (hm : Minds l l') (h : l.AsyncRxWatched) :
    l'.AsyncRxWatched := by
  rcases h with ⟨hnil, hw⟩ | hd
  · exact (hm.asyncRx hnil).imp (fun h => ⟨h.1, h.2.trans hw⟩) id
  · exact .inr (hm.due hd)

theorem Minds.contract {l l' : VeilidListener} (hm : Minds l l')
    (hcall : l'.lastCall = l.lastCall) (h : l.Contract) : l'.Contract := by
  refine ⟨fun hc => ?_, fun hc => ?_⟩
  · rw [hcall] at hc
    exact ⟨hm.rxWatched (h.pending hc).1, hm.asyncRxWatched (h.pending hc).2⟩
  · rw [hcall] at hc
    refine ⟨(h.readyNone hc).1.imp hm.ended hm.rxWatched, ?_⟩
    rcases (h.readyNone hc).2 with ⟨hend, hnil⟩ | hw
    · exact (hm.asyncRx hnil).imp (fun h => ⟨hm.ended hend, h.1⟩) .inr
    · exact .inr (hm.asyncRxWatched hw)

/-- Outside `get_next_event` the listener minds its queues. -/
theorem Attentive.minds {l l' : VeilidListener} (h : l.Attentive) (hm : Minds l l')
    (hcall : l'.lastCall = l.lastCall) (hrx : l'.rxClosed = true → l'.rxWaker = false)
    (hwaker : l'.asyncRx ≠ [] → l'.asyncRxWaker = false) : l'.Attentive := by
  refine ⟨hm.contract hcall h.contract, fun hc => ?_, hrx, hwaker⟩
  rw [hcall] at hc
  exact hm.rxWatched (h.polling hc)

theorem Minds.refl (l : VeilidListener) : Minds l l :=
  ⟨fun h => h, fun hnil hw => .inl ⟨hnil, hw⟩, fun hnil => .inl ⟨hnil, rfl⟩, fun h => h⟩

theorem minds_send (l : VeilidListener) (update : VeilidUpdate) : Minds l (l.send update) := by
  unfold send
  split
  · exact .refl l
  · next hroom =>
    refine ⟨fun hd => ?_, fun _ hw => .inr (.inl ?_), fun hnil => .inl ⟨hnil, rfl⟩, fun hend => ?_⟩
    · rcases hd with hw | ht
      · exact .inl (by simp [hw])
      · exact .inr ht
    · simp [hw]
    · exact absurd (.inl hend.2) hroom

theorem minds_close (l : VeilidListener) : Minds l l.close := by
  refine ⟨fun hd => ?_, fun _ hw => .inr (.inl ?_), fun hnil => .inl ⟨hnil, rfl⟩,
    fun hend => ⟨hend.1, rfl⟩⟩
  · rcases hd with hw | ht
    · exact .inl (by simp [close, hw])
    · exact .inr ht
  · simp [close, hw]

/-- A task that pushes its answer has its wake-up before it; one that wakes has woken. -/
theorem minds_advance (l : VeilidListener) (i : Nat) (answer : EventPoll) :
    Minds l (l.advance i answer) := by
  unfold advance
  split
  · next update hi =>
    split
    · exact .refl l
    · have hdue : Due { l with
          asyncRx := l.asyncRx ++ [answer]
          woken := l.woken || l.asyncRxWaker
          asyncRxWaker := false
          tasks := l.tasks.set i .wake } :=
        .inr ⟨.wake, List.mem_iff_getElem?.mpr
          ⟨i, List.getElem?_set_self (List.getElem?_eq_some_iff.mp hi).1⟩, rfl⟩
      exact ⟨fun _ => hdue, fun _ _ => .inr hdue, fun _ => .inr hdue, fun h => h⟩
  · exact ⟨fun _ => .inl rfl, fun _ _ => .inr (.inl rfl), fun _ => .inr (.inl rfl), fun h => h⟩
  · exact .refl l

/-- While `get_next_event` is between its halves, another poll is due if no updates are left
to come. -/
theorem Attentive.due_of_ended {l : VeilidListener} (h : l.Attentive)
    (hcall : l.lastCall = .polling) (hend : l.Ended) : l.Due := by
  rcases h.polling hcall with ⟨-, hw⟩ | hd
  · have hoff := h.rxWaker hend.2
    rw [hw] at hoff
    cases hoff
  · exact hd

theorem Attentive.pollRx {l : VeilidListener} (h : l.Attentive) (hok : l.Attended .pollRx) :
    l.pollRx.Attentive := by
  unfold VeilidListener.pollRx
  split
  · exact h
  · next hcall =>
    split
    · refine ⟨⟨fun hc => (by cases hc), fun hc => (by cases hc)⟩, fun _ => .inr (.inr ?_),
        h.rxWaker, h.asyncRxWaker⟩
      exact ⟨_, List.mem_append_right _ List.mem_cons_self, rfl⟩
    · next hnil =>
      split
      · next hclosed =>
        have hend : l.Ended := ⟨hnil, hclosed⟩
        refine ⟨⟨fun hc => (by cases hc), fun _ => ⟨.inl hend, ?_⟩⟩, fun hc => (by cases hc),
          h.rxWaker, h.asyncRxWaker⟩
        by_cases hasync : l.asyncRx = []
        · exact .inl ⟨hend, hasync⟩
        · exact .inr (.inr (.inr (hok hcall hend hasync)))
      · next hopen =>
        exact ⟨⟨fun hc => (by cases hc), fun hc => (by cases hc)⟩, fun _ => .inl ⟨hnil, rfl⟩,
          fun hclosed => absurd hclosed hopen, h.asyncRxWaker⟩

theorem Attentive.pollAsyncRx {l : VeilidListener} (h : l.Attentive)
    (hok : l.Attended .pollAsyncRx) : l.pollAsyncRx.Attentive := by
  unfold VeilidListener.pollAsyncRx
  split
  · next hcall =>
    have hrx := h.polling hcall
    split
    · next answer asyncRx ha =>
      -- an answer with nothing to hand on is taken while another poll is due
      have hidle : answer.idle = true → l.Due := fun hi => hok hcall (by rw [ha]; exact hi)
      refine ⟨⟨fun hc => ?_, fun hc => ?_⟩, fun hc => (by cases hc), h.rxWaker,
        fun _ => h.asyncRxWaker (by rw [ha]; simp)⟩
      · obtain rfl : answer = .pending := by injection hc
        exact ⟨.inr (hidle rfl), .inr (hidle rfl)⟩
      · obtain rfl : answer = .ready none := by injection hc
        exact ⟨.inr (.inr (hidle rfl)), .inr (.inr (hidle rfl))⟩
    · next hnil =>
      refine ⟨⟨fun _ => ⟨hrx, .inl ⟨hnil, rfl⟩⟩, fun hc => (by cases hc)⟩,
        fun hc => (by cases hc), h.rxWaker, fun hne => ?_⟩
      exact absurd hnil hne
  · exact h

theorem step_attentive (l : VeilidListener) (a : Action) (hok : l.Attended a)
    (h : l.Attentive) : (l.step a).Attentive := by
  cases a with
  | send update =>
    refine h.minds (minds_send l update) ?_ ?_ ?_ <;>
    · rw [step, send]
      split
      · first | rfl | exact h.rxWaker | exact h.asyncRxWaker
      · first | rfl | exact fun _ => rfl | exact h.asyncRxWaker
  | close => exact h.minds (minds_close l) rfl (fun _ => rfl) h.asyncRxWaker
  | pollRx => exact h.pollRx hok
  | pollAsyncRx => exact h.pollAsyncRx hok
  | advance i answer =>
    refine h.minds (minds_advance l i answer) ?_ ?_ ?_ <;>
    · rw [step, advance]
      split
      · split
        · first | rfl | exact h.rxWaker | exact h.asyncRxWaker
        · first | rfl | exact h.rxWaker | exact fun _ => rfl
      · first | rfl | exact h.rxWaker | exact h.asyncRxWaker
      · first | rfl | exact h.rxWaker | exact h.asyncRxWaker

theorem attended_of_contract (l : VeilidListener) (a : Action) (h : l.Attentive)
    (hc : (l.step a).Contract) : l.Attended a := by
  cases a with
  | pollRx =>
    intro hcall hend hasync
    rw [step, pollRx, if_neg hcall, hend.1] at hc
    simp only [hend.2, if_true] at hc
    rcases (hc.readyNone rfl).2 with ⟨-, hnil⟩ | ⟨hnil, -⟩ | hw | ht
    · exact absurd hnil hasync
    · exact absurd hnil hasync
    · cases hw
    · exact ht
  | pollAsyncRx =>
    intro hcall hhead
    obtain ⟨answer, ha, hidle⟩ := (Option.any_eq_true _ _).mp hhead
    obtain ⟨asyncRx, ha⟩ := List.head?_eq_some_iff.mp ha
    rw [step, pollAsyncRx, if_pos hcall, ha] at hc
    have hoff : l.asyncRxWaker = false := h.asyncRxWaker (by rw [ha]; simp)
    have hwatched : AsyncRxWatched { l with
        asyncRx := asyncRx
        lastCall := .returned answer } → l.Due := by
      rintro (⟨-, hw⟩ | hdue)
      · rw [show l.asyncRxWaker = true from hw] at hoff
        cases hoff
      · exact hdue
    cases answer with
    | pending => exact hwatched (hc.pending rfl).2
    | ready event =>
      cases event with
      | some event => cases hidle
      | none =>
        rcases (hc.readyNone rfl).2 with ⟨hend, -⟩ | hw
        · exact h.due_of_ended hcall hend
        · exact hwatched hw
  | _ => exact trivial

theorem attentive_new : new.Attentive :=
  ⟨⟨fun hc => (by cases hc), fun hc => (by cases hc)⟩, fun hc => (by cases hc), fun _ => rfl,
    fun hne => absurd rfl hne⟩

/-- **When the listener honours the contract of a poll**: in exactly the runs where
`get_next_event` takes an answer that is `Poll::Pending` or `Ready(None)` only while it has
been woken since it began, or a spawned task is unfinished; and finds the end of the updates
only with nothing in `async_rx`, or with such a task. -/
theorem poll_contract_iff (as : List Action) :
    (∀ bs, bs <+: as → (Runs.run step new bs).Contract) ↔ Runs.Along step Attended new as :=
  Runs.prefixes_iff_along (fun _ h => h.contract) step_attentive attended_of_contract
    attentive_new as

/-- The log speaks, and a dial comes; both tasks are done before the next poll. -/
def sampleUpdates : List Action :=
  [.send .log, .send (.appMessage (Transport.sampleDial 2 1 20)),
    .pollRx, .pollAsyncRx, .pollRx, .pollAsyncRx,
    .advance 0 .pending, .advance 0 .pending,
    .advance 1 (.ready (some (.incoming 0))), .advance 1 (.ready (some (.incoming 0))),
    .pollRx, .pollAsyncRx]

/-- **An incoming connection can be left behind**: the poll has taken the answer to the
log, which is `Poll::Pending`, and nothing is due to take the other. -/
theorem incoming_left :
    ¬ (∀ bs, bs <+: sampleUpdates → (Runs.run step new bs).Contract) ∧
      (Runs.run step new sampleUpdates).asyncRx = [.ready (some (.incoming 0))] := by
  refine ⟨fun h => ?_, by decide⟩
  have hwatched := ((h sampleUpdates List.prefix_rfl).pending (by decide)).2
  revert hwatched
  unfold AsyncRxWatched
  decide

end VeilidListener
end VeilidTransport
