import VeilidTransport.Events
import VeilidTransport.Foundation.Channel
import VeilidTransport.Foundation.Pool

/-!
# From updates to events

`get_next_event` takes an update and gives it to a task, and returns the answer of an earlier
one.  `Ledger` is the listener with the history of both queues: what was sent and what the
tasks were spawned for, what they have answered and what was returned.

Each queue is a first-in first-out channel, and every update has one task that answers once
(`events_conserved`).  What is not returned yet can still be, as long as somebody may send
updates; once nobody can, `get_next_event` leaves at `rx` and does not look at `async_rx`
(`returnable_iff`).
-/

namespace VeilidTransport

/-- A task that has not given its answer. -/
def ConvertTask.converting : ConvertTask → Bool
  | convert _ => true
  | _ => false

namespace VeilidListener

/-- A listener and its history. -/
structure Ledger where
  listener : VeilidListener
  /-- The updates that `rx` has accepted. -/
  sent : List VeilidUpdate
  /-- The updates that a task was spawned for. -/
  taken : List VeilidUpdate
  /-- The answers the tasks have sent, each with the number of its task. -/
  answers : List (Nat × EventPoll)
  /-- The answers that `get_next_event` has returned. -/
  returned : List EventPoll

namespace Ledger

def new : Ledger := ⟨.new, [], [], [], []⟩

/-- What a step adds to the history. -/
def step (g : Ledger) (a : Action) : Ledger :=
  let l := g.listener
  match a with
  | .send update => { g with
      listener := l.send update
      sent := if l.rxClosed ∨ capacity ≤ l.rx.length then g.sent else g.sent ++ [update] }
  | .close => { g with listener := l.close }
  | .pollRx => { g with
      listener := l.pollRx
      taken := if l.lastCall = .polling then g.taken else g.taken ++ l.rx.head?.toList }
  | .pollAsyncRx => { g with
      listener := l.pollAsyncRx
      returned := if l.lastCall = .polling then g.returned ++ l.asyncRx.head?.toList
        else g.returned }
  | .advance i answer => { g with
      listener := l.advance i answer
      answers := if l.tasks[i]?.any ConvertTask.converting ∧ l.asyncRx.length < capacity
        then g.answers ++ [(i, answer)] else g.answers }

/-- The history is kept beside the listener. -/
theorem listener_run (g : Ledger) (as : List Action) :
    (Runs.run step g as).listener = Runs.run VeilidListener.step g.listener as := by
  induction as generalizing g with
  | nil => rfl
  | cons a as ih =>
    rw [Runs.run_cons, ih, Runs.run_cons]
    cases a <;> rfl

/-- The tasks that have still to answer. -/
def converting (g : Ledger) : List ConvertTask := g.listener.tasks.filter ConvertTask.converting

/-- The numbers of the tasks that have answered. -/
def answered (g : Ledger) : List Nat := g.answers.map Prod.fst

/-- The `i`-th task has its update from `rx`, and has answered or will. -/
def Accounts (g : Ledger) (i : Nat) : ConvertTask → Prop
  | .convert update => g.taken[i]? = some update ∧ i ∉ g.answered
  | _ => i ∈ g.answered

/-- **The books balance.** -/
structure Balanced (g : Ledger) : Prop where
  rx : g.taken ++ g.listener.rx = g.sent
  asyncRx : g.returned ++ g.listener.asyncRx = g.answers.map Prod.snd
  tasks : g.listener.tasks.length = g.taken.length
  accounts : ∀ i task, g.listener.tasks[i]? = some task → g.Accounts i task
  numbers : ∀ i ∈ g.answered, i < g.listener.tasks.length
  once : g.answered.Nodup
  count : g.answers.length + g.converting.length = g.taken.length
  rxLength : g.listener.rx.length ≤ capacity
  asyncRxLength : g.listener.asyncRx.length ≤ capacity

theorem balanced_new : new.Balanced :=
  ⟨rfl, rfl, rfl, fun _ _ h => (by cases h), fun _ h => absurd h List.not_mem_nil, .nil, rfl,
    Nat.zero_le _, Nat.zero_le _⟩

/-- What leaves the tasks and the answers alone leaves the accounts. -/
theorem Balanced.of_queues {g g' : Ledger} (h : g.Balanced)
    (htasks : g'.listener.tasks = g.listener.tasks) (htaken : g'.taken = g.taken)
    (hanswers : g'.answers = g.answers) (hrx : g'.taken ++ g'.listener.rx = g'.sent)
    (hasync : g'.returned ++ g'.listener.asyncRx = g'.answers.map Prod.snd)
    (hlength : g'.listener.rx.length ≤ capacity)
    (hlength' : g'.listener.asyncRx.length ≤ g.listener.asyncRx.length) : g'.Balanced := by
  have hanswered : g'.answered = g.answered := by rw [answered, hanswers, answered]
  have hconverting : g'.converting = g.converting := by rw [converting, htasks, converting]
  refine ⟨hrx, hasync, ?_, fun i task hi => ?_, ?_, ?_, ?_, hlength,
    Nat.le_trans hlength' h.asyncRxLength⟩
  · rw [htasks, htaken]
    exact h.tasks
  · rw [htasks] at hi
    have hold := h.accounts i task hi
    cases task <;> simpa only [Accounts, htaken, hanswered] using hold
  · rw [hanswered, htasks]
    exact h.numbers
  · rw [hanswered]
    exact h.once
  · rw [hanswers, hconverting, htaken]
    exact h.count

theorem Balanced.send {g : Ledger} (h : g.Balanced) (update : VeilidUpdate) :
    (g.step (.send update)).Balanced := by
  by_cases hfull : g.listener.rxClosed ∨ capacity ≤ g.listener.rx.length
  · have hsame : g.step (.send update) = g := by
      simp only [step, VeilidListener.send, if_pos hfull]
    rw [hsame]
    exact h
  · have hroom : g.listener.rx.length < capacity := Nat.lt_of_not_le fun hle => hfull (.inr hle)
    simp only [step, VeilidListener.send, if_neg hfull]
    refine h.of_queues rfl rfl rfl ?_ h.asyncRx ?_ (Nat.le_refl _)
    · show g.taken ++ (g.listener.rx ++ [update]) = g.sent ++ [update]
      rw [← List.append_assoc, h.rx]
    · show (g.listener.rx ++ [update]).length ≤ capacity
      rw [List.length_append]
      exact hroom

/-- An update is taken, and its task has the next number. -/
theorem Balanced.take {g : Ledger} (h : g.Balanced) {update : VeilidUpdate}
    {rx : List VeilidUpdate} (hrx : g.listener.rx = update :: rx) {l : VeilidListener}
    (hl : l.rx = rx) (htasks : l.tasks = g.listener.tasks ++ [.convert update])
    (hasync : l.asyncRx = g.listener.asyncRx) :
    Balanced { g with listener := l, taken := g.taken ++ [update] } := by
  refine ⟨?_, ?_, ?_, fun i task hi => ?_, fun i hi => ?_, h.once, ?_, ?_, ?_⟩
  · show g.taken ++ [update] ++ l.rx = g.sent
    rw [hl, ← h.rx, hrx, List.append_assoc]
    rfl
  · show g.returned ++ l.asyncRx = _
    rw [hasync]
    exact h.asyncRx
  · show l.tasks.length = (g.taken ++ [update]).length
    rw [htasks, List.length_append, List.length_append, h.tasks]
    rfl
  · have hi' : (g.listener.tasks ++ [.convert update])[i]? = some task := by rw [← htasks]; exact hi
    rcases getElem?_concat_cases hi' with hold | ⟨rfl, rfl⟩
    · have hacc := h.accounts i task hold
      have hlt : i < g.taken.length := h.tasks ▸ (List.getElem?_eq_some_iff.mp hold).1
      cases task with
      | convert u => exact ⟨(List.getElem?_append_left hlt).trans hacc.1, hacc.2⟩
      | wake => exact hacc
      | done => exact hacc
    · refine ⟨?_, fun hmem => Nat.lt_irrefl _ (h.numbers _ hmem)⟩
      show (g.taken ++ [update])[g.listener.tasks.length]? = some update
      rw [h.tasks]
      exact List.getElem?_concat_length
  · show i < l.tasks.length
    rw [htasks, List.length_append]
    exact Nat.lt_add_right _ (h.numbers i hi)
  · show g.answers.length + (l.tasks.filter ConvertTask.converting).length =
      (g.taken ++ [update]).length
    rw [htasks, List.filter_append, List.length_append, List.length_append, ← h.count]
    rfl
  · show l.rx.length ≤ capacity
    have hle := h.rxLength
    rw [hrx, List.length_cons] at hle
    rw [hl]
    omega
  · show l.asyncRx.length ≤ capacity
    rw [hasync]
    exact h.asyncRxLength

/-- One task less has still to answer. -/
theorem converting_set {tasks : List ConvertTask} {i : Nat} {update : VeilidUpdate}
    (hi : tasks[i]? = some (.convert update)) :
    ((tasks.set i .wake).filter ConvertTask.converting).length + 1 =
      (tasks.filter ConvertTask.converting).length := by
  obtain ⟨hlt, hget⟩ := List.getElem?_eq_some_iff.mp hi
  have hpos : 0 < tasks.countP ConvertTask.converting :=
    List.countP_pos_iff.mpr ⟨_, List.mem_of_getElem? hi, rfl⟩
  have hset := List.countP_set (p := ConvertTask.converting) (a := .wake) hlt
  rw [hget, if_pos (by rfl), if_neg (by decide)] at hset
  rw [← List.countP_eq_length_filter, ← List.countP_eq_length_filter, hset]
  omega

/-- A task answers. -/
theorem Balanced.answer {g : Ledger} (h : g.Balanced) {i : Nat} {update : VeilidUpdate}
    (hi : g.listener.tasks[i]? = some (.convert update))
    (hroom : g.listener.asyncRx.length < capacity) (answer : EventPoll) {l : VeilidListener}
    (hrx : l.rx = g.listener.rx) (htasks : l.tasks = g.listener.tasks.set i .wake)
    (hasync : l.asyncRx = g.listener.asyncRx ++ [answer]) :
    Balanced { g with listener := l, answers := g.answers ++ [(i, answer)] } := by
  have hnew : i ∉ g.answered := (h.accounts i _ hi).2
  have hanswered : (g.answers ++ [(i, answer)]).map Prod.fst = g.answered ++ [i] := by
    rw [List.map_append]
    rfl
  refine ⟨?_, ?_, ?_, fun j task hj => ?_, fun j hj => ?_, ?_, ?_, ?_, ?_⟩
  · show g.taken ++ l.rx = g.sent
    rw [hrx]
    exact h.rx
  · show g.returned ++ l.asyncRx = (g.answers ++ [(i, answer)]).map Prod.snd
    rw [hasync, ← List.append_assoc, h.asyncRx, List.map_append]
    rfl
  · show l.tasks.length = g.taken.length
    rw [htasks, List.length_set]
    exact h.tasks
  · have hj' : (g.listener.tasks.set i .wake)[j]? = some task := by rw [← htasks]; exact hj
    rcases Pool.getElem?_set_cases hj' with ⟨rfl, rfl⟩ | ⟨hne, hold⟩
    · show j ∈ (g.answers ++ [(j, answer)]).map Prod.fst
      rw [hanswered]
      exact List.mem_append_right _ List.mem_cons_self
    · have hacc := h.accounts j task hold
      cases task with
      | convert u =>
        refine ⟨hacc.1, ?_⟩
        show j ∉ (g.answers ++ [(i, answer)]).map Prod.fst
        rw [hanswered, List.mem_append, List.mem_singleton]
        exact not_or_intro hacc.2 hne
      | wake =>
        show j ∈ (g.answers ++ [(i, answer)]).map Prod.fst
        exact hanswered ▸ List.mem_append_left _ hacc
      | done =>
        show j ∈ (g.answers ++ [(i, answer)]).map Prod.fst
        exact hanswered ▸ List.mem_append_left _ hacc
  · have hj' : j ∈ g.answered ++ [i] := hanswered ▸ hj
    show j < l.tasks.length
    rw [htasks, List.length_set]
    rcases List.mem_append.mp hj' with hj' | hj'
    · exact h.numbers j hj'
    · rw [List.mem_singleton.mp hj']
      exact (List.getElem?_eq_some_iff.mp hi).1
  · show ((g.answers ++ [(i, answer)]).map Prod.fst).Nodup
    rw [hanswered, ← List.concat_eq_append]
    exact h.once.concat hnew
  · show (g.answers ++ [(i, answer)]).length + (l.tasks.filter ConvertTask.converting).length =
      g.taken.length
    have hfilter := converting_set hi
    rw [htasks, List.length_append, ← h.count]
    show g.answers.length + 1 + _ = g.answers.length + (g.listener.tasks.filter _).length
    omega
  · show l.rx.length ≤ capacity
    rw [hrx]
    exact h.rxLength
  · show l.asyncRx.length ≤ capacity
    rw [hasync, List.length_append]
    exact hroom

/-- A task that wakes has answered before. -/
theorem converting_wake {tasks : List ConvertTask} {i : Nat} (hi : tasks[i]? = some .wake) :
    ((tasks.set i .done).filter ConvertTask.converting).length =
      (tasks.filter ConvertTask.converting).length := by
  obtain ⟨hlt, hget⟩ := List.getElem?_eq_some_iff.mp hi
  have hset := List.countP_set (p := ConvertTask.converting) (a := .done) hlt
  rw [hget, if_neg (by decide), if_neg (by decide)] at hset
  rw [← List.countP_eq_length_filter, ← List.countP_eq_length_filter, hset]
  rfl

/-- A task that has answered wakes. -/
theorem Balanced.wake {g : Ledger} (h : g.Balanced) {i : Nat}
    (hi : g.listener.tasks[i]? = some .wake) {l : VeilidListener} (hrx : l.rx = g.listener.rx)
    (htasks : l.tasks = g.listener.tasks.set i .done) (hasync : l.asyncRx = g.listener.asyncRx) :
    Balanced { g with listener := l } := by
  refine ⟨?_, ?_, ?_, fun j task hj => ?_, fun j hj => ?_, h.once, ?_, ?_, ?_⟩
  · show g.taken ++ l.rx = g.sent
    rw [hrx]
    exact h.rx
  · show g.returned ++ l.asyncRx = g.answers.map Prod.snd
    rw [hasync]
    exact h.asyncRx
  · show l.tasks.length = g.taken.length
    rw [htasks, List.length_set]
    exact h.tasks
  · have hj' : (g.listener.tasks.set i .done)[j]? = some task := by rw [← htasks]; exact hj
    rcases Pool.getElem?_set_cases hj' with ⟨rfl, rfl⟩ | ⟨-, hold⟩
    · exact h.accounts j _ hi
    · have hacc := h.accounts j task hold
      cases task <;> exact hacc
  · show j < l.tasks.length
    rw [htasks, List.length_set]
    exact h.numbers j hj
  · show g.answers.length + (l.tasks.filter ConvertTask.converting).length = g.taken.length
    rw [htasks, converting_wake hi]
    exact h.count
  · show l.rx.length ≤ capacity
    rw [hrx]
    exact h.rxLength
  · show l.asyncRx.length ≤ capacity
    rw [hasync]
    exact h.asyncRxLength

/-- `poll_recv` finds `rx` empty. -/
theorem pollRx_nil {l : VeilidListener} (hrx : l.rx = []) :
    l.pollRx.rx = [] ∧ l.pollRx.tasks = l.tasks ∧ l.pollRx.asyncRx = l.asyncRx := by
  unfold VeilidListener.pollRx
  split
  · exact ⟨hrx, rfl, rfl⟩
  · rw [hrx]
    dsimp only
    split <;> exact ⟨rfl, rfl, rfl⟩

theorem step_balanced (g : Ledger) (a : Action) (h : g.Balanced) : (g.step a).Balanced := by
  cases a with
  | send update => exact h.send update
  | close => exact h.of_queues rfl rfl rfl h.rx h.asyncRx h.rxLength (Nat.le_refl _)
  | pollRx =>
    by_cases hpolling : g.listener.lastCall = .polling
    · have hsame : g.step .pollRx = g := by
        simp only [step, VeilidListener.pollRx, if_pos hpolling]
      rw [hsame]
      exact h
    simp only [step, if_neg hpolling]
    cases hrx : g.listener.rx with
    | nil =>
      obtain ⟨hnil, htasks, hasync⟩ := pollRx_nil hrx
      have hold := h.rx
      rw [hrx, List.append_nil] at hold
      rw [List.head?_nil, Option.toList_none, List.append_nil]
      refine h.of_queues htasks rfl rfl ?_ ?_ ?_ ?_
      · show g.taken ++ g.listener.pollRx.rx = g.sent
        rw [hnil, List.append_nil, hold]
      · show g.returned ++ g.listener.pollRx.asyncRx = _
        rw [hasync]
        exact h.asyncRx
      · show g.listener.pollRx.rx.length ≤ capacity
        rw [hnil]
        exact Nat.zero_le _
      · show g.listener.pollRx.asyncRx.length ≤ _
        rw [hasync]
    | cons update rx =>
      refine h.take hrx ?_ ?_ ?_ <;> simp only [VeilidListener.pollRx, if_neg hpolling, hrx]
  | pollAsyncRx =>
    by_cases hpolling : g.listener.lastCall = .polling
    · simp only [step, VeilidListener.pollAsyncRx, if_pos hpolling]
      cases hasync : g.listener.asyncRx with
      | nil =>
        refine h.of_queues rfl rfl rfl h.rx ?_ h.rxLength (Nat.zero_le _)
        show g.returned ++ [] ++ [] = _
        rw [List.append_nil, ← hasync]
        exact h.asyncRx
      | cons answer asyncRx =>
        refine h.of_queues rfl rfl rfl h.rx ?_ h.rxLength ?_
        · show g.returned ++ [answer] ++ asyncRx = _
          rw [List.append_assoc, ← h.asyncRx, hasync]
          rfl
        · show asyncRx.length ≤ g.listener.asyncRx.length
          rw [hasync]
          exact Nat.le_succ _
    · have hsame : g.step .pollAsyncRx = g := by
        simp only [step, VeilidListener.pollAsyncRx, if_neg hpolling]
      rw [hsame]
      exact h
  | advance i answer =>
    cases hi : g.listener.tasks[i]? with
    | none =>
      have hsame : g.step (.advance i answer) = g := by
        simp [step, VeilidListener.advance, hi]
      rw [hsame]
      exact h
    | some task =>
      cases task with
      | convert update =>
        by_cases hroom : g.listener.asyncRx.length < capacity
        · have hfull : ¬ capacity ≤ g.listener.asyncRx.length := Nat.not_le_of_lt hroom
          simp only [step, hi, Option.any_some, ConvertTask.converting, hroom, and_self, if_true]
          refine h.answer hi hroom answer ?_ ?_ ?_ <;>
            simp only [VeilidListener.advance, hi, if_neg hfull]
        · have hsame : g.step (.advance i answer) = g := by
            simp [step, VeilidListener.advance, hi, hroom, Nat.le_of_not_lt hroom]
          rw [hsame]
          exact h
      | wake =>
        simp only [step, hi, Option.any_some, ConvertTask.converting, Bool.false_eq_true,
          false_and, if_false]
        refine h.wake hi ?_ ?_ ?_ <;> simp only [VeilidListener.advance, hi]
      | done =>
        have hsame : g.step (.advance i answer) = g := by
          simp [step, VeilidListener.advance, hi, ConvertTask.converting]
        rw [hsame]
        exact h

theorem run_balanced (as : List Action) : (Runs.run step new as).Balanced :=
  Runs.invariant step_balanced balanced_new as

/-! ## The two channels -/

/-- The updates, from Veilid to the tasks. -/
def updates (g : Ledger) (h : g.taken.length ≤ g.sent.length) : Channel VeilidUpdate :=
  ⟨g.sent, g.taken.length, h⟩

/-- The answers, from the tasks to libp2p. -/
def events (g : Ledger) (h : g.returned.length ≤ (g.answers.map Prod.snd).length) :
    Channel EventPoll :=
  ⟨g.answers.map Prod.snd, g.returned.length, h⟩

theorem Balanced.taken_le {g : Ledger} (h : g.Balanced) : g.taken.length ≤ g.sent.length := by
  rw [← h.rx, List.length_append]
  exact Nat.le_add_right _ _

theorem Balanced.returned_le {g : Ledger} (h : g.Balanced) :
    g.returned.length ≤ (g.answers.map Prod.snd).length := by
  rw [← h.asyncRx, List.length_append]
  exact Nat.le_add_right _ _

/-- **A step puts in or takes out.** -/
theorem step_grows (g : Ledger) (a : Action) :
    g.sent <+: (g.step a).sent ∧ g.taken <+: (g.step a).taken ∧
      g.answers <+: (g.step a).answers ∧ g.returned <+: (g.step a).returned := by
  have hrfl : ∀ {α : Type} (l : List α), l <+: l := fun _ => List.prefix_rfl
  cases a with
  | send update => exact ⟨by simp only [step]; split <;> simp, hrfl _, hrfl _, hrfl _⟩
  | close => exact ⟨hrfl _, hrfl _, hrfl _, hrfl _⟩
  | pollRx => exact ⟨hrfl _, by simp only [step]; split <;> simp, hrfl _, hrfl _⟩
  | pollAsyncRx => exact ⟨hrfl _, hrfl _, hrfl _, by simp only [step]; split <;> simp⟩
  | advance i answer => exact ⟨hrfl _, hrfl _, by simp only [step]; split <;> simp, hrfl _⟩

theorem run_grows (g : Ledger) (as : List Action) :
    g.sent <+: (Runs.run step g as).sent ∧ g.taken <+: (Runs.run step g as).taken ∧
      g.answers <+: (Runs.run step g as).answers ∧
      g.returned <+: (Runs.run step g as).returned := by
  have hkeep : ∀ g' a, (g.sent <+: g'.sent ∧ g.taken <+: g'.taken ∧ g.answers <+: g'.answers ∧
      g.returned <+: g'.returned) → g.sent <+: (step g' a).sent ∧ g.taken <+: (step g' a).taken ∧
      g.answers <+: (step g' a).answers ∧ g.returned <+: (step g' a).returned := by
    rintro g' a ⟨hs, ht, ha, hr⟩
    obtain ⟨ks, kt, ka, kr⟩ := step_grows g' a
    exact ⟨hs.trans ks, ht.trans kt, ha.trans ka, hr.trans kr⟩
  exact Runs.invariant hkeep
    ⟨List.prefix_rfl, List.prefix_rfl, List.prefix_rfl, List.prefix_rfl⟩ as

theorem Balanced.length_eq {g : Ledger} (h : g.Balanced) : g.sent.length =
    g.returned.length + g.listener.asyncRx.length + g.converting.length +
      g.listener.rx.length := by
  have hrx := congrArg List.length h.rx
  have hasync := congrArg List.length h.asyncRx
  have hcount := h.count
  rw [List.length_append] at hrx
  rw [List.length_append, List.length_map] at hasync
  omega

/-- **No update is lost or handled twice, and no answer is lost or returned twice**: in every
run both queues are first-in first-out channels, every update taken has one task, every task
answers once, and what was sent and is not returned waits in a queue or with its task. -/
theorem events_conserved (as bs : List Action) :
    let g := Runs.run step new as
    let g' := Runs.run step new (as ++ bs)
    (∃ h h', Channel.Reaches (g.updates h) (g'.updates h') ∧ (g'.updates h').delivered = g'.taken) ∧
    (∃ h h', Channel.Reaches (g.events h) (g'.events h') ∧ (g'.events h').delivered = g'.returned) ∧
    (∀ i task, g'.listener.tasks[i]? = some task → g'.Accounts i task) ∧
    g'.answered.Nodup ∧
    g'.sent.length = g'.returned.length + g'.listener.asyncRx.length + g'.converting.length +
      g'.listener.rx.length := by
  intro g g'
  have h : g.Balanced := run_balanced as
  have h' : g'.Balanced := run_balanced (as ++ bs)
  have hg : g' = Runs.run step g bs := Runs.run_append step new as bs
  obtain ⟨hsent, htaken, hanswers, hreturned⟩ := run_grows g bs
  rw [← hg] at hsent htaken hanswers hreturned
  refine ⟨⟨h.taken_le, h'.taken_le, ?_, ?_⟩, ⟨h.returned_le, h'.returned_le, ?_, ?_⟩,
    h'.accounts, h'.once, h'.length_eq⟩
  · exact Channel.reaches_iff_le.mpr ⟨hsent, htaken.length_le⟩
  · show g'.sent.take g'.taken.length = g'.taken
    rw [← h'.rx, List.take_left]
  · exact Channel.reaches_iff_le.mpr ⟨hanswers.map Prod.snd, hreturned.length_le⟩
  · show (g'.answers.map Prod.snd).take g'.returned.length = g'.returned
    rw [← h'.asyncRx, List.take_left]

/-! ## What can still be returned -/

/-- What has been taken and is not returned. -/
def held (g : Ledger) : Nat := g.listener.asyncRx.length + g.converting.length

/-- The answers that the poll under way may return. -/
def inPoll (g : Ledger) : Nat := if g.listener.lastCall = .polling then 1 else 0

/-- Somebody may send updates, or the poll under way can return all that is held. -/
def Returnable (g : Ledger) : Prop := g.listener.rxClosed = false ∨ g.held ≤ g.inPoll

instance (g : Ledger) : Decidable g.Returnable := inferInstanceAs (Decidable (_ ∨ _))

/-- Polls and tasks only, and the tasks come to these answers. -/
def Answers (f : Nat → EventPoll) : Action → Prop
  | .send _ => False
  | .close => False
  | .advance i answer => answer = f i
  | _ => True

/-- Once nobody sends updates, more is held than a poll under way can return. -/
def Stranded (g : Ledger) : Prop := g.listener.rxClosed = true ∧ g.inPoll < g.held

/-- What one poll does to `rx`. -/
theorem pollRx_cons {l : VeilidListener} (hpolling : l.lastCall ≠ .polling) {update : VeilidUpdate}
    {rx : List VeilidUpdate} (hrx : l.rx = update :: rx) : l.pollRx = { l with
      woken := false, rx := rx, tasks := l.tasks ++ [.convert update], lastCall := .polling } := by
  simp only [VeilidListener.pollRx, if_neg hpolling, hrx]

theorem pollAsyncRx_nil {l : VeilidListener} (hpolling : l.lastCall = .polling)
    (hasync : l.asyncRx = []) :
    l.pollAsyncRx = { l with asyncRxWaker := true, lastCall := .returned .pending } := by
  simp only [VeilidListener.pollAsyncRx, if_pos hpolling, hasync]

theorem pollAsyncRx_cons {l : VeilidListener} (hpolling : l.lastCall = .polling)
    {answer : EventPoll} {asyncRx : List EventPoll} (hasync : l.asyncRx = answer :: asyncRx) :
    l.pollAsyncRx = { l with asyncRx := asyncRx, lastCall := .returned answer } := by
  simp only [VeilidListener.pollAsyncRx, if_pos hpolling, hasync]

/-- A task does not touch `rx` or the poll. -/
theorem advance_call (l : VeilidListener) (i : Nat) (answer : EventPoll) :
    (l.advance i answer).rxClosed = l.rxClosed ∧ (l.advance i answer).lastCall = l.lastCall := by
  unfold VeilidListener.advance
  split
  · split <;> exact ⟨rfl, rfl⟩
  · exact ⟨rfl, rfl⟩
  · exact ⟨rfl, rfl⟩

/-- A task that answers moves what is held. -/
theorem held_advance (g : Ledger) (i : Nat) (answer : EventPoll) :
    (g.step (.advance i answer)).held = g.held := by
  simp only [step, held, converting, VeilidListener.advance]
  split
  · next update hi =>
    split
    · rfl
    · have hset := converting_set hi
      dsimp only
      rw [List.length_append, List.length_singleton]
      omega
  · next hi => rw [converting_wake hi]
  · rfl

/-- **Nothing is freed once the senders are gone.** -/
theorem step_stranded (g : Ledger) (a : Action) (h : g.Stranded) : (g.step a).Stranded := by
  obtain ⟨hclosed, hlt⟩ := h
  cases a with
  | send update =>
    have hsame : g.step (.send update) = g := by
      simp [step, VeilidListener.send, hclosed]
    rw [hsame]
    exact ⟨hclosed, hlt⟩
  | close => exact ⟨rfl, hlt⟩
  | pollRx =>
    by_cases hpolling : g.listener.lastCall = .polling
    · have hsame : g.step .pollRx = g := by
        simp only [step, VeilidListener.pollRx, if_pos hpolling]
      rw [hsame]
      exact ⟨hclosed, hlt⟩
    rw [inPoll, if_neg hpolling] at hlt
    cases hrx : g.listener.rx with
    | nil => simpa [Stranded, step, VeilidListener.pollRx, hpolling, hrx, hclosed, inPoll, held,
        converting] using hlt
    | cons update rx =>
      -- what is taken is held as well
      simp only [Stranded, step, pollRx_cons hpolling hrx, inPoll, held, converting, if_true,
        List.filter_append, List.length_append]
      refine ⟨hclosed, ?_⟩
      have hone : ([.convert update] : List ConvertTask).filter ConvertTask.converting =
        [.convert update] := rfl
      rw [hone, List.length_singleton]
      simp only [held, converting] at hlt
      omega
  | pollAsyncRx =>
    by_cases hpolling : g.listener.lastCall = .polling
    · rw [inPoll, if_pos hpolling] at hlt
      cases hasync : g.listener.asyncRx with
      | nil =>
        simp only [Stranded, step, pollAsyncRx_nil hpolling hasync, inPoll, held, converting]
        simp only [held, converting] at hlt
        exact ⟨hclosed, Nat.lt_of_succ_lt hlt⟩
      | cons answer asyncRx =>
        simp only [Stranded, step, pollAsyncRx_cons hpolling hasync, inPoll, held, converting]
        simp only [held, converting, hasync, List.length_cons] at hlt
        refine ⟨hclosed, ?_⟩
        rw [if_neg (fun h => by cases h)]
        omega
    · have hsame : g.step .pollAsyncRx = g := by
        simp only [step, VeilidListener.pollAsyncRx, if_neg hpolling]
      rw [hsame]
      exact ⟨hclosed, hlt⟩
  | advance i answer =>
    obtain ⟨hclosed', hcall⟩ := advance_call g.listener i answer
    refine ⟨hclosed'.trans hclosed, ?_⟩
    rw [held_advance]
    simp only [inPoll, step, hcall]
    exact hlt

/-- **A poll under way returns what waits in `async_rx`.** -/
theorem return_head {g : Ledger} (hpolling : g.listener.lastCall = .polling)
    (hne : g.listener.asyncRx ≠ []) (hok : g.Returnable) :
    (g.step .pollAsyncRx).Returnable ∧ (g.step .pollAsyncRx).sent = g.sent ∧
      (g.step .pollAsyncRx).returned.length = g.returned.length + 1 := by
  obtain ⟨answer, asyncRx, hasync⟩ := List.exists_cons_of_ne_nil hne
  refine ⟨?_, rfl, ?_⟩
  · rcases hok with hopen | hle
    · left
      rw [step, pollAsyncRx_cons hpolling hasync]
      exact hopen
    · right
      rw [inPoll, if_pos hpolling, held, hasync, List.length_cons] at hle
      simp only [step, pollAsyncRx_cons hpolling hasync, held, converting]
      have hzero : asyncRx.length + g.converting.length ≤ 0 := by omega
      exact Nat.le_trans hzero (Nat.zero_le _)
  · simp only [step, if_pos hpolling, hasync, List.head?_cons, Option.toList_some,
      List.length_append, List.length_singleton]

/-- **A poll under way can return one answer that is held**: a task may come to its own
before the poll looks at `async_rx`. -/
theorem return_one {g : Ledger} (hpolling : g.listener.lastCall = .polling) (hheld : 0 < g.held)
    (hok : g.Returnable) (f : Nat → EventPoll) : ∃ bs, (∀ a ∈ bs, Answers f a) ∧
      (Runs.run step g bs).Returnable ∧ (Runs.run step g bs).sent = g.sent ∧
      (Runs.run step g bs).returned.length = g.returned.length + 1 := by
  by_cases hne : g.listener.asyncRx = []
  · -- a task is still at work
    obtain ⟨task, htask⟩ : ∃ task, task ∈ g.converting := by
      rw [held, hne, List.length_nil, Nat.zero_add] at hheld
      exact List.exists_mem_of_length_pos hheld
    obtain ⟨hmem, hconverting⟩ := List.mem_filter.mp htask
    obtain ⟨i, hi⟩ := List.mem_iff_getElem?.mp hmem
    cases task with
    | convert update =>
      have hadvance : (g.step (.advance i (f i))).listener.asyncRx = [f i] := by
        have hroom : ¬ capacity ≤ 0 := by decide
        simp [step, VeilidListener.advance, hi, hne, hroom]
      obtain ⟨hclosed, hcall⟩ := advance_call g.listener i (f i)
      have hok' : (g.step (.advance i (f i))).Returnable := by
        rcases hok with hopen | hle
        · exact .inl (hclosed.trans hopen)
        · refine .inr ?_
          rw [held_advance]
          simp only [inPoll, step, hcall]
          exact hle
      obtain ⟨h1, h2, h3⟩ := return_head (hcall.trans hpolling)
        (by rw [hadvance]; exact List.cons_ne_nil _ _) hok'
      refine ⟨[.advance i (f i), .pollAsyncRx], fun a ha => ?_, h1, h2, h3⟩
      rcases List.mem_pair.mp ha with rfl | rfl
      · exact rfl
      · exact trivial
    | wake => cases hconverting
    | done => cases hconverting
  · refine ⟨[.pollAsyncRx], fun a ha => ?_, return_head hpolling hne hok⟩
    rw [List.mem_singleton.mp ha]
    exact trivial

/-- **A new poll**: it holds one update more, or finds none. -/
theorem begin_poll {g : Ledger} (h : g.Balanced) (hpolling : g.listener.lastCall ≠ .polling)
    (hleft : g.returned.length < g.sent.length) (hok : g.Returnable) :
    (g.step .pollRx).Returnable ∧ (g.step .pollRx).listener.lastCall = .polling ∧
      0 < (g.step .pollRx).held := by
  rw [Returnable, inPoll, if_neg hpolling] at hok
  cases hrx : g.listener.rx with
  | nil =>
    have hheld : 0 < g.held := by
      have hlength := h.length_eq
      rw [hrx, List.length_nil] at hlength
      rw [held]
      omega
    have hopen : g.listener.rxClosed = false := by
      rcases hok with hopen | hle
      · exact hopen
      · omega
    have hpoll : g.listener.pollRx =
        { g.listener with woken := false, rxWaker := true, lastCall := .polling } := by
      simp only [VeilidListener.pollRx, if_neg hpolling, hrx, hopen, Bool.false_eq_true, if_false]
    simp only [step, hpoll]
    exact ⟨.inl hopen, trivial, hheld⟩
  | cons update rx =>
    have hlength : (g.step .pollRx).held = g.held + 1 := by
      simp only [step, pollRx_cons hpolling hrx, held, converting, List.filter_append,
        List.length_append]
      rfl
    refine ⟨?_, ?_, ?_⟩
    · rcases hok with hopen | hle
      · left
        rw [step, pollRx_cons hpolling hrx]
        exact hopen
      · right
        have hone : (g.step .pollRx).inPoll = 1 := by
          simp only [inPoll, step, pollRx_cons hpolling hrx, if_true]
        rw [hlength, hone]
        exact Nat.succ_le_succ hle
    · rw [step, pollRx_cons hpolling hrx]
    · rw [hlength]
      exact Nat.succ_pos _

/-- **One answer more**, whatever the listener is doing. -/
theorem return_next {g : Ledger} (h : g.Balanced) (hleft : g.returned.length < g.sent.length)
    (hok : g.Returnable) (f : Nat → EventPoll) : ∃ bs, (∀ a ∈ bs, Answers f a) ∧
      (Runs.run step g bs).Returnable ∧ (Runs.run step g bs).sent = g.sent ∧
      (Runs.run step g bs).returned.length = g.returned.length + 1 := by
  have hidle : ∀ g : Ledger, g.Balanced → g.listener.lastCall ≠ .polling →
      g.returned.length < g.sent.length → g.Returnable → ∃ bs, (∀ a ∈ bs, Answers f a) ∧
      (Runs.run step g bs).Returnable ∧ (Runs.run step g bs).sent = g.sent ∧
      (Runs.run step g bs).returned.length = g.returned.length + 1 := by
    intro g h hpolling hleft hok
    obtain ⟨hok', hpolling', hheld⟩ := begin_poll h hpolling hleft hok
    obtain ⟨bs, hbs, h1, h2, h3⟩ := return_one hpolling' hheld hok' f
    refine ⟨.pollRx :: bs, fun a ha => ?_, h1, h2, h3⟩
    rcases List.mem_cons.mp ha with rfl | ha
    · exact trivial
    · exact hbs a ha
  by_cases hpolling : g.listener.lastCall = .polling
  · by_cases hheld : 0 < g.held
    · exact return_one hpolling hheld hok f
    · -- this poll has nothing to return
      have hzero : g.held = 0 := Nat.eq_zero_of_not_pos hheld
      have hasync : g.listener.asyncRx = [] :=
        List.eq_nil_of_length_eq_zero (Nat.eq_zero_of_add_eq_zero_right hzero)
      have hpoll := pollAsyncRx_nil hpolling hasync
      have hheld' : (g.step .pollAsyncRx).held = 0 := by
        simp only [step, hpoll, held, converting]
        exact hzero
      have hreturned : (g.step .pollAsyncRx).returned = g.returned := by
        simp only [step, if_pos hpolling, hasync, List.head?_nil, Option.toList_none,
          List.append_nil]
      obtain ⟨bs, hbs, h1, h2, h3⟩ := hidle (g.step .pollAsyncRx) (step_balanced g _ h)
        (by simp only [step, hpoll]; exact fun h => by cases h) (by rw [hreturned]; exact hleft)
        (.inr (by rw [hheld']; exact Nat.zero_le _))
      refine ⟨.pollAsyncRx :: bs, fun a ha => ?_, h1, h2, by rw [← hreturned]; exact h3⟩
      rcases List.mem_cons.mp ha with rfl | ha
      · exact trivial
      · exact hbs a ha
  · exact hidle g h hpolling hleft hok

/-- **When all that was sent can still be returned**: in every reachable state, whatever the
tasks come to, if somebody may still send updates, or nothing is held but what the poll under
way can return. -/
theorem returnable_iff (as : List Action) (f : Nat → EventPoll) :
    let g := Runs.run step new as
    (∃ bs, (∀ a ∈ bs, Answers f a) ∧
      (Runs.run step g bs).returned.length = (Runs.run step g bs).sent.length) ↔
      g.Returnable := by
  intro g
  have h : g.Balanced := run_balanced as
  constructor
  · rintro ⟨bs, -, heq⟩
    by_contra hnot
    obtain ⟨hclosed, hlt⟩ := not_or.mp hnot
    have hstranded : (Runs.run step g bs).Stranded :=
      Runs.invariant step_stranded ⟨Bool.eq_true_of_not_eq_false hclosed, Nat.lt_of_not_le hlt⟩ bs
    have hlength := (Runs.invariant step_balanced h bs).length_eq
    have hheld := hstranded.2
    rw [held] at hheld
    omega
  · intro hok
    obtain ⟨n, hn⟩ : ∃ n, g.sent.length = g.returned.length + n :=
      Nat.exists_eq_add_of_le (h.length_eq ▸ by omega)
    clear_value g
    induction n generalizing g with
    | zero => exact ⟨[], fun _ ha => absurd ha List.not_mem_nil, hn.symm⟩
    | succ n ih =>
      obtain ⟨bs, hbs, hok', hsent, hreturned⟩ := return_next h (by omega) hok f
      obtain ⟨cs, hcs, heq⟩ := ih (Runs.run step g bs) (Runs.invariant step_balanced h bs) hok'
        (by rw [hsent, hreturned]; omega)
      refine ⟨bs ++ cs, fun a ha => ?_, ?_⟩
      · rcases List.mem_append.mp ha with ha | ha
        · exact hbs a ha
        · exact hcs a ha
      · rw [Runs.run_append]
        exact heq

end Ledger
end VeilidListener
end VeilidTransport
