import VeilidTransport.Events
import VeilidTransport.Sample

/-!
# The transport libp2p sees

`VeilidTransport` is driven by libp2p: `listen_on` starts the Veilid node and creates the
listener, `dial` makes a future that connects, and `poll` hands on the listener's events and
runs the heartbeat.  `Surface` is its state, around the listener's queues (`VeilidListener`)
and the node with its streams (`Transport`).

`listen_results` says what the calls of `listen_on` come to, in order.  The listener stands
behind a mutex, and a panic under its lock poisons it.  There is one such panic: `dial` asks
the listener for its address, and where there is none yet, `get_local_address` calls
`spawn_local`, which panics outside a `LocalSet`.  `never_deaf_iff` says when it happens, and
`deaf_forever` what is left of the transport then.
-/

namespace VeilidTransport

abbrev ListenerId := Nat

inductive VeilidError (ApiError : Type) where
  | veilidApiError (error : ApiError)
  | callbackNotDefined
  | couldNotCreateListener
  | apiNotDefined
  | generic (message : String)
  deriving DecidableEq

inductive TransportError (ApiError : Type) where
  | multiaddrNotSupported (addr : List Char)
  | other (error : VeilidError ApiError)
  deriving DecidableEq

/-- What the spawned start of the Veilid node comes to. -/
inductive ApiAnswer (ApiError : Type) where
  /-- `api_startup` and `attach` have returned. -/
  | attached
  /-- One of them has failed. -/
  | failed (error : ApiError)
  /-- The runtime has dropped the task, and nothing is sent. -/
  | dropped
  deriving DecidableEq

/-- What a call comes to. -/
inductive CallAnswer (ApiError : Type) where
  | ok
  | refused (error : TransportError ApiError)
  | panicked
  deriving DecidableEq

/-- What happens to the listener's queues from outside. -/
inductive QueueAction where
  /-- The update callback's task sends an update. -/
  | send (update : VeilidUpdate)
  /-- The `i`-th task of `get_next_event` takes a step. -/
  | advance (i : Nat) (answer : EventPoll)

def QueueAction.action : QueueAction → VeilidListener.Action
  | send update => .send update
  | advance i answer => .advance i answer

/-- What goes on at the node without a call: tasks, futures, connections and time. -/
inductive Beside where
  | update (packet : Payload)
  | resume (i : Nat) (target : Option Target) (epochSecs : Nat)
  | pump (i : Nat)
  | pollRead (h : Handle) (waker : Waker) (len : Nat)
  | pollWrite (h : Handle) (buf : Bytes)
  | tick (d : Nat)
  | setLocalAddress (localAddress : Address)

def Beside.action : Beside → Transport.Action
  | update packet => .update packet
  | resume i target epochSecs => .resume i target epochSecs
  | pump i => .pump i
  | pollRead h waker len => .pollRead h waker len
  | pollWrite h buf => .pollWrite h buf
  | tick d => .tick d
  | setLocalAddress localAddress => .setLocalAddress localAddress

/-- `Arc<Mutex<VeilidListener>>`. -/
structure ListenerCell where
  id : ListenerId
  poisoned : Bool
  queues : VeilidListener

/-- The heartbeat's `Interval`: when it has fired its next deadline lies ahead, by one period at
most. -/
structure Timer where
  next : Instant → Instant → Instant
  next_spec : ∀ deadline now : Instant, deadline ≤ now →
    now < next deadline now ∧ next deadline now ≤ now + secs settings.heartbeatSecs

/-- `VeilidTransport`. -/
structure Surface (ApiError PublicKey : Type) where
  updateCallback : Bool
  configCallback : Bool
  /-- The receiver of updates, with those that wait in it. -/
  updateReceiver : Option (List VeilidUpdate)
  api : Bool
  /-- There is a handle to a runtime. -/
  runtime : Bool
  listener : Option ListenerCell
  events : List TransportEvent
  node : Transport PublicKey
  /-- The heartbeat's next deadline. -/
  deadline : Instant
  /-- History: the calls of `listen_on`, and their answers. -/
  listened : List (ListenerId × CallAnswer ApiError)

namespace Surface
variable {ApiError PublicKey : Type}

def new (runtime : Bool) (keypair : Keypair PublicKey) (now : Instant) :
    Surface ApiError PublicKey where
  updateCallback := true
  configCallback := true
  updateReceiver := some []
  api := false
  runtime := runtime
  listener := none
  events := []
  node := .new none keypair now
  deadline := now + secs settings.heartbeatSecs
  listened := []

/-- `listen_on`; the address is not looked at. -/
def listenOn (t : Surface ApiError PublicKey) (id : ListenerId) (answer : ApiAnswer ApiError) :
    CallAnswer ApiError × Surface ApiError PublicKey :=
  if t.updateCallback = false then (.refused (.other .callbackNotDefined), t)
  else if t.configCallback = false then (.refused (.other .callbackNotDefined), t)
  else if t.api = false then
    -- `self.runtime.as_ref().unwrap()`
    if t.runtime = false then (.panicked, t)
    else
      match answer with
      -- `rx.recv().unwrap()`
      | .dropped => (.panicked, t)
      | .failed error => (.refused (.other (.veilidApiError error)), t)
      | .attached =>
        match t.updateReceiver with
        | some rx => (.ok, { t with
            api := true
            updateReceiver := none
            listener := some ⟨id, false, { VeilidListener.new with rx := rx }⟩ })
        | none => (.refused (.other .couldNotCreateListener), { t with api := true })
  else (.refused (.other .couldNotCreateListener), t)

/-- The listener's mutex, if there is a listener and a thread has not panicked under it. -/
def lock (t : Surface ApiError PublicKey) : Option ListenerCell :=
  t.listener.filter fun cell => cell.poisoned = false

def poison (t : Surface ApiError PublicKey) : Surface ApiError PublicKey :=
  { t with listener := t.listener.map fun cell => { cell with poisoned := true } }

section
variable [KeyCodec]

/-- `dial`, up to the future it returns; `localSet` tells whether it is called inside a
`LocalSet`. -/
def dial (t : Surface ApiError PublicKey) (addr : List Char) (localSet : Bool) :
    CallAnswer ApiError × Surface ApiError PublicKey :=
  match Address.tryFrom addr with
  | none => (.refused (.multiaddrNotSupported addr), t)
  | some remoteAddress =>
    if t.api = false then (.refused (.other .apiNotDefined), t)
    else if t.listener.isNone then (.refused (.other (.generic "Listener not found")), t)
    else if t.lock.isNone then (.refused (.other (.generic "Failed to lock listener")), t)
    else if t.node.localAddress = none then
      -- `get_local_address` spawns a task that creates one, on the thread it runs on
      if localSet then (.refused (.other (.generic "Local address not found")), t)
      else (.panicked, t.poison)
    else if (t.node.registered remoteAddress).any (·.status = .listen) then
      (.refused (.other (.generic "Already connecting")), t)
    else (.ok, { t with node := t.node.dial remoteAddress })

end

/-- `remove_listener`. -/
def removeListener (t : Surface ApiError PublicKey) (_ : ListenerId) :
    Bool × Surface ApiError PublicKey := (true, t)

/-- `get_next_event`, under the listener's lock; between its halves the queues move. -/
def getNextEvent (t : Surface ApiError PublicKey) (between : List QueueAction) :
    Option TransportEvent × Surface ApiError PublicKey :=
  match t.lock with
  | none => (none, t)
  | some cell =>
    let queues := (Runs.run VeilidListener.step cell.queues.pollRx
      (between.map QueueAction.action)).pollAsyncRx
    let t := { t with listener := some { cell with queues := queues } }
    match queues.lastCall with
    | .returned (.ready (some event)) => (some event, t)
    | _ => (none, t)

section
variable [KeyCodec] [Identity PublicKey]

/-- `while let Poll::Ready(Some(())) = self.heartbeat.poll_next_unpin(cx)`: once it has fired
the timer is pending. -/
def beat (timer : Timer) (t : Surface ApiError PublicKey) : Surface ApiError PublicKey :=
  if t.deadline ≤ t.node.now then
    { t with
      node := if t.lock.isSome then t.node.heartbeat else t.node
      deadline := timer.next t.deadline t.node.now }
  else t

/-- `poll`: an event, or `Poll::Pending`. -/
def poll (timer : Timer) (t : Surface ApiError PublicKey) (between : List QueueAction) :
    Option TransportEvent × Surface ApiError PublicKey :=
  match t.events with
  | event :: events => (some event, { t with events := events })
  | [] =>
    match t.getNextEvent between with
    | (some event, t) => (some event, t)
    | (none, t) => (none, t.beat timer)

end

/-- An update is sent, or a task of the listener takes a step. -/
def queue (t : Surface ApiError PublicKey) (a : QueueAction) : Surface ApiError PublicKey :=
  match t.listener with
  | some cell => { t with
      listener := some { cell with queues := cell.queues.step a.action } }
  | none =>
    match a, t.updateReceiver with
    | .send update, some rx =>
      if VeilidListener.capacity ≤ rx.length then t
      else { t with updateReceiver := some (rx ++ [update]) }
    | _, _ => t

inductive Action (ApiError : Type) where
  | listenOn (id : ListenerId) (answer : ApiAnswer ApiError)
  | dial (addr : List Char) (localSet : Bool)
  | removeListener (id : ListenerId)
  | poll (between : List QueueAction)
  | queue (a : QueueAction)
  | beside (a : Beside)

section
variable [KeyCodec] [Identity PublicKey]

def step (timer : Timer) (t : Surface ApiError PublicKey) :
    Action ApiError → Surface ApiError PublicKey
  | .listenOn id answer =>
    let (called, t) := t.listenOn id answer
    { t with listened := t.listened ++ [(id, called)] }
  | .dial addr localSet => (t.dial addr localSet).2
  | .removeListener id => (t.removeListener id).2
  | .poll between => (t.poll timer between).2
  | .queue a => t.queue a
  | .beside a => { t with node := t.node.step a.action }

end

/-! ## Starting -/

/-- The start has failed. -/
def failed : CallAnswer ApiError → Bool
  | .panicked => true
  | .refused (.other (.veilidApiError _)) => true
  | _ => false

/-- **What the calls of `listen_on` have come to**: failures, the call that made the listener,
and refusals. -/
inductive Listened (runtime : Bool) :
    Option ListenerId → List (ListenerId × CallAnswer ApiError) → Prop where
  | failing (failures : List (ListenerId × CallAnswer ApiError))
      (hfailed : ∀ call ∈ failures, failed call.2 = true) : Listened runtime none failures
  | listening (id : ListenerId) (failures refusals : List (ListenerId × CallAnswer ApiError))
      (hruntime : runtime = true) (hfailed : ∀ call ∈ failures, failed call.2 = true)
      (hrefused : ∀ call ∈ refusals, call.2 = .refused (.other .couldNotCreateListener)) :
      Listened runtime (some id) (failures ++ (id, .ok) :: refusals)

/-- **The invariant of a transport.** -/
structure Wired (runtime : Bool) (t : Surface ApiError PublicKey) : Prop where
  updateCallback : t.updateCallback = true
  configCallback : t.configCallback = true
  events : t.events = []
  handle : t.runtime = runtime
  api : t.api = t.listener.isSome
  updateReceiver : t.updateReceiver.isSome = !t.listener.isSome
  listened : Listened runtime (t.listener.map ListenerCell.id) t.listened

theorem wired_new (runtime : Bool) (keypair : Keypair PublicKey) (now : Instant) :
    Wired runtime (new runtime keypair now : Surface ApiError PublicKey) :=
  ⟨rfl, rfl, rfl, rfl, rfl, rfl, .failing [] fun _ h => absurd h List.not_mem_nil⟩

variable {runtime : Bool} {t : Surface ApiError PublicKey}

/-- What a call or a task does to the listener leaves its id, and the node is nothing to the
transport. -/
theorem Wired.of_listener (h : Wired runtime t) {listener : Option ListenerCell}
    (hid : listener.map ListenerCell.id = t.listener.map ListenerCell.id)
    (n : Transport PublicKey) (deadline : Instant) :
    Wired runtime { t with listener := listener, node := n, deadline := deadline } := by
  have hsome : listener.isSome = t.listener.isSome := by
    rw [← Option.isSome_map (f := ListenerCell.id), hid, Option.isSome_map]
  refine ⟨h.updateCallback, h.configCallback, h.events, h.handle, h.api.trans hsome.symm, ?_, ?_⟩
  · exact h.updateReceiver.trans (congrArg _ hsome.symm)
  · show Listened runtime (listener.map ListenerCell.id) t.listened
    rw [hid]
    exact h.listened

/-- **A call of `listen_on`.** -/
theorem Wired.listenOn (h : Wired runtime t) (id : ListenerId) (answer : ApiAnswer ApiError) :
    Wired runtime { (t.listenOn id answer).2 with
      listened := (t.listenOn id answer).2.listened ++ [(id, (t.listenOn id answer).1)] } := by
  have hl := h.listened
  unfold Surface.listenOn
  rw [if_neg (by simp [h.updateCallback]), if_neg (by simp [h.configCallback])]
  by_cases hapi : t.api = false
  · -- no call has succeeded yet
    have hnone : t.listener = none := by
      rw [← Option.not_isSome_iff_eq_none, ← h.api, hapi]
      exact Bool.false_ne_true
    rw [hnone, Option.map_none] at hl
    have hfail : ∀ called : CallAnswer ApiError, failed called = true →
        Wired runtime { t with listened := t.listened ++ [(id, called)] } := by
      intro called hcalled
      refine ⟨h.updateCallback, h.configCallback, h.events, h.handle, h.api, h.updateReceiver, ?_⟩
      generalize t.listened = l at hl ⊢
      cases hl with
      | failing _ hfailed =>
        show Listened runtime (t.listener.map ListenerCell.id) (l ++ [(id, called)])
        rw [hnone]
        refine .failing _ fun call hcall => ?_
        rcases List.mem_append.mp hcall with hcall | hcall
        · exact hfailed call hcall
        · rw [List.mem_singleton.mp hcall]
          exact hcalled
    rw [if_pos hapi]
    by_cases hruntime : t.runtime = false
    · rw [if_pos hruntime]
      exact hfail _ rfl
    rw [if_neg hruntime]
    cases answer with
    | dropped => exact hfail _ rfl
    | failed error => exact hfail _ rfl
    | attached =>
      obtain ⟨rx, hrx⟩ := Option.isSome_iff_exists.mp (h.updateReceiver.trans (by rw [hnone]; rfl))
      simp only [hrx]
      refine ⟨h.updateCallback, h.configCallback, h.events, h.handle, rfl, rfl, ?_⟩
      generalize hlist : t.listened = l at hl ⊢
      cases hl with
      | failing _ hfailed =>
        refine .listening id _ [] ?_ hfailed fun _ hcall => absurd hcall List.not_mem_nil
        rw [← h.handle]
        exact Bool.eq_true_of_not_eq_false hruntime
  · -- there is a listener
    rw [if_neg hapi]
    refine ⟨h.updateCallback, h.configCallback, h.events, h.handle, h.api, h.updateReceiver, ?_⟩
    obtain ⟨cell, hcell⟩ : ∃ cell, t.listener = some cell :=
      Option.isSome_iff_exists.mp (h.api.symm.trans (Bool.eq_true_of_not_eq_false hapi))
    rw [hcell, Option.map_some] at hl
    show Listened runtime (t.listener.map ListenerCell.id) (t.listened ++ _)
    rw [hcell, Option.map_some]
    generalize t.listened = l at hl ⊢
    cases hl with
    | listening _ failures refusals hruntime hfailed hrefused =>
      rw [List.append_assoc, List.cons_append]
      refine .listening _ failures _ hruntime hfailed fun call hcall => ?_
      rcases List.mem_append.mp hcall with hcall | hcall
      · exact hrefused call hcall
      · rw [List.mem_singleton.mp hcall]

theorem lock_eq_some {cell : ListenerCell} :
    t.lock = some cell ↔ t.listener = some cell ∧ cell.poisoned = false := by
  rw [lock, Option.filter_eq_some_iff, decide_eq_true_eq]

/-- Under the lock the queues move. -/
theorem getNextEvent_cases (t : Surface ApiError PublicKey) (between : List QueueAction) :
    t.lock = none ∧ t.getNextEvent between = (none, t) ∨
    ∃ cell queues, t.lock = some cell ∧
      (t.getNextEvent between).2 = { t with listener := some { cell with queues := queues } } := by
  unfold getNextEvent
  split
  · next hlock => exact .inl ⟨hlock, rfl⟩
  · next cell hlock =>
    refine .inr ⟨cell, (Runs.run VeilidListener.step cell.queues.pollRx
      (between.map QueueAction.action)).pollAsyncRx, hlock, ?_⟩
    dsimp only
    split <;> rfl

section
variable [KeyCodec]

/-- **A dial**: it is refused, or it panics where the listener has no address, or the node
dials. -/
theorem dial_cases (t : Surface ApiError PublicKey) (addr : List Char) (localSet : Bool) :
    (t.dial addr localSet).2 = t ∨
    ((Address.tryFrom addr).isSome ∧ t.lock.isSome ∧ t.node.localAddress = none ∧
      localSet = false ∧ (t.dial addr localSet).2 = t.poison) ∨
    ∃ r, t.lock.isSome ∧ (t.dial addr localSet).2 = { t with node := t.node.dial r } := by
  unfold dial
  split
  · exact .inl rfl
  · next r hr =>
    split
    · exact .inl rfl
    split
    · exact .inl rfl
    split
    · exact .inl rfl
    next hlock =>
      have hsome : t.lock.isSome := Option.isSome_iff_ne_none.mpr fun h => hlock (by rw [h]; rfl)
      split
      · next hlocal =>
        split
        · exact .inl rfl
        · next hset => exact .inr (.inl ⟨by rw [hr]; rfl, hsome, hlocal, by simpa using hset, rfl⟩)
      · split
        · exact .inl rfl
        · exact .inr (.inr ⟨r, hsome, rfl⟩)

variable [Identity PublicKey]

/-- A beat touches the node under the lock only. -/
theorem beat_eq (timer : Timer) (t : Surface ApiError PublicKey) : ∃ n deadline,
    t.beat timer = { t with node := n, deadline := deadline } ∧ (t.lock = none → n = t.node) := by
  unfold beat
  split
  · refine ⟨_, _, rfl, fun hlock => ?_⟩
    rw [hlock]
    rfl
  · exact ⟨t.node, t.deadline, rfl, fun _ => rfl⟩

/-- **A poll**: without the lock it finds nothing and does nothing to the node, and with it
the queues and the node move. -/
theorem poll_cases (timer : Timer) (hevents : t.events = []) (between : List QueueAction) :
    (∃ deadline, t.lock = none ∧
      t.poll timer between = (none, { t with deadline := deadline })) ∨
    ∃ cell queues n deadline, t.lock = some cell ∧ (t.poll timer between).2 =
      { t with
        listener := some { cell with queues := queues }
        node := n
        deadline := deadline } := by
  have hpoll : t.poll timer between = match t.getNextEvent between with
      | (some event, t) => (some event, t)
      | (none, t) => (none, t.beat timer) := by
    unfold poll
    split
    · next h => cases hevents.symm.trans h
    · rfl
  rw [hpoll]
  rcases getNextEvent_cases t between with ⟨hlock, heq⟩ | ⟨cell, queues, hlock, heq⟩
  · obtain ⟨n, deadline, hbeat, hnode⟩ := beat_eq timer t
    refine .inl ⟨deadline, hlock, ?_⟩
    rw [heq]
    dsimp only
    rw [hbeat, hnode hlock]
  · refine .inr ⟨cell, queues, ?_⟩
    generalize t.getNextEvent between = r at heq
    obtain ⟨event, t'⟩ := r
    obtain rfl : t' = { t with listener := some { cell with queues := queues } } := heq
    cases event with
    | some event => exact ⟨t.node, t.deadline, hlock, rfl⟩
    | none =>
      obtain ⟨n, deadline, hbeat, -⟩ := beat_eq timer
        { t with listener := some { cell with queues := queues } }
      exact ⟨n, deadline, hlock, hbeat⟩

theorem step_wired (timer : Timer) (t : Surface ApiError PublicKey) (a : Action ApiError)
    (h : Wired runtime t) : Wired runtime (t.step timer a) := by
  cases a with
  | listenOn id answer => exact h.listenOn id answer
  | dial addr localSet =>
    show Wired runtime (t.dial addr localSet).2
    rcases dial_cases t addr localSet with heq | ⟨-, -, -, -, heq⟩ | ⟨r, -, heq⟩
    · rw [heq]
      exact h
    · rw [heq]
      refine h.of_listener ?_ t.node t.deadline
      rw [Option.map_map]
      rfl
    · rw [heq]
      exact h.of_listener rfl _ t.deadline
  | removeListener id => exact h
  | poll between =>
    show Wired runtime (t.poll timer between).2
    rcases poll_cases timer h.events between with
      ⟨deadline, -, heq⟩ | ⟨cell, queues, n, deadline, hlock, heq⟩
    · rw [heq]
      exact h.of_listener rfl t.node deadline
    · rw [heq]
      refine h.of_listener ?_ n deadline
      rw [(lock_eq_some.mp hlock).1]
      rfl
  | queue a =>
    show Wired runtime (t.queue a)
    unfold queue
    split
    · next cell hcell =>
      refine h.of_listener ?_ t.node t.deadline
      rw [hcell]
      rfl
    · split
      · next update rx hrx =>
        split
        · exact h
        · refine ⟨h.updateCallback, h.configCallback, h.events, h.handle, h.api, ?_, h.listened⟩
          rw [← h.updateReceiver, hrx]
          rfl
      · exact h
  | beside a => exact h.of_listener rfl _ t.deadline

theorem run_wired (timer : Timer) (runtime : Bool) (keypair : Keypair PublicKey) (now : Instant)
    (as : List (Action ApiError)) :
    Wired runtime (Runs.run (step timer) (new runtime keypair now) as) :=
  Runs.invariant (step_wired timer) (wired_new runtime keypair now) as

/-- **What the calls of `listen_on` come to**, in every run: failures of the start, then at
most one call that makes the listener, with its id, and none without a runtime; from then on
`CouldNotCreateListener`. -/
theorem listen_results (timer : Timer) (runtime : Bool) (keypair : Keypair PublicKey)
    (now : Instant) (as : List (Action ApiError)) :
    Listened runtime
      ((Runs.run (step timer) (new runtime keypair now) as).listener.map ListenerCell.id)
      (Runs.run (step timer) (new runtime keypair now) as).listened :=
  (run_wired timer runtime keypair now as).listened

/-! ## The poisoned lock -/

/-- The listener's mutex is poisoned. -/
def deaf (t : Surface ApiError PublicKey) : Bool := t.listener.any ListenerCell.poisoned

/-- A dial of a valid address while the listener has none of its own is made in a
`LocalSet`. -/
def Sheltered (t : Surface ApiError PublicKey) : Action ApiError → Prop
  | .dial addr localSet => (Address.tryFrom addr).isSome → t.listener.isSome →
      t.node.localAddress = none → localSet = true
  | _ => True

omit [KeyCodec] [Identity PublicKey] in
theorem lock_eq_none (t : Surface ApiError PublicKey) :
    t.lock = none ↔ t.listener = none ∨ t.deaf = true := by
  rw [lock, deaf]
  cases t.listener with
  | none => simp
  | some cell => simp [Option.filter]

omit [Identity PublicKey] in
/-- A dial that is not sheltered panics under the lock. -/
theorem dial_panics {addr : List Char} (haddr : (Address.tryFrom addr).isSome)
    (hapi : t.api = true) (hlock : t.lock.isSome) (hlocal : t.node.localAddress = none) :
    t.dial addr false = (.panicked, t.poison) := by
  obtain ⟨r, hr⟩ := Option.isSome_iff_exists.mp haddr
  obtain ⟨cell, hcell⟩ := Option.isSome_iff_exists.mp hlock
  have hlistener := (lock_eq_some.mp hcell).1
  simp [dial, hr, hapi, hlistener, hcell, hlocal]

omit [KeyCodec] [Identity PublicKey] in
/-- A new listener is not poisoned. -/
theorem deaf_listenOn (h : Wired runtime t) (id : ListenerId) (answer : ApiAnswer ApiError) :
    (t.listenOn id answer).2.deaf = t.deaf := by
  unfold Surface.listenOn
  by_cases hapi : t.api = false
  · have hlistener : t.listener = none := by
      rw [← Option.not_isSome_iff_eq_none, ← h.api, hapi]
      exact Bool.false_ne_true
    have hnone : t.deaf = false := by
      rw [deaf, hlistener]
      rfl
    rw [if_pos hapi, hnone]
    split
    · exact hnone
    split
    · exact hnone
    split
    · exact hnone
    cases answer with
    | attached =>
      dsimp only
      split
      · rfl
      · exact hnone
    | _ => exact hnone
  · rw [if_neg hapi]
    split
    · rfl
    split <;> rfl

/-- **One step**: nothing but a dial that is not sheltered poisons the lock, and nothing
heals it. -/
theorem deaf_step_iff (timer : Timer) (h : Wired runtime t) (a : Action ApiError) :
    (t.step timer a).deaf = true ↔ t.deaf = true ∨ ¬ t.Sheltered a := by
  have hkeeps : (t.step timer a).deaf = t.deaf → t.Sheltered a →
      ((t.step timer a).deaf = true ↔ t.deaf = true ∨ ¬ t.Sheltered a) := by
    intro heq hok
    rw [heq, or_iff_left (not_not_intro hok)]
  cases a with
  | listenOn id answer => exact hkeeps (deaf_listenOn h id answer) trivial
  | dial addr localSet =>
    by_cases hdeaf : t.deaf = true
    · have hlock := (lock_eq_none t).mpr (.inr hdeaf)
      rcases dial_cases t addr localSet with heq | ⟨-, hsome, -⟩ | ⟨r, hsome, -⟩
      · exact iff_of_true (by rw [step, heq, hdeaf]) (.inl hdeaf)
      · rw [hlock] at hsome
        cases hsome
      · rw [hlock] at hsome
        cases hsome
    by_cases hok : t.Sheltered (.dial addr localSet : Action ApiError)
    · refine hkeeps ?_ hok
      rcases dial_cases t addr localSet with heq | ⟨haddr, hsome, hlocal, hset, -⟩ | ⟨r, -, heq⟩
      · rw [step, heq]
      · obtain ⟨cell, hcell⟩ := Option.isSome_iff_exists.mp hsome
        rw [hok haddr (by rw [(lock_eq_some.mp hcell).1]; rfl) hlocal] at hset
        cases hset
      · rw [step, heq]
        rfl
    · refine iff_of_true ?_ (.inr hok)
      simp only [Sheltered, Classical.not_imp, Bool.not_eq_true] at hok
      obtain ⟨haddr, hsome, hlocal, rfl⟩ := hok
      have hlock : t.lock.isSome := by
        rw [Option.isSome_iff_ne_none]
        intro hnone
        rcases (lock_eq_none t).mp hnone with hnone | hdeaf'
        · rw [hnone] at hsome
          cases hsome
        · exact hdeaf hdeaf'
      rw [step, dial_panics haddr (h.api.trans hsome) hlock hlocal]
      obtain ⟨cell, hcell⟩ := Option.isSome_iff_exists.mp hsome
      rw [deaf, poison, hcell]
      rfl
  | removeListener id => exact hkeeps rfl trivial
  | poll between =>
    refine hkeeps ?_ trivial
    rcases poll_cases timer h.events between with ⟨deadline, -, heq⟩ | ⟨cell, _, _, _, hlock, heq⟩
    · rw [step, heq]
      rfl
    · rw [step, heq, deaf, deaf, (lock_eq_some.mp hlock).1]
      rfl
  | queue a =>
    refine hkeeps ?_ trivial
    show (t.queue a).deaf = t.deaf
    unfold queue
    split
    · next cell hcell =>
      rw [deaf, deaf, hcell]
      rfl
    · split
      · split <;> rfl
      · rfl
  | beside a => exact hkeeps rfl trivial

/-- **When the lock is never poisoned**: in exactly the runs in which, while the listener has
no address of its own, valid addresses are dialed in a `LocalSet` only. -/
theorem never_deaf_iff (timer : Timer) (runtime : Bool) (keypair : Keypair PublicKey)
    (now : Instant) (as : List (Action ApiError)) :
    (∀ bs, bs <+: as → (Runs.run (step timer) (new runtime keypair now) bs).deaf = false) ↔
      Runs.Along (step timer) Sheltered (new runtime keypair now) as := by
  have hinv : Wired runtime (new runtime keypair now : Surface ApiError PublicKey) ∧
      (new runtime keypair now : Surface ApiError PublicKey).deaf = false :=
    ⟨wired_new runtime keypair now, rfl⟩
  have hgood : ∀ t : Surface ApiError PublicKey, Wired runtime t ∧ t.deaf = false →
      t.deaf = false := fun _ h => h.2
  refine Runs.prefixes_iff_along hgood (fun t a hok h => ⟨step_wired timer t a h.1, ?_⟩)
    (fun t a h hstep => ?_) hinv as
  · rw [← Bool.not_eq_true, deaf_step_iff timer h.1]
    exact not_or_intro (by rw [h.2]; exact Bool.false_ne_true) (not_not_intro hok)
  · by_contra hok
    rw [(deaf_step_iff timer h.1 a).mpr (.inr hok)] at hstep
    cases hstep

/-- **A poisoned lock is for ever**: in every continuation no poll finds an event or runs the
heartbeat, and every dial of a valid address is refused. -/
theorem deaf_forever (timer : Timer) (runtime : Bool) (keypair : Keypair PublicKey)
    (now : Instant) (as bs : List (Action ApiError))
    (hdeaf : (Runs.run (step timer) (new runtime keypair now) as).deaf = true) :
    let t := Runs.run (step timer) (new runtime keypair now) (as ++ bs)
    (∀ between, (t.poll timer between).1 = none ∧ (t.poll timer between).2.node = t.node) ∧
    ∀ addr localSet, (t.dial addr localSet).2 = t ∧ ((Address.tryFrom addr).isSome →
      (t.dial addr localSet).1 = .refused (.other (.generic "Failed to lock listener"))) := by
  intro t
  have hw : Wired runtime t := run_wired timer runtime keypair now (as ++ bs)
  have hstays : ∀ t : Surface ApiError PublicKey, ∀ a, Wired runtime t ∧ t.deaf = true →
      Wired runtime (t.step timer a) ∧ (t.step timer a).deaf = true := fun t a h =>
    ⟨step_wired timer t a h.1, (deaf_step_iff timer h.1 a).mpr (.inl h.2)⟩
  have hstill : t.deaf = true := by
    have hrun := Runs.invariant hstays ⟨run_wired timer runtime keypair now as, hdeaf⟩ bs
    rw [← Runs.run_append] at hrun
    exact hrun.2
  have hlock : t.lock = none := (lock_eq_none t).mpr (.inr hstill)
  refine ⟨fun between => ?_, fun addr localSet => ?_⟩
  · rcases poll_cases timer hw.events between with ⟨deadline, -, heq⟩ | ⟨_, _, _, _, hsome, -⟩
    · rw [heq]
      exact ⟨rfl, rfl⟩
    · rw [hlock] at hsome
      cases hsome
  · obtain ⟨cell, hcell, -⟩ := (Option.any_eq_true _ _).mp hstill
    have hapi : t.api = true := by rw [hw.api, hcell]; rfl
    cases haddr : Address.tryFrom addr with
    | none => simp [dial, haddr]
    | some r => simp [dial, haddr, hapi, hcell, hlock]

end

section
open Sample

/-- A timer that fires every heartbeat. -/
def sampleTimer : Timer where
  next _ now := now + secs settings.heartbeatSecs
  next_spec _ now _ := ⟨Nat.lt_add_of_pos_right (by decide), Nat.le_refl _⟩

/-- The listener has started, and a dial comes before its address. -/
def earlyDial : List (Action Unit) :=
  [.listenOn 1 .attached, .dial (addressOf 1).toMultiaddr false]

theorem deaf_forever_sample :
    let t := Runs.run (step sampleTimer) (new true (keypairOf 2) 0)
      (earlyDial ++ [.beside (.setLocalAddress (addressOf 2))])
    (∀ between, (t.poll sampleTimer between).1 = none ∧
      (t.poll sampleTimer between).2.node = t.node) ∧
    ∀ addr localSet, (t.dial addr localSet).2 = t ∧ ((Address.tryFrom addr).isSome →
      (t.dial addr localSet).1 = .refused (.other (.generic "Failed to lock listener"))) :=
  deaf_forever sampleTimer true (keypairOf 2) 0 earlyDial _ (by decide)

end

end Surface
end VeilidTransport
