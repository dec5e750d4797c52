import VeilidTransport.Displacement
import VeilidTransport.UpdateTasks

/-!
# A node between its locks

`Transport` takes a message, a heartbeat and a read as one step each.  None is one in the
source.  A message is handled by a task of its own, which takes the locks of a stream one
after the other and waits in `create_stream`; `heartbeat` first walks the map and lists the
remote addresses of the streams it finds expired, lets go of the map, and later deletes what
is then registered for those addresses; and `poll_read` that finds nothing to read lets go of
the stream before it stores its waker.

`Beating` is a node with all of them in their steps, and anything may come between them.
`run_heartbeat`, `receive_alone` and `read_alone` say that the two passes of a heartbeat, a
message, or a read, with nothing between their steps are what they are for `Transport`.
`step_moves` is what a step can do to the streams and to the map.
-/

namespace VeilidTransport

/-! ## When a task sets the time of the last message -/

/-- The step is `update_inbound_last_timestamp_to_now`. -/
def ConvertStep.stamps {PublicKey : Type} : ConvertStep PublicKey → Bool
  | updateInboundLastTimestampToNow => true
  | _ => false

namespace Inbound

theorem drainMessageQueue_lastTimestamp (i : Inbound) (n : Nat) :
    (i.drainMessageQueue n).2.lastTimestamp = i.lastTimestamp :=
  drainLoop_invariant (P := fun _ j => j.lastTimestamp = i.lastTimestamp)
    (fun _ _ _ _ h => h) _ rfl

theorem takeCompleteSlices_lastTimestamp (i : Inbound) :
    i.takeCompleteSlices.2.lastTimestamp = i.lastTimestamp := rfl

end Inbound

namespace RecvCall
variable {PublicKey : Type}

/-- A call of `recv_message` leaves the time alone until its last step. -/
theorem next_lastTimestamp (call : RecvCall) (r : Receiver PublicKey) :
    (call.next r).2.stream.inbound.lastTimestamp =
      if call = .stamp then r.now else r.stream.inbound.lastTimestamp := by
  cases call with
  | load deliveredSeq seq data =>
    unfold next
    simp only
    repeat' split
    all_goals first | rfl | contradiction
  | check deliveredSeq finalSeq data =>
    unfold next
    simp only
    split <;> simp
  | drain deliveredSeq finalSeq => exact Inbound.drainMessageQueue_lastTimestamp _ _
  | takeSlices => exact Inbound.takeCompleteSlices_lastTimestamp _
  | wake =>
    show r.stream.wakeToRead.inbound.lastTimestamp = _
    rw [VeilidStream.wakeToRead_eq]
    rfl
  | _ => rfl

theorem next_remoteAddress (call : RecvCall) (r : Receiver PublicKey) :
    (call.next r).2.stream.remoteAddress = r.stream.remoteAddress := by
  cases call with
  | load deliveredSeq seq data =>
    unfold next
    simp only
    repeat' split
    all_goals rfl
  | check deliveredSeq finalSeq data =>
    unfold next
    simp only
    split <;> rfl
  | wake =>
    show r.stream.wakeToRead.remoteAddress = _
    rw [VeilidStream.wakeToRead_eq]
  | _ => rfl

end RecvCall

namespace UpdateTask
variable {PublicKey : Type} [KeyCodec] [Identity PublicKey]

omit [KeyCodec] [Identity PublicKey] in
/-- The task is about to set the time of the last inbound message. -/
def stamps : UpdateTask PublicKey → Bool
  | branch (s :: _) => s.stamps
  | receive call => call = .stamp
  | _ => false

theorem apply_lastTimestamp (s : ConvertStep PublicKey) (c : Converter PublicKey) :
    (s.apply c).stream.inbound.lastTimestamp =
      if s.stamps then c.now else c.stream.inbound.lastTimestamp := by
  cases s with
  | sendMessages =>
    exact (VeilidStream.works_handshake (VeilidStream.works_sendMessages _ _)).lastTimestamp
  | _ => rfl

theorem apply_remoteAddress (s : ConvertStep PublicKey) (c : Converter PublicKey) :
    (s.apply c).stream.remoteAddress = c.stream.remoteAddress := by
  cases s with
  | sendMessages =>
    exact (VeilidStream.works_identity (VeilidStream.works_sendMessages _ _)).remoteAddress
  | _ => rfl

/-- **The time of the last message** is what it was, or now. -/
theorem next_lastTimestamp (t : UpdateTask PublicKey) (c : Converter PublicKey) :
    (t.next c).2.stream.inbound.lastTimestamp =
      if t.stamps then c.now else c.stream.inbound.lastTimestamp := by
  cases t with
  | branch steps =>
    cases steps with
    | nil => rfl
    | cons s steps => exact apply_lastTimestamp s c
  | receive call =>
    show (call.next ⟨c.stream, c.now⟩).2.stream.inbound.lastTimestamp = _
    rw [call.next_lastTimestamp ⟨c.stream, c.now⟩]
    by_cases hc : call = .stamp <;> simp [stamps, hc]
  | verifySignature m => rfl
  | adoptRemoteStreamId m isSigned => rfl
  | activeThenReceive m => rfl
  | _ =>
    unfold next
    simp only
    split <;> rfl

theorem next_remoteAddress (t : UpdateTask PublicKey) (c : Converter PublicKey) :
    (t.next c).2.stream.remoteAddress = c.stream.remoteAddress := by
  cases t with
  | branch steps =>
    cases steps with
    | nil => rfl
    | cons s steps => exact apply_remoteAddress s c
  | receive call => exact call.next_remoteAddress ⟨c.stream, c.now⟩
  | verifySignature m => rfl
  | adoptRemoteStreamId m isSigned => rfl
  | activeThenReceive m => rfl
  | _ =>
    unfold next
    simp only
    split <;> rfl

/-- A step that does not set the time leaves an expired stream expired. -/
theorem next_isExpired {t : UpdateTask PublicKey} (hp : t.Proper) (hs : t.stamps = false)
    {c : Converter PublicKey} (h : c.stream.isExpired c.now = true) :
    (t.next c).2.stream.isExpired c.now = true := by
  obtain ⟨hst, hle⟩ := Transport.isExpired_iff.mp h
  refine Transport.isExpired_iff.mpr ⟨?_, ?_⟩
  · rw [(next_effect t c).1]
    cases hw : t.writes with
    | none => exact hst
    | some status =>
      rintro rfl
      exact UpdateTasks.writes_ne_expired hp hw
  · rw [next_lastTimestamp, hs, if_neg (by simp)]
    exact hle

/-- A step that does leaves no stream expired. -/
theorem next_stamped {t : UpdateTask PublicKey} (hs : t.stamps = true) (c : Converter PublicKey) :
    (t.next c).2.stream.isExpired c.now = false := by
  have hpos : 0 < secs settings.streamTimeoutSecs := by decide
  refine Bool.eq_false_iff.mpr fun h => ?_
  have hle := (Transport.isExpired_iff.mp h).2
  rw [next_lastTimestamp, if_pos hs] at hle
  exact absurd hle (Nat.not_le.mpr (Nat.lt_add_of_pos_right hpos))

end UpdateTask

/-! ## The node -/

/-- A task of `convert_update` for an `AppMessage`, at its next step. -/
inductive MessageTask (PublicKey : Type) where
  /-- For a stream. -/
  | handle (h : Handle) (task : UpdateTask PublicKey)
  /-- `get_remote_stream_id() < stream_id`, for a `DIAL` to an active stream. -/
  | compareDial (h : Handle) (localAddress : Address) (m : AppMessage)
  /-- The listener's address, where no stream is registered. -/
  | unregistered (m : AppMessage)
  /-- `create_stream`, waiting for the target; it may be to replace an active stream. -/
  | create (localAddress : Address) (m : AppMessage) (replaces : Bool)
  | done

/-- A node with a heartbeat, and the messages and the reads under way. -/
structure Beating (PublicKey : Type) where
  node : Transport PublicKey
  tasks : List (MessageTask PublicKey)
  /-- The reads that have found nothing, each with the waker it has still to store. -/
  reads : List (Handle × Waker)
  /-- The addresses the heartbeat has still to delete. -/
  toDelete : List Address
  /-- History: the streams that the first pass of the heartbeat has found expired. -/
  seen : List Handle

namespace MessageTask
variable {PublicKey : Type} [KeyCodec] [Identity PublicKey]

/-- What the tasks of the stream `h` share, if it is `s`. -/
def converter (n : Transport PublicKey) (h : Handle) (s : VeilidStream PublicKey) :
    Converter PublicKey :=
  ⟨s, n.now, n.localAddress, n.incoming.count h⟩

omit [KeyCodec] [Identity PublicKey] in
/-- The message, if the task has just cloned `Active` for a `DIAL`. -/
def dialsActive (s : VeilidStream PublicKey) : UpdateTask PublicKey → Option (Address × AppMessage)
  | .cloneStatus m _ localAddress =>
    if s.status = .active ∧ messageType m.data = .dial then some (localAddress, m) else none
  | _ => none

/-- A step of a task for the stream `h`, which is `s`. -/
def handleNext (n : Transport PublicKey) (h : Handle) (s : VeilidStream PublicKey)
    (task : UpdateTask PublicKey) : MessageTask PublicKey × Transport PublicKey :=
  let r := task.next (converter n h s)
  let n' := { n with heap := n.heap.set h r.2.stream }
  (match dialsActive s task with
    | some (localAddress, m) => compareDial h localAddress m
    | none => handle h r.1,
    if task.announces then n'.activate h else n')

/-- **One atomic step of a task**; `target` is what `to_target` has found, and `epochSecs`
the clock for the id of a new stream. -/
def next (task : MessageTask PublicKey) (n : Transport PublicKey) (target : Option Target)
    (epochSecs : Nat) : MessageTask PublicKey × Transport PublicKey :=
  match task with
  | handle h task =>
    match n.heap[h]? with
    | none => (done, n)
    | some s => handleNext n h s task
  | compareDial h localAddress m =>
    match n.heap[h]? with
    | none => (done, n)
    | some s =>
      if s.remoteStreamId < m.streamId then (create localAddress m true, n) else (done, n)
  | unregistered m =>
    match n.localAddress with
    | none => (done, n)
    | some localAddress =>
      if messageType m.data = .dial then (create localAddress m false, n) else (done, n)
  | create localAddress m replaces =>
    match target with
    | none => (done, n)
    | some target =>
      (handle n.heap.length
        (if replaces then UpdateTask.recreated m else UpdateTask.created m),
        n.insertStream m.remoteAddress (VeilidStream.new localAddress m.remoteAddress target
          m.streamId n.myKeypair epochSecs n.now))
  | done => (done, n)

end MessageTask

namespace Beating
open Transport
variable {PublicKey : Type} [KeyCodec] [Identity PublicKey]

inductive Action where
  /-- The first pass of a heartbeat; the node has one heartbeat at a time. -/
  | collect
  /-- The heartbeat deletes what is registered for the next address of its list. -/
  | delete
  /-- A message arrives, and its task looks the stream up. -/
  | receive (packet : Payload)
  /-- The `i`-th task of a message takes a step. -/
  | advance (i : Nat) (target : Option Target) (epochSecs : Nat)
  /-- `poll_read`, up to the store of the waker if there is nothing to read. -/
  | pollRead (h : Handle) (waker : Waker) (len : Nat)
  /-- The `i`-th read stores its waker. -/
  | storeWaker (i : Nat)
  /-- Anything else the node does. -/
  | act (a : Transport.Action)

/-- The streams that the first pass finds expired. -/
def expiredStreams (n : Transport PublicKey) : List Handle :=
  n.streams.values.filter fun h => n.heap[h]?.any (Transport.toDelete n.now)

def collect (b : Beating PublicKey) : Beating PublicKey :=
  match b.toDelete with
  | [] => { b with
      node := b.node.streams.values.foldl
        (fun n h => n.modifyStream h (heartbeatStream n.now)) b.node
      toDelete := b.node.expiredAddresses
      seen := expiredStreams b.node }
  | _ => b

def delete (b : Beating PublicKey) : Beating PublicKey :=
  match b.toDelete with
  | [] => b
  | remoteAddress :: rest =>
    { b with node := b.node.deleteStream remoteAddress, toDelete := rest }

def receive (b : Beating PublicKey) (packet : Payload) : Beating PublicKey :=
  match VeilidStream.decodeMessage packet with
  | none => b
  | some m =>
    match b.node.streams.lookup m.remoteAddress with
    | none => { b with tasks := b.tasks ++ [.unregistered m] }
    | some h => { b with tasks := b.tasks ++ [.handle h (.verifySignature m)] }

def advance (b : Beating PublicKey) (i : Nat) (target : Option Target) (epochSecs : Nat) :
    Beating PublicKey :=
  match b.tasks[i]? with
  | none => b
  | some task => { b with
      node := (task.next b.node target epochSecs).2
      tasks := b.tasks.set i (task.next b.node target epochSecs).1 }

/-- The connection is not refused, and there is nothing to read. -/
def findsNothing (n : Transport PublicKey) (h : Handle) : Bool :=
  decide (h ∈ n.connections) &&
    n.heap[h]?.any fun s => !s.isExpired n.now && s.inbound.stream.isEmpty

def pollRead (b : Beating PublicKey) (h : Handle) (waker : Waker) (len : Nat) :
    Beating PublicKey :=
  if findsNothing b.node h then { b with reads := b.reads ++ [(h, waker)] }
  else { b with node := b.node.pollRead h waker len }

def storeWaker (b : Beating PublicKey) (i : Nat) : Beating PublicKey :=
  match b.reads[i]? with
  | none => b
  | some (h, waker) => { b with
      node := b.node.modifyStream h fun s => { s with waker := some waker }
      reads := b.reads.eraseIdx i }

/-- Heartbeats, messages and reads are the steps of this machine. -/
def act (b : Beating PublicKey) : Transport.Action → Beating PublicKey
  | .heartbeat => b
  | .update _ => b
  | .pollRead _ _ _ => b
  | a => { b with node := b.node.step a }

def step (b : Beating PublicKey) : Action → Beating PublicKey
  | .collect => b.collect
  | .delete => b.delete
  | .receive packet => b.receive packet
  | .advance i target epochSecs => b.advance i target epochSecs
  | .pollRead h waker len => b.pollRead h waker len
  | .storeWaker i => b.storeWaker i
  | .act a => b.act a

/-- A node that has just started. -/
def start (localAddress : Option Address) (keypair : Keypair PublicKey) (now : Instant) :
    Beating PublicKey :=
  ⟨Transport.new localAddress keypair now, [], [], [], []⟩

/-! ## With nothing between the steps -/

theorem run_delete (n : Transport PublicKey) (tasks : List (MessageTask PublicKey))
    (reads : List (Handle × Waker)) (l : List Address) (seen : List Handle) :
    Runs.run step ⟨n, tasks, reads, l, seen⟩ (List.replicate l.length .delete) =
      ⟨l.foldl deleteStream n, tasks, reads, [], seen⟩ := by
  induction l generalizing n with
  | nil => rfl
  | cons r l ih =>
    rw [List.length_cons, List.replicate_succ, Runs.run_cons, List.foldl_cons]
    exact ih (n.deleteStream r)

/-- **Two passes with nothing between them are `heartbeat`.** -/
theorem run_heartbeat (n : Transport PublicKey) (tasks : List (MessageTask PublicKey))
    (reads : List (Handle × Waker)) (seen : List Handle) :
    (Runs.run step ⟨n, tasks, reads, [], seen⟩
      (.collect :: List.replicate n.expiredAddresses.length .delete)).node = n.heartbeat := by
  rw [Runs.run_cons]
  show (Runs.run step ⟨_, tasks, reads, n.expiredAddresses, expiredStreams n⟩ _).node = _
  rw [run_delete]
  rfl

/-- **A read with nothing between its halves is `poll_read`.** -/
theorem read_alone (b : Beating PublicKey) (h : Handle) (waker : Waker) (len : Nat) :
    (Runs.run step b [.pollRead h waker len, .storeWaker b.reads.length]).node =
      b.node.pollRead h waker len := by
  rw [Runs.run_cons, step, pollRead]
  by_cases hf : findsNothing b.node h = true
  · rw [if_pos hf]
    obtain ⟨hc, hany⟩ := (Bool.and_eq_true _ _).mp hf
    obtain ⟨s, hs, hidle⟩ := (Option.any_eq_true _ _).mp hany
    obtain ⟨hx, hempty⟩ := (Bool.and_eq_true _ _).mp hidle
    have hpoll : s.pollRead b.node.now waker len = (.pending, { s with waker := some waker }) := by
      rcases s.pollRead_cases b.node.now waker len with ⟨hx', -⟩ | ⟨-, hne, -⟩ | ⟨-, -, h⟩
      · rw [hx'] at hx
        cases hx
      · exact absurd (List.isEmpty_iff.mp hempty) hne
      · exact h
    have hstore : (Runs.run step { b with reads := b.reads ++ [(h, waker)] }
        [.storeWaker b.reads.length]).node =
          b.node.modifyStream h fun s => { s with waker := some waker } := by
      rw [Runs.run_cons, step, storeWaker]
      simp only [List.getElem?_concat_length]
      rfl
    rw [hstore, Transport.pollRead, if_pos (of_decide_eq_true hc)]
    refine congrArg (fun l => { b.node with heap := l }) (List.ext_getElem? fun g => ?_)
    rw [List.getElem?_modify, List.getElem?_modify]
    by_cases hg : h = g
    · subst hg
      rw [hs]
      simp [hpoll]
    · simp [hg]
  · rw [if_neg hf, Runs.run_cons, step, storeWaker, List.getElem?_eq_none (Nat.le_refl _)]
    rfl

/-- A task keeps the clock and the listener's address. -/
theorem next_clock (t : UpdateTask PublicKey) (c : Converter PublicKey) :
    (t.next c).2.now = c.now ∧ (t.next c).2.localAddress = c.localAddress := by
  cases t with
  | branch steps =>
    cases steps with
    | nil => exact ⟨rfl, rfl⟩
    | cons s steps => cases s <;> exact ⟨rfl, rfl⟩
  | verifySignature m => exact ⟨rfl, rfl⟩
  | adoptRemoteStreamId m isSigned => exact ⟨rfl, rfl⟩
  | activeThenReceive m => exact ⟨rfl, rfl⟩
  | receive call => exact ⟨rfl, rfl⟩
  | _ =>
    unfold UpdateTask.next
    simp only
    split <;> exact ⟨rfl, rfl⟩

/-- What a step for the stream `h` leaves of the node. -/
theorem handleNext_node (n : Transport PublicKey) (h : Handle) (s : VeilidStream PublicKey)
    (t : UpdateTask PublicKey) : (MessageTask.handleNext n h s t).2 = { n with
      heap := n.heap.set h (t.next (MessageTask.converter n h s)).2.stream
      connections := if t.announces then n.connections ++ [h] else n.connections
      incoming := if t.announces then n.incoming ++ [h] else n.incoming } := by
  rw [MessageTask.handleNext]
  by_cases ha : t.announces = true
  · simp only [ha, if_true]
    rfl
  · simp only [ha]
    rfl

/-- The next step of the task finds what this one has left. -/
theorem converter_handleNext {n : Transport PublicKey} {h : Handle} {s : VeilidStream PublicKey}
    (t : UpdateTask PublicKey) :
    MessageTask.converter (MessageTask.handleNext n h s t).2 h
      (t.next (MessageTask.converter n h s)).2.stream =
    (t.next (MessageTask.converter n h s)).2 := by
  have hclock := next_clock t (MessageTask.converter n h s)
  have heffect := (UpdateTask.next_effect t (MessageTask.converter n h s)).2
  rw [handleNext_node]
  generalize t.next (MessageTask.converter n h s) = r at *
  obtain ⟨t', s', now, localAddress, incoming⟩ := r
  obtain ⟨rfl, rfl⟩ : now = n.now ∧ localAddress = n.localAddress := hclock
  have hcount : List.count h (if t.announces then n.incoming ++ [h] else n.incoming) =
      incoming := by
    refine Eq.trans ?_ heffect.symm
    split <;> simp [MessageTask.converter]
  rw [MessageTask.converter, hcount]

/-- A task that is done leaves the stream alone. -/
theorem solo_done {c : Converter PublicKey} {r : UpdateTask PublicKey × Converter PublicKey}
    (h : Pool.Solo UpdateTask.next (UpdateTask.done, c) r) : r = (UpdateTask.done, c) := by
  induction h with
  | refl => rfl
  | tail _ hstep ih =>
    subst ih
    exact hstep.symm

/-- What a task does to its stream when nothing comes between its steps. -/
theorem handle_alone {b : Beating PublicKey} {i : Nat} {h : Handle}
    {t t' : UpdateTask PublicKey} {s : VeilidStream PublicKey} {c' : Converter PublicKey}
    (hsolo : Pool.Solo UpdateTask.next (t, MessageTask.converter b.node h s) (t', c'))
    (hi : b.tasks[i]? = some (.handle h t)) (hs : b.node.heap[h]? = some s)
    (target : Option Target) (epochSecs : Nat) :
    ∃ k, (Runs.run step b (List.replicate k (.advance i target epochSecs))).node.heap =
      b.node.heap.set h c'.stream := by
  have hlt := (List.getElem?_eq_some_iff.mp hs).1
  have hsame : b.node.heap = b.node.heap.set h s := by
    rw [← (List.getElem?_eq_some_iff.mp hs).2, List.set_getElem_self]
  obtain ⟨r, hr⟩ : ∃ r, r = (t, MessageTask.converter b.node h s) := ⟨_, rfl⟩
  rw [← hr] at hsolo
  induction hsolo using Relation.ReflTransGen.head_induction_on generalizing b t s with
  | refl =>
    obtain ⟨-, rfl⟩ := Prod.mk.inj hr
    exact ⟨0, hsame⟩
  | head hstep hrest ih =>
    subst hr
    cases hd : MessageTask.dialsActive s t with
    | none =>
      have hadv : b.step (.advance i target epochSecs) = { b with
          node := (MessageTask.handleNext b.node h s t).2
          tasks := b.tasks.set i (.handle h (t.next (MessageTask.converter b.node h s)).1) } := by
        rw [step, advance, hi]
        simp only [MessageTask.next, hs, MessageTask.handleNext, hd]
      have hheap : (b.step (.advance i target epochSecs)).node.heap = b.node.heap.set h
          (t.next (MessageTask.converter b.node h s)).2.stream := by
        rw [hadv, handleNext_node]
      obtain ⟨k, hk⟩ := ih (b := b.step (.advance i target epochSecs))
        (s := (t.next (MessageTask.converter b.node h s)).2.stream)
        (by rw [hadv]; exact List.getElem?_set_self (List.getElem?_eq_some_iff.mp hi).1)
        (by rw [hheap]; exact List.getElem?_set_self hlt)
        (by rw [hheap, List.length_set]; exact hlt)
        (by rw [hheap, List.set_set])
        (by rw [hadv, converter_handleNext]; exact hstep.symm)
      refine ⟨k + 1, ?_⟩
      rw [List.replicate_succ, Runs.run_cons, hk, hheap, List.set_set]
    | some lm =>
      -- the task has cloned `Active` for a `DIAL`, and has done with the stream
      have hdone : t.next (MessageTask.converter b.node h s) =
          (UpdateTask.done, MessageTask.converter b.node h s) := by
        cases t with
        | cloneStatus m isSigned localAddress =>
          rw [MessageTask.dialsActive] at hd
          split at hd
          · next hs' =>
            simp only [UpdateTask.next, MessageTask.converter, hs'.1, UpdateTask.convertActive,
              hs'.2]
          · cases hd
        | _ => cases hd
      rw [← hstep, hdone] at hrest
      obtain ⟨-, rfl⟩ := Prod.mk.inj (solo_done hrest)
      exact ⟨0, hsame⟩

/-- **A message for a stream, with nothing between its steps**, is what it is for
`Transport`. -/
theorem receive_alone {b : Beating PublicKey} {packet : Payload} {m : AppMessage}
    (hm : VeilidStream.decodeMessage packet = some m) {h : Handle}
    (hstream : b.node.streams.lookup m.remoteAddress = some h) {s : VeilidStream PublicKey}
    (hs : b.node.heap[h]? = some s) (target : Option Target) (epochSecs : Nat) :
    ∃ k, (Runs.run step b (.receive packet ::
      List.replicate k (.advance b.tasks.length target epochSecs))).node.heap =
        (b.node.update packet).heap := by
  have hreceive : b.step (.receive packet) =
      { b with tasks := b.tasks ++ [.handle h (.verifySignature m)] } := by
    rw [step, receive, hm]
    simp only [hstream]
  obtain ⟨task, hsolo⟩ := UpdateTasks.run_alone m
    (MessageTask.converter (b.step (.receive packet)).node h s)
  obtain ⟨k, hk⟩ := handle_alone hsolo (i := b.tasks.length)
    (by rw [hreceive]; exact List.getElem?_concat_length) (by rw [hreceive]; exact hs)
    target epochSecs
  refine ⟨k, ?_⟩
  rw [Runs.run_cons, hk, hreceive, update, hm]
  simp only [hstream, hs]
  rw [(follow_streams _ _ _ _).2.1]
  rfl

/-- **A stream that a message creates, with nothing between the steps**, is the one that it
creates for `Transport`. -/
theorem create_alone {b : Beating PublicKey} {i : Nat} {localAddress : Address} {m : AppMessage}
    {replaces : Bool} (hi : b.tasks[i]? = some (.create localAddress m replaces))
    (target : Target) (epochSecs : Nat) :
    ∃ k, (Runs.run step b (List.replicate (k + 1) (.advance i (some target) epochSecs))).node.heap =
      b.node.heap ++ [b.node.createStream localAddress m.remoteAddress target m.streamId m.data
        epochSecs] := by
  have hlt := (List.getElem?_eq_some_iff.mp hi).1
  have hadv : b.step (.advance i (some target) epochSecs) = { b with
      node := b.node.insertStream m.remoteAddress (VeilidStream.new localAddress m.remoteAddress
        target m.streamId b.node.myKeypair epochSecs b.node.now)
      tasks := b.tasks.set i (.handle b.node.heap.length
        (if replaces then UpdateTask.recreated m else UpdateTask.created m)) } := by
    rw [step, advance, hi]
    rfl
  generalize hs : VeilidStream.new localAddress m.remoteAddress target m.streamId
    b.node.myKeypair epochSecs b.node.now = s at hadv
  have hnode : (b.step (.advance i (some target) epochSecs)).node.heap[b.node.heap.length]? =
      some s := by
    rw [hadv]
    exact List.getElem?_concat_length
  have hset : ∀ s' : VeilidStream PublicKey,
      (b.node.heap ++ [s]).set b.node.heap.length s' = b.node.heap ++ [s'] := fun s' => by simp
  have hcreate : ∀ steps : List (ConvertStep PublicKey), (steps.foldl ConvertStep.apply
      (MessageTask.converter (b.step (.advance i (some target) epochSecs)).node
        b.node.heap.length s)).stream = b.node.createStream localAddress m.remoteAddress target
          m.streamId m.data epochSecs →
      b.tasks.set i (.handle b.node.heap.length (.branch steps)) =
        (b.step (.advance i (some target) epochSecs)).tasks →
      ∃ k, (Runs.run step b (List.replicate (k + 1) (.advance i (some target)
        epochSecs))).node.heap = b.node.heap ++ [b.node.createStream localAddress m.remoteAddress
          target m.streamId m.data epochSecs] := by
    intro steps hfold htasks
    obtain ⟨k, hk⟩ := handle_alone (b := b.step (.advance i (some target) epochSecs)) (i := i)
      (UpdateTasks.solo_branch steps _) (by rw [← htasks]; exact List.getElem?_set_self hlt) hnode
      (some target) epochSecs
    refine ⟨k, ?_⟩
    rw [List.replicate_succ, Runs.run_cons, hk, hfold, hadv]
    exact hset _
  cases replaces with
  | true =>
    refine hcreate _ ?_ (by rw [hadv]; rfl)
    rw [UpdateTasks.foldl_extractKey, createStream, hs]
    rfl
  | false =>
    refine hcreate _ ?_ (by rw [hadv]; rfl)
    obtain ⟨key, hk⟩ := VeilidStream.extractKey_eq s dialWord m.data
    rw [UpdateTasks.foldl_extractKey, createStream, hs, MessageTask.converter, hk, hadv, ← hs]
    rfl

/-! ## What a step does -/

/-- The address that the step puts a new stream under. -/
def inserts (b : Beating PublicKey) : Action → Option Address
  | .advance i (some _) _ =>
    match b.tasks[i]? with
    | some (.create _ m _) => some m.remoteAddress
    | _ => none
  | .act (.resume i (some _) _) =>
    match b.node.tasks[i]? with
    | some (.dial _ r) => some r
    | some (.create _ r _ _) => some r
    | _ => none
  | _ => none

/-- The address that the step takes out of the map. -/
def deletes (b : Beating PublicKey) : Action → Option Address
  | .delete => b.toDelete.head?
  | _ => none

/-- The stream whose time of the last inbound message the step sets. -/
def stamps (b : Beating PublicKey) : Action → Option Handle
  | .advance i _ _ =>
    match b.tasks[i]? with
    | some (.handle h task) => if task.stamps then some h else none
    | _ => none
  | _ => none

/-- **What a step does to the streams and to the map.** -/
inductive Moves (b : Beating PublicKey) (a : Action) (n : Transport PublicKey) : Prop where
  /-- The node minds its streams. -/
  | minds (hheap : ∀ h : Handle, Option.Rel VeilidStream.Works b.node.heap[h]? n.heap[h]?)
      (hstreams : n.streams = b.node.streams) (hnow : b.node.now ≤ n.now)
      (hinserts : b.inserts a = none) (hdeletes : b.deletes a = none)
      (hstamps : ∀ h ∈ b.stamps a, b.node.heap[h]? = none)
  /-- A task of a message has written to its stream. -/
  | writes (h : Handle) (s : VeilidStream PublicKey) (task : UpdateTask PublicKey)
      (htask : .handle h task ∈ b.tasks) (hs : b.node.heap[h]? = some s)
      (hheap : n.heap = b.node.heap.set h (task.next (MessageTask.converter b.node h s)).2.stream)
      (hstreams : n.streams = b.node.streams) (hnow : n.now = b.node.now)
      (hinserts : b.inserts a = none) (hdeletes : b.deletes a = none)
      (hstamps : b.stamps a = if task.stamps then some h else none)
  /-- A new stream is put under an address. -/
  | inserts (r : Address) (s : VeilidStream PublicKey) (hs : s.remoteAddress = r)
      (hheap : n.heap = b.node.heap ++ [s])
      (hstreams : n.streams = b.node.streams.insert r b.node.heap.length)
      (hnow : n.now = b.node.now) (hinserts : b.inserts a = some r)
      (hdeletes : b.deletes a = none) (hstamps : b.stamps a = none)
  /-- The heartbeat deletes what is registered for an address. -/
  | deletes (r : Address) (hnode : n = b.node.deleteStream r) (ha : a = .delete)
      (hinserts : b.inserts a = none) (hdeletes : b.deletes a = some r)
      (hstamps : b.stamps a = none)

/-- A step that leaves the streams and the map alone. -/
theorem Moves.same {b : Beating PublicKey} {a : Action} {n : Transport PublicKey}
    (hheap : n.heap = b.node.heap) (hstreams : n.streams = b.node.streams)
    (hnow : n.now = b.node.now) (hinserts : b.inserts a = none) (hdeletes : b.deletes a = none)
    (hstamps : ∀ h ∈ b.stamps a, b.node.heap[h]? = none) : b.Moves a n :=
  .minds (fun h => by rw [hheap]; exact rel_refl (fun _ => .refl) _) hstreams
    (Nat.le_of_eq hnow.symm) hinserts hdeletes hstamps

theorem moves_collect (b : Beating PublicKey) : b.Moves .collect b.collect.node := by
  rw [collect]
  split
  · have ht := Tends.foldl (fun n h => Tends.modifyStream n h (works_heartbeatStream n.now))
      b.node.streams.values b.node
    exact .minds ht.heap (visit_streams _ _) ht.now rfl rfl (fun _ h => nomatch h)
  · exact .same rfl rfl rfl rfl rfl (fun _ h => nomatch h)

theorem moves_delete (b : Beating PublicKey) : b.Moves .delete b.delete.node := by
  rw [delete]
  split
  · next h => exact .same rfl rfl rfl rfl (by rw [deletes, h]; rfl) (fun _ h => nomatch h)
  · next r rest h => exact .deletes r rfl rfl rfl (by rw [deletes, h]; rfl) rfl

theorem moves_receive (b : Beating PublicKey) (packet : Payload) :
    b.Moves (.receive packet) (b.receive packet).node := by
  have hnode : (b.receive packet).node = b.node := by
    rw [receive]
    split
    · rfl
    · split <;> rfl
  rw [hnode]
  exact .same rfl rfl rfl rfl rfl (fun _ h => nomatch h)

theorem moves_advance (b : Beating PublicKey) (i : Nat) (target : Option Target)
    (epochSecs : Nat) :
    b.Moves (.advance i target epochSecs) (b.advance i target epochSecs).node := by
  rw [advance]
  cases hi : b.tasks[i]? with
  | none =>
    refine .same rfl rfl rfl ?_ rfl fun h hh => ?_
    · cases target with
      | none => rfl
      | some target => rw [inserts, hi]
    · rw [stamps, hi] at hh
      cases hh
  | some task =>
    have hquiet : (∀ l m replaces, task ≠ .create l m replaces) →
        b.inserts (.advance i target epochSecs) = none := by
      intro hne
      cases target with
      | none => rfl
      | some target =>
        rw [inserts, hi]
        split
        · next h => exact absurd (Option.some.inj h) (hne _ _ _)
        · rfl
    cases task with
    | handle h t =>
      have hstamps : b.stamps (.advance i target epochSecs) =
          if t.stamps then some h else none := by
        rw [stamps, hi]
      cases hs : b.node.heap[h]? with
      | none =>
        simp only [MessageTask.next, hs]
        refine .same rfl rfl rfl (hquiet (by simp)) rfl fun g hg => ?_
        rw [hstamps] at hg
        split at hg
        · obtain rfl := Option.some.inj hg
          exact hs
        · cases hg
      | some s =>
        simp only [MessageTask.next, hs, handleNext_node]
        exact .writes h s t (List.mem_of_getElem? hi) hs rfl rfl rfl (hquiet (by simp)) rfl hstamps
    | create localAddress m replaces =>
      have hstamps : b.stamps (.advance i target epochSecs) = none := by
        rw [stamps, hi]
      cases target with
      | none => exact .same rfl rfl rfl rfl rfl (by rw [hstamps]; exact fun _ h => nomatch h)
      | some target =>
        exact .inserts m.remoteAddress _ rfl rfl rfl rfl (by rw [inserts, hi]) rfl hstamps
    | compareDial h localAddress m =>
      have hnode : ((MessageTask.compareDial h localAddress m).next b.node target
          epochSecs).2 = b.node := by
        rw [MessageTask.next]
        split
        · rfl
        · split <;> rfl
      simp only [hnode]
      refine .same rfl rfl rfl (hquiet (by simp)) rfl ?_
      rw [stamps, hi]
      exact fun _ h => nomatch h
    | unregistered m =>
      have hnode : ((MessageTask.unregistered m).next b.node target epochSecs).2 = b.node := by
        rw [MessageTask.next]
        split
        · rfl
        · split <;> rfl
      simp only [hnode]
      refine .same rfl rfl rfl (hquiet (by simp)) rfl ?_
      rw [stamps, hi]
      exact fun _ h => nomatch h
    | done =>
      refine .same rfl rfl rfl (hquiet (by simp)) rfl ?_
      rw [stamps, hi]
      exact fun _ h => nomatch h

theorem moves_pollRead (b : Beating PublicKey) (h : Handle) (waker : Waker) (len : Nat) :
    b.Moves (.pollRead h waker len) (b.pollRead h waker len).node := by
  rw [pollRead]
  split
  · exact .same rfl rfl rfl rfl rfl (fun _ h => nomatch h)
  · have ht : Tends b.node (b.node.step (.pollRead h waker len)) :=
      step_tends b.node (by simp) (by simp)
    have hstreams : (b.node.step (.pollRead h waker len)).streams = b.node.streams :=
      step_streams b.node (by simp) (by simp)
    exact .minds ht.heap hstreams ht.now rfl rfl (fun _ h => nomatch h)

theorem moves_storeWaker (b : Beating PublicKey) (i : Nat) :
    b.Moves (.storeWaker i) (b.storeWaker i).node := by
  rw [storeWaker]
  split
  · exact .same rfl rfl rfl rfl rfl (fun _ h => nomatch h)
  · next h waker hi =>
    have ht := Tends.modifyStream b.node h fun s : VeilidStream PublicKey =>
      .single (.reader s (some waker) s.woken s.inbound.stream)
    exact .minds ht.heap rfl ht.now rfl rfl (fun _ h => nomatch h)

theorem moves_act (b : Beating PublicKey) (a : Transport.Action) :
    b.Moves (.act a) (b.act a).node := by
  have hminds : (∀ packet, a ≠ .update packet) → a ≠ .heartbeat →
      (∀ i target epochSecs, a ≠ .resume i target epochSecs) →
      b.inserts (.act a) = none → b.Moves (.act a) (b.node.step a) := by
    intro hu hh hr hinserts
    have ht := step_tends b.node hu hr
    exact .minds ht.heap (step_streams b.node hh hr) ht.now hinserts rfl (fun _ h => nomatch h)
  cases a with
  | update packet => exact .same rfl rfl rfl rfl rfl (fun _ h => nomatch h)
  | heartbeat => exact .same rfl rfl rfl rfl rfl (fun _ h => nomatch h)
  | pollRead h waker len => exact .same rfl rfl rfl rfl rfl (fun _ h => nomatch h)
  | resume i target epochSecs =>
    show b.Moves _ (b.node.resume i target epochSecs)
    cases target with
    | none =>
      have hr := resume_resumed b.node i none epochSecs
      generalize b.node.resume i none epochSecs = n at hr
      cases hr with
      | idle => exact .same rfl rfl rfl rfl rfl (fun _ h => nomatch h)
      | failed => exact .same rfl rfl rfl rfl rfl (fun _ h => nomatch h)
      | activated => exact .same rfl rfl rfl rfl rfl (fun _ h => nomatch h)
      | dialed _ _ _ _ htarget => cases htarget
      | created _ _ _ _ _ _ htarget => cases htarget
    | some target =>
      rw [resume]
      cases hi : b.node.tasks[i]? with
      | none => exact .same rfl rfl rfl (by rw [inserts, hi]) rfl (fun _ h => nomatch h)
      | some task =>
        cases task with
        | activate h => exact .same rfl rfl rfl (by rw [inserts, hi]) rfl (fun _ h => nomatch h)
        | dial l r => exact .inserts r _ rfl rfl rfl rfl (by rw [inserts, hi]) rfl rfl
        | create l r id data =>
          exact .inserts r _ (createStream_remoteAddress _ _ _ _ _ _ _) rfl rfl rfl
            (by rw [inserts, hi]) rfl rfl
  | _ => exact hminds (by simp) (by simp) (by simp) rfl

theorem step_moves (b : Beating PublicKey) (a : Action) : b.Moves a (b.step a).node := by
  cases a with
  | collect => exact moves_collect b
  | delete => exact moves_delete b
  | receive packet => exact moves_receive b packet
  | advance i target epochSecs => exact moves_advance b i target epochSecs
  | pollRead h waker len => exact moves_pollRead b h waker len
  | storeWaker i => exact moves_storeWaker b i
  | act a => exact moves_act b a

/-- Every stream of the map stays under its own remote address. -/
theorem Moves.registered {b : Beating PublicKey} {a : Action} {n : Transport PublicKey}
    (hm : b.Moves a n) (h : b.node.Registered) : n.Registered := by
  cases hm with
  | minds hheap hstreams =>
    intro r g hg
    rw [hstreams] at hg
    obtain ⟨s, hs, rfl⟩ := h r g hg
    have hrel := hheap g
    rw [hs] at hrel
    generalize n.heap[g]? = o at hrel ⊢
    cases hrel with
    | some hw => exact ⟨_, rfl, (VeilidStream.works_identity hw).remoteAddress⟩
  | writes k s task _ hs hheap hstreams =>
    intro r g hg
    rw [hstreams] at hg
    rw [hheap]
    obtain ⟨t, ht, rfl⟩ := h r g hg
    by_cases hk : k = g
    · subst hk
      obtain rfl := Option.some.inj (hs.symm.trans ht)
      exact ⟨_, List.getElem?_set_self (List.getElem?_eq_some_iff.mp hs).1,
        UpdateTask.next_remoteAddress _ _⟩
    · exact ⟨t, (List.getElem?_set_ne hk).trans ht, rfl⟩
  | inserts r s hs hheap hstreams =>
    subst hs
    have hi := Registered.insertStream h s
    intro r g hg
    rw [hheap]
    rw [hstreams] at hg
    exact hi r g hg
  | deletes r hnode =>
    rw [hnode]
    exact (tends_deleteStream b.node r).registered h

/-! ## Tasks of messages -/

/-- The tasks are such as `convert_update` can come to. -/
def ProperTasks (b : Beating PublicKey) : Prop :=
  ∀ h task, .handle h task ∈ b.tasks → task.Proper

/-- What becomes of a task. -/
theorem next_proper {n : Transport PublicKey} {t : MessageTask PublicKey}
    (ht : ∀ h task, t = .handle h task → task.Proper) (target : Option Target) (epochSecs : Nat) :
    ∀ h task, (t.next n target epochSecs).1 = .handle h task → task.Proper := by
  intro h task heq
  cases t with
  | handle g t =>
    simp only [MessageTask.next] at heq
    split at heq
    · cases heq
    · simp only [MessageTask.handleNext] at heq
      split at heq
      · cases heq
      · obtain ⟨-, rfl⟩ := (MessageTask.handle.injEq _ _ _ _).mp heq
        exact (UpdateTask.next_proper (ht g t rfl) _).1
  | compareDial g localAddress m =>
    simp only [MessageTask.next] at heq
    split at heq
    · cases heq
    · split at heq <;> cases heq
  | unregistered m =>
    simp only [MessageTask.next] at heq
    split at heq
    · cases heq
    · split at heq <;> cases heq
  | create localAddress m replaces =>
    simp only [MessageTask.next] at heq
    split at heq
    · cases heq
    · obtain ⟨-, rfl⟩ := (MessageTask.handle.injEq _ _ _ _).mp heq
      split
      · refine (UpdateTask.begins_extractKey dialWord m.data ?_).1
        simp [UpdateTask.Proper, UpdateTask.Announcing, ConvertStep.announces, ConvertStep.writes]
      · refine (UpdateTask.begins_extractKey dialWord m.data ?_).1
        simp [UpdateTask.Proper, UpdateTask.Announcing, ConvertStep.announces, ConvertStep.writes]
  | done => cases heq

theorem step_properTasks (b : Beating PublicKey) (a : Action) (h : b.ProperTasks) :
    (b.step a).ProperTasks := by
  cases a with
  | collect =>
    rw [step, collect]
    split <;> exact h
  | delete =>
    rw [step, delete]
    split <;> exact h
  | receive packet =>
    rw [step, receive]
    split
    · exact h
    · split
      · intro g task hmem
        rcases List.mem_append.mp hmem with hmem | hmem
        · exact h g task hmem
        · cases List.mem_singleton.mp hmem
      · intro g task hmem
        rcases List.mem_append.mp hmem with hmem | hmem
        · exact h g task hmem
        · cases List.mem_singleton.mp hmem
          exact trivial
  | advance i target epochSecs =>
    rw [step, advance]
    split
    · exact h
    · next t hi =>
      intro g task hmem
      rcases List.mem_or_eq_of_mem_set hmem with hmem | heq
      · exact h g task hmem
      · refine next_proper (fun k u hu => ?_) target epochSecs g task heq.symm
        exact h k u (hu ▸ List.mem_of_getElem? hi)
  | pollRead g waker len =>
    rw [step, pollRead]
    split <;> exact h
  | storeWaker i =>
    rw [step, storeWaker]
    split <;> exact h
  | act a =>
    cases a <;> exact h

omit [KeyCodec] [Identity PublicKey] in
theorem start_properTasks (localAddress : Option Address) (keypair : Keypair PublicKey)
    (now : Instant) : (start localAddress keypair now).ProperTasks :=
  fun _ _ h => absurd h List.not_mem_nil

omit [KeyCodec] [Identity PublicKey] in
theorem start_registered (localAddress : Option Address) (keypair : Keypair PublicKey)
    (now : Instant) : (start localAddress keypair now).node.Registered :=
  fun _ _ h => nomatch h

/-! ## Expired streams -/

/-- **A step that does not set its time leaves an expired stream expired.** -/
theorem Moves.expired {b : Beating PublicKey} {a : Action} {n : Transport PublicKey}
    (hm : b.Moves a n) (hb : b.ProperTasks) {h : Handle} (hst : h ∉ b.stamps a)
    (hx : b.node.Expired h) : n.Expired h := by
  obtain ⟨s, hs, hx⟩ := hx
  cases hm with
  | minds hheap _ hnow =>
    have hrel := hheap h
    rw [hs] at hrel
    unfold Transport.Expired
    generalize n.heap[h]? = o at hrel ⊢
    cases hrel with
    | some hw => exact ⟨_, rfl, isExpired_of_works hw hnow hx⟩
  | writes k t task htask ht hheap _ hnow _ _ hstamps =>
    unfold Transport.Expired
    rw [hheap, hnow]
    by_cases hk : k = h
    · subst hk
      obtain rfl := Option.some.inj (hs.symm.trans ht)
      have hquiet : task.stamps = false := by
        refine Bool.eq_false_iff.mpr fun htrue => hst ?_
        rw [hstamps, if_pos htrue]
        rfl
      exact ⟨_, List.getElem?_set_self (List.getElem?_eq_some_iff.mp hs).1,
        UpdateTask.next_isExpired (hb k task htask) hquiet hx⟩
    · exact ⟨s, (List.getElem?_set_ne hk).trans hs, hx⟩
  | inserts r t _ hheap _ hnow =>
    unfold Transport.Expired
    rw [hheap, hnow]
    exact ⟨s, (List.getElem?_append_left (List.getElem?_eq_some_iff.mp hs).1).trans hs, hx⟩
  | deletes r hnode =>
    subst hnode
    obtain ⟨s', hs', hw⟩ := (tends_deleteStream b.node r).getElem? hs
    exact ⟨s', hs', isExpired_of_works hw (tends_deleteStream b.node r).now hx⟩

/-- One that sets it leaves the stream fresh. -/
theorem Moves.stamped {b : Beating PublicKey} {a : Action} {n : Transport PublicKey}
    (hm : b.Moves a n) {h : Handle} (hst : h ∈ b.stamps a) {s : VeilidStream PublicKey}
    (hs : b.node.heap[h]? = some s) :
    ∃ s', n.heap[h]? = some s' ∧ s'.isExpired n.now = false := by
  cases hm with
  | minds _ _ _ _ _ hstamps =>
    rw [hstamps h hst] at hs
    cases hs
  | writes k t task _ ht hheap _ hnow _ _ hstamps =>
    rw [hstamps] at hst
    split at hst
    · next htrue =>
      obtain rfl := Option.some.inj hst
      rw [hheap, hnow]
      exact ⟨_, List.getElem?_set_self (List.getElem?_eq_some_iff.mp hs).1,
        UpdateTask.next_stamped htrue (MessageTask.converter b.node k t)⟩
    · cases hst
  | inserts _ _ _ _ _ _ _ _ hstamps => rw [hstamps] at hst; cases hst
  | deletes _ _ _ _ _ hstamps => rw [hstamps] at hst; cases hst

end Beating
end VeilidTransport
