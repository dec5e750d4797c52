import VeilidTransport.Delivery
import VeilidTransport.Foundation.Runs

/-!
# A node

A `Transport` is one node: its streams, the map from remote addresses to streams,
and the futures it has started.  Streams are shared by reference in the source, so
here they stand on a `heap` and a `Handle` is the reference; the `streams` map, a
connection and a suspended future hold handles, and a stream the map no longer
points at stays on the heap.

The node takes one step at a time, up to the next `await`.  What is left of a
future after an `await` is a `Task`: the future of `dial` and the rest of
`create_stream` wait for the target of an address, and the end of a handshake waits
until its `LISTEN` is sent.  `resume` continues any of them, at any time, with
whatever target was found.  `pumps` are the spawned calls of `generate_messages`
and `send_messages`.

`connections` and `incoming` are history: the streams connections were made over,
in order, and the streams that were announced to libp2p as incoming.
-/

namespace VeilidTransport

/-- A reference to a stream. -/
abbrev Handle := Nat

/-- A suspended future. -/
inductive Task where
  /-- `dial`, waiting for the target of the remote address. -/
  | dial (localAddress remoteAddress : Address)
  /-- `create_stream` and what follows it, waiting for the target. -/
  | create (localAddress remoteAddress : Address) (remoteStreamId : Nat) (data : Bytes)
  /-- `activate`, waiting for `send_listen`. -/
  | activate (stream : Handle)
  deriving DecidableEq

structure Transport (PublicKey : Type) where
  localAddress : Option Address
  myKeypair : Keypair PublicKey
  streams : KeyedMap Address Handle
  heap : List (VeilidStream PublicKey)
  tasks : List Task
  pumps : List Handle
  now : Instant
  /-- History: the streams connections were made over. -/
  connections : List Handle
  /-- History: the streams announced as incoming. -/
  incoming : List Handle

namespace Transport
variable {PublicKey : Type}

/-- A node that has just started. -/
def new (localAddress : Option Address) (keypair : Keypair PublicKey) (now : Instant) :
    Transport PublicKey :=
  ⟨localAddress, keypair, ∅, [], [], [], now, [], []⟩

/-- The stream registered for an address. -/
def registered (n : Transport PublicKey) (remoteAddress : Address) :
    Option (VeilidStream PublicKey) :=
  (n.streams.lookup remoteAddress).bind fun h => n.heap[h]?

def spawn (n : Transport PublicKey) (task : Task) : Transport PublicKey :=
  { n with tasks := n.tasks ++ [task] }

/-- Put a new stream on the heap and register it. -/
def insertStream (n : Transport PublicKey) (remoteAddress : Address)
    (s : VeilidStream PublicKey) : Transport PublicKey :=
  { n with
    heap := n.heap ++ [s]
    streams := n.streams.insert remoteAddress n.heap.length }

def modifyStream (n : Transport PublicKey) (h : Handle)
    (f : VeilidStream PublicKey → VeilidStream PublicKey) : Transport PublicKey :=
  { n with heap := n.heap.modify h f }

/-- `VeilidConnection::new`. -/
def connect (n : Transport PublicKey) (h : Handle) : Transport PublicKey :=
  { n with connections := n.connections ++ [h] }

/-- A connection over the stream, announced as incoming. -/
def activate (n : Transport PublicKey) (h : Handle) : Transport PublicKey :=
  { n.connect h with incoming := n.incoming ++ [h] }

/-- `dial`, up to its first `await`: refused without a local address, and while the
stream for the address is still listening. -/
def dial (n : Transport PublicKey) (remoteAddress : Address) : Transport PublicKey :=
  match n.localAddress with
  | none => n
  | some localAddress =>
    match n.registered remoteAddress with
    | some s =>
      if s.status = .listen then n else n.spawn (.dial localAddress remoteAddress)
    | none => n.spawn (.dial localAddress remoteAddress)

section
variable [KeyCodec] [Identity PublicKey]

/-- What remains to be done after a message for the registered stream `h`. -/
def follow (n : Transport PublicKey) (h : Handle) (m : AppMessage) : Next → Transport PublicKey
  | .pending => n
  | .readyNone => n
  | .activate => n.spawn (.activate h)
  | .create =>
    match n.localAddress with
    | none => n
    | some localAddress =>
      n.spawn (.create localAddress m.remoteAddress m.streamId m.data)

/-- `convert_update` with an `AppMessage`, up to its first `await`. -/
def update (n : Transport PublicKey) (packet : Payload) : Transport PublicKey :=
  match VeilidStream.decodeMessage packet with
  | none => n
  | some m =>
    match n.streams.lookup m.remoteAddress with
    | none =>
      match n.localAddress with
      | none => n
      | some localAddress =>
        if messageType m.data = .dial then
          n.spawn (.create localAddress m.remoteAddress m.streamId m.data)
        else n
    | some h =>
      match n.heap[h]? with
      | none => n
      | some s =>
        ({ n with heap := n.heap.set h (s.convertRegistered n.localAddress n.now m).1 }).follow h m
          (s.convertRegistered n.localAddress n.now m).2

/-- The stream `create_stream` makes, as its callers leave it; both set the id, the
status and, on the stream just made, the time that `new` has set. -/
def createStream (n : Transport PublicKey) (localAddress remoteAddress : Address)
    (remoteTarget : Target) (remoteStreamId : Nat) (data : Bytes) (epochSecs : Nat) :
    VeilidStream PublicKey :=
  ((((VeilidStream.new localAddress remoteAddress remoteTarget remoteStreamId n.myKeypair
    epochSecs n.now).extractKey dialWord data).updateRemoteStreamId remoteStreamId).updateStatus
    .listen).sendListen

/-- The stream `dial` makes. -/
def dialStream (n : Transport PublicKey) (localAddress remoteAddress : Address)
    (remoteTarget : Target) (epochSecs : Nat) : VeilidStream PublicKey :=
  (VeilidStream.new localAddress remoteAddress remoteTarget 0 n.myKeypair epochSecs n.now).sendDial

/-- A future continues: `target` is what `to_target` found, and `epochSecs` the
clock for the id of a new stream. -/
def resumeTask (n : Transport PublicKey) (task : Task) (target : Option Target) (epochSecs : Nat) :
    Transport PublicKey :=
  match task, target with
  | .activate h, _ => n.activate h
  | .dial _ _, none => n
  | .create _ _ _ _, none => n
  | .dial localAddress remoteAddress, some target =>
    (n.insertStream remoteAddress (n.dialStream localAddress remoteAddress target
      epochSecs)).connect n.heap.length
  | .create localAddress remoteAddress remoteStreamId data, some target =>
    (n.insertStream remoteAddress (n.createStream localAddress remoteAddress target
      remoteStreamId data epochSecs)).spawn (.activate n.heap.length)

/-- The `i`-th suspended future continues. -/
def resume (n : Transport PublicKey) (i : Nat) (target : Option Target) (epochSecs : Nat) :
    Transport PublicKey :=
  match n.tasks[i]? with
  | none => n
  | some task => { n with tasks := n.tasks.eraseIdx i }.resumeTask task target epochSecs

/-- The `i`-th spawned `generate_messages().send_messages()` runs. -/
def pump (n : Transport PublicKey) (i : Nat) : Transport PublicKey :=
  match n.pumps[i]? with
  | none => n
  | some h =>
    { n with pumps := n.pumps.eraseIdx i }.modifyStream h fun s =>
      s.generateMessages.sendMessages n.now

/-! ## Heartbeat -/

/-- What `heartbeat` does for one stream of the map. -/
def heartbeatStream (now : Instant) (s : VeilidStream PublicKey) : VeilidStream PublicKey :=
  if s.isActive now then
    ((s.sendStatusIfStale now).generateMessages).sendMessages now
  else if s.isExpired now then s
  else
    match s.getStatus now with
    | .dial => s.sendDial
    | .listen => s.sendListen
    | _ => s

/-- The stream is put on the list to delete. -/
def toDelete (now : Instant) (s : VeilidStream PublicKey) : Bool :=
  !s.isActive now && s.isExpired now

/-- Remove whatever stream is registered for the address, and wake its reader. -/
def deleteStream (n : Transport PublicKey) (remoteAddress : Address) : Transport PublicKey :=
  match n.streams.lookup remoteAddress with
  | none => n
  | some h =>
    { n with streams := n.streams.erase remoteAddress }.modifyStream h VeilidStream.wakeToRead

/-- The addresses `heartbeat` finds expired. -/
def expiredAddresses (n : Transport PublicKey) : List Address :=
  (n.streams.values.filterMap fun h => n.heap[h]?).filter (toDelete n.now) |>.map
    (·.remoteAddress)

/-- Both passes of a heartbeat, with nothing between them. -/
def heartbeat (n : Transport PublicKey) : Transport PublicKey :=
  let visited := n.streams.values.foldl (fun n h => n.modifyStream h (heartbeatStream n.now)) n
  n.expiredAddresses.foldl deleteStream visited

/-! ## Connections -/

/-- A connection over the stream is read. -/
def pollRead (n : Transport PublicKey) (h : Handle) (waker : Waker) (len : Nat) :
    Transport PublicKey :=
  if h ∈ n.connections then n.modifyStream h fun s => (s.pollRead n.now waker len).2 else n

/-- A connection over the stream is written to. -/
def pollWrite (n : Transport PublicKey) (h : Handle) (buf : Bytes) : Transport PublicKey :=
  if h ∈ n.connections then
    match n.heap[h]? with
    | none => n
    | some s =>
      let n := { n with heap := n.heap.set h (s.pollWrite n.now buf).2 }
      match (s.pollWrite n.now buf).1 with
      | .ready (_, true) => { n with pumps := n.pumps ++ [h] }
      | _ => n
  else n

/-! ## Steps -/

inductive Action where
  | dial (remoteAddress : Address)
  | update (packet : Payload)
  | resume (i : Nat) (target : Option Target) (epochSecs : Nat)
  | pump (i : Nat)
  | heartbeat
  | pollRead (h : Handle) (waker : Waker) (len : Nat)
  | pollWrite (h : Handle) (buf : Bytes)
  /-- Time passes. -/
  | tick (d : Nat)
  /-- The node gets a new local address. -/
  | setLocalAddress (localAddress : Address)

def step (n : Transport PublicKey) : Action → Transport PublicKey
  | .dial remoteAddress => n.dial remoteAddress
  | .update packet => n.update packet
  | .resume i target epochSecs => n.resume i target epochSecs
  | .pump i => n.pump i
  | .heartbeat => n.heartbeat
  | .pollRead h waker len => n.pollRead h waker len
  | .pollWrite h buf => n.pollWrite h buf
  | .tick d => { n with now := n.now + d }
  | .setLocalAddress localAddress => { n with localAddress := some localAddress }

/-! ## The node's own work on its streams -/

theorem works_heartbeatStream (now : Instant) (s : VeilidStream PublicKey) :
    VeilidStream.Works s (heartbeatStream now s) := by
  unfold heartbeatStream
  by_cases hactive : s.isActive now = true
  · rw [if_pos hactive]
    refine .trans (.tail (VeilidStream.works_sendStatusIfStale s now) (.generate _)) ?_
    exact VeilidStream.works_sendMessages _ now
  · rw [if_neg hactive]
    split
    · exact .refl
    · split
      · next h =>
        refine .single (.emit s _ (.dial ?_))
        unfold VeilidStream.getStatus at h
        split at h
        · assumption
        · cases h
        · split at h <;> cases h
        · cases h
      · next h =>
        refine .single (.emit s _ (.listen ?_))
        unfold VeilidStream.getStatus at h
        split at h
        · cases h
        · assumption
        · split at h <;> cases h
        · cases h
      · exact .refl

/-- The node minds its streams: it works on them, takes some from the map and starts
futures that dial, and nothing else changes but the clock and the local address. -/
structure Tends (n n' : Transport PublicKey) : Prop where
  heap : ∀ h : Handle, Option.Rel VeilidStream.Works n.heap[h]? n'.heap[h]?
  streams : ∀ a h, n'.streams.lookup a = some h → n.streams.lookup a = some h
  tasks : ∃ ts : List Task, n'.tasks = n.tasks ++ ts ∧ ∀ t ∈ ts, ∃ l r, t = .dial l r
  connections : n'.connections = n.connections
  incoming : n'.incoming = n.incoming
  myKeypair : n'.myKeypair = n.myKeypair
  now : n.now ≤ n'.now

omit [KeyCodec] [Identity PublicKey] in
theorem rel_refl {α : Type} {r : α → α → Prop} (hr : ∀ a, r a a) (o : Option α) :
    Option.Rel r o o := by
  cases o with
  | none => exact .none
  | some a => exact .some (hr a)

theorem Tends.refl (n : Transport PublicKey) : Tends n n :=
  ⟨fun _ => rel_refl (fun _ => .refl) _, fun _ _ h => h, ⟨[], by simp⟩, rfl, rfl, rfl,
    Nat.le_refl _⟩

theorem Tends.trans {n n' n'' : Transport PublicKey} (h : Tends n n') (k : Tends n' n'') :
    Tends n n'' := by
  obtain ⟨ts, hts, hdial⟩ := h.tasks
  obtain ⟨us, hus, hdial'⟩ := k.tasks
  refine ⟨fun g => ?_, fun a g hg => h.streams a g (k.streams a g hg),
    ⟨ts ++ us, by rw [hus, hts, List.append_assoc], fun t ht => ?_⟩,
    k.connections.trans h.connections, k.incoming.trans h.incoming,
    k.myKeypair.trans h.myKeypair, Nat.le_trans h.now k.now⟩
  · have h1 := h.heap g
    have h2 := k.heap g
    generalize n.heap[g]? = a at *
    generalize n'.heap[g]? = b at *
    generalize n''.heap[g]? = c at *
    cases h1 with
    | none => exact h2
    | some hab =>
      cases h2 with
      | some hbc => exact .some (hab.trans hbc)
  · rcases List.mem_append.mp ht with ht | ht
    · exact hdial t ht
    · exact hdial' t ht

theorem Tends.modifyStream (n : Transport PublicKey) (h : Handle)
    {f : VeilidStream PublicKey → VeilidStream PublicKey}
    (hf : ∀ s, VeilidStream.Works s (f s)) : Tends n (n.modifyStream h f) := by
  refine ⟨fun g => ?_, fun _ _ h => h, ⟨[], by simp [Transport.modifyStream]⟩, rfl, rfl, rfl,
    Nat.le_refl _⟩
  rw [Transport.modifyStream, List.getElem?_modify]
  cases n.heap[g]? with
  | none => exact .none
  | some s =>
    refine .some ?_
    show VeilidStream.Works s (if h = g then f s else s)
    by_cases hg : h = g
    · rw [if_pos hg]; exact hf s
    · rw [if_neg hg]

theorem Tends.length_heap {n n' : Transport PublicKey} (h : Tends n n') :
    n'.heap.length = n.heap.length := by
  have hnone : ∀ g : Handle, n.heap[g]? = none ↔ n'.heap[g]? = none := by
    intro g
    have hg := h.heap g
    generalize n.heap[g]? = a at *
    generalize n'.heap[g]? = b at *
    cases hg with
    | none => simp
    | some => simp
  have h1 := (hnone n.heap.length).mp (by simp)
  have h2 := (hnone n'.heap.length).mpr (by simp)
  rw [List.getElem?_eq_none_iff] at h1 h2
  omega

/-- What each pass of a loop over the node tends, the loop tends. -/
theorem Tends.foldl {α : Type} {f : Transport PublicKey → α → Transport PublicKey}
    (hf : ∀ n a, Tends n (f n a)) (l : List α) (n : Transport PublicKey) :
    Tends n (l.foldl f n) := by
  induction l generalizing n with
  | nil => exact .refl n
  | cons a l ih => exact (hf n a).trans (ih _)

theorem tends_deleteStream (n : Transport PublicKey) (remoteAddress : Address) :
    Tends n (n.deleteStream remoteAddress) := by
  unfold deleteStream
  split
  · exact .refl n
  · next h hh =>
    have hm := Tends.modifyStream { n with streams := n.streams.erase remoteAddress } h
      VeilidStream.works_wakeToRead
    refine ⟨hm.heap, fun a g hg => ?_, hm.tasks, rfl, rfl, rfl, hm.now⟩
    have hg' : (n.streams.erase remoteAddress).lookup a = some g := hg
    rw [KeyedMap.lookup_erase] at hg'
    split at hg'
    · cases hg'
    · exact hg'

theorem tends_heartbeat (n : Transport PublicKey) : Tends n n.heartbeat :=
  (Tends.foldl (fun n h => .modifyStream n h (works_heartbeatStream n.now)) _ n).trans
    (Tends.foldl tends_deleteStream _ _)

omit [KeyCodec] [Identity PublicKey] in
/-- A dial starts a future, or does nothing. -/
theorem dial_cases (n : Transport PublicKey) (remoteAddress : Address) :
    n.dial remoteAddress = n ∨
    ∃ l, n.localAddress = some l ∧ n.dial remoteAddress = n.spawn (.dial l remoteAddress) := by
  unfold dial
  split
  · exact .inl rfl
  · next l hl =>
    split
    · split
      · exact .inl rfl
      · exact .inr ⟨l, hl, rfl⟩
    · exact .inr ⟨l, hl, rfl⟩

/-- **What the node does but for messages and futures is to mind its streams.** -/
theorem step_tends (n : Transport PublicKey) {a : Action} (hu : ∀ packet, a ≠ .update packet)
    (hr : ∀ i target epochSecs, a ≠ .resume i target epochSecs) : Tends n (n.step a) := by
  cases a with
  | dial r =>
    rw [step]
    rcases dial_cases n r with h | ⟨l, -, h⟩
    · rw [h]
      exact .refl n
    · rw [h]
      exact ⟨fun _ => rel_refl (fun _ => .refl) _, fun _ _ h => h,
        ⟨[.dial l r], rfl, fun t ht => ⟨l, r, List.mem_singleton.mp ht⟩⟩, rfl, rfl, rfl,
        Nat.le_refl _⟩
  | update packet => exact absurd rfl (hu packet)
  | resume i target epochSecs => exact absurd rfl (hr i target epochSecs)
  | pump i =>
    rw [step, pump]
    split
    · exact .refl n
    · next h _ =>
      have hm := Tends.modifyStream { n with pumps := n.pumps.eraseIdx i } h
        fun s => .trans (.single (.generate s)) (VeilidStream.works_sendMessages _ n.now)
      exact ⟨hm.heap, hm.streams, hm.tasks, rfl, rfl, rfl, hm.now⟩
  | heartbeat => exact tends_heartbeat n
  | pollRead h waker len =>
    rw [step, pollRead]
    split
    · exact .modifyStream n h fun s => VeilidStream.works_pollRead s n.now waker len
    · exact .refl n
  | pollWrite h buf =>
    rw [step, pollWrite]
    split
    · split
      · exact .refl n
      · next s hs =>
        have hset : n.heap.set h (s.pollWrite n.now buf).2 =
            n.heap.modify h fun s => (s.pollWrite n.now buf).2 := by
          rw [List.modify_eq_set_getElem?, hs]
          rfl
        have hm := Tends.modifyStream n h fun s => VeilidStream.works_pollWrite s n.now buf
        simp only [hset]
        split
        · exact ⟨hm.heap, hm.streams, hm.tasks, rfl, rfl, rfl, hm.now⟩
        · exact hm
    · exact .refl n
  | tick d =>
    exact ⟨fun _ => rel_refl (fun _ => .refl) _, fun _ _ h => h, ⟨[], by simp [step]⟩, rfl, rfl,
      rfl, Nat.le_add_right _ _⟩
  | setLocalAddress localAddress =>
    exact ⟨fun _ => rel_refl (fun _ => .refl) _, fun _ _ h => h, ⟨[], by simp [step]⟩, rfl, rfl,
      rfl, Nat.le_refl _⟩

/-! ## What a message and a future do -/

/-- **A message**: nothing, or a new future that creates a stream, or the registered
stream handles it. -/
inductive Updated (n : Transport PublicKey) (packet : Payload) : Transport PublicKey → Prop where
  | ignored : Updated n packet n
  | dialed (m : AppMessage) (localAddress : Address)
      (hm : VeilidStream.decodeMessage packet = some m)
      (hstream : n.streams.lookup m.remoteAddress = none)
      (hlocal : n.localAddress = some localAddress) (hdial : messageType m.data = .dial) :
      Updated n packet (n.spawn (.create localAddress m.remoteAddress m.streamId m.data))
  | handled (m : AppMessage) (h : Handle) (s : VeilidStream PublicKey)
      (hm : VeilidStream.decodeMessage packet = some m)
      (hstream : n.streams.lookup m.remoteAddress = some h) (hs : n.heap[h]? = some s) :
      Updated n packet (({ n with
        heap := n.heap.set h (s.convertRegistered n.localAddress n.now m).1 }).follow h m
          (s.convertRegistered n.localAddress n.now m).2)

theorem update_updated (n : Transport PublicKey) (packet : Payload) :
    Updated n packet (n.update packet) := by
  unfold update
  split
  · exact .ignored
  · next m hm =>
    split
    · next hstream =>
      split
      · exact .ignored
      · next localAddress hlocal =>
        split
        · next hdial => exact .dialed m localAddress hm hstream hlocal hdial
        · exact .ignored
    · next h hstream =>
      split
      · exact .ignored
      · next s hs => exact .handled m h s hm hstream hs

/-- **A future that continues**, up to its next `await` or its end. -/
inductive Resumed (n : Transport PublicKey) (i : Nat) (target : Option Target)
    (epochSecs : Nat) : Transport PublicKey → Prop where
  | idle (hi : n.tasks[i]? = none) : Resumed n i target epochSecs n
  | failed (task : Task) (hi : n.tasks[i]? = some task) (htask : ∀ h, task ≠ .activate h) :
      Resumed n i target epochSecs { n with tasks := n.tasks.eraseIdx i }
  | activated (h : Handle) (hi : n.tasks[i]? = some (.activate h)) :
      Resumed n i target epochSecs ({ n with tasks := n.tasks.eraseIdx i }.activate h)
  | dialed (localAddress remoteAddress : Address) (remoteTarget : Target)
      (hi : n.tasks[i]? = some (.dial localAddress remoteAddress))
      (htarget : target = some remoteTarget) :
      Resumed n i target epochSecs (({ n with tasks := n.tasks.eraseIdx i }.insertStream
        remoteAddress (n.dialStream localAddress remoteAddress remoteTarget epochSecs)).connect
          n.heap.length)
  | created (localAddress remoteAddress : Address) (remoteStreamId : Nat) (data : Bytes)
      (remoteTarget : Target)
      (hi : n.tasks[i]? = some (.create localAddress remoteAddress remoteStreamId data))
      (htarget : target = some remoteTarget) :
      Resumed n i target epochSecs (({ n with tasks := n.tasks.eraseIdx i }.insertStream
        remoteAddress (n.createStream localAddress remoteAddress remoteTarget remoteStreamId data
          epochSecs)).spawn (.activate n.heap.length))

theorem resume_resumed (n : Transport PublicKey) (i : Nat) (target : Option Target)
    (epochSecs : Nat) : Resumed n i target epochSecs (n.resume i target epochSecs) := by
  unfold resume
  split
  · next hi => exact .idle hi
  · next task hi =>
    cases task with
    | activate h => exact .activated h hi
    | dial localAddress remoteAddress =>
      cases target with
      | none => exact .failed _ hi (by simp)
      | some remoteTarget => exact .dialed localAddress remoteAddress remoteTarget hi rfl
    | create localAddress remoteAddress remoteStreamId data =>
      cases target with
      | none => exact .failed _ hi (by simp)
      | some remoteTarget =>
        exact .created localAddress remoteAddress remoteStreamId data remoteTarget hi rfl

/-! ## What becomes of a stream -/

/-- **How a stream of the heap comes about in a step**: the node works on it, or it
handles the message, or it is new. -/
inductive Became (n : Transport PublicKey) (h : Handle) :
    Action → VeilidStream PublicKey → Prop where
  | worked (a : Action) (s s' : VeilidStream PublicKey) (hs : n.heap[h]? = some s)
      (hw : VeilidStream.Works s s') : Became n h a s'
  | handled (packet : Payload) (m : AppMessage) (s : VeilidStream PublicKey)
      (hm : VeilidStream.decodeMessage packet = some m)
      (hstream : n.streams.lookup m.remoteAddress = some h) (hs : n.heap[h]? = some s) :
      Became n h (.update packet) (s.convertRegistered n.localAddress n.now m).1
  | dialed (i : Nat) (target : Option Target) (epochSecs : Nat) (l r : Address)
      (remoteTarget : Target) (hi : n.tasks[i]? = some (.dial l r)) (hh : h = n.heap.length) :
      Became n h (.resume i target epochSecs) (n.dialStream l r remoteTarget epochSecs)
  | created (i : Nat) (target : Option Target) (epochSecs : Nat) (l r : Address) (id : Nat)
      (data : Bytes) (remoteTarget : Target) (hi : n.tasks[i]? = some (.create l r id data))
      (hh : h = n.heap.length) :
      Became n h (.resume i target epochSecs)
        (n.createStream l r remoteTarget id data epochSecs)

omit [KeyCodec] [Identity PublicKey] in
/-- What remains to be done after a message leaves the streams alone. -/
theorem follow_streams (n : Transport PublicKey) (h : Handle) (m : AppMessage) (next : Next) :
    (n.follow h m next).streams = n.streams ∧ (n.follow h m next).heap = n.heap ∧
      (n.follow h m next).now = n.now := by
  cases next with
  | create => rw [follow]; split <;> exact ⟨rfl, rfl, rfl⟩
  | _ => exact ⟨rfl, rfl, rfl⟩

/-- **What a step can make of the heap.** -/
theorem step_became (n : Transport PublicKey) (a : Action) {h : Handle}
    {s' : VeilidStream PublicKey} (hs' : (n.step a).heap[h]? = some s') : Became n h a s' := by
  have hsame : n.heap[h]? = some s' → Became n h a s' := fun hs => .worked a s' s' hs .refl
  have hnew : ∀ s : VeilidStream PublicKey, (n.heap ++ [s])[h]? = some s' →
      n.heap[h]? = some s' ∨ h = n.heap.length ∧ s' = s := fun _ => getElem?_concat_cases
  have htends : Tends n (n.step a) → Became n h a s' := by
    intro ht
    have hh := ht.heap h
    rw [hs'] at hh
    generalize ho : n.heap[h]? = o at hh
    cases hh with
    | some hw => exact .worked a _ s' ho hw
  cases a with
  | update packet =>
    have hu := update_updated n packet
    have hstep : n.step (.update packet) = n.update packet := rfl
    rw [hstep] at hs'
    generalize n.update packet = n' at hu hs'
    cases hu with
    | ignored => exact hsame hs'
    | dialed => exact hsame hs'
    | handled m g s hm hstream hs =>
      rw [(follow_streams _ _ _ _).2.1] at hs'
      have hset : (n.heap.set g (s.convertRegistered n.localAddress n.now m).1)[h]? =
        some s' := hs'
      by_cases hg : g = h
      · subst hg
        rw [List.getElem?_set_self (List.getElem?_eq_some_iff.mp hs).1] at hset
        obtain rfl := Option.some.inj hset
        exact .handled packet m s hm hstream hs
      · rw [List.getElem?_set_ne hg] at hset
        exact hsame hset
  | resume i target epochSecs =>
    have hr := resume_resumed n i target epochSecs
    have hstep : n.step (.resume i target epochSecs) = n.resume i target epochSecs := rfl
    rw [hstep] at hs'
    generalize n.resume i target epochSecs = n' at hr hs'
    cases hr with
    | idle => exact hsame hs'
    | failed => exact hsame hs'
    | activated => exact hsame hs'
    | dialed l r remoteTarget hi htarget =>
      obtain hs | ⟨hh, rfl⟩ := hnew _ hs'
      · exact hsame hs
      · exact .dialed i target epochSecs l r remoteTarget hi hh
    | created l r id data remoteTarget hi htarget =>
      obtain hs | ⟨hh, rfl⟩ := hnew _ hs'
      · exact hsame hs
      · exact .created i target epochSecs l r id data remoteTarget hi hh
  | _ => exact htends (step_tends n (by simp) (by simp))

/-- A new stream as moves from the one that `new` makes. -/
theorem quietly_dialStream (n : Transport PublicKey) (l r : Address) (target : Target)
    (epochSecs : Nat) : VeilidStream.Quietly (.new l r target 0 n.myKeypair epochSecs n.now)
      (n.dialStream l r target epochSecs) :=
  .single (.work (.emit _ _ (.dial rfl)))

theorem quietly_createStream (n : Transport PublicKey) (l r : Address) (target : Target)
    (id : Nat) (data : Bytes) (epochSecs : Nat) :
    VeilidStream.Quietly (.new l r target id n.myKeypair epochSecs n.now)
      (n.createStream l r target id data epochSecs) := by
  obtain ⟨key, hk⟩ := VeilidStream.extractKey_eq
    (.new l r target id n.myKeypair epochSecs n.now) dialWord data
  rw [Transport.createStream, hk]
  refine .tail (.single (.control _ key id .listen n.now fun h => by cases h)) (.work ?_)
  exact .emit _ _ (.listen rfl)

/-- **What every move keeps, and new streams have, every stream has** after a step. -/
theorem Became.keeps {P : VeilidStream PublicKey → Prop}
    (hquiet : ∀ s s', VeilidStream.Quiet s s' → P s → P s')
    (hmoves : ∀ m s s', VeilidStream.Moves m s s' → P s → P s')
    (hnew : ∀ l r target id keypair epochSecs now,
      P (.new l r target id keypair epochSecs now))
    {n : Transport PublicKey} {h : Handle} {a : Action} {s' : VeilidStream PublicKey}
    (hb : Became n h a s') (hn : ∀ s ∈ n.heap, P s) : P s' := by
  have hquietly : ∀ {s s'}, VeilidStream.Quietly s s' → P s → P s' := by
    intro s s' hq hs
    induction hq with
    | refl => exact hs
    | tail _ hq ih => exact hquiet _ _ hq ih
  cases hb with
  | worked _ s _ hs hw => exact hquietly hw.quietly (hn s (List.mem_of_getElem? hs))
  | handled packet m s hm hstream hs =>
    have hh := VeilidStream.convertRegistered_handles s n.localAddress n.now m
    have hs := hn s (List.mem_of_getElem? hs)
    generalize (s.convertRegistered n.localAddress n.now m).1 = s' at hh
    induction hh with
    | refl => exact hs
    | tail _ hm ih => exact hmoves _ _ _ hm ih
  | dialed i target epochSecs l r remoteTarget hi =>
    exact hquietly (quietly_dialStream n l r remoteTarget epochSecs) (hnew _ _ _ _ _ _ _)
  | created i target epochSecs l r id data remoteTarget hi =>
    exact hquietly (quietly_createStream n l r remoteTarget id data epochSecs)
      (hnew _ _ _ _ _ _ _)

/-- **What every move keeps, and new streams have, every stream has** in every run of a
node. -/
theorem run_keeps {P : VeilidStream PublicKey → Prop}
    (hquiet : ∀ s s', VeilidStream.Quiet s s' → P s → P s')
    (hmoves : ∀ m s s', VeilidStream.Moves m s s' → P s → P s')
    (hnew : ∀ l r target id keypair epochSecs now,
      P (.new l r target id keypair epochSecs now))
    (localAddress : Option Address) (keypair : Keypair PublicKey) (now : Instant)
    (as : List Action) :
    ∀ s ∈ (Runs.run step (Transport.new localAddress keypair now) as).heap, P s := by
  have hstep : ∀ (n : Transport PublicKey) (a : Action),
      (∀ s ∈ n.heap, P s) → ∀ s ∈ (n.step a).heap, P s := by
    intro n a hn s hs
    obtain ⟨h, hh⟩ := List.mem_iff_getElem?.mp hs
    exact (step_became n a hh).keeps hquiet hmoves hnew hn
  exact Runs.invariant hstep (fun s hs => absurd hs List.not_mem_nil) as

/-- A stream of the heap stays there, worked on or handling a message. -/
theorem step_stays (n : Transport PublicKey) (a : Action) {h : Handle}
    {s : VeilidStream PublicKey} (hs : n.heap[h]? = some s) :
    ∃ s', (n.step a).heap[h]? = some s' := by
  obtain ⟨hlt, -⟩ := List.getElem?_eq_some_iff.mp hs
  have hlen : n.heap.length ≤ (n.step a).heap.length := by
    have htends : Tends n (n.step a) → n.heap.length ≤ (n.step a).heap.length := fun ht =>
      Nat.le_of_eq ht.length_heap.symm
    cases a with
    | update packet =>
      have hu := update_updated n packet
      show n.heap.length ≤ (n.update packet).heap.length
      generalize n.update packet = n' at hu
      cases hu with
      | ignored => exact Nat.le_refl _
      | dialed => exact Nat.le_refl _
      | handled m g s hm hstream hs =>
        rw [(follow_streams _ _ _ _).2.1]
        exact Nat.le_of_eq List.length_set.symm
    | resume i target epochSecs =>
      have hr := resume_resumed n i target epochSecs
      show n.heap.length ≤ (n.resume i target epochSecs).heap.length
      generalize n.resume i target epochSecs = n' at hr
      cases hr with
      | idle => exact Nat.le_refl _
      | failed => exact Nat.le_refl _
      | activated => exact Nat.le_refl _
      | dialed => simp [connect, insertStream]
      | created => simp [spawn, insertStream]
    | _ => exact htends (step_tends n (by simp) (by simp))
  exact ⟨_, List.getElem?_eq_getElem (Nat.lt_of_lt_of_le hlt hlen)⟩

end

end Transport
end VeilidTransport
