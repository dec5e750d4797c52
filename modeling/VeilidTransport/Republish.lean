import VeilidTransport.Online

/-!
# Republishing the private route

A safe listener is reached over a private route, its target, which it publishes under the
key of its address.  `heartbeat` republishes it: `should_update_target` decides from the
address with the status of its DHT record and from the target with its own status, and
`update_target` marks the target as republishing and spawns a task that publishes a new
route and stores it.

Attachment updates, `PING` messages, `update_local_address` and the checks of the DHT record
write the same two variables.  `TargetTask.next` is one task as the atomic steps between its
locks and awaits, and `Beat` is where the heartbeat is between the two locks of
`should_update_target`.
-/

namespace VeilidTransport

inductive TransportType where
  | safeType
  | unsafeType
  deriving DecidableEq

/-! ## The decision -/

/-- There is an address, and it is safe. -/
def hasSafeAddress : Option Address → Bool
  | some (.safeAddress _ _ _) => true
  | _ => false

/-- The first half of `should_update_target`, under the lock of `local_address`. -/
def dhtOutdated (localAddress : Option Address) (status : TargetStatus) (now : Instant) : Bool :=
  match localAddress with
  | some (.safeAddress _ _ .none) => true
  | some (.safeAddress _ _ (.active lastTimestamp)) =>
    match status with
    | .none => false
    | .republishing _ => false
    | .active _ => lastTimestamp + secs 30 < now
  | _ => false

/-- The second half, under the lock of `local_target`. -/
def targetOutdated (safeAddress : Bool) (localTarget : Option Target × TargetStatus)
    (now : Instant) : Bool :=
  (match localTarget.2 with
    | .republishing lastRepublish => lastRepublish + secs 10 < now
    | .active lastTimestamp => lastTimestamp + secs 30 < now
    | .none => safeAddress) || (localTarget.1.isNone && safeAddress)

def shouldUpdateTarget (transportType : TransportType) (localAddress : Option Address)
    (localTarget : Option Target × TargetStatus) (now : Instant) : Bool :=
  match transportType with
  | .unsafeType => false
  | .safeType =>
    dhtOutdated localAddress localTarget.2 now ||
      targetOutdated (hasSafeAddress localAddress) localTarget now

/-! ## The tasks -/

/-- What a fetch of the DHT record comes to. -/
inductive Fetch where
  /-- The record cannot be opened or read. -/
  | failed
  /-- The route that is found in it. -/
  | found (route : CryptoKey)
  /-- Anything else. -/
  | nothing
  deriving DecidableEq

/-- What the network answers to an await. -/
structure RouteAnswer where
  /-- The address that `new_safe` has created, if it has. -/
  newSafe : Option Address
  /-- What `to_target` finds. -/
  target : Option Target
  /-- The target that `update_safe` has published, if it has. -/
  updated : Option Target
  fetch : Fetch

/-- A task that writes the address or the target, at its next step. -/
inductive TargetTask where
  /-- `convert_update` with an `Attachment`. -/
  | attachment (task : AttachmentTask)
  /-- `convert_update` with a `PING` for no stream: the lock of `local_address`. -/
  | ping
  /-- The lock of `local_target`. -/
  | vouch
  /-- `update_local_address`, with the await of `new_safe`. -/
  | createAddress
  | readTarget (localAddress : Address)
  /-- `to_target`. -/
  | toTarget (localAddress : Address)
  | storeTarget (target : Option Target)
  /-- `update_target` has marked the target at this time: the lock of `get_local_address`. -/
  | getAddress (since : Instant)
  /-- `update_safe`. -/
  | updateSafe (since : Instant) (currentAddress : Address)
  | storeUpdated (since : Instant) (newTarget : Target)
  | refreshStatus (since : Instant)
  | clearTarget (since : Instant)
  /-- `check_address_dht_record`: the lock of `local_address`. -/
  | checkRecord
  | readRoute
  /-- `open_dht_record` and `get_dht_value`. -/
  | fetch (route : Option Target)
  /-- The lock of `local_address`, after the own route was found, or the record was not. -/
  | storeStatus (found : Bool)
  | done
  deriving DecidableEq

/-- The address with another status of its DHT record. -/
def Address.withStatus (status : DHTStatus) : Address → Address
  | .safeAddress key keypair _ => .safeAddress key keypair status
  | .unsafeAddress key => .unsafeAddress key

/-- Whether the DHT record of the address should be fetched. -/
def shouldTryFetch (localAddress : Option Address) (now : Instant) : Bool :=
  match localAddress with
  | some (.safeAddress _ _ .none) => true
  | some (.safeAddress _ _ (.active lastTimestamp)) => lastTimestamp + secs 10 < now
  | _ => false

namespace TargetTask
variable [KeyCodec]

/-- **One atomic step of a task.** -/
def next (answer : RouteAnswer) (task : TargetTask) (c : Attachment) : TargetTask × Attachment :=
  match task with
  | attachment task =>
    let route (a : Address) := answer.target.getD (.privateRoute a.key.value)
    let (task, c) := task.next route ⟨answer.newSafe, answer.target.isSome⟩ c
    (attachment task, c)
  | ping => (if c.localAddress.isSome then vouch else done, c)
  | vouch => (done, { c with localTarget := (c.localTarget.1, .active c.now) })
  | createAddress =>
    match answer.newSafe with
    | some newAddress => (readTarget newAddress, { c with localAddress := some newAddress })
    | none => (done, c)
  | readTarget localAddress =>
    (if c.localTarget.1 = none then toTarget localAddress else done, c)
  | toTarget _ => (storeTarget answer.target, c)
  | storeTarget target => (done, { c with localTarget := (target, .active c.now) })
  | getAddress since =>
    match c.localAddress with
    | some currentAddress => (updateSafe since currentAddress, c)
    -- `update_target` ends here, and the task that creates an address begins
    | none => (createAddress, c)
  | updateSafe since _ =>
    match answer.updated with
    | some newTarget => (storeUpdated since newTarget, c)
    | none => (clearTarget since, c)
  | storeUpdated since newTarget =>
    (refreshStatus since, { c with localTarget := (some newTarget, .active c.now) })
  | refreshStatus _ =>
    (done, { c with localAddress := c.localAddress.map (.withStatus (.active c.now)) })
  | clearTarget _ => (done, { c with localTarget := (none, .none) })
  | checkRecord => (if shouldTryFetch c.localAddress c.now then readRoute else done, c)
  | readRoute => (fetch c.localTarget.1, c)
  | fetch route =>
    match answer.fetch with
    | .failed => (storeStatus false, c)
    | .found key => (if route = some (.privateRoute key) then storeStatus true else done, c)
    | .nothing => (done, c)
  | storeStatus found =>
    let status := if found then DHTStatus.active c.now else .none
    (done, { c with localAddress := c.localAddress.map (.withStatus status) })
  | done => (done, c)

omit [KeyCodec] in
/-- When `update_target` was started, while it has not completed. -/
def since : TargetTask → Option Instant
  | getAddress since => some since
  | updateSafe since _ => some since
  | storeUpdated since _ => some since
  | refreshStatus since => some since
  | clearTarget since => some since
  | _ => none

/-- **What a step does to the target.** -/
theorem next_localTarget (answer : RouteAnswer) (task : TargetTask) (c : Attachment) :
    (task.next answer c).2.localTarget = c.localTarget ∨
      (∃ target, (task.next answer c).2.localTarget = (some target, .active c.now)) ∨
      (task = vouch ∧ (task.next answer c).2.localTarget = (c.localTarget.1, .active c.now)) ∨
      (∃ target, task = storeTarget target ∧
        (task.next answer c).2.localTarget = (target, .active c.now)) ∨
      (task.next answer c).2.localTarget = (none, .none) := by
  cases task with
  | attachment task =>
    cases task with
    | storeTarget localAddress target => exact .inr (.inl ⟨target, rfl⟩)
    | newSafe =>
      refine .inl ?_
      unfold next AttachmentTask.next
      simp only
      split <;> rfl
    | _ => exact .inl rfl
  | vouch => exact .inr (.inr (.inl ⟨rfl, rfl⟩))
  | storeTarget target => exact .inr (.inr (.inr (.inl ⟨target, rfl, rfl⟩)))
  | storeUpdated since newTarget => exact .inr (.inl ⟨newTarget, rfl⟩)
  | clearTarget since => exact .inr (.inr (.inr (.inr rfl)))
  | createAddress =>
    refine .inl ?_
    unfold next
    simp only
    split <;> rfl
  | getAddress since =>
    refine .inl ?_
    unfold next
    simp only
    split <;> rfl
  | updateSafe since currentAddress =>
    refine .inl ?_
    unfold next
    simp only
    split <;> rfl
  | fetch route =>
    refine .inl ?_
    unfold next
    simp only
    split <;> rfl
  | _ => exact .inl rfl

/-- What it does to the status: nothing, or it is `Active` from now on, or `None`. -/
theorem next_status (answer : RouteAnswer) (task : TargetTask) (c : Attachment) :
    (task.next answer c).2.localTarget.2 = c.localTarget.2 ∨
      (task.next answer c).2.localTarget.2 = .active c.now ∨
      (task.next answer c).2.localTarget.2 = .none := by
  rcases next_localTarget answer task c with h | ⟨target, h⟩ | ⟨-, h⟩ | ⟨target, -, h⟩ | h
  · exact .inl (by rw [h])
  · exact .inr (.inl (by rw [h]))
  · exact .inr (.inl (by rw [h]))
  · exact .inr (.inl (by rw [h]))
  · exact .inr (.inr (by rw [h]))

/-- A step of `update_target` goes on with it or completes it, and no other step starts it. -/
theorem next_since (answer : RouteAnswer) (task : TargetTask) (c : Attachment) :
    (task.next answer c).1.since = task.since ∨ (task.next answer c).1.since = none := by
  cases task with
  | getAddress since =>
    unfold next
    simp only
    split
    · exact .inl rfl
    · exact .inr rfl
  | updateSafe since currentAddress =>
    refine .inl ?_
    unfold next
    simp only
    split <;> rfl
  | storeUpdated since newTarget => exact .inl rfl
  | refreshStatus since => exact .inr rfl
  | clearTarget since => exact .inr rfl
  | createAddress =>
    refine .inr ?_
    unfold next
    simp only
    split <;> rfl
  | ping =>
    refine .inr ?_
    show since (if _ then _ else _) = none
    split <;> rfl
  | readTarget localAddress =>
    refine .inr ?_
    show since (if _ then _ else _) = none
    split <;> rfl
  | checkRecord =>
    refine .inr ?_
    show since (if _ then _ else _) = none
    split <;> rfl
  | fetch route =>
    refine .inr ?_
    unfold next
    simp only
    split
    · rfl
    · split <;> rfl
    · rfl
  | _ => exact .inr rfl

theorem next_now (answer : RouteAnswer) (task : TargetTask) (c : Attachment) :
    (task.next answer c).2.now = c.now := by
  unfold next
  split <;> first | rfl | skip
  · unfold AttachmentTask.next
    simp only
    split <;> first | rfl | (split <;> rfl)
  · split <;> rfl
  · split <;> rfl
  · split <;> rfl
  · split <;> rfl

end TargetTask

/-! ## The heartbeat -/

/-- What `should_update_target` has read under the lock of `local_address`. -/
structure AddressReading where
  localAddress : Option Address
  status : TargetStatus
  time : Instant

/-- What it has read under the lock of `local_target`. -/
structure TargetReading where
  localTarget : Option Target × TargetStatus
  time : Instant

/-- The heartbeat, at its next step. -/
inductive Beat where
  | readAddress
  | readTarget (first : AddressReading)
  | decide (first : AddressReading) (second : TargetReading)

/-- What the two halves come to. -/
def shouldUpdate (first : AddressReading) (second : TargetReading) : Bool :=
  dhtOutdated first.localAddress first.status first.time ||
    targetOutdated (hasSafeAddress first.localAddress) second.localTarget second.time

/-- The tasks of a safe listener over its address and target, and its heartbeat. -/
structure Republish where
  pool : Pool Attachment TargetTask
  beat : Beat

namespace Republish

inductive Action where
  | attachment (state : AttachmentState) (publicInternetReady : Bool)
  | ping
  | updateLocalAddress
  | updateTarget
  | checkRecord
  /-- The `i`-th task takes a step. -/
  | advance (i : Nat) (answer : RouteAnswer)
  | heartbeat
  | tick (d : Nat)

/-- `update_target`, up to the lock of `get_local_address`. -/
def updateTarget (p : Pool Attachment TargetTask) : Pool Attachment TargetTask :=
  { p with shared := { p.shared with
      localTarget := (p.shared.localTarget.1, .republishing p.shared.now) } }.spawn
    (.getAddress p.shared.now)

/-- The heartbeat takes a step. -/
def heartbeat (p : Republish) : Republish :=
  match p.beat with
  | .readAddress =>
    let c := p.pool.shared
    { p with beat := .readTarget ⟨c.localAddress, c.localTarget.2, c.now⟩ }
  | .readTarget first =>
    { p with beat := .decide first ⟨p.pool.shared.localTarget, p.pool.shared.now⟩ }
  | .decide first second =>
    ⟨if shouldUpdate first second then updateTarget p.pool else p.pool, .readAddress⟩

def step [KeyCodec] (p : Republish) : Action → Republish
  | .attachment state publicInternetReady =>
    { p with pool := p.pool.spawn (.attachment (.check state publicInternetReady)) }
  | .ping => { p with pool := p.pool.spawn .ping }
  | .updateLocalAddress => { p with pool := p.pool.spawn .createAddress }
  | .updateTarget => { p with pool := updateTarget p.pool }
  | .checkRecord => { p with pool := p.pool.spawn .checkRecord }
  | .advance i answer => { p with pool := p.pool.advance (TargetTask.next answer) i }
  | .heartbeat => p.heartbeat
  | .tick d =>
    { p with pool := { p.pool with shared := { p.pool.shared with
        now := p.pool.shared.now + d } } }

/-- A listener with nothing under way. -/
def start (c : Attachment) : Republish := ⟨⟨c, []⟩, .readAddress⟩

/-- A new listener. -/
def newListener (now : Instant) : Attachment :=
  ⟨false, false, .offline, none, (none, .none), now, []⟩

end Republish
end VeilidTransport
