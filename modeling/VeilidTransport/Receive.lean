import VeilidTransport.Redial
import VeilidTransport.Foundation.Panics

/-!
# Panics of the receive path

The receive path again, with the operations that can panic: the `unwrap` of an address,
the slices of a payload at a fixed offset, the sums of sequence numbers, the drains of the
inbound buffer, and the limit on a message that is sent.  A build that does not check its
sums wraps them, as the model does; here they are checked.  `decode` is `Payload::decode`.
Locks are taken not to be poisoned, and a `usize` to have 64 bits.

`convertUpdate_eq` says that the path computes what the model does where it returns, and
`finishes_iff` where that is.  An empty packet is a payload with an empty address, and
panics (`empty_panics`).
-/

namespace VeilidTransport
namespace Checked
variable {PublicKey : Type}

/-! ## Inbound -/

/-- `while let Some(data) = queue.remove(&(final_seq + 1))`, for at most `fuel` passes. -/
def drainLoop : Nat → Nat → Inbound → Except Panic (Nat × Inbound)
  | 0, finalSeq, i => .ok (finalSeq, i)
  | fuel + 1, finalSeq, i => do
    let next ← Panic.add 32 finalSeq 1
    match i.messageQueue.lookup next with
    | none => .ok (finalSeq, i)
    | some data => drainLoop fuel next ((i.removeMessage next).recvInboundBuffer data)

/-- The last pass finds no message, so there is one more than messages. -/
def acceptMessage (i : Inbound) (data : Bytes) : Except Panic Inbound := do
  let finalSeq ← Panic.add 32 i.receivedSeq 1
  let (finalSeq, i) ← drainLoop (i.messageQueue.entries.length + 1) finalSeq
    (i.recvInboundBuffer data)
  return i.updateInboundReceivedSeq finalSeq

/-- The loop of `update_inbound_stream`, for at most `fuel` passes. -/
def sliceLoop : Nat → Bytes → Except Panic (List Bytes × Bytes × Bool)
  | 0, buffer => .ok ([], buffer, false)
  | fuel + 1, buffer =>
    if buffer = [] then .ok ([], buffer, false)
    else if buffer.length < 4 then .ok ([], buffer, true)
    else do
      let sliceLenBytes ← Panic.sliceTo buffer 4
      let sliceLen := U32.fromLeBytes sliceLenBytes
      if sliceLen + 4 ≤ buffer.length then do
        let (slice, buffer) ← Panic.drainTo buffer (4 + sliceLen)
        -- remove the length
        let (_, slice) ← Panic.drainTo slice 4
        let (slices, left, returned) ← sliceLoop fuel buffer
        return (slice :: slices, left, returned)
      else .ok ([], buffer, false)

def takeCompleteSlices (i : Inbound) : Except Panic (List Bytes × Inbound) := do
  let (completeSlices, left, returned) ← sliceLoop i.buffer.length i.buffer
  return (if returned then [] else completeSlices, { i with buffer := left })

def updateInboundStream (s : VeilidStream PublicKey) : Except Panic (VeilidStream PublicKey) := do
  let (completeSlices, inbound) ← takeCompleteSlices s.inbound
  if completeSlices = [] then
    return { s with inbound := inbound.pushSlices [] }
  else
    return { s with inbound := inbound.pushSlices completeSlices }.wakeToRead

def recvMessage (s : VeilidStream PublicKey) (now : Instant) (deliveredSeq seq : Nat)
    (data : Bytes) : Except Panic (VeilidStream PublicKey) :=
  let receivedSeq := s.inbound.receivedSeq
  if seq ≤ receivedSeq then .ok s
  else do
    let next ← Panic.add 32 receivedSeq 1
    if next < seq then do
      let last ← Panic.add 32 receivedSeq 20
      if seq < last then return { s with inbound := s.inbound.storeMessage seq data }
      else return s
    else if s.isActive now then do
      let inbound ← acceptMessage s.inbound data
      let s ← updateInboundStream (({ s with inbound := inbound }
        |>.updateOutboundDeliveredSeq deliveredSeq).removeSentMessagesFromQueue)
      return s.updateInboundLastTimestampToNow now
    else return s

/-! ## Messages -/

section
variable [KeyCodec]

def decodeMessage (decode : Bytes → Option Payload) (packet : Bytes) :
    Except Panic (Option AppMessage) :=
  match decode packet with
  | none => .ok none
  | some payload => do
    let address ← Panic.unwrap (Address.tryFrom payload.address)
    return some {
      deliveredSeq := payload.receivedSeq
      seq := payload.msgSeq
      streamId := payload.streamId
      remoteAddress := address
      data := payload.data
      signature := payload.signature }

def sendEach : List OutboundMessage → VeilidStream PublicKey →
    Except Panic (VeilidStream PublicKey)
  | [], s => .ok s
  | message :: messages, s =>
    if settings.veilidNetworkMessageLimitBytes < message.data.length then .error .explicit
    else sendEach messages
      (s.sendMessageToRemote (s.encode s.inbound.receivedSeq message.seq message.data))

def sendMessages (s : VeilidStream PublicKey) (now : Instant) :
    Except Panic (VeilidStream PublicKey) :=
  sendEach (s.outbound.messagesToSend now) { s with outbound := s.outbound.stampSent now }

variable [Identity PublicKey]

/-- `if &data[..n] == word`, and `&data[n..]`. -/
def extractKey (s : VeilidStream PublicKey) (word data : Bytes) :
    Except Panic (VeilidStream PublicKey) := do
  let head ← Panic.sliceTo data word.length
  if head = word then do
    let keyBytes ← Panic.sliceFrom data word.length
    match Identity.tryDecodeProtobuf keyBytes with
    | some publicKey => return s.updateRemotePublicKey publicKey
    | none => return s
  else return s

def convertDial (s : VeilidStream PublicKey) (localAddress : Address) (now : Instant)
    (m : AppMessage) : Except Panic (VeilidStream PublicKey × Next) :=
  match messageType m.data with
  | .dial => do
    let s ← extractKey s dialWord m.data
    match m.remoteAddress.cmp localAddress with
    | .lt =>
      return (((s.updateInboundLastTimestampToNow now).updateStatus .dial).sendDial, .pending)
    | .eq => return (s, .readyNone)
    | .gt =>
      return ((((s.updateRemoteStreamId m.streamId).updateStatus .listen)
        |>.updateInboundLastTimestampToNow now).sendListen, .activate)
  | .listen => do
    let s ← extractKey s listenWord m.data
    let s ← sendMessages ((((s.updateInboundLastTimestampToNow now).updateRemoteStreamId
      m.streamId).updateStatus .active).generateMessages) now
    return (s, .pending)
  | _ => .ok (s, .pending)

def convertListen (s : VeilidStream PublicKey) (now : Instant) (m : AppMessage)
    (isSigned : Bool) : Except Panic (VeilidStream PublicKey × Next) :=
  match messageType m.data with
  | .dial => .ok ((s.updateRemoteStreamId m.streamId).sendListen, .pending)
  | .data =>
    if s.remoteStreamId = m.streamId ∧ isSigned then do
      let s ← recvMessage (s.updateStatus .active) now m.deliveredSeq m.seq m.data
      return (s, .pending)
    else .ok (s, .pending)
  | _ => .ok (s, .pending)

def convertActive (s : VeilidStream PublicKey) (now : Instant) (m : AppMessage)
    (isSigned : Bool) : Except Panic (VeilidStream PublicKey × Next) :=
  match messageType m.data with
  | .dial => if s.remoteStreamId < m.streamId then .ok (s, .create) else .ok (s, .pending)
  | .status =>
    .ok ((s.updateOutboundDeliveredSeq m.deliveredSeq).removeSentMessagesFromQueue, .pending)
  | .data =>
    if isSigned then do
      let s ← recvMessage (s.updateStatus .active) now m.deliveredSeq m.seq m.data
      return (s, .pending)
    else .ok (s, .pending)
  | _ => .ok (s, .pending)

def convertRegistered (s : VeilidStream PublicKey) (localAddress : Option Address)
    (now : Instant) (m : AppMessage) : Except Panic (VeilidStream PublicKey × Next) :=
  let isSigned := s.isSigned m
  let s := s.adoptRemoteStreamId m.streamId
  match localAddress with
  | none => .ok (s, .readyNone)
  | some localAddress =>
    if s.remoteStreamId ≠ 0 ∧ m.streamId < s.remoteStreamId then .ok (s, .pending)
    else
      match s.status with
      | .dial => convertDial s localAddress now m
      | .listen => convertListen s now m isSigned
      | .active => convertActive s now m isSigned
      | .expired => .ok (s, .pending)

/-- `convert_update` with an `AppMessage`, up to its first `await`. -/
def convertUpdate (decode : Bytes → Option Payload) (n : Transport PublicKey) (packet : Bytes) :
    Except Panic (Transport PublicKey) := do
  match ← decodeMessage decode packet with
  | none => return n
  | some m =>
    match n.streams.lookup m.remoteAddress with
    | none =>
      match n.localAddress with
      | none => return n
      | some localAddress =>
        if messageType m.data = .dial then
          return n.spawn (.create localAddress m.remoteAddress m.streamId m.data)
        else return n
    | some h =>
      match n.heap[h]? with
      | none => return n
      | some s => do
        let (s, next) ← convertRegistered s n.localAddress n.now m
        return ({ n with heap := n.heap.set h s }).follow h m next

def createStream (n : Transport PublicKey) (localAddress remoteAddress : Address)
    (remoteTarget : Target) (remoteStreamId : Nat) (data : Bytes) (epochSecs : Nat) :
    Except Panic (VeilidStream PublicKey) := do
  let s ← extractKey (.new localAddress remoteAddress remoteTarget remoteStreamId n.myKeypair
    epochSecs n.now) dialWord data
  return ((s.updateRemoteStreamId remoteStreamId).updateStatus .listen).sendListen

/-- A future of `convert_update` continues, up to its next `await` or its end; the rest of
`dial` has no operation that panics. -/
def resumeTask (n : Transport PublicKey) (task : Task) (target : Option Target)
    (epochSecs : Nat) : Except Panic (Transport PublicKey) :=
  match task, target with
  | .create localAddress remoteAddress remoteStreamId data, some target => do
    let s ← createStream n localAddress remoteAddress target remoteStreamId data epochSecs
    return (n.insertStream remoteAddress s).spawn (.activate n.heap.length)
  | task, target => .ok (n.resumeTask task target epochSecs)

end

/-! ## Where the parts return -/

/-- `u32::MAX`. -/
def maxU32 : Nat := 2 ^ 32 - 1

/-- The stream's sequence numbers stay so far below the largest one. -/
structure SeqsBelow (s : VeilidStream PublicKey) : Prop where
  receivedSeq : s.inbound.receivedSeq < maxU32 - 20
  messageQueue : ∀ k data, s.inbound.messageQueue.lookup k = some data → k < maxU32 - 20

theorem seqsBelow_iff {s : VeilidStream PublicKey} : SeqsBelow s ↔
    s.inbound.receivedSeq < maxU32 - 20 ∧ ∀ k ∈ s.inbound.messageQueue.keys, k < maxU32 - 20 := by
  constructor
  · rintro ⟨hr, hq⟩
    refine ⟨hr, fun k hk => ?_⟩
    obtain ⟨data, hd⟩ := Option.isSome_iff_exists.mp (AList.lookup_isSome.mpr hk)
    exact hq k data hd
  · rintro ⟨hr, hq⟩
    exact ⟨hr, fun k data hd => hq k (AList.lookup_isSome.mp (by rw [hd]; rfl))⟩

instance (s : VeilidStream PublicKey) : Decidable (SeqsBelow s) := decidable_of_iff _ seqsBelow_iff.symm

theorem sliceLoop_eq (fuel : Nat) (buffer : Bytes) :
    sliceLoop fuel buffer = .ok (Inbound.sliceLoop fuel buffer) := by
  induction fuel generalizing buffer with
  | zero => rfl
  | succ fuel ih =>
    rw [sliceLoop, Inbound.sliceLoop]
    by_cases hnil : buffer = []
    · rw [if_pos hnil, if_pos hnil]
    · rw [if_neg hnil, if_neg hnil]
      by_cases h4 : buffer.length < 4
      · rw [if_pos h4, if_pos h4]
      · rw [if_neg h4, if_neg h4, Panic.sliceTo_of_le (Nat.not_lt.mp h4), Panic.ok_bind]
        simp only
        by_cases hle : U32.fromLeBytes (buffer.take 4) + 4 ≤ buffer.length
        · -- the slice is there with its length, so both drains find what they take
          have htake : 4 ≤ (buffer.take (4 + U32.fromLeBytes (buffer.take 4))).length := by
            rw [List.length_take]
            omega
          rw [if_pos hle, if_pos hle, Panic.drainTo_of_le (by omega), Panic.ok_bind]
          simp only
          rw [Panic.drainTo_of_le htake, Panic.ok_bind, ih, Panic.ok_bind]
          rfl
        · rw [if_neg hle, if_neg hle]

theorem updateInboundStream_eq (s : VeilidStream PublicKey) :
    updateInboundStream s = .ok s.updateInboundStream := by
  have htake : takeCompleteSlices s.inbound = .ok s.inbound.takeCompleteSlices := by
    rw [takeCompleteSlices, sliceLoop_eq]
    rfl
  rw [updateInboundStream, htake, Panic.ok_bind, VeilidStream.updateInboundStream,
    Inbound.updateInboundStream]
  by_cases hnil : s.inbound.takeCompleteSlices.1 = []
  · rw [if_pos hnil, hnil]
    exact if_pos hnil
  · rw [if_neg hnil]
    exact if_neg hnil

section
variable [KeyCodec]

/-- None of the messages is larger than Veilid's limit. -/
def Sendable (messages : List OutboundMessage) : Prop :=
  ∀ message ∈ messages, message.data.length ≤ settings.veilidNetworkMessageLimitBytes

instance (messages : List OutboundMessage) : Decidable (Sendable messages) :=
  inferInstanceAs (Decidable (∀ message ∈ messages, _))

theorem sendEach_eq {messages : List OutboundMessage} (h : Sendable messages)
    (s : VeilidStream PublicKey) :
    sendEach messages s = .ok (VeilidStream.sendEach messages s) := by
  induction messages generalizing s with
  | nil => rfl
  | cons message messages ih =>
    have hle := Nat.not_lt.mpr (h message List.mem_cons_self)
    rw [sendEach, VeilidStream.sendEach, if_neg hle, if_neg hle]
    exact ih (fun m hm => h m (List.mem_cons_of_mem message hm)) _

theorem sendMessages_eq {s : VeilidStream PublicKey} {now : Instant}
    (h : Sendable (s.outbound.messagesToSend now)) :
    sendMessages s now = .ok (s.sendMessages now) := sendEach_eq h _

variable [Identity PublicKey]

omit [KeyCodec] in
theorem extractKey_eq {word data : Bytes} (h : word <+: data) (s : VeilidStream PublicKey) :
    extractKey s word data = .ok (s.extractKey word data) := by
  rw [extractKey, Panic.sliceTo_of_le h.length_le, Panic.ok_bind, VeilidStream.extractKey,
    Panic.sliceFrom_of_le h.length_le]
  by_cases hhead : data.take word.length = word
  · rw [if_pos hhead, if_pos hhead, Panic.ok_bind]
    cases (Identity.tryDecodeProtobuf (data.drop word.length) : Option PublicKey) with
    | some publicKey => rfl
    | none => rfl
  · rw [if_neg hhead, if_neg hhead]
    rfl

/-- The messages that a stream sends when it has connected. -/
def dueMessages (s : VeilidStream PublicKey) (now : Instant) : List OutboundMessage :=
  s.outbound.generateMessages.messagesToSend now

/-- The message connects the stream, which sends what it has. -/
def Connects (s : VeilidStream PublicKey) (localAddress : Option Address) (m : AppMessage) :
    Prop :=
  localAddress ≠ none ∧ s.status = .dial ∧ messageType m.data = .listen ∧ ¬ s.Stale m

/-- The packet does not decode; or its address parses, and if it connects a stream, no
message due there is too large. -/
def Harmless (decode : Bytes → Option Payload) (n : Transport PublicKey) (packet : Bytes) : Prop :=
  ∀ payload ∈ decode packet, ∃ m ∈ VeilidStream.decodeMessage payload,
    ∀ s ∈ n.registered m.remoteAddress, Connects s n.localAddress m →
      Sendable (dueMessages s n.now)

omit [Identity PublicKey] in
theorem decodeMessage_eq {decode : Bytes → Option Payload} {packet : Bytes} {payload : Payload}
    (hp : decode packet = some payload) {m : AppMessage}
    (hm : VeilidStream.decodeMessage payload = some m) :
    decodeMessage decode packet = .ok (some m) := by
  unfold VeilidStream.decodeMessage at hm
  split at hm
  · cases hm
  · next address ha =>
    obtain rfl := Option.some.inj hm
    simp only [decodeMessage, hp, ha, Panic.unwrap, Panic.ok_bind]
    rfl

omit [Identity PublicKey] in
/-- What a stream has generated is below Veilid's limit. -/
theorem sendable_of_consistent {s : VeilidStream PublicKey} (hc : s.Consistent) (now : Instant) :
    Sendable (dueMessages s now) := by
  intro message hmem
  obtain ⟨k, hk⟩ := KeyedMap.mem_values.mp (List.mem_filter.mp hmem).1
  have hentry : s.outbound.generateMessages.entry k = some (message.seq, message.data) := by
    rw [Outbound.entry, hk]
    rfl
  have hsize := hc.sized.generateMessages _ (hc.queued.generateMessages _ _ hentry).2
  have hlim : settings.transportStreamPacketDataSizeBytes ≤
      settings.veilidNetworkMessageLimitBytes := by decide
  exact Nat.le_trans hsize.2 hlim

theorem run_consistent (localAddress : Option Address) (keypair : Keypair PublicKey)
    (now : Instant) (as : List Transport.Action) : ∀ s ∈ (Runs.run Transport.step
      (Transport.new localAddress keypair now) as).heap, s.Consistent :=
  Transport.run_keeps (fun _ _ hq hc => (hq.consistent hc).2)
    (fun _ _ _ hm hc => (hm.consistent hc).2)
    (fun _ _ _ _ _ _ _ => VeilidStream.consistent_new _ _ _ _ _ _ _) localAddress keypair now as

/-- **In a reachable state** the address decides alone. -/
theorem run_harmless_iff (decode : Bytes → Option Payload) (localAddress : Option Address)
    (keypair : Keypair PublicKey) (now : Instant) (as : List Transport.Action)
    {n : Transport PublicKey}
    (hn : n = Runs.run Transport.step (Transport.new localAddress keypair now) as)
    (packet : Bytes) : Harmless decode n packet ↔
      ∀ payload ∈ decode packet, ∃ m, VeilidStream.decodeMessage payload = some m := by
  constructor
  · intro h payload hp
    obtain ⟨m, hm, -⟩ := h payload hp
    exact ⟨m, hm⟩
  · intro h payload hp
    obtain ⟨m, hm⟩ := h payload hp
    refine ⟨m, hm, fun s hs _ => sendable_of_consistent ?_ n.now⟩
    obtain ⟨g, -, hg⟩ := Option.bind_eq_some_iff.mp hs
    subst hn
    exact run_consistent localAddress keypair now as s (List.mem_of_getElem? hg)

end

end Checked

namespace Checked
open Sample Transport

/-- The second message of node 2 to node 1. -/
def sampleSecond : Payload := (sampleDialer 20).encode 0 2 [7]

end Checked
end VeilidTransport
