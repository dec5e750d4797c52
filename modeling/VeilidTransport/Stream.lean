import VeilidTransport.Address
import VeilidTransport.Inbound
import VeilidTransport.Outbound
import Mathlib.Logic.Relation

/-!
# Streams

A `VeilidStream` carries the data between the local node and one remote node: an
inbound half, an outbound half, and what the two share (keys, ids, the status,
the reader's waker).

The network is what streams send: `sent` is history, every payload handed to
Veilid so far.  A payload is modelled as it is decoded: the protobuf coding is
outside the model, and an empty buffer, which is what a failed signature leaves
to send, is the payload whose fields all have their defaults.  `woken` is history
too, the wakers that were woken.

Two lemmas say once what the composite operations do to a stream:
`recvMessage_cases` for a received message, and `sendMessages_eq` for the queue
being sent, in terms of the payloads a stream can send at all (`Emits`).
-/

namespace VeilidTransport

/-- The packet on the wire. -/
structure Payload where
  receivedSeq : Nat
  msgSeq : Nat
  streamId : Nat
  signature : Bytes
  address : List Char
  data : Bytes
  deriving DecidableEq

/-- What an empty buffer decodes to. -/
def Payload.empty : Payload := ⟨0, 0, 0, [], [], []⟩

/-- A decoded packet, under the names the listener gives its fields. -/
structure AppMessage where
  deliveredSeq : Nat
  seq : Nat
  streamId : Nat
  remoteAddress : Address
  data : Bytes
  signature : Bytes

inductive StreamStatus where
  | dial
  | listen
  | active
  | expired
  deriving DecidableEq

/-- A stream that has listened or is active does not dial. -/
theorem StreamStatus.ne_dial {status : StreamStatus} (h : status = .listen ∨ status = .active) :
    status ≠ .dial := by
  rcases h with rfl | rfl
  · simp
  · simp

/-- A handle that wakes a reader. -/
abbrev Waker := Nat

structure VeilidStream (PublicKey : Type) where
  /-- This node's keys. -/
  myKeypair : Keypair PublicKey
  /-- The remote's public key, for signature validation. -/
  remotePublicKey : Option PublicKey
  localAddress : Address
  remoteAddress : Address
  remoteTarget : Target
  /-- My id for this stream. -/
  myStreamId : Nat
  /-- The remote's id for this stream. -/
  remoteStreamId : Nat
  /-- Handle to wake the connection's reader. -/
  waker : Option Waker
  inbound : Inbound
  outbound : Outbound
  status : StreamStatus
  /-- History: the payloads sent. -/
  sent : List Payload
  /-- History: the wakers woken. -/
  woken : List Waker

/-- `b"DIAL"`. -/
def dialWord : Bytes := [0x44, 0x49, 0x41, 0x4C]

/-- `b"LISTEN"`. -/
def listenWord : Bytes := [0x4C, 0x49, 0x53, 0x54, 0x45, 0x4E]

/-- `b"STATUS"`. -/
def statusWord : Bytes := [0x53, 0x54, 0x41, 0x54, 0x55, 0x53]

namespace VeilidStream
variable {PublicKey : Type}

/-- A new stream; its id is the clock's seconds since the epoch. -/
def new (localAddress remoteAddress : Address) (remoteTarget : Target) (remoteStreamId : Nat)
    (keypair : Keypair PublicKey) (epochSecs : Nat) (now : Instant) : VeilidStream PublicKey where
  localAddress := localAddress
  remoteAddress := remoteAddress
  remoteTarget := remoteTarget
  myStreamId := epochSecs
  remoteStreamId := remoteStreamId
  myKeypair := keypair
  remotePublicKey := none
  inbound := Inbound.new now
  outbound := Outbound.new now
  waker := none
  status := .dial
  sent := []
  woken := []

def updateRemoteStreamId (s : VeilidStream PublicKey) (id : Nat) : VeilidStream PublicKey :=
  { s with remoteStreamId := id }

def updateInboundLastTimestampToNow (s : VeilidStream PublicKey) (now : Instant) :
    VeilidStream PublicKey :=
  { s with inbound := s.inbound.updateInboundLastTimestampToNow now }

def updateStatus (s : VeilidStream PublicKey) (status : StreamStatus) : VeilidStream PublicKey :=
  { s with status := status }

def updateRemotePublicKey (s : VeilidStream PublicKey) (key : PublicKey) :
    VeilidStream PublicKey :=
  { s with remotePublicKey := some key }

/-! ## Status -/

/-- A message was received within the timeout. -/
def isRecent (s : VeilidStream PublicKey) (now : Instant) : Bool :=
  now < s.inbound.lastTimestamp + secs settings.streamTimeoutSecs

def isPending (s : VeilidStream PublicKey) : Bool := s.status ≠ .active ∧ s.status ≠ .expired

def isActive (s : VeilidStream PublicKey) (now : Instant) : Bool :=
  if s.status ≠ .active then false else s.isRecent now

/-- The status `Expired` answers `false` here: only the timeout counts. -/
def isExpired (s : VeilidStream PublicKey) (now : Instant) : Bool :=
  if s.status = .expired then false else !s.isRecent now

def getStatus (s : VeilidStream PublicKey) (now : Instant) : StreamStatus :=
  match s.status with
  | .dial => .dial
  | .listen => .listen
  | .active => if s.isRecent now then .active else .expired
  | .expired => .expired

def wakeToRead (s : VeilidStream PublicKey) : VeilidStream PublicKey :=
  match s.waker with
  | some waker => { s with woken := s.woken ++ [waker] }
  | none => s

/-! ## Inbound -/

/-- Decode a packet; an address that does not parse panics. -/
def decodeMessage [KeyCodec] (packet : Payload) : Option AppMessage :=
  match Address.tryFrom packet.address with
  | none => none
  | some address => some {
      deliveredSeq := packet.receivedSeq
      seq := packet.msgSeq
      streamId := packet.streamId
      remoteAddress := address
      data := packet.data
      signature := packet.signature }

def verifySignature [Identity PublicKey] (publicKey : Option PublicKey)
    (data signature : Bytes) : Bool :=
  match publicKey with
  | some key => Identity.verify key data signature
  | none => false

def updateOutboundDeliveredSeq (s : VeilidStream PublicKey) (newValue : Nat) :
    VeilidStream PublicKey :=
  { s with outbound := s.outbound.updateOutboundDeliveredSeq newValue }

def removeSentMessagesFromQueue (s : VeilidStream PublicKey) : VeilidStream PublicKey :=
  { s with outbound := s.outbound.removeSentMessagesFromQueue }

/-- Move complete slices to the stream, and wake the reader if there are any. -/
def updateInboundStream (s : VeilidStream PublicKey) : VeilidStream PublicKey :=
  if s.inbound.takeCompleteSlices.1 = [] then
    { s with inbound := s.inbound.updateInboundStream }
  else
    { s with inbound := s.inbound.updateInboundStream }.wakeToRead

def recvMessage (s : VeilidStream PublicKey) (now : Instant) (deliveredSeq seq : Nat)
    (data : Bytes) : VeilidStream PublicKey :=
  let receivedSeq := s.inbound.receivedSeq
  if seq ≤ receivedSeq then s
  else if addU32 receivedSeq 1 < seq then
    if seq < addU32 receivedSeq 20 then
      -- one of the next 20 messages
      { s with inbound := s.inbound.storeMessage seq data }
    else s
  else if s.isActive now then
    { s with inbound := s.inbound.acceptMessage data }
      |>.updateOutboundDeliveredSeq deliveredSeq
      |>.removeSentMessagesFromQueue
      |>.updateInboundStream
      |>.updateInboundLastTimestampToNow now
  else s

def readInboundStream (s : VeilidStream PublicKey) (len : Nat) :
    Option Bytes × VeilidStream PublicKey :=
  match s.inbound.readInboundStream len with
  | (data, inbound) => (data, { s with inbound := inbound })

/-! ## Outbound -/

/-- Hand a payload to Veilid, for a node or for a private route alike; whether it
arrives is the network's choice. -/
def sendMessageToRemote (s : VeilidStream PublicKey) (messageData : Payload) :
    VeilidStream PublicKey :=
  { s with sent := s.sent ++ [messageData] }

/-- A payload with its signature; if signing fails the buffer stays empty. -/
def encodeMessage [KeyCodec] (receivedSeq msgSeq streamId : Nat) (address : Address)
    (msgData : Bytes) (keypair : Keypair PublicKey) : Payload :=
  match keypair.sign msgData with
  | some signature => {
      receivedSeq := receivedSeq
      msgSeq := msgSeq
      streamId := streamId
      signature := signature
      address := address.toMultiaddr
      data := msgData }
  | none => Payload.empty

section Sending
variable [KeyCodec]

/-- A payload of this stream. -/
def encode (s : VeilidStream PublicKey) (receivedSeq msgSeq : Nat) (data : Bytes) : Payload :=
  encodeMessage receivedSeq msgSeq s.myStreamId s.localAddress data s.myKeypair

/-- `DIAL` and this node's public key. -/
def dialData [Identity PublicKey] (s : VeilidStream PublicKey) : Bytes :=
  dialWord ++ Identity.encodeProtobuf s.myKeypair.publicKey

/-- `LISTEN` and this node's public key. -/
def listenData [Identity PublicKey] (s : VeilidStream PublicKey) : Bytes :=
  listenWord ++ Identity.encodeProtobuf s.myKeypair.publicKey

def sendDial [Identity PublicKey] (s : VeilidStream PublicKey) : VeilidStream PublicKey :=
  s.sendMessageToRemote (s.encode 0 0 s.dialData)

def sendListen [Identity PublicKey] (s : VeilidStream PublicKey) : VeilidStream PublicKey :=
  s.sendMessageToRemote (s.encode 0 0 s.listenData)

def sendStatusIfStale (s : VeilidStream PublicKey) (now : Instant) : VeilidStream PublicKey :=
  if secs settings.connectionKeepaliveTimeout ≤ now - s.outbound.lastTimestamp ∧ s.isActive now then
    s.sendMessageToRemote (s.encode s.inbound.receivedSeq s.outbound.lastSeq statusWord)
  else s

/-- The stream with the bytes of a write, and whether sending them is spawned. -/
def insertToOutboundStream (s : VeilidStream PublicKey) (now : Instant) (data : Bytes) :
    VeilidStream PublicKey × Bool :=
  ({ s with outbound := s.outbound.insertToOutboundStream data }, s.isActive now)

def generateMessages (s : VeilidStream PublicKey) : VeilidStream PublicKey :=
  { s with outbound := s.outbound.generateMessages }

/-- Send each message in turn; one above Veilid's limit panics, and neither it
nor the rest is sent. -/
def sendEach : List OutboundMessage → VeilidStream PublicKey → VeilidStream PublicKey
  | [], s => s
  | message :: messages, s =>
    if settings.veilidNetworkMessageLimitBytes < message.data.length then s
    else sendEach messages
      (s.sendMessageToRemote (s.encode s.inbound.receivedSeq message.seq message.data))

def sendMessages (s : VeilidStream PublicKey) (now : Instant) : VeilidStream PublicKey :=
  sendEach (s.outbound.messagesToSend now) { s with outbound := s.outbound.stampSent now }

/-- **The payloads a stream can send** in its present state. -/
inductive Emits [Identity PublicKey] (s : VeilidStream PublicKey) : Payload → Prop where
  | dial (h : s.status = .dial) : Emits s (s.encode 0 0 s.dialData)
  | listen (h : s.status = .listen) : Emits s (s.encode 0 0 s.listenData)
  | status (h : s.status = .active) :
      Emits s (s.encode s.inbound.receivedSeq s.outbound.lastSeq statusWord)
  | message (k : Nat) (e : Nat × Bytes) (h : s.outbound.entry k = some e) :
      Emits s (s.encode s.inbound.receivedSeq e.1 e.2)

end Sending

/-! ## What receiving and sending do -/

theorem wakeToRead_eq (s : VeilidStream PublicKey) :
    s.wakeToRead = { s with woken := s.woken ++ s.waker.toList } := by
  rw [wakeToRead]
  split
  · next w hw =>
    have h : s.waker.toList = [w] := by rw [hw]; rfl
    rw [h]
  · next hw =>
    have h : s.waker.toList = [] := by rw [hw]; rfl
    rw [h, List.append_nil]

theorem updateInboundStream_eq (s : VeilidStream PublicKey) :
    ∃ woken, s.updateInboundStream =
      { s with inbound := s.inbound.updateInboundStream, woken := woken } := by
  unfold updateInboundStream
  split
  · exact ⟨s.woken, rfl⟩
  · exact ⟨_, wakeToRead_eq _⟩

theorem isActive_iff {s : VeilidStream PublicKey} {now : Instant} :
    s.isActive now = true ↔ s.status = .active ∧ s.isRecent now = true := by
  by_cases h : s.status = .active
  · simp [isActive, h]
  · simp [isActive, h]

/-- **What receiving a message does**: nothing, or keep it for later, or, on an
active stream, take it as the next one. -/
theorem recvMessage_cases (s : VeilidStream PublicKey) (now : Instant) (deliveredSeq seq : Nat)
    (data : Bytes) :
    s.recvMessage now deliveredSeq seq data = s ∨
    (0 < seq ∧ s.recvMessage now deliveredSeq seq data =
      { s with inbound := s.inbound.storeMessage seq data }) ∨
    (s.isActive now = true ∧ seq = s.inbound.receivedSeq + 1 ∧
      s.inbound.receivedSeq + 1 < 2 ^ 32 ∧
      ∃ woken, s.recvMessage now deliveredSeq seq data = { s with
        inbound := (s.inbound.acceptMessage data).updateInboundStream
          |>.updateInboundLastTimestampToNow now
        outbound := (s.outbound.updateOutboundDeliveredSeq deliveredSeq).removeSentMessagesFromQueue
        woken := woken }) := by
  unfold recvMessage
  simp only
  split
  · exact .inl rfl
  · next hdup =>
    split
    · split
      · exact .inr (.inl ⟨by omega, rfl⟩)
      · exact .inl rfl
    · next hnext =>
      split
      · next hactive =>
        obtain ⟨hseq, -, hlt⟩ := Inbound.next_of_not_lt hdup hnext
        obtain ⟨woken, hw⟩ := updateInboundStream_eq
          (removeSentMessagesFromQueue (updateOutboundDeliveredSeq
            { s with inbound := s.inbound.acceptMessage data } deliveredSeq))
        exact .inr (.inr ⟨hactive, hseq, hlt, woken, by rw [hw]; rfl⟩)
      · exact .inl rfl

section Sending
variable [KeyCodec]

theorem sendEach_eq (messages : List OutboundMessage) (s : VeilidStream PublicKey) :
    ∃ ms, ms <+: messages ∧ sendEach messages s = { s with
      sent := s.sent ++ ms.map fun m => s.encode s.inbound.receivedSeq m.seq m.data } := by
  induction messages generalizing s with
  | nil => exact ⟨[], List.prefix_rfl, by simp [sendEach]⟩
  | cons m messages ih =>
    rw [sendEach]
    split
    · exact ⟨[], List.nil_prefix, by simp⟩
    · obtain ⟨ms, hms, heq⟩ :=
        ih (s.sendMessageToRemote (s.encode s.inbound.receivedSeq m.seq m.data))
      refine ⟨m :: ms, (List.prefix_cons_inj m).mpr hms, ?_⟩
      rw [heq]
      simp only [sendMessageToRemote, List.map_cons, List.append_assoc, List.singleton_append]
      rfl

/-- **What sending the queue does**: stamp it, and send messages of it. -/
theorem sendMessages_eq [Identity PublicKey] (s : VeilidStream PublicKey) (now : Instant) :
    ∃ ps, s.sendMessages now =
        { s with outbound := s.outbound.stampSent now, sent := s.sent ++ ps } ∧
      ∀ p ∈ ps, s.Emits p := by
  obtain ⟨ms, hms, heq⟩ :=
    sendEach_eq (s.outbound.messagesToSend now) { s with outbound := s.outbound.stampSent now }
  refine ⟨_, heq, fun p hp => ?_⟩
  obtain ⟨m, hm, rfl⟩ := List.mem_map.mp hp
  have hq : m ∈ s.outbound.messageQueue.values :=
    (List.mem_filter.mp (hms.subset hm)).1
  obtain ⟨k, hk⟩ := KeyedMap.mem_values.mp hq
  exact .message k (m.seq, m.data) (by rw [Outbound.entry, hk]; rfl)

end Sending

end VeilidStream
end VeilidTransport
