import VeilidTransport.Listener
import VeilidTransport.Connection

/-!
# What can happen to a stream

Whatever the code does to a stream is made of a few moves.  Most are `Quiet`: they
leave the messages received and the queue of messages to deliver alone, but for
new messages put into the queue.  The others handle a message `m` (`Moves m`): keep it for
later, accept it as the next one, or drop from the queue what it acknowledges.

`Grows` is what every move does to the history of a stream, and `Consistent` is
what every stream satisfies whatever it is sent: its queues are numbered right, and
every payload it has ever sent is `Vouched` for by its present state.

Between two streams, `TakenFrom` says that one has received only what the other
has generated, and `Delivered` that the other still queues what it has yet to
receive.
-/

namespace VeilidTransport
namespace VeilidStream
variable {PublicKey : Type} [KeyCodec] [Identity PublicKey]

/-- The node's own work on a stream: reading, writing and sending, with the handshake
and the clock as they are. -/
inductive Work : VeilidStream PublicKey → VeilidStream PublicKey → Prop where
  | reader (s : VeilidStream PublicKey) (waker : Option Waker) (woken : List Waker)
      (stream : Bytes) :
      Work s { s with
        waker := waker
        woken := woken
        inbound := { s.inbound with stream := stream } }
  | write (s : VeilidStream PublicKey) (data : Bytes) :
      Work s { s with outbound := s.outbound.insertToOutboundStream data }
  | generate (s : VeilidStream PublicKey) : Work s s.generateMessages
  | send (s : VeilidStream PublicKey) (now : Instant) (ps : List Payload)
      (h : ∀ p ∈ ps, s.Emits p) :
      Work s { s with outbound := s.outbound.stampSent now, sent := s.sent ++ ps }
  | emit (s : VeilidStream PublicKey) (p : Payload) (h : s.Emits p) :
      Work s (s.sendMessageToRemote p)

/-- A move that handles no message. -/
inductive Quiet : VeilidStream PublicKey → VeilidStream PublicKey → Prop where
  | work {s s' : VeilidStream PublicKey} (h : Work s s') : Quiet s s'
  /-- The handshake and the clock; an active stream that knows its remote's id stays
  so. -/
  | control (s : VeilidStream PublicKey) (key : Option PublicKey) (id : Nat)
      (status : StreamStatus) (lastTimestamp : Instant)
      (h : s.status = .active → status = .active ∧ (s.remoteStreamId ≠ 0 → id = s.remoteStreamId)) :
      Quiet s { s with
        remotePublicKey := key
        remoteStreamId := id
        status := status
        inbound := { s.inbound with lastTimestamp := lastTimestamp } }

/-- A move that may handle the message `m`. -/
inductive Moves (m : AppMessage) : VeilidStream PublicKey → VeilidStream PublicKey → Prop where
  | quiet {s s' : VeilidStream PublicKey} (h : Quiet s s') : Moves m s s'
  | store (s : VeilidStream PublicKey) (hs : s.status = .active)
      (hm : messageType m.data = .data) (hseq : 0 < m.seq) :
      Moves m s { s with inbound := s.inbound.storeMessage m.seq m.data }
  | accept (s : VeilidStream PublicKey) (hs : s.status = .active)
      (hm : messageType m.data = .data) (hseq : m.seq = s.inbound.receivedSeq + 1)
      (hlt : s.inbound.receivedSeq + 1 < 2 ^ 32) :
      Moves m s { s with inbound := (s.inbound.acceptMessage m.data).updateInboundStream }
  | acknowledge (s : VeilidStream PublicKey) (hs : s.status = .active) :
      Moves m s { s with outbound :=
        (s.outbound.updateOutboundDeliveredSeq m.deliveredSeq).removeSentMessagesFromQueue }

/-- Work, one piece after the other. -/
abbrev Works : VeilidStream PublicKey → VeilidStream PublicKey → Prop :=
  Relation.ReflTransGen Work

/-- Quiet moves, one after the other. -/
abbrev Quietly : VeilidStream PublicKey → VeilidStream PublicKey → Prop :=
  Relation.ReflTransGen Quiet

/-- Moves with the message `m`, one after the other. -/
abbrev Handles (m : AppMessage) : VeilidStream PublicKey → VeilidStream PublicKey → Prop :=
  Relation.ReflTransGen (Moves m)

theorem Works.quietly {s s' : VeilidStream PublicKey} (h : Works s s') : Quietly s s' := by
  induction h with
  | refl => exact .refl
  | tail _ hs ih => exact ih.tail (.work hs)

theorem Quietly.handles {s s' : VeilidStream PublicKey} (h : Quietly s s') (m : AppMessage) :
    Handles m s s' := by
  induction h with
  | refl => exact .refl
  | tail _ hs ih => exact ih.tail (.quiet hs)

/-! ## The operations as moves -/

theorem works_sendMessages (s : VeilidStream PublicKey) (now : Instant) :
    Works s (s.sendMessages now) := by
  obtain ⟨ps, heq, hps⟩ := sendMessages_eq s now
  rw [heq]
  exact .single (.send s now ps hps)

theorem works_sendStatusIfStale (s : VeilidStream PublicKey) (now : Instant) :
    Works s (s.sendStatusIfStale now) := by
  unfold sendStatusIfStale
  split
  · next h => exact .single (.emit s _ (.status (isActive_iff.mp h.2).1))
  · exact .refl

theorem works_wakeToRead (s : VeilidStream PublicKey) : Works s s.wakeToRead := by
  rw [wakeToRead_eq]
  exact .single (.reader s s.waker (s.woken ++ s.waker.toList) s.inbound.stream)

theorem works_pollRead (s : VeilidStream PublicKey) (now : Instant) (waker : Waker) (len : Nat) :
    Works s (s.pollRead now waker len).2 := by
  rcases pollRead_cases s now waker len with ⟨-, h⟩ | ⟨-, -, h⟩ | ⟨-, -, h⟩
  · rw [h]
  · rw [h]
    exact .single (.reader s s.waker s.woken (s.inbound.stream.drop len))
  · rw [h]
    exact .single (.reader s (some waker) s.woken s.inbound.stream)

theorem works_pollWrite (s : VeilidStream PublicKey) (now : Instant) (buf : Bytes) :
    Works s (s.pollWrite now buf).2 := by
  rcases pollWrite_cases s now buf with ⟨-, h⟩ | ⟨-, h⟩
  · rw [h]
  · rw [h]
    exact .single (.write s buf)

theorem handles_recvMessage {s : VeilidStream PublicKey} {m : AppMessage} (now : Instant)
    (hs : s.status = .active) (hm : messageType m.data = .data) :
    Handles m s (s.recvMessage now m.deliveredSeq m.seq m.data) := by
  rcases recvMessage_cases s now m.deliveredSeq m.seq m.data with
    h | ⟨hseq, h⟩ | ⟨-, hseq, hlt, woken, h⟩
  · rw [h]
  · rw [h]
    exact .single (.store s hs hm hseq)
  · rw [h]
    have h1 := Moves.accept s hs hm hseq hlt
    have h2 := Moves.acknowledge (m := m)
      { s with inbound := (s.inbound.acceptMessage m.data).updateInboundStream } hs
    have h3 := Work.reader
      { s with
        inbound := (s.inbound.acceptMessage m.data).updateInboundStream
        outbound :=
          (s.outbound.updateOutboundDeliveredSeq m.deliveredSeq).removeSentMessagesFromQueue }
      s.waker woken (s.inbound.acceptMessage m.data).updateInboundStream.stream
    have h4 := Quiet.control
      { s with
        inbound := (s.inbound.acceptMessage m.data).updateInboundStream
        outbound :=
          (s.outbound.updateOutboundDeliveredSeq m.deliveredSeq).removeSentMessagesFromQueue
        woken := woken }
      s.remotePublicKey s.remoteStreamId s.status now fun h => ⟨h, fun _ => rfl⟩
    exact .tail (.tail (.tail (.single h1) h2) (.quiet (.work h3))) (.quiet h4)

theorem Handled.handles {localAddress : Address} {now : Instant} {m : AppMessage}
    {s s' : VeilidStream PublicKey} {isSigned : Bool} {next : Next}
    (h : Handled localAddress now m s isSigned s' next) : Handles m s s' := by
  cases h with
  | ignored => exact .refl
  | superseded => exact .refl
  | tied hs hm hcmp =>
    obtain ⟨key, hk⟩ := extractKey_eq s dialWord m.data
    rw [hk]
    exact .single (.quiet (.control s key _ _ _ fun h => by rw [hs] at h; cases h))
  | redial hs hm hcmp =>
    obtain ⟨key, hk⟩ := extractKey_eq s dialWord m.data
    rw [hk]
    refine Quietly.handles (.tail (.single (.control s key s.remoteStreamId .dial now
      fun h => by rw [hs] at h; cases h)) (.work ?_)) m
    exact .emit _ _ (.dial rfl)
  | switched hs hm hcmp =>
    obtain ⟨key, hk⟩ := extractKey_eq s dialWord m.data
    rw [hk]
    refine Quietly.handles (.tail (.single (.control s key m.streamId .listen now
      fun h => by rw [hs] at h; cases h)) (.work ?_)) m
    exact .emit _ _ (.listen rfl)
  | connected hs hm =>
    obtain ⟨key, hk⟩ := extractKey_eq s listenWord m.data
    rw [hk]
    refine Quietly.handles (.trans (.tail (.single (.control s key m.streamId .active now
      fun h => by rw [hs] at h; cases h)) (.work (.generate _))) ?_) m
    exact (works_sendMessages _ now).quietly
  | relisten hs hm =>
    refine Quietly.handles (.tail (.single (.control s s.remotePublicKey m.streamId s.status
      s.inbound.lastTimestamp fun h => by rw [hs] at h; cases h)) (.work ?_)) m
    exact .emit _ _ (.listen hs)
  | received hs hm hsigned =>
    refine .head (.quiet (.control s s.remotePublicKey s.remoteStreamId .active
      s.inbound.lastTimestamp fun _ => ⟨rfl, fun _ => rfl⟩)) ?_
    exact handles_recvMessage now rfl hm
  | acknowledged hs hm => exact .single (.acknowledge s hs)

theorem quietly_adoptRemoteStreamId (s : VeilidStream PublicKey) (streamId : Nat) :
    Quietly s (s.adoptRemoteStreamId streamId) := by
  obtain ⟨id, hid, hadopt⟩ := adoptRemoteStreamId_eq s streamId
  rw [hadopt]
  exact .single (.control s s.remotePublicKey id s.status s.inbound.lastTimestamp
    fun h => ⟨h, hid⟩)

/-- **The state machine in moves**: handling a message is a run of moves that handle
it. -/
theorem convertRegistered_handles (s : VeilidStream PublicKey) (localAddress : Option Address)
    (now : Instant) (m : AppMessage) :
    Handles m s (s.convertRegistered localAddress now m).1 := by
  have hq := (quietly_adoptRemoteStreamId s m.streamId).handles m
  cases localAddress with
  | none => exact hq
  | some localAddress =>
    rcases convertRegistered_handled s localAddress now m with ⟨-, h⟩ | ⟨-, h⟩
    · rw [h]
      exact hq
    · exact hq.trans h.handles

/-! ## What changes the handshake -/

/-- The handshake and the clock stay as they are. -/
structure SameHandshake (s s' : VeilidStream PublicKey) : Prop where
  status : s'.status = s.status
  remoteStreamId : s'.remoteStreamId = s.remoteStreamId
  remotePublicKey : s'.remotePublicKey = s.remotePublicKey
  lastTimestamp : s'.inbound.lastTimestamp = s.inbound.lastTimestamp

theorem works_handshake {s s' : VeilidStream PublicKey} (h : Works s s') :
    SameHandshake s s' := by
  induction h with
  | refl => exact ⟨rfl, rfl, rfl, rfl⟩
  | tail _ hs ih =>
    cases hs <;> exact ⟨ih.status, ih.remoteStreamId, ih.remotePublicKey, ih.lastTimestamp⟩

omit [KeyCodec] [Identity PublicKey] in
theorem recvMessage_handshake (s : VeilidStream PublicKey) (now : Instant)
    (deliveredSeq seq : Nat) (data : Bytes) :
    (s.recvMessage now deliveredSeq seq data).status = s.status ∧
    (s.recvMessage now deliveredSeq seq data).remoteStreamId = s.remoteStreamId ∧
    (s.recvMessage now deliveredSeq seq data).remotePublicKey = s.remotePublicKey := by
  rcases recvMessage_cases s now deliveredSeq seq data with h | ⟨-, h⟩ | ⟨-, -, -, woken, h⟩
  · rw [h]; exact ⟨rfl, rfl, rfl⟩
  · rw [h]; exact ⟨rfl, rfl, rfl⟩
  · rw [h]; exact ⟨rfl, rfl, rfl⟩

/-- A stream's remote id is the one it had or the message's. -/
theorem Handled.remoteStreamId {localAddress : Address} {now : Instant} {m : AppMessage}
    {s s' : VeilidStream PublicKey} {isSigned : Bool} {next : Next}
    (h : Handled localAddress now m s isSigned s' next) :
    s'.remoteStreamId = s.remoteStreamId ∨ s'.remoteStreamId = m.streamId := by
  cases h with
  | ignored => exact .inl rfl
  | superseded => exact .inl rfl
  | tied hs hm hcmp =>
    obtain ⟨key, hk⟩ := extractKey_eq s dialWord m.data
    rw [hk]; exact .inl rfl
  | redial hs hm hcmp =>
    obtain ⟨key, hk⟩ := extractKey_eq s dialWord m.data
    rw [hk]; exact .inl rfl
  | switched => exact .inr rfl
  | connected =>
    exact .inr (works_handshake (works_sendMessages _ now)).remoteStreamId
  | relisten => exact .inr rfl
  | received => exact .inl (recvMessage_handshake _ _ _ _ _).2.1
  | acknowledged => exact .inl rfl

/-- A stream that knows no id has that of the message afterwards. -/
theorem convertRegistered_adopts {s : VeilidStream PublicKey} (h0 : s.remoteStreamId = 0)
    (localAddress : Option Address) (now : Instant) (m : AppMessage) :
    (s.convertRegistered localAddress now m).1.remoteStreamId = m.streamId := by
  have hadopt := adoptRemoteStreamId_heard (s := s) (k := m.streamId) (.inl h0)
  cases localAddress with
  | none => rw [convertRegistered_none, hadopt]
  | some l =>
    have hc := convertRegistered_handled s l now m
    rw [hadopt] at hc
    rcases hc with ⟨-, h⟩ | ⟨-, h⟩
    · rw [h]
    · rcases h.remoteStreamId with h | h
      · exact h
      · exact h

theorem convertRegistered_remoteStreamId (s : VeilidStream PublicKey)
    (localAddress : Option Address) (now : Instant) (m : AppMessage) :
    (s.convertRegistered localAddress now m).1.remoteStreamId = s.remoteStreamId ∨
    (s.convertRegistered localAddress now m).1.remoteStreamId = m.streamId := by
  have hadopt : (s.adoptRemoteStreamId m.streamId).remoteStreamId = s.remoteStreamId ∨
      (s.adoptRemoteStreamId m.streamId).remoteStreamId = m.streamId := by
    unfold adoptRemoteStreamId
    split
    · exact .inr rfl
    · exact .inl rfl
  cases localAddress with
  | none => exact hadopt
  | some localAddress =>
    rcases convertRegistered_handled s localAddress now m with ⟨-, h⟩ | ⟨-, h⟩
    · rw [h]; exact hadopt
    · rcases h.remoteStreamId with hr | hr
      · rw [hr]; exact hadopt
      · exact .inr hr

/-- A stream is replaced only on a dial, and by one with a higher id. -/
theorem convertRegistered_create {s : VeilidStream PublicKey} {localAddress : Option Address}
    {now : Instant} {m : AppMessage}
    (h : (s.convertRegistered localAddress now m).2 = .create) :
    messageType m.data = .dial ∧
      (s.adoptRemoteStreamId m.streamId).remoteStreamId < m.streamId := by
  cases localAddress with
  | none => cases h
  | some localAddress =>
    rcases convertRegistered_handled s localAddress now m with ⟨-, hs⟩ | ⟨-, hs⟩
    · rw [hs] at h; cases h
    · generalize (s.convertRegistered _ _ _).1 = s' at hs
      rw [h] at hs
      cases hs with
      | superseded _ hm hid => exact ⟨hm, hid⟩

/-! ## What no move changes -/

/-- Who the stream belongs to, and between whom it runs. -/
structure SameIdentity (s s' : VeilidStream PublicKey) : Prop where
  myStreamId : s'.myStreamId = s.myStreamId
  localAddress : s'.localAddress = s.localAddress
  remoteAddress : s'.remoteAddress = s.remoteAddress
  myKeypair : s'.myKeypair = s.myKeypair

theorem works_identity {s s' : VeilidStream PublicKey} (h : Works s s') : SameIdentity s s' := by
  induction h with
  | refl => exact ⟨rfl, rfl, rfl, rfl⟩
  | tail _ hs ih =>
    cases hs <;> exact ⟨ih.myStreamId, ih.localAddress, ih.remoteAddress, ih.myKeypair⟩

theorem handles_identity {m : AppMessage} {s s' : VeilidStream PublicKey} (h : Handles m s s') :
    SameIdentity s s' := by
  induction h with
  | refl => exact ⟨rfl, rfl, rfl, rfl⟩
  | tail _ hs ih =>
    cases hs with
    | quiet hq =>
      cases hq with
      | work hw =>
        have hi := works_identity (.single hw)
        exact ⟨hi.myStreamId.trans ih.myStreamId, hi.localAddress.trans ih.localAddress,
          hi.remoteAddress.trans ih.remoteAddress, hi.myKeypair.trans ih.myKeypair⟩
      | control => exact ⟨ih.myStreamId, ih.localAddress, ih.remoteAddress, ih.myKeypair⟩
    | store => exact ⟨ih.myStreamId, ih.localAddress, ih.remoteAddress, ih.myKeypair⟩
    | accept => exact ⟨ih.myStreamId, ih.localAddress, ih.remoteAddress, ih.myKeypair⟩
    | acknowledge => exact ⟨ih.myStreamId, ih.localAddress, ih.remoteAddress, ih.myKeypair⟩

/-! ## What every move does to the history -/

/-- The stream keeps its identity, and its history only grows. -/
structure Grows (s s' : VeilidStream PublicKey) : Prop where
  myStreamId : s'.myStreamId = s.myStreamId
  localAddress : s'.localAddress = s.localAddress
  remoteAddress : s'.remoteAddress = s.remoteAddress
  myKeypair : s'.myKeypair = s.myKeypair
  receivedSeq : s.inbound.receivedSeq ≤ s'.inbound.receivedSeq
  generated : s.outbound.generated <+: s'.outbound.generated
  sent : s.sent <+: s'.sent

omit [KeyCodec] [Identity PublicKey] in
theorem Grows.refl (s : VeilidStream PublicKey) : Grows s s :=
  ⟨rfl, rfl, rfl, rfl, Nat.le_refl _, List.prefix_rfl, List.prefix_rfl⟩

omit [KeyCodec] [Identity PublicKey] in
theorem Grows.trans {s t u : VeilidStream PublicKey} (h : Grows s t) (k : Grows t u) :
    Grows s u where
  myStreamId := k.myStreamId.trans h.myStreamId
  localAddress := k.localAddress.trans h.localAddress
  remoteAddress := k.remoteAddress.trans h.remoteAddress
  myKeypair := k.myKeypair.trans h.myKeypair
  receivedSeq := Nat.le_trans h.receivedSeq k.receivedSeq
  generated := h.generated.trans k.generated
  sent := h.sent.trans k.sent

/-- The stream stands behind the payload: it is its own, acknowledges no more than
was received, and if it is data, it is a generated message. -/
def Vouches (s : VeilidStream PublicKey) (p : Payload) : Prop :=
  p = Payload.empty ∨
    (p.streamId = s.myStreamId ∧ p.address = s.localAddress.toMultiaddr ∧
      p.receivedSeq ≤ s.inbound.receivedSeq ∧
      (messageType p.data = .data → (p.msgSeq, p.data) ∈ s.outbound.generated))

/-- What every stream satisfies, whatever it is sent. -/
structure Consistent (s : VeilidStream PublicKey) : Prop where
  queued : s.outbound.Queued
  numbered : s.outbound.Numbered
  sized : s.outbound.Sized
  counted : s.inbound.Counted s.inbound.receivedSeq
  vouches : ∀ p ∈ s.sent, s.Vouches p

omit [Identity PublicKey] in
theorem Vouches.grows {s s' : VeilidStream PublicKey} {p : Payload} (h : s.Vouches p)
    (hg : Grows s s') : s'.Vouches p := by
  rcases h with h | ⟨hid, haddr, hrec, hdata⟩
  · exact .inl h
  · refine .inr ⟨hid.trans hg.myStreamId.symm, haddr.trans (by rw [hg.localAddress]),
      Nat.le_trans hrec hg.receivedSeq, fun hm => hg.generated.subset (hdata hm)⟩

omit [Identity PublicKey] in
theorem vouches_encode (s : VeilidStream PublicKey) {receivedSeq msgSeq : Nat} {data : Bytes}
    (hr : receivedSeq ≤ s.inbound.receivedSeq)
    (hd : messageType data = .data → (msgSeq, data) ∈ s.outbound.generated) :
    s.Vouches (s.encode receivedSeq msgSeq data) := by
  unfold encode encodeMessage
  split
  · exact .inr ⟨rfl, rfl, hr, hd⟩
  · exact .inl rfl

/-- A stream vouches for whatever it can send. -/
theorem Emits.vouches {s : VeilidStream PublicKey} {p : Payload} (hq : s.outbound.Queued)
    (h : s.Emits p) : s.Vouches p := by
  cases h with
  | dial =>
    refine vouches_encode s (Nat.zero_le _) fun hm => ?_
    rw [dialData, messageType_dial] at hm
    cases hm
  | listen =>
    refine vouches_encode s (Nat.zero_le _) fun hm => ?_
    rw [listenData, messageType_listen] at hm
    cases hm
  | status =>
    refine vouches_encode s (Nat.le_refl _) fun hm => ?_
    rw [messageType_status] at hm
    cases hm
  | message k e h => exact vouches_encode s (Nat.le_refl _) fun _ => (hq k e h).2

omit [Identity PublicKey] in
/-- A message the stream vouches for, as it is decoded. -/
theorem decodeMessage_vouched {s : VeilidStream PublicKey} {p : Payload} {m : AppMessage}
    (hp : s.Vouches p) (hm : decodeMessage p = some m) :
    m.streamId = s.myStreamId ∧ m.deliveredSeq ≤ s.inbound.receivedSeq ∧
      (messageType m.data = .data → (m.seq, m.data) ∈ s.outbound.generated) := by
  rcases hp with rfl | ⟨hid, -, hrec, hdata⟩
  · have hnone : decodeMessage Payload.empty = none := rfl
    rw [hnone] at hm
    cases hm
  · unfold decodeMessage at hm
    split at hm
    · cases hm
    · obtain rfl := Option.some.inj hm
      exact ⟨hid, hrec, hdata⟩

omit [Identity PublicKey] in
theorem consistent_new (localAddress remoteAddress : Address) (target : Target)
    (remoteStreamId : Nat) (keypair : Keypair PublicKey) (epochSecs : Nat) (now : Instant) :
    (new localAddress remoteAddress target remoteStreamId keypair epochSecs now).Consistent where
  queued := Outbound.queued_new now
  numbered := Outbound.numbered_new now
  sized := Outbound.sized_new now
  counted := Inbound.counted_new now
  vouches := fun _ h => absurd h List.not_mem_nil

omit [KeyCodec] in
/-- Cutting slices off the buffer changes nothing that is counted. -/
theorem counted_updateInboundStream {i : Inbound} {n : Nat} (h : i.Counted n) :
    i.updateInboundStream.Counted n :=
  ⟨h.length_appended, h.cursor_lt, h.lookup_zero⟩

theorem Work.consistent {s s' : VeilidStream PublicKey} (h : Work s s') (hc : s.Consistent) :
    Grows s s' ∧ s'.Consistent := by
  cases h with
  | reader waker woken stream =>
    have hg : Grows s { s with
        waker := waker
        woken := woken
        inbound := { s.inbound with stream := stream } } :=
      ⟨rfl, rfl, rfl, rfl, Nat.le_refl _, List.prefix_rfl, List.prefix_rfl⟩
    exact ⟨hg, hc.queued, hc.numbered, hc.sized,
      ⟨hc.counted.length_appended, hc.counted.cursor_lt, hc.counted.lookup_zero⟩,
      fun p hp => (hc.vouches p hp).grows hg⟩
  | write data =>
    have hg : Grows s { s with outbound := s.outbound.insertToOutboundStream data } :=
      ⟨rfl, rfl, rfl, rfl, Nat.le_refl _, List.prefix_rfl, List.prefix_rfl⟩
    exact ⟨hg, hc.queued, ⟨hc.numbered.seq_eq, hc.numbered.lastSeq_eq⟩, hc.sized, hc.counted,
      fun p hp => (hc.vouches p hp).grows hg⟩
  | generate =>
    have hg : Grows s s.generateMessages :=
      ⟨rfl, rfl, rfl, rfl, Nat.le_refl _, s.outbound.generateMessages_generated_prefix,
        List.prefix_rfl⟩
    exact ⟨hg, hc.queued.generateMessages, hc.numbered.generateMessages,
      hc.sized.generateMessages, hc.counted, fun p hp => (hc.vouches p hp).grows hg⟩
  | send now ps hps =>
    have hg : Grows s { s with
        outbound := s.outbound.stampSent now
        sent := s.sent ++ ps } :=
      ⟨rfl, rfl, rfl, rfl, Nat.le_refl _, List.prefix_rfl, List.prefix_append _ _⟩
    refine ⟨hg, hc.queued.stampSent now, ⟨hc.numbered.seq_eq, hc.numbered.lastSeq_eq⟩, hc.sized,
      hc.counted, fun p hp => ?_⟩
    rcases List.mem_append.mp hp with hp | hp
    · exact (hc.vouches p hp).grows hg
    · exact ((hps p hp).vouches hc.queued).grows hg
  | emit p h =>
    have hg : Grows s (s.sendMessageToRemote p) :=
      ⟨rfl, rfl, rfl, rfl, Nat.le_refl _, List.prefix_rfl, List.prefix_append _ _⟩
    refine ⟨hg, hc.queued, hc.numbered, hc.sized, hc.counted, fun q hq => ?_⟩
    rcases List.mem_append.mp hq with hq | hq
    · exact (hc.vouches q hq).grows hg
    · obtain rfl := List.mem_singleton.mp hq
      exact (h.vouches hc.queued).grows hg

theorem Quiet.consistent {s s' : VeilidStream PublicKey} (h : Quiet s s') (hc : s.Consistent) :
    Grows s s' ∧ s'.Consistent := by
  cases h with
  | work h => exact h.consistent hc
  | control key id status lastTimestamp h =>
    have hg : Grows s { s with
        remotePublicKey := key
        remoteStreamId := id
        status := status
        inbound := { s.inbound with lastTimestamp := lastTimestamp } } :=
      ⟨rfl, rfl, rfl, rfl, Nat.le_refl _, List.prefix_rfl, List.prefix_rfl⟩
    exact ⟨hg, hc.queued, hc.numbered, hc.sized,
      ⟨hc.counted.length_appended, hc.counted.cursor_lt, hc.counted.lookup_zero⟩,
      fun p hp => (hc.vouches p hp).grows hg⟩

/-- **Every move lets the history grow and keeps a stream consistent**, whatever the
message. -/
theorem Moves.consistent {m : AppMessage} {s s' : VeilidStream PublicKey} (h : Moves m s s')
    (hc : s.Consistent) : Grows s s' ∧ s'.Consistent := by
  cases h with
  | quiet h => exact h.consistent hc
  | store hs hm hseq =>
    have hg : Grows s { s with inbound := s.inbound.storeMessage m.seq m.data } :=
      ⟨rfl, rfl, rfl, rfl, Nat.le_refl _, List.prefix_rfl, List.prefix_rfl⟩
    exact ⟨hg, hc.queued, hc.numbered, hc.sized, hc.counted.storeMessage hseq m.data,
      fun p hp => (hc.vouches p hp).grows hg⟩
  | accept hs hm hseq hlt =>
    have hg : Grows s
        { s with inbound := (s.inbound.acceptMessage m.data).updateInboundStream } := by
      refine ⟨rfl, rfl, rfl, rfl, ?_, List.prefix_rfl, List.prefix_rfl⟩
      have := Inbound.le_acceptMessage hc.counted hlt m.data
      change s.inbound.receivedSeq ≤ (s.inbound.acceptMessage m.data).receivedSeq
      omega
    exact ⟨hg, hc.queued, hc.numbered, hc.sized,
      counted_updateInboundStream (hc.counted.acceptMessage hlt m.data),
      fun p hp => (hc.vouches p hp).grows hg⟩
  | acknowledge hs =>
    have hg : Grows s { s with outbound :=
        (s.outbound.updateOutboundDeliveredSeq m.deliveredSeq).removeSentMessagesFromQueue } :=
      ⟨rfl, rfl, rfl, rfl, Nat.le_refl _, List.prefix_rfl, List.prefix_rfl⟩
    refine ⟨hg, ?_, ⟨hc.numbered.seq_eq, hc.numbered.lastSeq_eq⟩, hc.sized, hc.counted,
      fun p hp => (hc.vouches p hp).grows hg⟩
    exact Outbound.Queued.removeSentMessagesFromQueue hc.queued

theorem Handles.consistent {m : AppMessage} {s s' : VeilidStream PublicKey} (h : Handles m s s')
    (hc : s.Consistent) : Grows s s' ∧ s'.Consistent := by
  induction h with
  | refl => exact ⟨Grows.refl s, hc⟩
  | tail _ hs ih =>
    obtain ⟨hg, hc'⟩ := hs.consistent ih.2
    exact ⟨ih.1.trans hg, hc'⟩

/-! ## Between two streams -/

/-- `s` has no acknowledgement above what `r` has received, and still queues
whatever `r` has yet to receive. -/
structure Delivered (s r : VeilidStream PublicKey) : Prop where
  deliveredSeq_le : s.outbound.deliveredSeq ≤ r.inbound.receivedSeq
  kept : s.outbound.generated.length < 2 ^ 32 → s.outbound.Kept r.inbound.receivedSeq

omit [KeyCodec] [Identity PublicKey] in
theorem Delivered.receiver {s r r' : VeilidStream PublicKey} (h : Delivered s r)
    (hg : Grows r r') : Delivered s r' :=
  ⟨Nat.le_trans h.deliveredSeq_le hg.receivedSeq,
    fun hlt => (h.kept hlt).mono hg.receivedSeq⟩

/-- The receiver's side of a move: what it takes in, the peer has generated. -/
theorem Moves.takenFrom {m : AppMessage} {r r' : VeilidStream PublicKey}
    {g : List (Nat × Bytes)} (h : Moves m r r') (hc : r.Consistent) (ht : r.inbound.TakenFrom g)
    (hm : messageType m.data = .data → (m.seq, m.data) ∈ g) : r'.inbound.TakenFrom g := by
  cases h with
  | quiet h =>
    cases h with
    | control => exact ⟨ht.appended, ht.queued⟩
    | work h =>
      cases h with
      | reader => exact ⟨ht.appended, ht.queued⟩
      | write => exact ht
      | generate => exact ht
      | send => exact ht
      | emit => exact ht
  | store hs hdata hseq => exact ht.storeMessage (hm hdata)
  | accept hs hdata hseq hlt =>
    have ha := ht.acceptMessage hc.counted hlt (hseq ▸ hm hdata)
    exact ⟨ha.appended, ha.queued⟩
  | acknowledge => exact ht

/-- The sender's side of a move: an acknowledgement of no more than was received
drops nothing still to be received. -/
theorem Moves.delivered {m : AppMessage} {s s' r : VeilidStream PublicKey}
    (h : Moves m s s') (hc : s.Consistent) (hd : Delivered s r)
    (hack : m.deliveredSeq ≤ r.inbound.receivedSeq) : Delivered s' r := by
  cases h with
  | quiet h =>
    cases h with
    | control => exact ⟨hd.deliveredSeq_le, hd.kept⟩
    | work h =>
      cases h with
      | reader => exact ⟨hd.deliveredSeq_le, hd.kept⟩
      | write => exact ⟨hd.deliveredSeq_le, hd.kept⟩
      | generate =>
        refine ⟨?_, fun hlt => ?_⟩
        · rw [generateMessages, Outbound.generateMessages_deliveredSeq]
          exact hd.deliveredSeq_le
        · have hle := s.outbound.generateMessages_generated_prefix.length_le
          have hlt' : s.outbound.generateMessages.generated.length < 2 ^ 32 := hlt
          exact (hd.kept (by omega)).generateMessages hc.numbered hlt
      | send now => exact ⟨hd.deliveredSeq_le, fun hlt => (hd.kept hlt).stampSent now⟩
      | emit => exact ⟨hd.deliveredSeq_le, hd.kept⟩
  | store => exact ⟨hd.deliveredSeq_le, hd.kept⟩
  | accept => exact ⟨hd.deliveredSeq_le, hd.kept⟩
  | acknowledge =>
    refine ⟨hack, fun hlt => ?_⟩
    exact Outbound.Kept.removeSentMessagesFromQueue
      (o := s.outbound.updateOutboundDeliveredSeq m.deliveredSeq) (hd.kept hlt) hack

theorem Handles.takenFrom {m : AppMessage} {r r' : VeilidStream PublicKey}
    {g : List (Nat × Bytes)} (h : Handles m r r') (hc : r.Consistent)
    (ht : r.inbound.TakenFrom g) (hm : messageType m.data = .data → (m.seq, m.data) ∈ g) :
    r'.inbound.TakenFrom g := by
  induction h with
  | refl => exact ht
  | tail hrs hs ih => exact hs.takenFrom (Handles.consistent hrs hc).2 ih hm

theorem Handles.delivered {m : AppMessage} {s s' r : VeilidStream PublicKey}
    (h : Handles m s s') (hc : s.Consistent) (hd : Delivered s r)
    (hack : m.deliveredSeq ≤ r.inbound.receivedSeq) : Delivered s' r := by
  induction h with
  | refl => exact hd
  | tail hrs hs ih => exact hs.delivered (Handles.consistent hrs hc).2 ih hack

end VeilidStream
end VeilidTransport
