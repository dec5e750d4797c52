import VeilidTransport.Stream
import VeilidTransport.Foundation.Utf8

/-!
# Messages and the stream's state machine

`convertRegistered` is the part of `convert_update` that handles a message for a
registered stream: one arm for each status, one case for each type of message.
The type is read off the first bytes of the payload (`messageType`).

`Handled` is the state machine as a relation, one constructor for each way a
message is handled, with its guards; `convertRegistered_handled` says that the
function does nothing else.  Every later invariant is proved by cases on it.
-/

namespace VeilidTransport

inductive MessageType where
  | dial
  | listen
  | status
  | ping
  | data
  deriving DecidableEq

/-- `b"PING"`. -/
def pingWord : Bytes := [0x50, 0x49, 0x4E, 0x47]

/-- `String::from_utf8_lossy(&data).starts_with(word)`. -/
def startsWith (data word : Bytes) : Bool :=
  (word.map UInt8.toNat).isPrefixOf (Utf8.decodeLossy data)

def messageType (data : Bytes) : MessageType :=
  if startsWith data dialWord then .dial
  else if startsWith data listenWord then .listen
  else if startsWith data statusWord then .status
  else if startsWith data pingWord then .ping
  else .data

/-- **A word starts the text exactly when its bytes start the data**: the words are
ASCII, and lossy decoding changes no ASCII byte. -/
theorem startsWith_iff {word : Bytes} (hw : ∀ b ∈ word, b.toNat < 0x80) (data : Bytes) :
    startsWith data word = true ↔ word <+: data := by
  rw [startsWith, List.isPrefixOf_iff_prefix, Utf8.prefix_iff hw]

theorem dialWord_ascii : ∀ b ∈ dialWord, b.toNat < 0x80 := by simp [dialWord]

theorem listenWord_ascii : ∀ b ∈ listenWord, b.toNat < 0x80 := by simp [listenWord]

theorem statusWord_ascii : ∀ b ∈ statusWord, b.toNat < 0x80 := by simp [statusWord]

theorem pingWord_ascii : ∀ b ∈ pingWord, b.toNat < 0x80 := by simp [pingWord]

theorem messageType_dial (x : Bytes) : messageType (dialWord ++ x) = .dial := by
  rw [messageType, if_pos ((startsWith_iff dialWord_ascii _).mpr (List.prefix_append _ _))]

/-- Only one of the words can start the data: no one of them is a prefix of another. -/
theorem messageType_listen (x : Bytes) : messageType (listenWord ++ x) = .listen := by
  have hd : ¬ startsWith (listenWord ++ x) dialWord = true := by
    rw [startsWith_iff dialWord_ascii]
    simp [dialWord, listenWord]
  rw [messageType, if_neg hd,
    if_pos ((startsWith_iff listenWord_ascii _).mpr (List.prefix_append _ _))]

theorem messageType_status : messageType statusWord = .status := by decide

/-- A message that carries no data and acknowledges nothing. -/
def silent (remoteAddress : Address) : AppMessage := ⟨0, 0, 0, remoteAddress, statusWord, []⟩

/-- Data is what none of the words starts. -/
theorem messageType_eq_data_iff (x : Bytes) : messageType x = .data ↔
    ¬ dialWord <+: x ∧ ¬ listenWord <+: x ∧ ¬ statusWord <+: x ∧ ¬ pingWord <+: x := by
  rw [← startsWith_iff dialWord_ascii, ← startsWith_iff listenWord_ascii,
    ← startsWith_iff statusWord_ascii, ← startsWith_iff pingWord_ascii, messageType]
  split
  · next h => simp [h]
  · next h1 =>
    split
    · next h => simp [h]
    · next h2 =>
      split
      · next h => simp [h]
      · next h3 =>
        split
        · next h => simp [h]
        · next h4 => exact ⟨fun _ => ⟨h1, h2, h3, h4⟩, fun _ => rfl⟩

/-- What `convert_update` does next, after a message for a registered stream. -/
inductive Next where
  /-- `Poll::Pending`. -/
  | pending
  /-- `Poll::Ready(None)`. -/
  | readyNone
  /-- `send_listen().await`, then `activate`. -/
  | activate
  /-- `create_stream(..).await`, to replace the stream. -/
  | create
  deriving DecidableEq

namespace VeilidStream
variable {PublicKey : Type} [KeyCodec] [Identity PublicKey]

/-- `if &data[..n] == word`, the key behind it is the remote's, if it decodes. -/
def extractKey (s : VeilidStream PublicKey) (word data : Bytes) : VeilidStream PublicKey :=
  if data.take word.length = word then
    match Identity.tryDecodeProtobuf (data.drop word.length) with
    | some publicKey => s.updateRemotePublicKey publicKey
    | none => s
  else s

/-- The arm for the status `Dial`. -/
def convertDial (s : VeilidStream PublicKey) (localAddress : Address) (now : Instant)
    (m : AppMessage) : VeilidStream PublicKey × Next :=
  match messageType m.data with
  | .dial =>
    let s := s.extractKey dialWord m.data
    -- the roles follow the order of the two addresses
    match m.remoteAddress.cmp localAddress with
    | .lt =>
      (((s.updateInboundLastTimestampToNow now).updateStatus .dial).sendDial, .pending)
    | .eq => (s, .readyNone)
    | .gt =>
      ((((s.updateRemoteStreamId m.streamId).updateStatus .listen)
        |>.updateInboundLastTimestampToNow now).sendListen, .activate)
  | .listen =>
    let s := s.extractKey listenWord m.data
    (((((s.updateInboundLastTimestampToNow now).updateRemoteStreamId m.streamId)
      |>.updateStatus .active).generateMessages).sendMessages now, .pending)
  | _ => (s, .pending)

/-- The arm for the status `Listen`. -/
def convertListen (s : VeilidStream PublicKey) (now : Instant) (m : AppMessage)
    (isSigned : Bool) : VeilidStream PublicKey × Next :=
  match messageType m.data with
  | .dial => ((s.updateRemoteStreamId m.streamId).sendListen, .pending)
  | .data =>
    if s.remoteStreamId = m.streamId ∧ isSigned then
      ((s.updateStatus .active).recvMessage now m.deliveredSeq m.seq m.data, .pending)
    else (s, .pending)
  | _ => (s, .pending)

/-- The arm for the status `Active`. -/
def convertActive (s : VeilidStream PublicKey) (now : Instant) (m : AppMessage)
    (isSigned : Bool) : VeilidStream PublicKey × Next :=
  match messageType m.data with
  | .dial => if s.remoteStreamId < m.streamId then (s, .create) else (s, .pending)
  | .status =>
    ((s.updateOutboundDeliveredSeq m.deliveredSeq).removeSentMessagesFromQueue, .pending)
  | .data =>
    if isSigned then
      ((s.updateStatus .active).recvMessage now m.deliveredSeq m.seq m.data, .pending)
    else (s, .pending)
  | _ => (s, .pending)

/-- A stream that has dialed takes the first id it hears of. -/
def adoptRemoteStreamId (s : VeilidStream PublicKey) (streamId : Nat) : VeilidStream PublicKey :=
  if s.remoteStreamId = 0 then s.updateRemoteStreamId streamId else s

/-- The message is signed by the remote the stream knows. -/
def isSigned (s : VeilidStream PublicKey) (m : AppMessage) : Bool :=
  verifySignature s.remotePublicKey m.data m.signature

/-- A message for a registered stream. -/
def convertRegistered (s : VeilidStream PublicKey) (localAddress : Option Address)
    (now : Instant) (m : AppMessage) : VeilidStream PublicKey × Next :=
  let isSigned := s.isSigned m
  let s := s.adoptRemoteStreamId m.streamId
  match localAddress with
  | none => (s, .readyNone)
  | some localAddress =>
    -- a message from a previous stream
    if s.remoteStreamId ≠ 0 ∧ m.streamId < s.remoteStreamId then (s, .pending)
    else
      match s.status with
      | .dial => s.convertDial localAddress now m
      | .listen => s.convertListen now m isSigned
      | .active => s.convertActive now m isSigned
      | .expired => (s, .pending)

/-- **The state machine**: how a message that is not stale is handled by a stream
that has adopted its id. -/
inductive Handled (localAddress : Address) (now : Instant) (m : AppMessage)
    (s : VeilidStream PublicKey) (isSigned : Bool) : VeilidStream PublicKey → Next → Prop where
  | ignored : Handled localAddress now m s isSigned s .pending
  | redial (hs : s.status = .dial) (hm : messageType m.data = .dial)
      (hcmp : m.remoteAddress.cmp localAddress = .lt) :
      Handled localAddress now m s isSigned
        ((((s.extractKey dialWord m.data).updateInboundLastTimestampToNow now).updateStatus
          .dial).sendDial) .pending
  | tied (hs : s.status = .dial) (hm : messageType m.data = .dial)
      (hcmp : m.remoteAddress.cmp localAddress = .eq) :
      Handled localAddress now m s isSigned (s.extractKey dialWord m.data) .readyNone
  | switched (hs : s.status = .dial) (hm : messageType m.data = .dial)
      (hcmp : m.remoteAddress.cmp localAddress = .gt) :
      Handled localAddress now m s isSigned
        (((((s.extractKey dialWord m.data).updateRemoteStreamId m.streamId).updateStatus
          .listen).updateInboundLastTimestampToNow now).sendListen) .activate
  | connected (hs : s.status = .dial) (hm : messageType m.data = .listen) :
      Handled localAddress now m s isSigned
        ((((((s.extractKey listenWord m.data).updateInboundLastTimestampToNow
          now).updateRemoteStreamId m.streamId).updateStatus
          .active).generateMessages).sendMessages now) .pending
  | relisten (hs : s.status = .listen) (hm : messageType m.data = .dial) :
      Handled localAddress now m s isSigned ((s.updateRemoteStreamId m.streamId).sendListen)
        .pending
  | received (hs : s.status = .listen ∧ s.remoteStreamId = m.streamId ∨ s.status = .active)
      (hm : messageType m.data = .data) (hsigned : isSigned = true) :
      Handled localAddress now m s isSigned
        ((s.updateStatus .active).recvMessage now m.deliveredSeq m.seq m.data) .pending
  | acknowledged (hs : s.status = .active) (hm : messageType m.data = .status) :
      Handled localAddress now m s isSigned
        ((s.updateOutboundDeliveredSeq m.deliveredSeq).removeSentMessagesFromQueue) .pending
  | superseded (hs : s.status = .active) (hm : messageType m.data = .dial)
      (hid : s.remoteStreamId < m.streamId) :
      Handled localAddress now m s isSigned s .create

theorem convertDial_handled {s : VeilidStream PublicKey} (hs : s.status = .dial)
    (localAddress : Address) (now : Instant) (m : AppMessage) (isSigned : Bool) :
    Handled localAddress now m s isSigned (s.convertDial localAddress now m).1
      (s.convertDial localAddress now m).2 := by
  unfold convertDial
  cases hm : messageType m.data with
  | dial =>
    simp only
    cases hcmp : m.remoteAddress.cmp localAddress with
    | lt => exact .redial hs hm hcmp
    | eq => exact .tied hs hm hcmp
    | gt => exact .switched hs hm hcmp
  | listen => exact .connected hs hm
  | status => exact .ignored
  | ping => exact .ignored
  | data => exact .ignored

theorem convertListen_handled {s : VeilidStream PublicKey} (hs : s.status = .listen)
    (localAddress : Address) (now : Instant) (m : AppMessage) (isSigned : Bool) :
    Handled localAddress now m s isSigned (s.convertListen now m isSigned).1
      (s.convertListen now m isSigned).2 := by
  unfold convertListen
  cases hm : messageType m.data with
  | dial => exact .relisten hs hm
  | data =>
    simp only
    split
    · next h => exact .received (.inl ⟨hs, h.1⟩) hm h.2
    · exact .ignored
  | listen => exact .ignored
  | status => exact .ignored
  | ping => exact .ignored

theorem convertActive_handled {s : VeilidStream PublicKey} (hs : s.status = .active)
    (localAddress : Address) (now : Instant) (m : AppMessage) (isSigned : Bool) :
    Handled localAddress now m s isSigned (s.convertActive now m isSigned).1
      (s.convertActive now m isSigned).2 := by
  unfold convertActive
  cases hm : messageType m.data with
  | dial =>
    simp only
    split
    · next h => exact .superseded hs hm h
    · exact .ignored
  | status => exact .acknowledged hs hm
  | data =>
    simp only
    split
    · next h => exact .received (.inr hs) hm h
    · exact .ignored
  | listen => exact .ignored
  | ping => exact .ignored

/-- The message comes from a previous stream of the remote. -/
def Stale (s : VeilidStream PublicKey) (m : AppMessage) : Prop :=
  s.remoteStreamId ≠ 0 ∧ m.streamId < s.remoteStreamId

instance (s : VeilidStream PublicKey) (m : AppMessage) : Decidable (Stale s m) :=
  inferInstanceAs (Decidable (_ ∧ _))

/-- **What `convert_update` does with a message for a registered stream.** -/
theorem convertRegistered_handled (s : VeilidStream PublicKey) (localAddress : Address)
    (now : Instant) (m : AppMessage) :
    (Stale (s.adoptRemoteStreamId m.streamId) m ∧
      s.convertRegistered (some localAddress) now m =
        (s.adoptRemoteStreamId m.streamId, .pending)) ∨
    (¬ Stale (s.adoptRemoteStreamId m.streamId) m ∧
      Handled localAddress now m (s.adoptRemoteStreamId m.streamId) (s.isSigned m)
        (s.convertRegistered (some localAddress) now m).1
        (s.convertRegistered (some localAddress) now m).2) := by
  unfold convertRegistered
  simp only
  split
  · next h => exact .inl ⟨h, rfl⟩
  · next h =>
    refine .inr ⟨h, ?_⟩
    cases hs : (s.adoptRemoteStreamId m.streamId).status with
    | dial => exact convertDial_handled hs _ _ _ _
    | listen => exact convertListen_handled hs _ _ _ _
    | active => exact convertActive_handled hs _ _ _ _
    | expired => exact .ignored

theorem convertRegistered_none (s : VeilidStream PublicKey) (now : Instant) (m : AppMessage) :
    s.convertRegistered none now m = (s.adoptRemoteStreamId m.streamId, .readyNone) := rfl

omit [KeyCodec] in
theorem extractKey_eq (s : VeilidStream PublicKey) (word data : Bytes) :
    ∃ key, s.extractKey word data = { s with remotePublicKey := key } := by
  unfold extractKey
  split
  · split
    · exact ⟨_, rfl⟩
    · exact ⟨s.remotePublicKey, rfl⟩
  · exact ⟨s.remotePublicKey, rfl⟩

omit [KeyCodec] [Identity PublicKey] in
theorem adoptRemoteStreamId_eq (s : VeilidStream PublicKey) (streamId : Nat) :
    ∃ id, (s.remoteStreamId ≠ 0 → id = s.remoteStreamId) ∧
      s.adoptRemoteStreamId streamId = { s with remoteStreamId := id } := by
  unfold adoptRemoteStreamId
  split
  · next h => exact ⟨streamId, fun h' => absurd h h', rfl⟩
  · exact ⟨s.remoteStreamId, fun _ => rfl, rfl⟩

omit [KeyCodec] [Identity PublicKey] in
/-- A stream that has heard nothing but `k` now knows `k`. -/
theorem adoptRemoteStreamId_heard {s : VeilidStream PublicKey} {k : Nat}
    (h : s.remoteStreamId = 0 ∨ s.remoteStreamId = k) :
    s.adoptRemoteStreamId k = { s with remoteStreamId := k } := by
  unfold adoptRemoteStreamId
  split
  · rfl
  · next h0 => rw [← h.resolve_left h0]

omit [KeyCodec] [Identity PublicKey] in
/-- A stream learns no id exactly if it knows one, or is told the one it has. -/
theorem adoptRemoteStreamId_eq_self_iff (s : VeilidStream PublicKey) (k : Nat) :
    s.adoptRemoteStreamId k = s ↔ (s.remoteStreamId = 0 → k = 0) := by
  unfold adoptRemoteStreamId
  by_cases h0 : s.remoteStreamId = 0
  · rw [if_pos h0]
    constructor
    · intro h _
      have hk : k = s.remoteStreamId := congrArg VeilidStream.remoteStreamId h
      rw [hk, h0]
    · intro h
      rw [h h0, ← h0]
      rfl
  · rw [if_neg h0]
    exact ⟨fun _ h => absurd h h0, fun _ => rfl⟩

omit [KeyCodec] [Identity PublicKey] in
/-- A stream that takes the id of a message does not find it stale. -/
theorem stale_adopt_iff (s : VeilidStream PublicKey) (m : AppMessage) :
    Stale (s.adoptRemoteStreamId m.streamId) m ↔ Stale s m := by
  unfold adoptRemoteStreamId
  by_cases h0 : s.remoteStreamId = 0
  · rw [if_pos h0]
    exact ⟨fun h => absurd h.2 (Nat.lt_irrefl _), fun h => absurd h0 h.1⟩
  · rw [if_neg h0]

end VeilidStream
end VeilidTransport
