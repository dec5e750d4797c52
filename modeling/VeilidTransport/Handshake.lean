import VeilidTransport.World

/-!
# The handshake

Two nodes start with no stream for each other.  `Phase` says where their handshake
stands, and `Phase.Step` how it may go on: one side dials, or both do, and then one
side listens and the other does not; from there it goes nowhere else.

What a stream sends before it is active are `DIAL` and `LISTEN` with the node's own
key and nothing else (`Tidy`), so a message that one stream handles says who the
other is (`Says`); once one side has listened, the two streams are `Led`, and every
message either sends keeps them so.  `Phase.Holds` is what a phase says of the two
streams, and each of `Holds.dial`, `Holds.listen` and `Holds.hears` is one step.

When both sides dial, each compares its own address with the other's as it was read
from a message.  That the two comparisons come out opposite is `Address.cmp_swap`; it
is what keeps the second side from listening as well.
-/

namespace VeilidTransport

/-! ## The handshake as it is meant -/

/-- Where a handshake stands. -/
inductive Phase where
  /-- Neither side has a stream. -/
  | apart
  /-- `d` has dialed. -/
  | dialed (d : Side)
  /-- Both sides have dialed. -/
  | crossed
  /-- `d` has listened, and the other side has dialed. -/
  | led (d : Side)

namespace Phase

inductive Step : Phase → Phase → Prop where
  | dial (d : Side) : Step .apart (.dialed d)
  | cross (d : Side) : Step (.dialed d) .crossed
  | listen (d : Side) : Step (.dialed d) (.led d.other)
  | switch (d : Side) : Step .crossed (.led d)

/-- Steps of the handshake, one after the other. -/
abbrev Leads : Phase → Phase → Prop := Relation.ReflTransGen Step

/-- **The roles are final.** -/
theorem eq_of_leads {d : Side} {φ : Phase} (h : Leads (.led d) φ) : φ = .led d := by
  induction h with
  | refl => rfl
  | tail _ hs ih => subst ih; cases hs

end Phase

namespace VeilidStream
variable {PublicKey : Type} [KeyCodec] [Identity PublicKey]

/-! ## What a stream says before it is active -/

/-- A payload of the handshake, sent by the stream at some time before. -/
def Greets (s : VeilidStream PublicKey) (p : Payload) : Prop :=
  p = Payload.empty ∨ p.data = s.dialData ∨ s.status = .listen ∧ p.data = s.listenData

/-- A payload of the handshake that the stream sends in its present state. -/
def Greeting (s : VeilidStream PublicKey) (p : Payload) : Prop :=
  p = Payload.empty ∨ s.status = .dial ∧ p.data = s.dialData ∨
    s.status = .listen ∧ p.data = s.listenData

/-- Before it is active, the stream has sent nothing but its handshake. -/
def Tidy (s : VeilidStream PublicKey) : Prop :=
  s.status ≠ .active → ∀ p ∈ s.sent, s.Greets p

omit [KeyCodec] in
theorem Greeting.greets {s : VeilidStream PublicKey} {p : Payload} (h : s.Greeting p) :
    s.Greets p := by
  rcases h with h | ⟨-, h⟩ | h
  · exact .inl h
  · exact .inr (.inl h)
  · exact .inr (.inr h)

omit [Identity PublicKey] in
/-- A payload carries its data, or it could not be signed. -/
theorem encode_data (s : VeilidStream PublicKey) (receivedSeq msgSeq : Nat) (data : Bytes) :
    s.encode receivedSeq msgSeq data = Payload.empty ∨
      (s.encode receivedSeq msgSeq data).data = data := by
  unfold encode encodeMessage
  split
  · exact .inr rfl
  · exact .inl rfl

theorem greeting_dial {s : VeilidStream PublicKey} (h : s.status = .dial) :
    s.Greeting (s.encode 0 0 s.dialData) :=
  (encode_data s 0 0 s.dialData).imp id fun hd => .inl ⟨h, hd⟩

theorem greeting_listen {s : VeilidStream PublicKey} (h : s.status = .listen) :
    s.Greeting (s.encode 0 0 s.listenData) :=
  (encode_data s 0 0 s.listenData).imp id fun hd => .inr ⟨h, hd⟩

omit [KeyCodec] in
/-- A stream that greets stays tidy. -/
theorem Tidy.greet {s s' : VeilidStream PublicKey} (h : s.Tidy) (hs : s.status ≠ .active)
    (hkeys : s'.myKeypair = s.myKeypair)
    (hstatus : s'.status = s.status ∨ s.status = .dial)
    (hsent : ∀ p ∈ s'.sent, p ∈ s.sent ∨ s'.Greeting p) : s'.Tidy := by
  intro _ p hp
  rcases hsent p hp with hp | hp
  · rcases h hs p hp with hp | hp | ⟨hl, hp⟩
    · exact .inl hp
    · exact .inr (.inl (by rw [dialData, hkeys]; exact hp))
    · rcases hstatus with hst | hst
      · exact .inr (.inr ⟨hst.trans hl, by rw [listenData, hkeys]; exact hp⟩)
      · rw [hst] at hl; cases hl
  · exact hp.greets

/-- The node minds a stream: it works on it, and says nothing but its handshake before
the stream is active. -/
structure Minds (s s' : VeilidStream PublicKey) : Prop where
  works : Works s s'
  greets : s.status ≠ .active → ∀ p ∈ s'.sent, p ∈ s.sent ∨ s.Greeting p

theorem Minds.refl (s : VeilidStream PublicKey) : Minds s s := ⟨.refl, fun _ _ => .inl⟩

theorem Minds.trans {s t u : VeilidStream PublicKey} (h : Minds s t) (k : Minds t u) :
    Minds s u := by
  have hst := (works_handshake h.works).status
  have hkeys := (works_identity h.works).myKeypair
  refine ⟨h.works.trans k.works, fun hs p hp => ?_⟩
  rcases k.greets (by rw [hst]; exact hs) p hp with hp | hp
  · exact h.greets hs p hp
  · rw [Greeting, dialData, listenData, hst, hkeys] at hp
    exact .inr hp

/-- Work that sends nothing. -/
theorem Minds.of_sent {s s' : VeilidStream PublicKey} (hw : Works s s') (hs : s'.sent = s.sent) :
    Minds s s' :=
  ⟨hw, fun _ _ hp => .inl (hs ▸ hp)⟩

/-- Work on an active stream. -/
theorem Minds.of_active {s s' : VeilidStream PublicKey} (hw : Works s s') (hs : s.status = .active) :
    Minds s s' :=
  ⟨hw, fun h => absurd hs h⟩

theorem Minds.tidy {s s' : VeilidStream PublicKey} (h : Minds s s') (hs : s.Tidy) : s'.Tidy := by
  have hst := (works_handshake h.works).status
  have hkeys := (works_identity h.works).myKeypair
  by_cases ha : s.status = .active
  · exact fun h' => absurd (hst.trans ha) h'
  · refine hs.greet ha hkeys (.inl hst) fun p hp => ?_
    refine (h.greets ha p hp).imp id fun hg => ?_
    rw [Greeting, dialData, listenData, hst, hkeys]
    exact hg

theorem minds_heartbeatStream (now : Instant) (s : VeilidStream PublicKey) :
    Minds s (Transport.heartbeatStream now s) := by
  refine ⟨Transport.works_heartbeatStream now s, fun hs p hp => ?_⟩
  have hactive : ¬ s.isActive now = true := fun h => hs (isActive_iff.mp h).1
  rw [Transport.heartbeatStream, if_neg hactive] at hp
  split at hp
  · exact .inl hp
  · cases hst : s.status with
    | dial =>
      rw [getStatus, hst] at hp
      refine (List.mem_append.mp hp).imp id fun hp => ?_
      obtain rfl := List.mem_singleton.mp hp
      exact greeting_dial hst
    | listen =>
      rw [getStatus, hst] at hp
      refine (List.mem_append.mp hp).imp id fun hp => ?_
      obtain rfl := List.mem_singleton.mp hp
      exact greeting_listen hst
    | active => exact absurd hst hs
    | expired =>
      rw [getStatus, hst] at hp
      exact .inl hp

/-- An active stream stays active, whatever the message. -/
theorem Handled.active {localAddress : Address} {now : Instant} {m : AppMessage}
    {s s' : VeilidStream PublicKey} {isSigned : Bool} {next : Next}
    (h : Handled localAddress now m s isSigned s' next) (hs : s.status = .active) :
    s'.status = .active := by
  cases h with
  | redial hd => rw [hs] at hd; cases hd
  | tied hd => rw [hs] at hd; cases hd
  | switched hd => rw [hs] at hd; cases hd
  | connected hd => rw [hs] at hd; cases hd
  | relisten hl => rw [hs] at hl; cases hl
  | received => exact (recvMessage_handshake _ _ _ _ _).1
  | ignored => exact hs
  | acknowledged => exact hs
  | superseded => exact hs

/-- Whatever the message, a stream stays tidy. -/
theorem Handled.tidy {localAddress : Address} {now : Instant} {m : AppMessage}
    {s s' : VeilidStream PublicKey} {isSigned : Bool} {next : Next}
    (h : Handled localAddress now m s isSigned s' next) (ht : s.Tidy) : s'.Tidy := by
  have hnot : ∀ {st : StreamStatus}, s.status = st → st ≠ .active → s.status ≠ .active :=
    fun hs hst => hs ▸ hst
  cases h with
  | ignored => exact ht
  | superseded => exact ht
  | tied hs =>
    obtain ⟨key, hk⟩ := extractKey_eq s dialWord m.data
    rw [hk]
    exact ht.greet (hnot hs (by simp)) rfl (.inl rfl) fun p hp => .inl hp
  | redial hs =>
    obtain ⟨key, hk⟩ := extractKey_eq s dialWord m.data
    rw [hk]
    refine ht.greet (hnot hs (by simp)) rfl (.inr hs) fun p hp => ?_
    refine (List.mem_append.mp hp).imp id fun hp => ?_
    obtain rfl := List.mem_singleton.mp hp
    exact greeting_dial rfl
  | switched hs =>
    obtain ⟨key, hk⟩ := extractKey_eq s dialWord m.data
    rw [hk]
    refine ht.greet (hnot hs (by simp)) rfl (.inr hs) fun p hp => ?_
    refine (List.mem_append.mp hp).imp id fun hp => ?_
    obtain rfl := List.mem_singleton.mp hp
    exact greeting_listen rfl
  | connected hs =>
    exact fun h => absurd (works_handshake (works_sendMessages _ now)).status h
  | relisten hs =>
    refine ht.greet (hnot hs (by simp)) rfl (.inl rfl) fun p hp => ?_
    refine (List.mem_append.mp hp).imp id fun hp => ?_
    obtain rfl := List.mem_singleton.mp hp
    exact greeting_listen hs
  | received => exact fun h => absurd (recvMessage_handshake _ _ _ _ _).1 h
  | acknowledged hs => exact fun h => absurd hs h

/-! ## What one stream hears of the other -/

/-- The message is one that `y` has sent. -/
structure Says (y : VeilidStream PublicKey) (m : AppMessage) : Prop where
  streamId : m.streamId = y.myStreamId
  remoteAddress : m.remoteAddress = y.localAddress.asParsed
  sent : ∃ p ∈ y.sent, p.data = m.data
  greets : y.status ≠ .active →
    m.data = y.dialData ∨ y.status = .listen ∧ m.data = y.listenData

theorem says_of_sent [LawfulKeyCodec] {y : VeilidStream PublicKey} (hc : y.Consistent)
    (ht : y.Tidy) {p : Payload} (hp : p ∈ y.sent) {m : AppMessage}
    (hm : decodeMessage p = some m) : y.Says m := by
  have hne : p ≠ Payload.empty := by
    rintro rfl
    have hnone : decodeMessage Payload.empty = none := rfl
    rw [hnone] at hm
    cases hm
  obtain ⟨hid, haddr, -, -⟩ := (hc.vouches p hp).resolve_left hne
  have htry : Address.tryFrom p.address = some y.localAddress.asParsed := by
    rw [haddr]
    exact Address.tryFrom_toMultiaddr _
  rw [decodeMessage, htry] at hm
  obtain rfl := Option.some.inj hm
  exact ⟨hid, rfl, ⟨p, hp, rfl⟩, fun hy => (ht hy p hp).resolve_left hne⟩

omit [KeyCodec] in
/-- A stream that has dialed says no data. -/
theorem Says.messageType_of_dial {y : VeilidStream PublicKey} {m : AppMessage} (h : y.Says m)
    (hy : y.status = .dial) : m.data = y.dialData ∧ messageType m.data = .dial := by
  rcases h.greets (by rw [hy]; simp) with hd | ⟨hl, -⟩
  · exact ⟨hd, by rw [hd, dialData]; exact messageType_dial _⟩
  · rw [hy] at hl; cases hl

omit [KeyCodec] in
/-- What an active stream says is one thing; before that, it says who it is. -/
theorem Says.messageType_of_listen {y : VeilidStream PublicKey} {m : AppMessage} (h : y.Says m)
    (hy : y.status = .listen) : m.data = y.dialData ∧ messageType m.data = .dial ∨
      m.data = y.listenData ∧ messageType m.data = .listen := by
  rcases h.greets (by rw [hy]; simp) with hd | ⟨-, hl⟩
  · exact .inl ⟨hd, by rw [hd, dialData]; exact messageType_dial _⟩
  · exact .inr ⟨hl, by rw [hl, listenData]; exact messageType_listen _⟩

section
variable [LawfulIdentity PublicKey]

omit [KeyCodec] in
theorem extractKey_dialData (s y : VeilidStream PublicKey) :
    s.extractKey dialWord y.dialData = s.updateRemotePublicKey y.myKeypair.publicKey := by
  have htake : y.dialData.take dialWord.length = dialWord := rfl
  have hdrop : y.dialData.drop dialWord.length =
    Identity.encodeProtobuf y.myKeypair.publicKey := rfl
  rw [extractKey, if_pos htake, hdrop, LawfulIdentity.tryDecodeProtobuf_encodeProtobuf]

omit [KeyCodec] in
theorem extractKey_listenData (s y : VeilidStream PublicKey) :
    s.extractKey listenWord y.listenData = s.updateRemotePublicKey y.myKeypair.publicKey := by
  have htake : y.listenData.take listenWord.length = listenWord := rfl
  have hdrop : y.listenData.drop listenWord.length =
    Identity.encodeProtobuf y.myKeypair.publicKey := rfl
  rw [extractKey, if_pos htake, hdrop, LawfulIdentity.tryDecodeProtobuf_encodeProtobuf]

/-! ## Two streams -/

/-- `x` has dialed, and of `y` it has heard nothing but its id. -/
structure Dialing (x y : VeilidStream PublicKey) : Prop where
  status : x.status = .dial
  heard : x.remoteStreamId = 0 ∨ x.remoteStreamId = y.myStreamId

/-- **The roles are settled**: `x` listens to `y`, which has dialed. -/
structure Led (x y : VeilidStream PublicKey) : Prop where
  listener : x.status = .listen ∨ x.status = .active
  dialer : y.status = .dial ∨ y.status = .active
  remoteStreamId : x.remoteStreamId = y.myStreamId
  remotePublicKey : x.remotePublicKey = some y.myKeypair.publicKey
  heard : y.remoteStreamId = 0 ∨ y.remoteStreamId = x.myStreamId
  answered : y.status = .active →
    y.remoteStreamId = x.myStreamId ∧ y.remotePublicKey = some x.myKeypair.publicKey
  first : x.status = .active → y.status = .active
  /-- Should `x` have dialed as well, `y` takes that for a reason to dial again. -/
  role : x.status = .listen → ∀ p ∈ x.sent, messageType p.data = .dial →
    x.localAddress.asParsed.cmp y.localAddress = .lt

omit [Identity PublicKey] [LawfulIdentity PublicKey] [KeyCodec] in
theorem Dialing.congr {x x' y y' : VeilidStream PublicKey} (h : Dialing x y)
    (hstatus : x'.status = x.status) (hid : x'.remoteStreamId = x.remoteStreamId)
    (hy : y'.myStreamId = y.myStreamId) : Dialing x' y' :=
  ⟨hstatus.trans h.status, by rw [hid, hy]; exact h.heard⟩

omit [Identity PublicKey] [LawfulIdentity PublicKey] in
/-- The dialer moves, and still dials or has been answered. -/
theorem Led.dialer_moves {x y y' : VeilidStream PublicKey} (h : Led x y) (hi : SameIdentity y y')
    (hdialer : y'.status = .dial ∨ y'.status = .active)
    (hheard : y'.remoteStreamId = 0 ∨ y'.remoteStreamId = x.myStreamId)
    (hanswered : y'.status = .active →
      y'.remoteStreamId = x.myStreamId ∧ y'.remotePublicKey = some x.myKeypair.publicKey)
    (hfirst : y.status = .active → y'.status = .active) : Led x y' where
  listener := h.listener
  dialer := hdialer
  remoteStreamId := h.remoteStreamId.trans hi.myStreamId.symm
  remotePublicKey := by rw [hi.myKeypair]; exact h.remotePublicKey
  heard := hheard
  answered := hanswered
  first hx := hfirst (h.first hx)
  role hx p hp hd := by rw [hi.localAddress]; exact h.role hx p hp hd

omit [LawfulIdentity PublicKey] in
/-- The listener moves, and still listens to the same stream. -/
theorem Led.listener_moves {x x' y : VeilidStream PublicKey} (h : Led x y)
    (hi : SameIdentity x x') (hlistener : x'.status = .listen ∨ x'.status = .active)
    (hid : x'.remoteStreamId = y.myStreamId)
    (hkey : x'.remotePublicKey = some y.myKeypair.publicKey)
    (hfirst : x'.status = .active → y.status = .active)
    (hsent : x'.status = .listen → x.status = .listen ∧
      ∀ p ∈ x'.sent, p ∈ x.sent ∨ x.Greeting p) : Led x' y where
  listener := hlistener
  dialer := h.dialer
  remoteStreamId := hid
  remotePublicKey := hkey
  heard := by rw [hi.myStreamId]; exact h.heard
  answered := by rw [hi.myStreamId, hi.myKeypair]; exact h.answered
  first := hfirst
  role hx p hp hd := by
    obtain ⟨hl, hsent⟩ := hsent hx
    rw [hi.localAddress]
    rcases hsent p hp with hp | rfl | ⟨hst, -⟩ | ⟨-, hdata⟩
    · exact h.role hl p hp hd
    · have hnone : messageType Payload.empty.data = .data := by decide
      rw [hnone] at hd
      cases hd
    · rw [hl] at hst; cases hst
    · rw [hdata, listenData, messageType_listen] at hd
      cases hd

omit [LawfulIdentity PublicKey] in
/-- The nodes mind the two streams, and the roles stay. -/
theorem Led.minds {x x' y y' : VeilidStream PublicKey} (h : Led x y) (hx : Minds x x')
    (hy : Minds y y') : Led x' y' := by
  have hsx := works_handshake hx.works
  have hsy := works_handshake hy.works
  have h' : Led x y' := by
    refine h.dialer_moves (works_identity hy.works) ?_ ?_ ?_ fun hs => hsy.status.trans hs
    · rw [hsy.status]; exact h.dialer
    · rw [hsy.remoteStreamId]; exact h.heard
    · rw [hsy.status, hsy.remoteStreamId, hsy.remotePublicKey]; exact h.answered
  refine h'.listener_moves (works_identity hx.works) ?_ ?_ ?_ ?_ fun hs => ?_
  · rw [hsx.status]; exact h'.listener
  · rw [hsx.remoteStreamId]; exact h'.remoteStreamId
  · rw [hsx.remotePublicKey]; exact h'.remotePublicKey
  · rw [hsx.status]; exact h'.first
  · have hl : x.status = .listen := hsx.status.symm.trans hs
    exact ⟨hl, hx.greets (by rw [hl]; simp)⟩

/-! ## What a message does to them -/

/-- **Both have dialed, and one hears the other**: it dials again, or it listens, and
then the other will not. -/
theorem Handled.dialing {now : Instant} {m : AppMessage} {x x' y : VeilidStream PublicKey}
    {isSigned : Bool} {next : Next} (h : Handled x.localAddress now m x isSigned x' next)
    (hx : x.status = .dial) (hid : x.remoteStreamId = y.myStreamId) (hy : Dialing y x)
    (hm : y.Says m) (hxk : x.localAddress.key.kind = Address.vld0)
    (hyk : y.localAddress.key.kind = Address.vld0) :
    Dialing x' y ∧ (next = .pending ∨ next = .readyNone) ∨ Led x' y ∧ next = .activate := by
  obtain ⟨hdata, htype⟩ := hm.messageType_of_dial hy.status
  cases h with
  | ignored => exact .inl ⟨⟨hx, .inr hid⟩, .inl rfl⟩
  | redial =>
    rw [hdata, extractKey_dialData]
    exact .inl ⟨⟨rfl, .inr hid⟩, .inl rfl⟩
  | tied =>
    rw [hdata, extractKey_dialData]
    exact .inl ⟨⟨hx, .inr hid⟩, .inr rfl⟩
  | switched _ _ hcmp =>
    rw [hdata, extractKey_dialData]
    refine .inr ⟨⟨.inl rfl, .inl hy.status, hm.streamId, rfl, hy.heard, fun hs => ?_,
      (fun hs => by cases hs), fun _ _ _ _ => ?_⟩, rfl⟩
    · rw [hy.status] at hs; cases hs
    -- the other side compares the other way round
    · show x.localAddress.asParsed.cmp y.localAddress = .lt
      rw [hm.remoteAddress] at hcmp
      rw [Address.cmp_swap hxk hyk, hcmp]
      rfl
  | connected _ ht => rw [htype] at ht; cases ht
  | relisten hs => rw [hx] at hs; cases hs
  | received _ ht => rw [htype] at ht; cases ht
  | acknowledged hs => rw [hx] at hs; cases hs
  | superseded hs => rw [hx] at hs; cases hs

omit [LawfulIdentity PublicKey] in
/-- **The listener hears the dialer.** -/
theorem Handled.led_listener {localAddress : Address} {now : Instant} {m : AppMessage}
    {x x' y : VeilidStream PublicKey} {isSigned : Bool} {next : Next}
    (h : Handled localAddress now m x isSigned x' next) (hl : Led x y) (hm : y.Says m) :
    Led x' y ∧ next = .pending := by
  have hdial : x.status ≠ .dial := StreamStatus.ne_dial hl.listener
  have hi := handles_identity h.handles
  cases h with
  | ignored => exact ⟨hl, rfl⟩
  | redial hs => exact absurd hs hdial
  | tied hs => exact absurd hs hdial
  | switched hs => exact absurd hs hdial
  | connected hs => exact absurd hs hdial
  | relisten hs =>
    refine ⟨hl.listener_moves hi (.inl hs) hm.streamId hl.remotePublicKey hl.first
      fun _ => ⟨hs, fun p hp => ?_⟩, rfl⟩
    refine (List.mem_append.mp hp).imp id fun hp => ?_
    obtain rfl := List.mem_singleton.mp hp
    exact greeting_listen (s := x.updateRemoteStreamId m.streamId) hs
  | received _ ht =>
    obtain ⟨hst, hid, hkey⟩ := recvMessage_handshake (x.updateStatus .active) now m.deliveredSeq
      m.seq m.data
    -- only an active stream says data
    have hy : y.status = .active := by
      rcases hl.dialer with hs | hs
      · rw [(hm.messageType_of_dial hs).2] at ht; cases ht
      · exact hs
    refine ⟨hl.listener_moves hi (.inr hst) (hid.trans hl.remoteStreamId)
      (hkey.trans hl.remotePublicKey) (fun _ => hy) fun hs => ?_, rfl⟩
    rw [hst] at hs
    cases hs
  | acknowledged hs =>
    exact ⟨hl.listener_moves hi (.inr hs) hl.remoteStreamId hl.remotePublicKey hl.first
      fun hs' => ⟨hs', fun _ => .inl⟩, rfl⟩
  | superseded _ _ hlt =>
    rw [hl.remoteStreamId, hm.streamId] at hlt
    exact absurd hlt (Nat.lt_irrefl _)

/-- **The dialer hears the listener**, and never listens itself. -/
theorem Handled.led_dialer {now : Instant} {m : AppMessage} {x y y' : VeilidStream PublicKey}
    {isSigned : Bool} {next : Next} (h : Handled y.localAddress now m y isSigned y' next)
    (hl : Led x y) (hid : y.remoteStreamId = x.myStreamId) (hm : x.Says m) :
    Led x y' ∧ next = .pending := by
  have hlisten : y.status ≠ .listen := by
    rcases hl.dialer with hs | hs
    · rw [hs]; simp
    · rw [hs]; simp
  -- while `y` dials, `x` only listens, and says no more than who it is
  have hsays : y.status = .dial → m.data = x.dialData ∧ messageType m.data = .dial ∨
      m.data = x.listenData ∧ messageType m.data = .listen := by
    intro hs
    refine hm.messageType_of_listen (hl.listener.resolve_right fun hx => ?_)
    rw [hl.first hx] at hs
    cases hs
  have hcmp : y.status = .dial → messageType m.data = .dial →
      m.remoteAddress.cmp y.localAddress = .lt := by
    intro hs ht
    obtain ⟨p, hp, hpd⟩ := hm.sent
    rw [hm.remoteAddress]
    refine hl.role (hl.listener.resolve_right fun hx => ?_) p hp (by rw [hpd]; exact ht)
    rw [hl.first hx] at hs
    cases hs
  have hi := handles_identity h.handles
  cases h with
  | ignored => exact ⟨hl, rfl⟩
  | redial hs =>
    obtain ⟨key, hk⟩ := extractKey_eq y dialWord m.data
    rw [hk] at hi ⊢
    refine ⟨hl.dialer_moves hi (.inl rfl) hl.heard (fun h => by cases h) fun h => ?_, rfl⟩
    rw [hs] at h
    cases h
  | tied hs ht heq => rw [hcmp hs ht] at heq; cases heq
  | switched hs ht hgt => rw [hcmp hs ht] at hgt; cases hgt
  | connected hs ht =>
    rcases hsays hs with ⟨-, h⟩ | ⟨hdata, -⟩
    · rw [h] at ht; cases ht
    · rw [hdata, extractKey_listenData] at hi ⊢
      have hsame := works_handshake (works_sendMessages (((((y.updateRemotePublicKey
        x.myKeypair.publicKey).updateInboundLastTimestampToNow now).updateRemoteStreamId
          m.streamId).updateStatus .active).generateMessages) now)
      exact ⟨hl.dialer_moves hi (.inr hsame.status)
        (.inr (hsame.remoteStreamId.trans hm.streamId))
        (fun _ => ⟨hsame.remoteStreamId.trans hm.streamId, hsame.remotePublicKey⟩)
        fun _ => hsame.status, rfl⟩
  | relisten hs => exact absurd hs hlisten
  | received hs =>
    have hs := hs.resolve_left fun h => hlisten h.1
    obtain ⟨hst, hid', hkey⟩ := recvMessage_handshake (y.updateStatus .active) now m.deliveredSeq
      m.seq m.data
    exact ⟨hl.dialer_moves hi (.inr hst) (.inr (hid'.trans hid))
      (fun _ => ⟨hid'.trans hid, hkey.trans (hl.answered hs).2⟩) fun _ => hst, rfl⟩
  | acknowledged hs =>
    exact ⟨hl.dialer_moves hi (.inr hs) hl.heard hl.answered id, rfl⟩
  | superseded _ _ hlt =>
    rw [hid, hm.streamId] at hlt
    exact absurd hlt (Nat.lt_irrefl _)

theorem Dialing.hears {x y : VeilidStream PublicKey} (hx : Dialing x y) (hy : Dialing y x)
    {m : AppMessage} (hm : y.Says m) (hxk : x.localAddress.key.kind = Address.vld0)
    (hyk : y.localAddress.key.kind = Address.vld0) (now : Instant) :
    let r := x.convertRegistered (some x.localAddress) now m
    Dialing r.1 y ∧ (r.2 = .pending ∨ r.2 = .readyNone) ∨ Led r.1 y ∧ r.2 = .activate := by
  have hc := convertRegistered_handled x x.localAddress now m
  rw [hm.streamId, adoptRemoteStreamId_heard hx.heard] at hc
  intro r
  rcases hc with ⟨-, h⟩ | ⟨-, h⟩
  · have hr : r = _ := h
    rw [hr]
    exact .inl ⟨⟨hx.status, .inr rfl⟩, .inl rfl⟩
  · exact h.dialing (x := { x with remoteStreamId := y.myStreamId }) hx.status rfl
      ⟨hy.status, hy.heard⟩ hm hxk hyk

omit [LawfulIdentity PublicKey] in
theorem Led.listener_hears {x y : VeilidStream PublicKey} (hl : Led x y) {m : AppMessage}
    (hm : y.Says m) (localAddress : Address) (now : Instant) :
    let r := x.convertRegistered (some localAddress) now m
    Led r.1 y ∧ r.2 = .pending := by
  have hx : { x with remoteStreamId := y.myStreamId } = x := by rw [← hl.remoteStreamId]
  have hc := convertRegistered_handled x localAddress now m
  rw [hm.streamId, adoptRemoteStreamId_heard (.inr hl.remoteStreamId), hx] at hc
  intro r
  rcases hc with ⟨-, h⟩ | ⟨-, h⟩
  · have hr : r = _ := h
    rw [hr]
    exact ⟨hl, rfl⟩
  · exact h.led_listener hl hm

theorem Led.dialer_hears {x y : VeilidStream PublicKey} (hl : Led x y) {m : AppMessage}
    (hm : x.Says m) (now : Instant) :
    let r := y.convertRegistered (some y.localAddress) now m
    Led x r.1 ∧ r.2 = .pending := by
  have hc := convertRegistered_handled y y.localAddress now m
  rw [hm.streamId, adoptRemoteStreamId_heard hl.heard] at hc
  have hl' : Led x { y with remoteStreamId := x.myStreamId } :=
    hl.dialer_moves ⟨rfl, rfl, rfl, rfl⟩ hl.dialer (.inr rfl)
      (fun hs => ⟨rfl, (hl.answered hs).2⟩) id
  intro r
  rcases hc with ⟨-, h⟩ | ⟨-, h⟩
  · have hr : r = _ := h
    rw [hr]
    exact ⟨hl', rfl⟩
  · exact h.led_dialer (y := { y with remoteStreamId := x.myStreamId }) hl' rfl hm

omit [LawfulIdentity PublicKey] in
/-- Whatever the message, a stream stays tidy, and stays active once it is. -/
theorem convertRegistered_tidy {s : VeilidStream PublicKey} (ht : s.Tidy)
    (localAddress : Address) (now : Instant) (m : AppMessage) :
    (s.convertRegistered (some localAddress) now m).1.Tidy ∧
      (s.status = .active → (s.convertRegistered (some localAddress) now m).1.status = .active) := by
  obtain ⟨id, -, hadopt⟩ := adoptRemoteStreamId_eq s m.streamId
  have ht' : Tidy { s with remoteStreamId := id } := ht
  rcases convertRegistered_handled s localAddress now m with ⟨-, h⟩ | ⟨-, h⟩
  · rw [h, hadopt]
    exact ⟨ht', fun hs => hs⟩
  · rw [hadopt] at h
    exact ⟨h.tidy ht', h.active⟩

end

end VeilidStream

/-! ## What a phase says of the streams -/

section
variable {PublicKey : Type} [KeyCodec]
open VeilidStream

/-- The streams of the two sides, if they have any, are in this phase. -/
def Phase.Holds (f : Pair (Option (VeilidStream PublicKey))) : Phase → Prop
  | .apart => ∀ d, f.get d = none
  | .dialed d => f.get d.other = none ∧
      ∃ x, f.get d = some x ∧ x.status = .dial ∧ x.remoteStreamId = 0
  | .crossed => ∃ x : Pair (VeilidStream PublicKey),
      ∀ d, f.get d = some (x.get d) ∧ Dialing (x.get d) (x.get d.other)
  | .led d => ∃ x y, f.get d = some x ∧ f.get d.other = some y ∧ Led x y

end

namespace Phase
open VeilidStream
variable {PublicKey : Type} [KeyCodec] [Identity PublicKey]
  {f f' : Pair (Option (VeilidStream PublicKey))} {φ : Phase}

/-- Minding the streams changes no phase. -/
theorem Holds.minds (h : φ.Holds f) (hr : ∀ d, Option.Rel Minds (f.get d) (f'.get d)) :
    φ.Holds f' := by
  have hnone : ∀ d, f.get d = none → f'.get d = none := by
    intro d hd
    have hr := hr d
    rw [hd] at hr
    cases hr' : f'.get d with
    | none => rfl
    | some x => rw [hr'] at hr; cases hr
  have hsome : ∀ d x, f.get d = some x → ∃ x', f'.get d = some x' ∧ Minds x x' := by
    intro d x hd
    have hr := hr d
    rw [hd] at hr
    cases hr' : f'.get d with
    | none => rw [hr'] at hr; cases hr
    | some x' =>
      rw [hr'] at hr
      cases hr with
      | some hm => exact ⟨x', rfl, hm⟩
  cases φ with
  | apart => exact fun d => hnone d (h d)
  | dialed d =>
    obtain ⟨hother, x, hx, hst, hid⟩ := h
    obtain ⟨x', hx', hm⟩ := hsome d x hx
    have hs := works_handshake hm.works
    exact ⟨hnone _ hother, x', hx', hs.status.trans hst, hs.remoteStreamId.trans hid⟩
  | crossed =>
    obtain ⟨x, hx⟩ := h
    obtain ⟨l, hl, hml⟩ := hsome .left _ (hx .left).1
    obtain ⟨r, hr, hmr⟩ := hsome .right _ (hx .right).1
    have hsl := works_handshake hml.works
    have hsr := works_handshake hmr.works
    refine ⟨⟨l, r⟩, fun d => ?_⟩
    cases d with
    | left => exact ⟨hl, (hx .left).2.congr hsl.status hsl.remoteStreamId
        (works_identity hmr.works).myStreamId⟩
    | right => exact ⟨hr, (hx .right).2.congr hsr.status hsr.remoteStreamId
        (works_identity hml.works).myStreamId⟩
  | led d =>
    obtain ⟨x, y, hx, hy, hl⟩ := h
    obtain ⟨x', hx', hmx⟩ := hsome d x hx
    obtain ⟨y', hy', hmy⟩ := hsome d.other y hy
    exact ⟨x', y', hx', hy', hl.minds hmx hmy⟩

omit [Identity PublicKey] in
/-- A side that has no stream has not dialed: neither side has, or the other. -/
theorem Holds.of_none (h : φ.Holds f) {d : Side}
    (hd : f.get d = none) : φ = .apart ∨ φ = .dialed d.other := by
  cases φ with
  | apart => exact .inl rfl
  | dialed e =>
    rcases Side.eq_or_eq_other d e with rfl | rfl
    · obtain ⟨-, x, hx, -⟩ := h
      rw [hd] at hx
      cases hx
    · exact .inr rfl
  | crossed =>
    obtain ⟨x, hx⟩ := h
    have hx := (hx d).1
    rw [hd] at hx
    cases hx
  | led e =>
    obtain ⟨x, y, hx, hy, -⟩ := h
    rcases Side.eq_or_eq_other d e with rfl | rfl
    · rw [hd] at hx; cases hx
    · rw [Side.other_other, hd] at hy; cases hy

omit [Identity PublicKey] in
/-- **A side dials.** -/
theorem Holds.dial (h : φ.Holds f) {d : Side} (hd : f.get d = none) {x : VeilidStream PublicKey}
    (hst : x.status = .dial) (hid : x.remoteStreamId = 0) :
    ∃ φ', Leads φ φ' ∧ φ'.Holds (f.set d (some x)) := by
  rcases h.of_none hd with rfl | rfl
  · refine ⟨.dialed d, .single (.dial d), ?_, x, ?_, hst, hid⟩
    · rw [Pair.get_set_other]; exact h d.other
    · rw [Pair.get_set_self]
  · obtain ⟨-, y, hy, hyst, hyid⟩ := h
    have hside : ∀ e, (f.set d (some x)).get e = some (((⟨y, y⟩ : Pair _).set d x).get e) := by
      intro e
      rcases Side.eq_or_eq_other d e with rfl | rfl
      · rw [Pair.get_set_self, Pair.get_set_self]
      · rw [Pair.get_set_other, Pair.get_set_other, hy]
        cases d <;> rfl
    refine ⟨.crossed, .single (.cross _), (⟨y, y⟩ : Pair _).set d x, fun e => ⟨hside e, ?_⟩⟩
    have hboth := Pair.set_forall (p := ⟨y, y⟩) (d := d) (a := x)
      (P := fun _ (z : VeilidStream PublicKey) => z.status = .dial ∧ z.remoteStreamId = 0)
      ⟨hst, hid⟩ (by cases d <;> exact ⟨hyst, hyid⟩) e
    exact ⟨hboth.1, .inl hboth.2⟩

omit [Identity PublicKey] in
/-- **A side answers** a dial with a new stream. -/
theorem Holds.listen (h : φ.Holds f) {d : Side} (hd : f.get d = none)
    {x y : VeilidStream PublicKey} (hy : f.get d.other = some y) (hst : x.status = .listen)
    (hid : x.remoteStreamId = y.myStreamId)
    (hkey : x.remotePublicKey = some y.myKeypair.publicKey)
    (hsent : ∀ p ∈ x.sent, messageType p.data ≠ .dial) :
    ∃ φ', Leads φ φ' ∧ φ'.Holds (f.set d (some x)) := by
  rcases h.of_none hd with rfl | rfl
  · have hnone := h d.other
    rw [hy] at hnone
    cases hnone
  · obtain ⟨-, y', hy', hyst, hyid⟩ := h
    obtain rfl := Option.some.inj (hy.symm.trans hy')
    refine ⟨.led d, .single (by simpa using Step.listen d.other), x, y, ?_, ?_, ?_⟩
    · rw [Pair.get_set_self]
    · rw [Pair.get_set_other]; exact hy
    · exact ⟨.inl hst, .inl hyst, hid, hkey, .inl hyid, (fun hs => by rw [hyst] at hs; cases hs),
        (fun hs => by rw [hst] at hs; cases hs), fun _ p hp ht => absurd ht (hsent p hp)⟩

/-- **A side hears the other**, when both have streams. -/
theorem Holds.hears [LawfulIdentity PublicKey] (h : φ.Holds f) {d : Side}
    {x y : VeilidStream PublicKey} (hx : f.get d = some x) (hy : f.get d.other = some y)
    {m : AppMessage} (hm : y.Says m) (hxk : x.localAddress.key.kind = Address.vld0)
    (hyk : y.localAddress.key.kind = Address.vld0) (now : Instant) :
    let r := x.convertRegistered (some x.localAddress) now m
    r.2 ≠ .create ∧ ∃ φ', Leads φ φ' ∧ φ'.Holds (f.set d (some r.1)) := by
  intro r
  have hself : (f.set d (some r.1)).get d = some r.1 := Pair.get_set_self _ _ _
  have hother : (f.set d (some r.1)).get d.other = some y := (Pair.get_set_other _ _ _).trans hy
  cases φ with
  | apart => rw [h d] at hx; cases hx
  | dialed e =>
    obtain ⟨hnone, -⟩ := h
    rcases Side.eq_or_eq_other d e with rfl | rfl
    · rw [hy] at hnone; cases hnone
    · rw [Side.other_other, hx] at hnone; cases hnone
  | crossed =>
    obtain ⟨z, hz⟩ := h
    obtain ⟨hzd, hdx⟩ := hz d
    obtain ⟨hzo, hdy⟩ := hz d.other
    rw [Side.other_other] at hdy
    obtain rfl := Option.some.inj (hx.symm.trans hzd)
    obtain rfl := Option.some.inj (hy.symm.trans hzo)
    rcases hdx.hears hdy hm hxk hyk now with ⟨hd, hnext⟩ | ⟨hl, hnext⟩
    · refine ⟨by rcases hnext with h | h <;> rw [h] <;> simp, .crossed, .refl, z.set d r.1,
        fun e => ?_⟩
      rcases Side.eq_or_eq_other d e with rfl | rfl
      · rw [Pair.get_set_self, Pair.get_set_self, Pair.get_set_other]
        exact ⟨rfl, hd⟩
      · rw [Pair.get_set_other, Pair.get_set_other, Side.other_other, Pair.get_set_self]
        have hi := handles_identity (convertRegistered_handles (z.get d)
          (some (z.get d).localAddress) now m)
        exact ⟨hy, hdy.congr rfl rfl hi.myStreamId⟩
    · exact ⟨by rw [hnext]; simp, .led d, .single (.switch d), r.1, _, hself, hother, hl⟩
  | led e =>
    obtain ⟨u, v, hu, hv, hl⟩ := h
    rcases Side.eq_or_eq_other d e with rfl | rfl
    · obtain rfl := Option.some.inj (hx.symm.trans hu)
      obtain rfl := Option.some.inj (hy.symm.trans hv)
      obtain ⟨hl, hnext⟩ := hl.listener_hears hm x.localAddress now
      exact ⟨by rw [hnext]; simp, .led e, .refl, r.1, y, hself, hother, hl⟩
    · rw [Side.other_other] at hv
      obtain rfl := Option.some.inj (hx.symm.trans hv)
      obtain rfl := Option.some.inj (hy.symm.trans hu)
      obtain ⟨hl, hnext⟩ := hl.dialer_hears hm now
      exact ⟨by rw [hnext]; simp, .led d.other, .refl, y, r.1, hother,
        by rw [Side.other_other]; exact hself, hl⟩

end Phase
end VeilidTransport
