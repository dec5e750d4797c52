import VeilidTransport.Transport
import VeilidTransport.DialCopies

/-!
# Dialing again

A node that dials again takes the seconds of its clock for the id of the new stream.  The
peer tells the streams apart by these ids alone: what comes from a stream with a lower id
than the one it knows is stale, and a dial with a higher one takes the old one's place.

`superseded_iff` says exactly when that works.  A clock that has not moved on by a second
gives the new stream the id of the old one, and to an active peer its dial is nothing new.
-/

namespace VeilidTransport

namespace VeilidStream
variable {PublicKey : Type} [KeyCodec] [Identity PublicKey]

/-- The id a stream knows its remote by never falls. -/
theorem le_convertRegistered_remoteStreamId (s : VeilidStream PublicKey)
    (localAddress : Option Address) (now : Instant) (m : AppMessage) :
    s.remoteStreamId ≤ (s.convertRegistered localAddress now m).1.remoteStreamId := by
  by_cases h0 : s.remoteStreamId = 0
  · rw [h0]
    exact Nat.zero_le _
  · have hadopt : s.adoptRemoteStreamId m.streamId = s := by
      rw [adoptRemoteStreamId, if_neg h0]
    cases localAddress with
    | none => rw [convertRegistered_none, hadopt]
    | some l =>
      have hc := convertRegistered_handled s l now m
      rw [hadopt] at hc
      rcases hc with ⟨-, h⟩ | ⟨hstale, h⟩
      · rw [h]
      · rcases h.remoteStreamId with hr | hr
        · rw [hr]
        · rw [hr]
          exact Nat.not_lt.mp fun hlt => hstale ⟨h0, hlt⟩

/-- A message of an earlier stream than the one it knows leaves a stream as it is. -/
theorem convertRegistered_of_lt {s : VeilidStream PublicKey} {m : AppMessage}
    (h : m.streamId < s.remoteStreamId) (localAddress : Option Address) (now : Instant) :
    (s.convertRegistered localAddress now m).1 = s := by
  have h0 : s.remoteStreamId ≠ 0 := fun h0 => by
    rw [h0] at h
    exact Nat.not_lt_zero _ h
  have hadopt : s.adoptRemoteStreamId m.streamId = s := by
    rw [adoptRemoteStreamId, if_neg h0]
  cases localAddress with
  | none => rw [convertRegistered_none, hadopt]
  | some l =>
    have hc := convertRegistered_handled s l now m
    rw [hadopt] at hc
    rcases hc with ⟨-, hr⟩ | ⟨hstale, -⟩
    · rw [hr]
    · exact absurd ⟨h0, h⟩ hstale

/-- Nothing is received before the stream is active. -/
def Unread (s : VeilidStream PublicKey) : Prop := s.status ≠ .active → s.inbound.receivedSeq = 0

theorem Quiet.unread {s s' : VeilidStream PublicKey} (h : Quiet s s') (hs : s.Unread) :
    s'.Unread := by
  cases h with
  | work h =>
    cases h with
    | reader => exact hs
    | write => exact hs
    | generate => exact hs
    | send => exact hs
    | emit => exact hs
  | control _ _ _ _ hst => exact fun hne => hs fun ha => hne (hst ha).1

theorem Moves.unread {m : AppMessage} {s s' : VeilidStream PublicKey} (h : Moves m s s')
    (hs : s.Unread) : s'.Unread := by
  cases h with
  | quiet h => exact h.unread hs
  | store ha => exact fun hne => absurd ha hne
  | accept ha => exact fun hne => absurd ha hne
  | acknowledge ha => exact fun hne => absurd ha hne

/-- A dial of a stream with a higher id, to an active one. -/
theorem convertRegistered_superseded {s : VeilidStream PublicKey} (hs : s.status = .active)
    (h0 : s.remoteStreamId ≠ 0) {m : AppMessage} (hm : messageType m.data = .dial)
    (hlt : s.remoteStreamId < m.streamId) (localAddress : Address) (now : Instant) :
    s.convertRegistered (some localAddress) now m = (s, .create) := by
  have hadopt : s.adoptRemoteStreamId m.streamId = s := by
    rw [adoptRemoteStreamId, if_neg h0]
  have hstale : ¬ (s.remoteStreamId ≠ 0 ∧ m.streamId < s.remoteStreamId) :=
    fun h => Nat.lt_asymm hlt h.2
  unfold convertRegistered
  simp only [hadopt, if_neg hstale, hs, convertActive, hm, if_pos hlt]

/-- A dial whose id an active stream knows already, or takes it to be. -/
theorem convertRegistered_known {s : VeilidStream PublicKey} (hs : s.status = .active)
    {m : AppMessage} (hm : messageType m.data = .dial)
    (hid : s.remoteStreamId = m.streamId ∨ s.remoteStreamId = 0) (localAddress : Address)
    (now : Instant) :
    s.convertRegistered (some localAddress) now m =
      ({ s with remoteStreamId := m.streamId }, .pending) := by
  have hadopt := adoptRemoteStreamId_heard (s := s) (k := m.streamId) hid.symm
  unfold convertRegistered
  simp [hadopt, hs, convertActive, hm]

/-- A dial to a stream that listens: it listens to the new one from now on. -/
theorem convertRegistered_listening {s : VeilidStream PublicKey} (hs : s.status = .listen)
    {m : AppMessage} (hm : messageType m.data = .dial) (hle : s.remoteStreamId ≤ m.streamId)
    (localAddress : Address) (now : Instant) :
    s.convertRegistered (some localAddress) now m =
      ((s.updateRemoteStreamId m.streamId).sendListen, .pending) := by
  have hstale : ∀ id, id ≤ m.streamId → ¬ (id ≠ 0 ∧ m.streamId < id) := fun id hid h =>
    Nat.not_lt.mpr hid h.2
  unfold convertRegistered
  by_cases h0 : s.remoteStreamId = 0
  · rw [adoptRemoteStreamId_heard (.inl h0)]
    simp only [if_neg (hstale _ (Nat.le_refl _)), hs, convertListen, hm, updateRemoteStreamId]
  · have hadopt : s.adoptRemoteStreamId m.streamId = s := by
      rw [adoptRemoteStreamId, if_neg h0]
    simp only [hadopt, if_neg (hstale _ hle), hs, convertListen, hm]

/-- The dial of a stream, as it is decoded. -/
theorem decodeMessage_dial {s : VeilidStream PublicKey} {m : AppMessage}
    (hm : decodeMessage (s.encode 0 0 s.dialData) = some m) :
    m.streamId = s.myStreamId ∧ messageType m.data = .dial := by
  unfold encode encodeMessage at hm
  split at hm
  · unfold decodeMessage at hm
    split at hm
    · cases hm
    · obtain rfl := Option.some.inj hm
      exact ⟨rfl, messageType_dial _⟩
  · have hnone : decodeMessage Payload.empty = none := rfl
    rw [hnone] at hm
    cases hm

end VeilidStream

namespace Transport
open VeilidStream
variable {PublicKey : Type} [KeyCodec] [Identity PublicKey]

theorem run_unread (localAddress : Option Address) (keypair : Keypair PublicKey) (now : Instant)
    (as : List Action) :
    ∀ s ∈ (Runs.run step (Transport.new localAddress keypair now) as).heap, s.Unread :=
  run_keeps (fun _ _ hq => hq.unread) (fun _ _ _ hm => hm.unread) (fun _ _ _ _ _ _ _ _ => rfl)
    localAddress keypair now as

/-- On the heap, the id a stream knows its remote by never falls. -/
theorem step_remoteStreamId (n : Transport PublicKey) (a : Action) {h : Handle}
    {s s' : VeilidStream PublicKey} (hs : n.heap[h]? = some s)
    (hs' : (n.step a).heap[h]? = some s') : s.remoteStreamId ≤ s'.remoteStreamId := by
  have hlt : ¬ h = n.heap.length := fun hh => by
    rw [hh] at hs
    simp at hs
  cases step_became n a hs' with
  | worked _ t _ ht hw =>
    obtain rfl := Option.some.inj (hs.symm.trans ht)
    exact Nat.le_of_eq (works_handshake hw).remoteStreamId.symm
  | handled packet m t hm hstream ht =>
    obtain rfl := Option.some.inj (hs.symm.trans ht)
    exact le_convertRegistered_remoteStreamId _ _ _ _
  | dialed _ _ _ _ _ _ _ hh => exact absurd hh hlt
  | created _ _ _ _ _ _ _ _ _ hh => exact absurd hh hlt

theorem run_remoteStreamId (as : List Action) {n : Transport PublicKey} {h : Handle}
    {s : VeilidStream PublicKey} (hs : n.heap[h]? = some s) :
    ∃ s', (Runs.run step n as).heap[h]? = some s' ∧ s.remoteStreamId ≤ s'.remoteStreamId := by
  induction as generalizing n s with
  | nil => exact ⟨s, hs, Nat.le_refl _⟩
  | cons a as ih =>
    obtain ⟨t, ht⟩ := step_stays n a hs
    obtain ⟨s', hs', hle⟩ := ih ht
    exact ⟨s', hs', Nat.le_trans (step_remoteStreamId n a hs ht) hle⟩

/-- A dial is processed, its future to the end of `create_stream` if it has one. -/
def processDial (n : Transport PublicKey) (packet : Payload) (target : Target) (epochSecs : Nat) :
    Transport PublicKey :=
  (n.update packet).resume n.tasks.length (some target) epochSecs

/-- **The new session has taken the old one's place**: the stream registered for the address
listens to the new one and has received nothing, and never again does a message of
the old one change it. -/
def Supersedes (n : Transport PublicKey) (remoteAddress : Address) (oldId newId : Nat) : Prop :=
  ∃ h x, n.streams.lookup remoteAddress = some h ∧ n.heap[h]? = some x ∧
    x.remoteStreamId = newId ∧ x.status = .listen ∧ x.inbound.receivedSeq = 0 ∧
    ∀ as x', (Runs.run step n as).heap[h]? = some x' →
      ∀ m : AppMessage, m.streamId = oldId → ∀ localAddress now,
        (x'.convertRegistered localAddress now m).1 = x'

theorem Supersedes.of_lt {n : Transport PublicKey} {r : Address} {oldId newId : Nat} {h : Handle}
    {x : VeilidStream PublicKey} (hstream : n.streams.lookup r = some h)
    (hx : n.heap[h]? = some x) (hid : x.remoteStreamId = newId) (hst : x.status = .listen)
    (hseq : x.inbound.receivedSeq = 0) (hlt : oldId < newId) :
    n.Supersedes r oldId newId := by
  refine ⟨h, x, hstream, hx, hid, hst, hseq, fun as x' hx' m hm localAddress now => ?_⟩
  obtain ⟨y, hy, hle⟩ := run_remoteStreamId as hx
  obtain rfl := Option.some.inj (hx'.symm.trans hy)
  refine convertRegistered_of_lt ?_ localAddress now
  rw [hm]
  omega

/-- A stream just made for the new session has taken the place of the old one's. -/
theorem Supersedes.created (n : Transport PublicKey) (l r : Address) (target : Target)
    (newId : Nat) (data : Bytes) (epochSecs : Nat) (task : Task) {oldId : Nat}
    (hlt : oldId < newId) :
    ((n.insertStream r (n.createStream l r target newId data epochSecs)).spawn task).Supersedes r
      oldId newId := by
  obtain ⟨key, hkey⟩ := extractKey_eq (VeilidStream.new l r target newId n.myKeypair epochSecs
    n.now) dialWord data
  have hstream : (n.createStream l r target newId data epochSecs).remoteStreamId = newId ∧
      (n.createStream l r target newId data epochSecs).status = .listen ∧
      (n.createStream l r target newId data epochSecs).inbound.receivedSeq = 0 := by
    rw [createStream, hkey]
    exact ⟨rfl, rfl, rfl⟩
  exact .of_lt (AList.lookup_insert _) List.getElem?_concat_length hstream.1 hstream.2.1
    hstream.2.2 hlt

theorem update_registered {n : Transport PublicKey} {packet : Payload} {m : AppMessage}
    (hm : decodeMessage packet = some m) {h : Handle}
    (hstream : n.streams.lookup m.remoteAddress = some h) {s : VeilidStream PublicKey}
    (hs : n.heap[h]? = some s) :
    n.update packet = ({ n with
      heap := n.heap.set h (s.convertRegistered n.localAddress n.now m).1 }).follow h m
        (s.convertRegistered n.localAddress n.now m).2 := by
  rw [update, hm]
  simp only [hstream, hs]

/-- **When dialing again supersedes the old session**: exactly when the clock has moved on to
a later second; and the id of the old session was not zero, unless the peer still
listens. -/
theorem superseded_iff (localAddress : Option Address) (keypair : Keypair PublicKey)
    (now : Instant) (as : List Action) {n : Transport PublicKey}
    (hn : n = Runs.run step (Transport.new localAddress keypair now) as) {l : Address}
    (hl : n.localAddress = some l) {s₁ s₂ : VeilidStream PublicKey}
    (hclock : s₁.myStreamId ≤ s₂.myStreamId) {m : AppMessage}
    (hm : decodeMessage (s₂.encode 0 0 s₂.dialData) = some m) {h : Handle}
    (hstream : n.streams.lookup m.remoteAddress = some h) {x : VeilidStream PublicKey}
    (hx : n.heap[h]? = some x) (hst : x.status = .listen ∨ x.status = .active)
    (hid : x.remoteStreamId = s₁.myStreamId) (target : Target) (epochSecs : Nat) :
    (n.processDial (s₂.encode 0 0 s₂.dialData) target epochSecs).Supersedes m.remoteAddress
        s₁.myStreamId s₂.myStreamId ↔
      s₁.myStreamId < s₂.myStreamId ∧ (s₁.myStreamId ≠ 0 ∨ x.status = .listen) := by
  obtain ⟨hnew, hdial⟩ := decodeMessage_dial hm
  have hlt := (List.getElem?_eq_some_iff.mp hx).1
  -- a message that changes no more than the stream starts no future
  have hpending : ∀ x', x.convertRegistered (some l) n.now m = (x', .pending) →
      n.processDial (s₂.encode 0 0 s₂.dialData) target epochSecs =
        { n with heap := n.heap.set h x' } := by
    intro x' hc
    rw [processDial, update_registered hm hstream hx, hl, hc, resume]
    simp [follow]
  have hset : ∀ x', ({ n with heap := n.heap.set h x' } : Transport PublicKey).heap[h]? = some x' :=
    fun x' => List.getElem?_set_self hlt
  rcases hst with hst | hst
  · have hc := convertRegistered_listening hst hdial (by rw [hid, hnew]; exact hclock) l n.now
    rw [hpending _ hc, hnew]
    constructor
    · rintro ⟨h', x', hstream', hx', -, -, -, hsame⟩
      obtain rfl := Option.some.inj (hstream.symm.trans hstream')
      obtain rfl := Option.some.inj ((hset _).symm.trans hx')
      refine ⟨Nat.lt_of_le_of_ne hclock fun heq => ?_, .inr hst⟩
      -- a further copy of the dial makes it listen again
      have hagain := hsame [] _ (hset _) m (hnew.trans heq.symm) (some l) n.now
      rw [convertRegistered_listening (s := (x.updateRemoteStreamId s₂.myStreamId).sendListen) hst
        hdial (Nat.le_of_eq hnew.symm) l n.now] at hagain
      have hsent := congrArg (fun s => s.sent.length) hagain
      simp [sendListen, sendMessageToRemote, updateRemoteStreamId] at hsent
    · rintro ⟨hlt', -⟩
      have hunread : x.Unread := by
        subst hn
        exact run_unread localAddress keypair now as x (List.mem_of_getElem? hx)
      exact Supersedes.of_lt hstream (hset _) rfl hst (hunread (by rw [hst]; simp)) hlt'
  · by_cases hlt' : s₁.myStreamId < s₂.myStreamId ∧ s₁.myStreamId ≠ 0
    · refine ⟨fun _ => ⟨hlt'.1, .inl hlt'.2⟩, fun _ => ?_⟩
      have hc := convertRegistered_superseded hst (by rw [hid]; exact hlt'.2) hdial
        (by rw [hid, hnew]; exact hlt'.1) l n.now
      rw [processDial, update_registered hm hstream hx, hl, hc, follow]
      simp only [spawn, resume]
      rw [List.getElem?_append_right (Nat.le_refl _)]
      simp only [Nat.sub_self, List.getElem?_cons_zero, resumeTask]
      rw [hnew]
      exact Supersedes.created _ l m.remoteAddress target s₂.myStreamId m.data epochSecs _ hlt'.1
    · -- the dial is nothing new to the stream, which stays active
      have hknown : x.remoteStreamId = m.streamId ∨ x.remoteStreamId = 0 := by
        rw [hid, hnew]
        by_cases h0 : s₁.myStreamId = 0
        · exact .inr h0
        · exact .inl (Nat.le_antisymm hclock (Nat.not_lt.mp fun h => hlt' ⟨h, h0⟩))
      rw [hpending _ (convertRegistered_known hst hdial hknown l n.now)]
      constructor
      · rintro ⟨h', x', hstream', hx', -, hlisten, -⟩
        obtain rfl := Option.some.inj (hstream.symm.trans hstream')
        obtain rfl := Option.some.inj ((hset _).symm.trans hx')
        rw [hst] at hlisten
        cases hlisten
      · rintro ⟨h1, h2 | h2⟩
        · exact absurd ⟨h1, h2⟩ hlt'
        · rw [hst] at h2; cases h2

end Transport

namespace Transport
open Sample

/-- Node 2's stream for node 1, with this id. -/
def sampleDialer (myStreamId : Nat) : VeilidStream Sample.PublicKey :=
  VeilidStream.new (addressOf 2) (addressOf 1) (.nodeId (keyOf 1)) 0 (keypairOf 2) myStreamId 0

/-- Node 1 has answered a dial of node 2, and got its first message. -/
def sampleEstablished : Transport Sample.PublicKey :=
  Runs.run step (sampleNode 1) [.update (sampleDial 2 1 20),
    .resume 0 (some (.nodeId (keyOf 2))) 10,
    .update ((sampleDialer 20).encode 0 1 [1, 0, 0, 0, 7])]

theorem superseded_sample :
    (sampleEstablished.processDial ((sampleDialer 21).encode 0 0 (sampleDialer 21).dialData)
        (.nodeId (keyOf 2)) 11).Supersedes (sampleDialMessage 2 1 21).remoteAddress
        (sampleDialer 20).myStreamId (sampleDialer 21).myStreamId ↔
      (sampleDialer 20).myStreamId < (sampleDialer 21).myStreamId ∧
        ((sampleDialer 20).myStreamId ≠ 0 ∨
          (sampleEstablished.heap.head (by decide)).status = .listen) :=
  have hclock : (sampleDialer 20).myStreamId ≤ (sampleDialer 21).myStreamId := by decide
  superseded_iff (some (addressOf 1)) (keypairOf 1) 0 _ rfl (l := addressOf 1) (by decide)
    hclock (m := sampleDialMessage 2 1 21) rfl
    (h := 0) (by decide) (x := sampleEstablished.heap.head (by decide)) rfl (.inr (by decide))
    (by decide) (.nodeId (keyOf 2)) 11

/-- **Within one second of the clock a new dial is lost** on an active peer. -/
theorem redial_ignored :
    ¬ (sampleEstablished.processDial ((sampleDialer 20).encode 0 0 (sampleDialer 20).dialData)
      (.nodeId (keyOf 2)) 11).Supersedes (addressOf 2) 20 20 := by
  rintro ⟨h, x, hstream, hx, -, hlisten, -⟩
  have hzero : (sampleEstablished.processDial
      ((sampleDialer 20).encode 0 0 (sampleDialer 20).dialData) (.nodeId (keyOf 2))
        11).streams.lookup (addressOf 2) = some 0 := by
    decide
  obtain rfl := Option.some.inj (hzero.symm.trans hstream)
  have hactive : ((sampleEstablished.processDial
      ((sampleDialer 20).encode 0 0 (sampleDialer 20).dialData) (.nodeId (keyOf 2))
        11).heap[0]?).map (·.status) = some .active := by
    decide
  rw [hx] at hactive
  have hst : x.status = .active := Option.some.inj hactive
  rw [hlisten] at hst
  cases hst

end Transport
end VeilidTransport
