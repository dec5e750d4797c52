import VeilidTransport.Agreement
import Mathlib.Data.List.Induction

/-!
# Incarnations of a stream

Each node of the world may make stream after stream for the other, and packets of all of
them are under way.  A stream `Takes` a message when it appends it or keeps it for later,
and `Releases` one when an acknowledgement takes it out of the queue.

Updates are handled one at a time.  `isolated` holds along the runs in which a stream takes
messages only from the stream it knows its remote by, and releases its own only for one that
knows it (`Matched`): then all a stream takes is from one stream of the other node, and what
it releases was taken from it.
A `LISTEN` does not say which dial it answers, and an active stream takes any id that is
not lower than the one it knows: `mixed` is a run in which a late copy of a `LISTEN` makes a
stream active, and the other node appends its data to that of the stream before it.
-/

namespace VeilidTransport
namespace VeilidStream
variable {PublicKey : Type}

/-- What was appended to the buffer, and what is kept for later. -/
def received (s : VeilidStream PublicKey) : List Bytes × KeyedMap Nat Bytes :=
  (s.inbound.appended, s.inbound.messageQueue)

/-- Something is appended, or kept for later. -/
def Takes (s s' : VeilidStream PublicKey) : Prop := s'.received ≠ s.received

/-- The message `k` leaves the queue. -/
def Releases (s s' : VeilidStream PublicKey) (k : Nat) : Prop :=
  (s.outbound.entry k).isSome = true ∧ s'.outbound.entry k = none

/-- The stream is active, and knows its remote's id for good. -/
structure Knows (s : VeilidStream PublicKey) (id : Nat) : Prop where
  status : s.status = .active
  remoteStreamId : s.remoteStreamId = id
  ne_zero : id ≠ 0

theorem Knows.eq {s : VeilidStream PublicKey} {id id' : Nat} (h : s.Knows id) (h' : s.Knows id') :
    id = id' := h.remoteStreamId.symm.trans h'.remoteStreamId

theorem not_releases_of_eq {s s' : VeilidStream PublicKey} (h : s'.outbound = s.outbound)
    (k : Nat) : ¬ Releases s s' k := by
  rintro ⟨hsome, hnone⟩
  rw [← h, hnone] at hsome
  cases hsome

theorem recvMessage_takes {s : VeilidStream PublicKey} {now : Instant} {deliveredSeq seq : Nat}
    {data : Bytes} (h : Takes s (s.recvMessage now deliveredSeq seq data)) :
    s.inbound.receivedSeq < seq := by
  by_contra hle
  have hsame : s.recvMessage now deliveredSeq seq data = s := by
    simp only [recvMessage, if_pos (Nat.not_lt.mp hle)]
  exact h (by rw [hsame])

theorem releases_acknowledged {s s' : VeilidStream PublicKey} {deliveredSeq k : Nat}
    (hout : s'.outbound =
      (s.outbound.updateOutboundDeliveredSeq deliveredSeq).removeSentMessagesFromQueue)
    (h : Releases s s' k) : k ≤ deliveredSeq := by
  obtain ⟨hsome, hnone⟩ := h
  rw [hout, Outbound.removeSentMessagesFromQueue_entry] at hnone
  by_contra hlt
  have hdel : (s.outbound.updateOutboundDeliveredSeq deliveredSeq).deliveredSeq < k :=
    Nat.not_le.mp hlt
  rw [if_pos hdel, Outbound.updateOutboundDeliveredSeq_entry] at hnone
  rw [hnone] at hsome
  cases hsome

theorem recvMessage_releases {s : VeilidStream PublicKey} {now : Instant}
    {deliveredSeq seq k : Nat} {data : Bytes}
    (h : Releases s (s.recvMessage now deliveredSeq seq data) k) :
    seq = s.inbound.receivedSeq + 1 ∧ k ≤ deliveredSeq := by
  rcases recvMessage_cases s now deliveredSeq seq data with hr | ⟨-, hr⟩ | ⟨-, hseq, -, woken, hr⟩
  · exact absurd h (not_releases_of_eq (by rw [hr]) k)
  · exact absurd h (not_releases_of_eq (by rw [hr]) k)
  · exact ⟨hseq, releases_acknowledged (by rw [hr]) h⟩

variable [KeyCodec] [Identity PublicKey]

/-! ## What the node's own work leaves alone -/

theorem works_received {s s' : VeilidStream PublicKey} (h : Works s s') :
    s'.received = s.received := by
  induction h with
  | refl => rfl
  | tail _ hw ih => cases hw <;> exact ih

/-- What is queued stays queued. -/
theorem works_entry {s s' : VeilidStream PublicKey} (h : Works s s') {k : Nat}
    (hk : (s.outbound.entry k).isSome = true) : (s'.outbound.entry k).isSome = true := by
  induction h with
  | refl => exact hk
  | tail _ hw ih =>
    cases hw with
    | reader => exact ih
    | write => exact ih
    | emit => exact ih
    | send =>
      rw [Outbound.stampSent_entry]
      exact ih
    | generate =>
      refine Outbound.generateMessages_invariant (P := fun o => (o.entry k).isSome = true) ?_ ih
      intro o _ ho
      rw [Outbound.generateMessage_entry]
      split
      · rfl
      · exact ho

theorem works_not_releases {s s' : VeilidStream PublicKey} (h : Works s s') (k : Nat) :
    ¬ Releases s s' k := by
  rintro ⟨hsome, hnone⟩
  have hk := works_entry h hsome
  rw [hnone] at hk
  cases hk

theorem Moves.knows {m : AppMessage} {s s' : VeilidStream PublicKey} (h : Moves m s s') {id : Nat}
    (hs : s.Knows id) : s'.Knows id := by
  cases h with
  | store => exact ⟨hs.status, hs.remoteStreamId, hs.ne_zero⟩
  | accept => exact ⟨hs.status, hs.remoteStreamId, hs.ne_zero⟩
  | acknowledge => exact ⟨hs.status, hs.remoteStreamId, hs.ne_zero⟩
  | quiet hq =>
    cases hq with
    | work hw =>
      have hh := works_handshake (.single hw)
      exact ⟨hh.status.trans hs.status, hh.remoteStreamId.trans hs.remoteStreamId, hs.ne_zero⟩
    | control key id' status lastTimestamp hkeeps =>
      obtain ⟨hst, hid⟩ := hkeeps hs.status
      have hne : s.remoteStreamId ≠ 0 := by
        rw [hs.remoteStreamId]
        exact hs.ne_zero
      exact ⟨hst, (hid hne).trans hs.remoteStreamId, hs.ne_zero⟩

theorem Handles.knows {m : AppMessage} {s s' : VeilidStream PublicKey} (h : Handles m s s')
    {id : Nat} (hs : s.Knows id) : s'.Knows id := by
  induction h with
  | refl => exact hs
  | tail _ hm ih => exact hm.knows ih

/-! ## What a message does -/

omit [KeyCodec] in
theorem extractKey_same (s : VeilidStream PublicKey) (word data : Bytes) :
    (s.extractKey word data).received = s.received ∧
      (s.extractKey word data).outbound = s.outbound := by
  obtain ⟨key, hk⟩ := extractKey_eq s word data
  rw [hk]
  exact ⟨rfl, rfl⟩

/-- A stream that connects sends what it has, and takes and releases nothing. -/
theorem connected_same (s : VeilidStream PublicKey) (now : Instant) (id : Nat) :
    ((((s.updateInboundLastTimestampToNow now).updateRemoteStreamId id).updateStatus
      .active).generateMessages.sendMessages now).received = s.received ∧
    ∀ k, (s.outbound.entry k).isSome = true →
      (((((s.updateInboundLastTimestampToNow now).updateRemoteStreamId id).updateStatus
        .active).generateMessages.sendMessages now).outbound.entry k).isSome = true := by
  have hsame : (((s.updateInboundLastTimestampToNow now).updateRemoteStreamId id).updateStatus
      .active).received = s.received ∧
    (((s.updateInboundLastTimestampToNow now).updateRemoteStreamId id).updateStatus
      .active).outbound = s.outbound := ⟨rfl, rfl⟩
  generalize ((s.updateInboundLastTimestampToNow now).updateRemoteStreamId id).updateStatus
    .active = t at hsame ⊢
  have hworks : Works t (t.generateMessages.sendMessages now) :=
    .trans (.single (.generate t)) (works_sendMessages _ now)
  refine ⟨(works_received hworks).trans hsame.1, fun k hk => ?_⟩
  rw [← hsame.2] at hk
  exact works_entry hworks hk

/-- How a message is taken: it is data with a valid signature, of an active stream or one
that the message makes active. -/
theorem Handled.takes {localAddress : Address} {now : Instant} {m : AppMessage}
    {s s' : VeilidStream PublicKey} {isSigned : Bool} {next : Next}
    (h : Handled localAddress now m s isSigned s' next) (ht : Takes s s') :
    messageType m.data = .data ∧ isSigned = true ∧ s.inbound.receivedSeq < m.seq ∧
      s'.status = .active ∧ s'.remoteStreamId = s.remoteStreamId ∧
      (s.status = .active ∨ s.remoteStreamId = m.streamId) := by
  have hdial := extractKey_same s dialWord m.data
  have hlisten := extractKey_same s listenWord m.data
  cases h with
  | ignored => exact absurd rfl ht
  | superseded => exact absurd rfl ht
  | acknowledged => exact absurd rfl ht
  | relisten => exact absurd rfl ht
  | redial =>
    generalize s.extractKey dialWord m.data = u at ht hdial
    exact absurd hdial.1 ht
  | tied =>
    generalize s.extractKey dialWord m.data = u at ht hdial
    exact absurd hdial.1 ht
  | switched =>
    generalize s.extractKey dialWord m.data = u at ht hdial
    exact absurd hdial.1 ht
  | connected =>
    generalize s.extractKey listenWord m.data = u at ht hlisten
    exact absurd ((connected_same u now m.streamId).1.trans hlisten.1) ht
  | received hs hm hsigned =>
    have hseq := recvMessage_takes (s := s.updateStatus .active) ht
    obtain ⟨hst, hid, -⟩ := recvMessage_handshake (s.updateStatus .active) now m.deliveredSeq
      m.seq m.data
    refine ⟨hm, hsigned, hseq, hst, hid, ?_⟩
    rcases hs with ⟨-, hs⟩ | hs
    · exact .inr hs
    · exact .inl hs

/-- How a message lets go of a queued one: by its acknowledgement. -/
theorem Handled.releases {localAddress : Address} {now : Instant} {m : AppMessage}
    {s s' : VeilidStream PublicKey} {isSigned : Bool} {next : Next}
    (h : Handled localAddress now m s isSigned s' next) {k : Nat} (hr : Releases s s' k) :
    (s.status = .active ∧ messageType m.data = .status ∨
      (s.status = .listen ∨ s.status = .active) ∧ messageType m.data = .data ∧ isSigned = true ∧
        m.seq = s.inbound.receivedSeq + 1) ∧ k ≤ m.deliveredSeq := by
  have hdial := extractKey_same s dialWord m.data
  have hlisten := extractKey_same s listenWord m.data
  have hsame : s'.outbound = s.outbound → False := fun ho => not_releases_of_eq ho k hr
  cases h with
  | ignored => exact (hsame rfl).elim
  | superseded => exact (hsame rfl).elim
  | relisten => exact (hsame rfl).elim
  | redial =>
    generalize s.extractKey dialWord m.data = u at hsame hdial
    exact (hsame hdial.2).elim
  | tied =>
    generalize s.extractKey dialWord m.data = u at hsame hdial
    exact (hsame hdial.2).elim
  | switched =>
    generalize s.extractKey dialWord m.data = u at hsame hdial
    exact (hsame hdial.2).elim
  | acknowledged hs hm =>
    exact ⟨.inl ⟨hs, hm⟩, releases_acknowledged rfl hr⟩
  | connected =>
    obtain ⟨hsome, hnone⟩ := hr
    rw [← hlisten.2] at hsome
    generalize s.extractKey listenWord m.data = u at hsome hnone
    have hk := (connected_same u now m.streamId).2 k hsome
    rw [hnone] at hk
    cases hk
  | received hs hm hsigned =>
    obtain ⟨hseq, hle⟩ := recvMessage_releases (s := s.updateStatus .active) hr
    exact ⟨.inr ⟨hs.imp_left And.left, hm, hsigned, hseq⟩, hle⟩

/-- The data of the message is new to an active stream, which takes it. -/
def WouldTake (s : VeilidStream PublicKey) (m : AppMessage) : Prop :=
  ¬ s.Stale m ∧ s.status = .active ∧ messageType m.data = .data ∧ s.isSigned m = true ∧
    s.inbound.receivedSeq < m.seq

/-- The stream acts on the acknowledgement of the message, and still has one queued that it
is for. -/
def WouldRelease (s : VeilidStream PublicKey) (m : AppMessage) : Prop :=
  ¬ s.Stale m ∧ (s.status = .active ∧ messageType m.data = .status ∨
      (s.status = .listen ∨ s.status = .active) ∧ messageType m.data = .data ∧
        s.isSigned m = true ∧ m.seq = s.inbound.receivedSeq + 1) ∧
    ∃ k ∈ s.outbound.messageQueue.keys, k ≤ m.deliveredSeq

/-- **What a stream takes** comes from the remote stream it knows, if what it `WouldTake`
does; and it is active then. -/
theorem convertRegistered_takes {s : VeilidStream PublicKey} {localAddress : Option Address}
    {now : Instant} {m : AppMessage} (h0 : m.streamId ≠ 0)
    (hok : s.WouldTake m → m.streamId = s.remoteStreamId)
    (h : Takes s (s.convertRegistered localAddress now m).1) :
    (s.convertRegistered localAddress now m).1.Knows m.streamId := by
  obtain ⟨id, hid, hadopt⟩ := adoptRemoteStreamId_eq s m.streamId
  have hadopted : (s.adoptRemoteStreamId m.streamId).received = s.received := by
    rw [hadopt]
    rfl
  cases localAddress with
  | none => exact absurd hadopted h
  | some l =>
    rcases convertRegistered_handled s l now m with ⟨-, hc⟩ | ⟨hcurrent, hc⟩
    · rw [hc] at h
      exact absurd hadopted h
    · rw [stale_adopt_iff] at hcurrent
      have ht : Takes (s.adoptRemoteStreamId m.streamId) (s.convertRegistered (some l) now m).1 := by
        unfold Takes
        rw [hadopted]
        exact h
      obtain ⟨hm, hsigned, hseq, hst, hremote, hrole⟩ := hc.takes ht
      rw [hadopt] at hseq hremote hrole
      refine ⟨hst, hremote.trans ?_, h0⟩
      rcases hrole with hactive | heq
      · have hmatch := hok ⟨hcurrent, hactive, hm, hsigned, hseq⟩
        have hne : s.remoteStreamId ≠ 0 := hmatch ▸ h0
        exact (hid hne).trans hmatch.symm
      · exact heq

/-- **What a stream releases** is acknowledged, and it `WouldRelease` it. -/
theorem convertRegistered_releases {s : VeilidStream PublicKey} {localAddress : Option Address}
    {now : Instant} {m : AppMessage} {k : Nat}
    (h : Releases s (s.convertRegistered localAddress now m).1 k) :
    s.WouldRelease m ∧ k ≤ m.deliveredSeq := by
  obtain ⟨id, -, hadopt⟩ := adoptRemoteStreamId_eq s m.streamId
  have hadopted : (s.adoptRemoteStreamId m.streamId).outbound = s.outbound := by rw [hadopt]
  have hkey : k ∈ s.outbound.messageQueue.keys := by
    have hsome := h.1
    rw [Outbound.entry, Option.isSome_map] at hsome
    exact AList.lookup_isSome.mp hsome
  cases localAddress with
  | none => exact absurd h (not_releases_of_eq hadopted k)
  | some l =>
    rcases convertRegistered_handled s l now m with ⟨-, hc⟩ | ⟨hcurrent, hc⟩
    · rw [hc] at h
      exact absurd h (not_releases_of_eq hadopted k)
    · rw [stale_adopt_iff] at hcurrent
      have hr : Releases (s.adoptRemoteStreamId m.streamId)
          (s.convertRegistered (some l) now m).1 k := by
        unfold Releases
        rw [hadopted]
        exact h
      obtain ⟨hacts, hle⟩ := hc.releases hr
      rw [hadopt] at hacts
      exact ⟨⟨hcurrent, hacts, k, hkey, hle⟩, hle⟩

instance (s : VeilidStream PublicKey) (m : AppMessage) : Decidable (s.WouldTake m) :=
  inferInstanceAs (Decidable (_ ∧ _))

instance (s : VeilidStream PublicKey) (m : AppMessage) : Decidable (s.WouldRelease m) :=
  inferInstanceAs (Decidable (_ ∧ _ ∧ ∃ k ∈ s.outbound.messageQueue.keys, _))

end VeilidStream

namespace World
open VeilidStream
variable {PublicKey : Type} [KeyCodec] [Identity PublicKey]

/-! ## Runs -/

/-- The future makes a stream when it continues. -/
def opens : Task → Bool
  | .activate _ => false
  | _ => true

/-- A new stream has a higher id than all that the node has made before. -/
def FreshIds (s : World PublicKey) : Action → Prop
  | .resume d i _ epochSecs => ∀ t ∈ (s.get d).tasks[i]?, opens t = true →
      0 < epochSecs ∧ ∀ x ∈ (s.get d).heap, x.myStreamId < epochSecs
  | _ => True

/-- A stream takes messages only from the stream it knows its remote by, and acts on the
acknowledgements of one that knows it. -/
def Matched (s : World PublicKey) : Action → Prop
  | .deliver d h k => ∀ y ∈ (s.get d.other).heap[h]?, ∀ p ∈ y.sent[k]?, ∀ m ∈ decodeMessage p,
      ∀ x ∈ (s.get d).registered m.remoteAddress,
        (x.WouldTake m → y.myStreamId = x.remoteStreamId) ∧
        (x.WouldRelease m → y.remoteStreamId = x.myStreamId)
  | _ => True

instance (s : World PublicKey) : ∀ a, Decidable (FreshIds s a)
  | .resume d i _ epochSecs => inferInstanceAs (Decidable (∀ t ∈ (s.get d).tasks[i]?,
      opens t = true → 0 < epochSecs ∧ ∀ x ∈ (s.get d).heap, x.myStreamId < epochSecs))
  | .deliver _ _ _ => inferInstanceAs (Decidable True)
  | .dial _ => inferInstanceAs (Decidable True)
  | .chore _ _ => inferInstanceAs (Decidable True)

instance (s : World PublicKey) : ∀ a, Decidable (Matched s a)
  | .deliver d h k => inferInstanceAs (Decidable (∀ y ∈ (s.get d.other).heap[h]?,
      ∀ p ∈ y.sent[k]?, ∀ m ∈ decodeMessage p, ∀ x ∈ (s.get d).registered m.remoteAddress,
        (x.WouldTake m → y.myStreamId = x.remoteStreamId) ∧
        (x.WouldRelease m → y.remoteStreamId = x.myStreamId)))
  | .resume _ _ _ _ => inferInstanceAs (Decidable True)
  | .dial _ => inferInstanceAs (Decidable True)
  | .chore _ _ => inferInstanceAs (Decidable True)

/-- The step makes the stream `g` of the node `d` take something. -/
def Takes (s : World PublicKey) (a : Action) (d : Side) (g : Handle) : Prop :=
  ∃ x x', (s.get d).heap[g]? = some x ∧ ((s.step a).get d).heap[g]? = some x' ∧
    VeilidStream.Takes x x'

theorem takes_of_appended {s : World PublicKey} {a : Action} {d : Side} {g : Handle} (m n : Nat)
    (h : (s.get d).heap[g]?.map (·.inbound.appended.length) = some m)
    (h' : ((s.step a).get d).heap[g]?.map (·.inbound.appended.length) = some n) (hne : m ≠ n) :
    Takes s a d g := by
  obtain ⟨x, hx, hm⟩ := Option.map_eq_some_iff.mp h
  obtain ⟨x', hx', hn⟩ := Option.map_eq_some_iff.mp h'
  refine ⟨x, x', hx, hx', fun heq => hne ?_⟩
  have hlen : x'.inbound.appended.length = x.inbound.appended.length :=
    congrArg (fun r : List Bytes × KeyedMap Nat Bytes => r.1.length) heq
  rw [← hm, ← hn, hlen]

/-- The step takes the message `k` out of the queue of the stream `g` of the node `d`. -/
def Releases (s : World PublicKey) (a : Action) (d : Side) (g : Handle) (k : Nat) : Prop :=
  ∃ x x', (s.get d).heap[g]? = some x ∧ ((s.step a).get d).heap[g]? = some x' ∧
    VeilidStream.Releases x x' k

/-- All that the stream takes in the run comes from the other node's stream `h`. -/
def TakesFrom (s : World PublicKey) (as : List Action) (d : Side) (g h : Handle) : Prop :=
  ∀ bs a, bs ++ [a] <+: as → Takes (Runs.run step s bs) a d g → ∃ k, a = .deliver d h k

/-- **The streams of the two nodes are isolated**: what a stream takes comes from one stream
of the other node; and what it releases is acknowledged by a stream that has received as much,
and has taken nothing but what this one sent. -/
structure Isolated (s : World PublicKey) (as : List Action) : Prop where
  source : ∀ d g, ∃ h, TakesFrom s as d g h
  released : ∀ bs a, bs ++ [a] <+: as → ∀ d g k, Releases (Runs.run step s bs) a d g k →
    ∃ h j y, a = .deliver d h j ∧ ((Runs.run step s bs).get d.other).heap[h]? = some y ∧
      k ≤ y.inbound.receivedSeq ∧ TakesFrom s bs d.other h g

/-- **What a step of the world makes of a stream.** -/
inductive Evolved (s : World PublicKey) (a : Action) (d : Side) (g : Handle) :
    VeilidStream PublicKey → Prop where
  | worked (x x' : VeilidStream PublicKey) (hx : (s.get d).heap[g]? = some x) (hw : Works x x') :
      Evolved s a d g x'
  | handled (h : Handle) (k : Nat) (y : VeilidStream PublicKey) (p : Payload) (m : AppMessage)
      (x : VeilidStream PublicKey) (ha : a = .deliver d h k)
      (hy : (s.get d.other).heap[h]? = some y) (hp : y.sent[k]? = some p)
      (hm : decodeMessage p = some m)
      (hstream : (s.get d).streams.lookup m.remoteAddress = some g)
      (hx : (s.get d).heap[g]? = some x) :
      Evolved s a d g (x.convertRegistered (s.get d).localAddress (s.get d).now m).1
  | made (i : Nat) (target : Option Target) (epochSecs : Nat) (t : Task)
      (x' : VeilidStream PublicKey) (ha : a = .resume d i target epochSecs)
      (ht : (s.get d).tasks[i]? = some t) (hopens : opens t = true)
      (hg : g = (s.get d).heap.length) (hid : x'.myStreamId = epochSecs) : Evolved s a d g x'

omit [KeyCodec] [Identity PublicKey] in
theorem move_update {s : World PublicKey} {a : Action} {d : Side} {packet : Payload}
    (h : s.move a = some (d, .update packet)) : ∃ g k y, a = .deliver d g k ∧
      (s.get d.other).heap[g]? = some y ∧ y.sent[k]? = some packet := by
  cases a with
  | deliver d' g k =>
    obtain ⟨p, hp, hpair⟩ := Option.map_eq_some_iff.mp h
    cases hpair
    obtain ⟨y, hy, hsent⟩ := Option.bind_eq_some_iff.mp hp
    exact ⟨g, k, y, rfl, hy, hsent⟩
  | dial d' =>
    obtain ⟨l, -, hl⟩ := Option.map_eq_some_iff.mp h
    cases hl
  | resume => cases h
  | chore d' c =>
    have hc := (Prod.mk.inj (Option.some.inj h)).2
    cases c <;> cases hc

omit [KeyCodec] [Identity PublicKey] in
theorem move_resume {s : World PublicKey} {a : Action} {d : Side} {i : Nat}
    {target : Option Target} {epochSecs : Nat}
    (h : s.move a = some (d, .resume i target epochSecs)) :
    a = .resume d i target epochSecs := by
  cases a with
  | deliver =>
    obtain ⟨p, -, hp⟩ := Option.map_eq_some_iff.mp h
    cases hp
  | dial =>
    obtain ⟨l, -, hl⟩ := Option.map_eq_some_iff.mp h
    cases hl
  | resume =>
    cases h
    rfl
  | chore d' c =>
    have hc := (Prod.mk.inj (Option.some.inj h)).2
    cases c <;> cases hc

theorem step_evolved (s : World PublicKey) (a : Action) {d : Side} {g : Handle}
    {x' : VeilidStream PublicKey} (hx' : ((s.step a).get d).heap[g]? = some x') :
    Evolved s a d g x' := by
  unfold step at hx'
  split at hx'
  · exact .worked x' x' hx' .refl
  · next d' b hmove =>
    rcases Side.eq_or_eq_other d' d with rfl | rfl
    · rw [Pair.get_set_self] at hx'
      cases Transport.step_became _ _ hx' with
      | worked _ x _ hx hw => exact .worked x x' hx hw
      | handled packet m x hm hstream hx =>
        obtain ⟨h, k, y, rfl, hy, hsent⟩ := move_update hmove
        exact .handled h k y packet m x rfl hy hsent hm hstream hx
      | dialed i target epochSecs l r remoteTarget ht hg =>
        exact .made i target epochSecs _ _ (move_resume hmove) ht rfl hg rfl
      | created i target epochSecs l r id data remoteTarget ht hg =>
        have hmade := (Transport.quietly_createStream (s.get d) l r remoteTarget id data
          epochSecs).handles (silent l)
        exact .made i target epochSecs _ _ (move_resume hmove) ht rfl hg
          (handles_identity hmade).myStreamId
    · rw [Pair.get_set_other] at hx'
      exact .worked x' x' hx' .refl

/-- A stream stays where it is, under its id. -/
theorem step_stays (s : World PublicKey) (a : Action) {d : Side} {g : Handle}
    {x : VeilidStream PublicKey} (hx : (s.get d).heap[g]? = some x) :
    ∃ x', ((s.step a).get d).heap[g]? = some x' ∧ x'.myStreamId = x.myStreamId ∧
      ∀ id, x.Knows id → x'.Knows id := by
  have hstays : ∃ x', ((s.step a).get d).heap[g]? = some x' := by
    unfold step
    split
    · exact ⟨x, hx⟩
    · next d' b hmove =>
      rcases Side.eq_or_eq_other d' d with rfl | rfl
      · rw [Pair.get_set_self]
        exact Transport.step_stays _ b hx
      · rw [Pair.get_set_other]
        exact ⟨x, hx⟩
  obtain ⟨x', hx'⟩ := hstays
  have hhandles : ∀ m, Handles m x x' → x'.myStreamId = x.myStreamId ∧
      ∀ id, x.Knows id → x'.Knows id := fun m hh =>
    ⟨(handles_identity hh).myStreamId, fun _ hk => Handles.knows hh hk⟩
  refine ⟨x', hx', ?_⟩
  cases step_evolved s a hx' with
  | worked z _ hz hw =>
    obtain rfl := Option.some.inj (hx.symm.trans hz)
    exact hhandles (silent x.localAddress) (hw.quietly.handles _)
  | handled h k y p m z ha hy hp hm hstream hz =>
    obtain rfl := Option.some.inj (hx.symm.trans hz)
    exact hhandles m (convertRegistered_handles _ _ _ _)
  | made i target epochSecs t _ ha ht hopens hg =>
    rw [hg] at hx
    simp at hx

/-! ## Ids -/

/-- The streams of the node have ids of their own, and none has the id zero. -/
structure Distinct (n : Transport PublicKey) : Prop where
  ne_zero : ∀ x ∈ n.heap, x.myStreamId ≠ 0
  eq : ∀ (g h : Handle) (x y : VeilidStream PublicKey), n.heap[g]? = some x →
    n.heap[h]? = some y → x.myStreamId = y.myStreamId → g = h

def DistinctIds (s : World PublicKey) : Prop := ∀ d, Distinct (s.get d)

/-- Where a stream of the step comes from, by its id. -/
theorem Evolved.origin {s : World PublicKey} {a : Action} (hfresh : FreshIds s a) {d : Side}
    {g : Handle} {x' : VeilidStream PublicKey} (h : Evolved s a d g x') :
    (∃ x, (s.get d).heap[g]? = some x ∧ x'.myStreamId = x.myStreamId) ∨
      g = (s.get d).heap.length ∧ 0 < x'.myStreamId ∧
        ∀ x ∈ (s.get d).heap, x.myStreamId < x'.myStreamId := by
  cases h with
  | worked x _ hx hw => exact .inl ⟨x, hx, (works_identity hw).myStreamId⟩
  | handled h k y p m x ha hy hp hm hstream hx =>
    exact .inl ⟨x, hx, (handles_identity (convertRegistered_handles _ _ _ _)).myStreamId⟩
  | made i target epochSecs t _ ha ht hopens hg hid =>
    subst ha
    rw [hid]
    exact .inr ⟨hg, hfresh t ht hopens⟩

theorem step_distinct (s : World PublicKey) (a : Action) (hfresh : FreshIds s a)
    (h : DistinctIds s) : DistinctIds (s.step a) := by
  intro d
  constructor
  · intro x' hx'
    obtain ⟨g, hg⟩ := List.mem_iff_getElem?.mp hx'
    rcases (step_evolved s a hg).origin hfresh with ⟨x, hx, hid⟩ | ⟨-, hpos, -⟩
    · rw [hid]
      exact (h d).ne_zero x (List.mem_of_getElem? hx)
    · exact Nat.ne_of_gt hpos
  · intro g₁ g₂ x₁ x₂ h₁ h₂ heq
    rcases (step_evolved s a h₁).origin hfresh with ⟨y₁, hy₁, hid₁⟩ | ⟨hg₁, -, hlt₁⟩
    · rcases (step_evolved s a h₂).origin hfresh with ⟨y₂, hy₂, hid₂⟩ | ⟨-, -, hlt₂⟩
      · exact (h d).eq g₁ g₂ y₁ y₂ hy₁ hy₂ (by rw [← hid₁, ← hid₂, heq])
      · have hlt := hlt₂ y₁ (List.mem_of_getElem? hy₁)
        rw [← heq, hid₁] at hlt
        exact absurd hlt (Nat.lt_irrefl _)
    · rcases (step_evolved s a h₂).origin hfresh with ⟨y₂, hy₂, hid₂⟩ | ⟨hg₂, -, -⟩
      · have hlt := hlt₁ y₂ (List.mem_of_getElem? hy₂)
        rw [heq, hid₂] at hlt
        exact absurd hlt (Nat.lt_irrefl _)
      · rw [hg₁, hg₂]

/-! ## Where messages come from -/

/-- **What a stream takes in a step** is from a stream of the other node, and that is the one
it knows from then on. -/
theorem takes_deliver {s : World PublicKey} {addresses : Pair Address}
    {keypairs : Pair (Keypair PublicKey)} (hproper : Proper addresses keypairs s)
    (hids : DistinctIds s) {a : Action} (hok : Matched s a) {d : Side} {g : Handle}
    (h : Takes s a d g) : ∃ h k x' y, a = .deliver d h k ∧
      ((s.step a).get d).heap[g]? = some x' ∧ (s.get d.other).heap[h]? = some y ∧
      x'.Knows y.myStreamId := by
  obtain ⟨x, x', hx, hx', htakes⟩ := h
  cases step_evolved s a hx' with
  | worked z _ hz hw =>
    obtain rfl := Option.some.inj (hx.symm.trans hz)
    exact absurd (works_received hw) htakes
  | handled h k y p m z ha hy hp hm hstream hz =>
    obtain rfl := Option.some.inj (hx.symm.trans hz)
    have hvouched := (hproper d.other).consistent y (List.mem_of_getElem? hy)
    obtain ⟨hid, -, -⟩ := decodeMessage_vouched (hvouched.vouches p (List.mem_of_getElem? hp)) hm
    have hne : m.streamId ≠ 0 := hid ▸ (hids d.other).ne_zero y (List.mem_of_getElem? hy)
    have hreg : (s.get d).registered m.remoteAddress = some x := by
      rw [Transport.registered, hstream]
      exact hx
    subst ha
    have hmatch := (hok y hy p hp m hm x hreg).1
    refine ⟨h, k, _, y, rfl, hx', hy, ?_⟩
    rw [← hid]
    exact convertRegistered_takes hne (fun hw => hid.trans (hmatch hw)) htakes
  | made i target epochSecs t _ ha ht hopens hg =>
    rw [hg] at hx
    simp at hx

/-- **What a stream releases in a step** is acknowledged by a stream that knows it. -/
theorem releases_deliver {s : World PublicKey} {addresses : Pair Address}
    {keypairs : Pair (Keypair PublicKey)} (hproper : Proper addresses keypairs s) {a : Action}
    (hok : Matched s a) {d : Side} {g : Handle} {k : Nat} (h : Releases s a d g k) :
    ∃ h j x y, a = .deliver d h j ∧ (s.get d).heap[g]? = some x ∧
      (s.get d.other).heap[h]? = some y ∧ k ≤ y.inbound.receivedSeq ∧
      y.remoteStreamId = x.myStreamId := by
  obtain ⟨x, x', hx, hx', hreleases⟩ := h
  cases step_evolved s a hx' with
  | worked z _ hz hw =>
    obtain rfl := Option.some.inj (hx.symm.trans hz)
    exact absurd hreleases (works_not_releases hw k)
  | handled h j y p m z ha hy hp hm hstream hz =>
    obtain rfl := Option.some.inj (hx.symm.trans hz)
    have hvouched := (hproper d.other).consistent y (List.mem_of_getElem? hy)
    obtain ⟨-, hdelivered, -⟩ :=
      decodeMessage_vouched (hvouched.vouches p (List.mem_of_getElem? hp)) hm
    have hreg : (s.get d).registered m.remoteAddress = some x := by
      rw [Transport.registered, hstream]
      exact hx
    subst ha
    obtain ⟨hwould, hle⟩ := convertRegistered_releases hreleases
    exact ⟨h, j, x, y, rfl, hx, hy, Nat.le_trans hle hdelivered,
      (hok y hy p hp m hm x hreg).2 hwould⟩
  | made i target epochSecs t _ ha ht hopens hg =>
    rw [hg] at hx
    simp at hx

/-! ## Isolation -/

/-- Where the stream `g` of the node `d` has taken its messages from in the run: from nowhere
yet, or from a stream that it knows for good. -/
def Sourced (s : World PublicKey) (as : List Action) (d : Side) (g : Handle) : Prop :=
  (∀ bs a, bs ++ [a] <+: as → ¬ Takes (Runs.run step s bs) a d g) ∨
  ∃ h x y, ((Runs.run step s as).get d).heap[g]? = some x ∧
    ((Runs.run step s as).get d.other).heap[h]? = some y ∧ x.Knows y.myStreamId ∧
    TakesFrom s as d g h

theorem sourced_nil (s : World PublicKey) (d : Side) (g : Handle) : Sourced s [] d g := by
  refine .inl fun bs a h => ?_
  rw [List.prefix_nil] at h
  exact absurd h (List.append_ne_nil_of_right_ne_nil bs (by simp))

omit [KeyCodec] [Identity PublicKey] in
/-- The last step of a run, or an earlier one. -/
theorem concat_prefix_concat {α : Type} {as bs : List α} {a b : α}
    (h : bs ++ [b] <+: as ++ [a]) : bs = as ∧ b = a ∨ bs ++ [b] <+: as := by
  rcases List.prefix_concat_iff.mp h with heq | h
  · obtain ⟨rfl, hb⟩ := List.append_inj' heq rfl
    exact .inl ⟨rfl, List.head_eq_of_cons_eq hb⟩
  · exact .inr h

/-- **One more step**: a stream that has a source takes from it, and one that has none gets
one, and knows it from then on. -/
theorem Sourced.concat {s : World PublicKey} {as : List Action} {d : Side} {g : Handle}
    (h : Sourced s as d g) {addresses : Pair Address} {keypairs : Pair (Keypair PublicKey)}
    (hproper : Proper addresses keypairs (Runs.run step s as))
    (hids : DistinctIds (Runs.run step s as)) {a : Action}
    (hok : Matched (Runs.run step s as) a) : Sourced s (as ++ [a]) d g := by
  have hrun : Runs.run step s (as ++ [a]) = (Runs.run step s as).step a := by
    rw [Runs.run_append]
    rfl
  by_cases hnow : Takes (Runs.run step s as) a d g
  · obtain ⟨h₁, k, x', y, rfl, hx', hy, hknows⟩ := takes_deliver hproper hids hok hnow
    obtain ⟨y', hy', hid, -⟩ := step_stays (Runs.run step s as) (.deliver d h₁ k) hy
    refine .inr ⟨h₁, x', y', by rw [hrun]; exact hx', by rw [hrun]; exact hy', hid ▸ hknows, ?_⟩
    intro bs b hb htakes
    rcases concat_prefix_concat hb with ⟨rfl, rfl⟩ | hb
    · exact ⟨k, rfl⟩
    · rcases h with hnone | ⟨h₂, x₂, y₂, hx₂, hy₂, hknows₂, hfrom⟩
      · exact absurd htakes (hnone bs b hb)
      · -- the source it had is the one of this step
        obtain ⟨x₂', hx₂', -, hkeeps⟩ := step_stays (Runs.run step s as) (.deliver d h₁ k) hx₂
        obtain rfl := Option.some.inj (hx'.symm.trans hx₂')
        obtain rfl := (hids d.other).eq h₁ h₂ y y₂ hy hy₂ (hknows.eq (hkeeps _ hknows₂))
        exact hfrom bs b hb htakes
  · rcases h with hnone | ⟨h₂, x₂, y₂, hx₂, hy₂, hknows₂, hfrom⟩
    · refine .inl fun bs b hb htakes => ?_
      rcases concat_prefix_concat hb with ⟨rfl, rfl⟩ | hb
      · exact hnow htakes
      · exact hnone bs b hb htakes
    · obtain ⟨x₂', hx₂', -, hkeeps⟩ := step_stays (Runs.run step s as) a hx₂
      obtain ⟨y₂', hy₂', hid, -⟩ := step_stays (Runs.run step s as) a hy₂
      refine .inr ⟨h₂, x₂', y₂', by rw [hrun]; exact hx₂', by rw [hrun]; exact hy₂',
        hid ▸ hkeeps _ hknows₂, fun bs b hb htakes => ?_⟩
      rcases concat_prefix_concat hb with ⟨rfl, rfl⟩ | hb
      · exact absurd htakes hnow
      · exact hfrom bs b hb htakes

omit [KeyCodec] [Identity PublicKey] in
theorem start_distinct (addresses : Pair Address) (keypairs : Pair (Keypair PublicKey))
    (now : Instant) : DistinctIds (start addresses keypairs now) := by
  intro d
  rw [get_start]
  refine ⟨fun x hx => absurd hx List.not_mem_nil, fun g h x y hx => ?_⟩
  cases hx

theorem run_sourced {s : World PublicKey} {addresses : Pair Address}
    {keypairs : Pair (Keypair PublicKey)} (hproper : Proper addresses keypairs s)
    (hids : DistinctIds s) (as : List Action) (hfresh : Runs.Along step FreshIds s as)
    (hok : Runs.Along step Matched s as) (d : Side) (g : Handle) : Sourced s as d g := by
  induction as using List.reverseRecOn with
  | nil => exact sourced_nil s d g
  | append_singleton as a ih =>
    obtain ⟨hfresh, -⟩ := Runs.along_append.mp hfresh
    obtain ⟨hok, hoka, -⟩ := Runs.along_append.mp hok
    exact (ih hfresh hok).concat (Runs.invariant step_proper hproper as)
      (Runs.invariant_along step_distinct hids hfresh) hoka

/-- **Isolation**: along every run in which new streams get higher ids, streams take messages
only from the streams they know, and release their own only for those that know them. -/
theorem isolated (addresses : Pair Address) (keypairs : Pair (Keypair PublicKey)) (now : Instant)
    (as : List Action) (hfresh : Runs.Along step FreshIds (start addresses keypairs now) as)
    (hok : Runs.Along step Matched (start addresses keypairs now) as) :
    Isolated (start addresses keypairs now) as := by
  have hproper := start_proper addresses keypairs now
  have hids := start_distinct addresses keypairs now
  constructor
  · intro d g
    rcases run_sourced hproper hids as hfresh hok d g with hnone | ⟨h, -, -, -, -, -, hfrom⟩
    · exact ⟨0, fun bs a hbs htakes => absurd htakes (hnone bs a hbs)⟩
    · exact ⟨h, hfrom⟩
  · rintro bs a ⟨cs, rfl⟩ d g k hreleases
    rw [List.append_assoc] at hfresh hok
    obtain ⟨hfresh, -⟩ := Runs.along_append.mp hfresh
    obtain ⟨hok, hoka, -⟩ := Runs.along_append.mp hok
    have hproper' := Runs.invariant step_proper hproper bs
    obtain ⟨h, j, x, y, ha, hx, hy, hle, hknown⟩ := releases_deliver hproper' hoka hreleases
    refine ⟨h, j, y, ha, hy, hle, ?_⟩
    rcases run_sourced hproper hids bs hfresh hok d.other h with
      hnone | ⟨g', y', x', hy', hx', hknows, hfrom⟩
    · exact fun bs' b hb htakes => absurd htakes (hnone bs' b hb)
    · -- the source of the stream that acknowledges is the one it knows
      obtain rfl := Option.some.inj (hy.symm.trans hy')
      have hdistinct := Runs.invariant_along step_distinct hids hfresh
      rw [Side.other_other] at hx'
      have hid : x.myStreamId = x'.myStreamId := hknown.symm.trans hknows.remoteStreamId
      obtain rfl := (hdistinct d).eq g g' x x' hx hx' hid
      exact hfrom

end World

namespace World
open Sample

/-- The left node dials, the right one answers, and gets data. -/
def sampleFirst : List Action :=
  [.dial .left, .resume .left 0 (some (.nodeId (keyOf 2))) 10, .deliver .right 0 0,
    .resume .right 0 (some (.nodeId (keyOf 1))) 1, .deliver .left 0 0,
    .chore .left (.pollWrite 0 [7]), .chore .left (.pump 0), .deliver .right 0 1]

theorem isolated_sample : Isolated sampleStart sampleFirst :=
  isolated ⟨addressOf 1, addressOf 2⟩ ⟨keypairOf 1, keypairOf 2⟩ 0 sampleFirst (by decide)
    (by decide)

/-- The left node dials again, a late copy of the first answer comes, and it writes twice; the
second message arrives first. -/
def sampleSecond : List Action :=
  [.dial .left, .resume .left 0 (some (.nodeId (keyOf 2))) 20, .deliver .left 0 0,
    .chore .left (.pollWrite 1 [8]), .chore .left (.pump 0),
    .chore .left (.pollWrite 1 [9]), .chore .left (.pump 0)]

/-- **The data of two streams can get into one**: the right node's stream has appended the
first message of the first stream, and appends the second message of the second. -/
theorem mixed :
    Runs.Along step FreshIds sampleStart (sampleFirst ++ sampleSecond ++ [.deliver .right 1 2]) ∧
      ¬ Isolated sampleStart (sampleFirst ++ sampleSecond ++ [.deliver .right 1 2]) := by
  refine ⟨by decide, fun h => ?_⟩
  obtain ⟨g, hfrom⟩ := h.source .right 0
  have hfirst : sampleFirst.dropLast ++ [.deliver .right 0 1] <+:
      sampleFirst ++ sampleSecond ++ [.deliver .right 1 2] := ⟨sampleSecond ++ [.deliver .right 1 2], rfl⟩
  obtain ⟨k, hk⟩ := hfrom _ _ hfirst (takes_of_appended 0 1 (by decide) (by decide) (by decide))
  obtain ⟨j, hj⟩ := hfrom _ _ List.prefix_rfl
    (takes_of_appended 1 2 (by decide) (by decide) (by decide))
  cases hk
  cases hj

end World
end VeilidTransport
