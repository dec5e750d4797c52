import VeilidTransport.Session
import VeilidTransport.KeepAlive

/-!
# Draining

What happens to a side of a session while it writes nothing: its stream is cut into messages,
the messages are sent and stamped, and acknowledgements take them from the queue (`Drain`).
What there is to deliver, `contents`, stays the same meanwhile.

`Sound` is the invariant of a session with two more parts: only chunks that are data are taken
in, and no message was last tried in the future.
-/

namespace VeilidTransport

namespace Outbound

/-- What happens to the outbound half while nothing is written. -/
inductive Drain (now : Instant) : Outbound → Outbound → Prop where
  | generate (o : Outbound) : Drain now o o.generateMessages
  | stamp (o : Outbound) : Drain now o (o.stampSent now)
  | acknowledge (o : Outbound) (deliveredSeq : Nat) :
      Drain now o (o.updateOutboundDeliveredSeq deliveredSeq).removeSentMessagesFromQueue

abbrev Drains (now : Instant) : Outbound → Outbound → Prop := Relation.ReflTransGen (Drain now)

/-- The data of the messages, those still to be cut from the stream with them. -/
def contents (o : Outbound) : List Bytes :=
  o.generated.map Prod.snd ++ Chunks.chunks settings.transportStreamPacketDataSizeBytes o.stream

/-- No message was last tried in the future. -/
def Stamped (o : Outbound) (now : Instant) : Prop :=
  ∀ k m t, o.messageQueue.lookup k = some m → m.lastTrySend = some t → t ≤ now

/-- Every message that is queued would be sent. -/
def Due (o : Outbound) (now : Instant) : Prop :=
  ∀ k m, o.messageQueue.lookup k = some m → readyToSend now m = true

theorem length_generated_le (o : Outbound) : o.generated.length ≤ o.contents.length := by
  rw [contents, List.length_append, List.length_map]
  exact Nat.le_add_right _ _

theorem Drain.contents_eq {now : Instant} {o o' : Outbound} (h : Drain now o o') :
    o'.contents = o.contents := by
  cases h with
  | generate =>
    rw [contents, generateMessages_data, generateMessages_stream, Chunks.chunks_nil,
      List.append_nil, contents]
  | stamp => rfl
  | acknowledge => rfl

/-- An empty stream stays empty, and a number that is not queued is not queued again. -/
theorem Drain.settled {now : Instant} {o o' : Outbound} (h : Drain now o o')
    (hs : o.stream = []) :
    o'.stream = [] ∧ o'.generated = o.generated ∧ ∀ k, o.entry k = none → o'.entry k = none := by
  cases h with
  | generate =>
    rw [generateMessages_of_nil hs]
    exact ⟨hs, rfl, fun _ h => h⟩
  | stamp =>
    refine ⟨hs, rfl, fun k h => ?_⟩
    rw [stampSent_entry]
    exact h
  | acknowledge deliveredSeq =>
    refine ⟨hs, rfl, fun k h => ?_⟩
    rw [removeSentMessagesFromQueue_entry]
    split
    · exact h
    · rfl

theorem Drains.contents_eq {now : Instant} {o o' : Outbound} (h : Drains now o o') :
    o'.contents = o.contents := by
  induction h with
  | refl => rfl
  | tail _ hs ih => rw [hs.contents_eq, ih]

theorem Drains.settled {now : Instant} {o o' : Outbound} (h : Drains now o o')
    (hs : o.stream = []) :
    o'.stream = [] ∧ o'.generated = o.generated ∧ ∀ k, o.entry k = none → o'.entry k = none := by
  induction h with
  | refl => exact ⟨hs, rfl, fun _ h => h⟩
  | tail _ hd ih =>
    obtain ⟨h1, h2, h3⟩ := ih
    obtain ⟨k1, k2, k3⟩ := hd.settled h1
    exact ⟨k1, k2.trans h2, fun k h => k3 k (h3 k h)⟩

theorem stamped_new (now now' : Instant) : (new now).Stamped now' := by
  intro k m t h
  simp [new] at h

theorem Stamped.mono {o : Outbound} {now now' : Instant} (h : o.Stamped now) (hle : now ≤ now') :
    o.Stamped now' := fun k m t hm ht => Nat.le_trans (h k m t hm ht) hle

theorem Stamped.generateMessages {o : Outbound} {now : Instant} (h : o.Stamped now) :
    o.generateMessages.Stamped now := by
  refine generateMessages_invariant (P := fun o => o.Stamped now) ?_ h
  intro o _ h k m t hm ht
  rw [generateMessage, KeyedMap.lookup_insert] at hm
  split at hm
  · obtain rfl := Option.some.inj hm
    cases ht
  · exact h k m t hm ht

theorem Stamped.drain {o o' : Outbound} {now : Instant} (h : o.Stamped now) (hq : o.Queued)
    (hd : Drain now o o') : o'.Stamped now := by
  cases hd with
  | generate => exact h.generateMessages
  | stamp =>
    intro k m t hm ht
    rw [hq.stampSent_lookup] at hm
    obtain ⟨m', hm', rfl⟩ := Option.map_eq_some_iff.mp hm
    split at ht
    · obtain rfl := Option.some.inj ht
      exact Nat.le_refl _
    · exact h k m' t hm' ht
  | acknowledge deliveredSeq =>
    intro k m t hm ht
    rw [removeSentMessagesFromQueue, KeyedMap.lookup_retain] at hm
    split at hm
    · exact h k m t hm ht
    · cases hm

theorem Drain.queued {o o' : Outbound} {now : Instant} (hd : Drain now o o') (hq : o.Queued) :
    o'.Queued := by
  cases hd with
  | generate => exact hq.generateMessages
  | stamp => exact hq.stampSent now
  | acknowledge deliveredSeq =>
    exact Queued.removeSentMessagesFromQueue (o := o.updateOutboundDeliveredSeq deliveredSeq) hq

theorem Stamped.drains {o o' : Outbound} {now : Instant} (h : o.Stamped now) (hq : o.Queued)
    (hd : Drains now o o') : o'.Stamped now ∧ o'.Queued := by
  induction hd with
  | refl => exact ⟨h, hq⟩
  | tail _ hd ih => exact ⟨ih.1.drain ih.2 hd, hd.queued ih.2⟩

theorem Due.generateMessages {o : Outbound} {now : Instant} (h : o.Due now) :
    o.generateMessages.Due now := by
  refine generateMessages_invariant (P := fun o => o.Due now) ?_ h
  intro o _ h k m hm
  rw [generateMessage, KeyedMap.lookup_insert] at hm
  split at hm
  · obtain rfl := Option.some.inj hm
    rfl
  · exact h k m hm

theorem Due.acknowledge {o : Outbound} {now : Instant} (h : o.Due now) (deliveredSeq : Nat) :
    (o.updateOutboundDeliveredSeq deliveredSeq).removeSentMessagesFromQueue.Due now := by
  intro k m hm
  rw [removeSentMessagesFromQueue, KeyedMap.lookup_retain] at hm
  split at hm
  · exact h k m hm
  · cases hm

/-- **After the retry timeout every message is due.** -/
theorem Stamped.due {o : Outbound} {now : Instant} (h : o.Stamped now) :
    o.Due (now + secs settings.messageRetryTimeout) := by
  intro k m hm
  unfold readyToSend
  split
  · rfl
  · next t ht =>
    have hle : secs settings.messageRetryTimeout + t ≤ now + secs settings.messageRetryTimeout := by
      rw [Nat.add_comm now]
      exact Nat.add_le_add_left (h k m t hm ht) _
    exact decide_eq_true (Nat.le_sub_of_add_le hle)

end Outbound

namespace VeilidStream
variable {PublicKey : Type} [KeyCodec]

theorem sendMessages_drains (s : VeilidStream PublicKey) (now : Instant) :
    Outbound.Drain now s.outbound (s.sendMessages now).outbound := by
  obtain ⟨ms, -, heq⟩ := sendEach_eq (s.outbound.messagesToSend now)
    { s with outbound := s.outbound.stampSent now }
  rw [sendMessages, heq]
  exact .stamp _

/-- Messages of the size that `generate_messages` makes are all sent. -/
theorem sendEach_sized {messages : List OutboundMessage}
    (h : ∀ m ∈ messages, m.data.length ≤ settings.veilidNetworkMessageLimitBytes)
    (s : VeilidStream PublicKey) :
    (sendEach messages s).sent =
      s.sent ++ messages.map fun m => s.encode s.inbound.receivedSeq m.seq m.data := by
  induction messages generalizing s with
  | nil => simp [sendEach]
  | cons m messages ih =>
    rw [sendEach, if_neg (Nat.not_lt.mpr (h m List.mem_cons_self)),
      ih (fun x hx => h x (List.mem_cons_of_mem m hx))]
    simp only [sendMessageToRemote, List.map_cons, List.append_assoc, List.singleton_append]
    rfl

/-- **What is due is sent**, under the present cursor. -/
theorem Consistent.sendMessages_sent {s : VeilidStream PublicKey} (h : s.Consistent)
    (now : Instant) : (s.sendMessages now).sent = s.sent ++
      (s.outbound.messagesToSend now).map fun m => s.encode s.inbound.receivedSeq m.seq m.data := by
  have hlimit : settings.transportStreamPacketDataSizeBytes ≤
      settings.veilidNetworkMessageLimitBytes := by decide
  refine sendEach_sized (fun m hm => ?_) { s with outbound := s.outbound.stampSent now }
  obtain ⟨⟨k, hk⟩, -⟩ := Outbound.mem_messagesToSend.mp hm
  exact Nat.le_trans (h.sized _ (h.queued.seq_eq hk).2).2 hlimit

/-- A message that is queued and due is sent. -/
theorem Consistent.resends {s : VeilidStream PublicKey} (h : s.Consistent) {now : Instant}
    (hdue : s.outbound.Due now) {e : Nat × Bytes} (he : s.outbound.entry e.1 = some e) :
    ∃ k, s.sent.length ≤ k ∧ (s.sendMessages now).sent[k]? =
      some ((s.sendMessages now).encode s.inbound.receivedSeq e.1 e.2) := by
  obtain ⟨m, hm, hme⟩ := Option.map_eq_some_iff.mp he
  have hready := Outbound.mem_messagesToSend.mpr ⟨⟨_, hm⟩, hdue _ m hm⟩
  obtain ⟨i, hi⟩ := List.mem_iff_getElem?.mp hready
  obtain ⟨ms, -, heq⟩ := sendEach_eq (s.outbound.messagesToSend now)
    { s with outbound := s.outbound.stampSent now }
  refine ⟨s.sent.length + i, Nat.le_add_right _ _, ?_⟩
  rw [h.sendMessages_sent, List.getElem?_append_right (Nat.le_add_right _ _),
    Nat.add_sub_cancel_left, List.getElem?_map, hi, sendMessages, heq, ← hme]
  rfl

/-- What is written is cut into messages, and they are sent. -/
theorem flush_drains {s t : VeilidStream PublicKey} (h : t.outbound = s.outbound) (now : Instant) :
    Outbound.Drains now s.outbound (t.generateMessages.sendMessages now).outbound := by
  rw [← h]
  exact .tail (.single (.generate _)) (sendMessages_drains t.generateMessages now)

theorem heartbeatStream_drains [Identity PublicKey] (s : VeilidStream PublicKey) (now : Instant) :
    Outbound.Drains now s.outbound (Transport.heartbeatStream now s).outbound := by
  unfold Transport.heartbeatStream
  split
  · refine flush_drains ?_ now
    unfold sendStatusIfStale
    split <;> rfl
  · split
    · exact .refl
    · split <;> exact .refl

variable [Identity PublicKey]

/-- The heartbeat of an active stream sends its keep-alive first. -/
theorem heartbeatStream_sent {s : VeilidStream PublicKey} {now : Instant}
    (hactive : s.isActive now = true)
    (hstale : secs settings.connectionKeepaliveTimeout ≤ now - s.outbound.lastTimestamp) :
    (Transport.heartbeatStream now s).sent[s.sent.length]? =
      some (s.encode s.inbound.receivedSeq s.outbound.lastSeq statusWord) := by
  rw [Transport.heartbeatStream, if_pos hactive, sendStatusIfStale, if_pos ⟨hstale, hactive⟩]
  obtain ⟨ps, heq, -⟩ := sendMessages_eq (s.sendMessageToRemote
    (s.encode s.inbound.receivedSeq s.outbound.lastSeq statusWord)).generateMessages now
  rw [heq]
  change ((s.sent ++ [_]) ++ ps)[s.sent.length]? = _
  rw [List.append_assoc, List.getElem?_append_right (Nat.le_refl _), Nat.sub_self]
  rfl

theorem Handled.drains {localAddress : Address} {now : Instant} {m : AppMessage}
    {s s' : VeilidStream PublicKey} {isSigned : Bool} {next : Next}
    (h : Handled localAddress now m s isSigned s' next) :
    Outbound.Drains now s.outbound s'.outbound := by
  cases h with
  | ignored => exact .refl
  | superseded => exact .refl
  | redial =>
    obtain ⟨key, hk⟩ := extractKey_eq s dialWord m.data
    rw [hk]
    exact .refl
  | tied =>
    obtain ⟨key, hk⟩ := extractKey_eq s dialWord m.data
    rw [hk]
  | switched =>
    obtain ⟨key, hk⟩ := extractKey_eq s dialWord m.data
    rw [hk]
    exact .refl
  | connected =>
    obtain ⟨key, hk⟩ := extractKey_eq s listenWord m.data
    rw [hk]
    refine flush_drains ?_ now
    rfl
  | relisten => exact .refl
  | received =>
    rcases recvMessage_cases (s.updateStatus .active) now m.deliveredSeq m.seq m.data with
      hr | ⟨-, hr⟩ | ⟨-, -, -, woken, hr⟩
    · rw [hr]
      exact .refl
    · rw [hr]
      exact .refl
    · rw [hr]
      exact .single (.acknowledge _ _)
  | acknowledged => exact .single (.acknowledge _ _)

theorem convertRegistered_drains (s : VeilidStream PublicKey) (localAddress : Option Address)
    (now : Instant) (m : AppMessage) :
    Outbound.Drains now s.outbound (s.convertRegistered localAddress now m).1.outbound := by
  obtain ⟨id, -, hadopt⟩ := adoptRemoteStreamId_eq s m.streamId
  have hsame : (s.adoptRemoteStreamId m.streamId).outbound = s.outbound := by rw [hadopt]
  cases localAddress with
  | none =>
    rw [convertRegistered_none, hsame]
  | some l =>
    rcases convertRegistered_handled s l now m with ⟨-, h⟩ | ⟨-, h⟩
    · rw [h, hsame]
    · rw [← hsame]
      exact h.drains

omit [KeyCodec] [Identity PublicKey] in
/-- The next message is taken in. -/
theorem recvMessage_accepts {s : VeilidStream PublicKey} {now : Instant}
    (hactive : s.isActive now = true) (hlt : s.inbound.receivedSeq + 1 < 2 ^ 32)
    (deliveredSeq : Nat) (data : Bytes) :
    (s.recvMessage now deliveredSeq (s.inbound.receivedSeq + 1) data).inbound.receivedSeq =
        (s.inbound.acceptMessage data).receivedSeq ∧
      (s.recvMessage now deliveredSeq (s.inbound.receivedSeq + 1) data).outbound =
        (s.outbound.updateOutboundDeliveredSeq deliveredSeq).removeSentMessagesFromQueue := by
  have hdup : ¬ s.inbound.receivedSeq + 1 ≤ s.inbound.receivedSeq := by omega
  have hnext : ¬ addU32 s.inbound.receivedSeq 1 < s.inbound.receivedSeq + 1 := by
    rw [addU32_of_lt hlt]
    omega
  obtain ⟨woken, hw⟩ := updateInboundStream_eq
    (removeSentMessagesFromQueue (updateOutboundDeliveredSeq
      { s with inbound := s.inbound.acceptMessage data } deliveredSeq))
  simp only [recvMessage, if_neg hdup, if_neg hnext, if_pos hactive, hw]
  exact ⟨rfl, rfl⟩

/-- What the next message does to the stream it is sent to. -/
structure TakesNext (now : Instant) (deliveredSeq : Nat) (s s' : VeilidStream PublicKey) : Prop where
  active : s'.isActive now = true
  remotePublicKey : s'.remotePublicKey = s.remotePublicKey
  receivedSeq : s.inbound.receivedSeq + 1 ≤ s'.inbound.receivedSeq
  outbound : s'.outbound =
    (s.outbound.updateOutboundDeliveredSeq deliveredSeq).removeSentMessagesFromQueue

theorem convertRegistered_takesNext {s : VeilidStream PublicKey} {now : Instant}
    (hc : s.inbound.Counted s.inbound.receivedSeq) (hactive : s.isActive now = true)
    {m : AppMessage} (h : s.IsNext m) (l : Address) :
    TakesNext now m.deliveredSeq s (s.convertRegistered (some l) now m).1 := by
  obtain ⟨hstatus, htime⟩ := convertRegistered_next hactive h l
  obtain ⟨id, -, hadopt⟩ := adoptRemoteStreamId_eq s m.streamId
  obtain ⟨hst, hrecent⟩ := isActive_iff.mp hactive
  have hstale : ¬ ((s.adoptRemoteStreamId m.streamId).remoteStreamId ≠ 0 ∧
      m.streamId < (s.adoptRemoteStreamId m.streamId).remoteStreamId) := fun hs =>
    h.current ((stale_adopt_iff s m).mp hs)
  have heq : (s.convertRegistered (some l) now m).1 =
      (updateStatus { s with remoteStreamId := id } .active).recvMessage now m.deliveredSeq
        (s.inbound.receivedSeq + 1) m.data := by
    have hst' : (s.adoptRemoteStreamId m.streamId).status = .active := by rw [hadopt]; exact hst
    unfold convertRegistered
    simp only [if_neg hstale, hst', convertActive, h.data, h.signed, if_true]
    rw [hadopt, h.seq]
  have hactive' : (updateStatus { s with remoteStreamId := id } .active).isActive now = true :=
    isActive_iff.mpr ⟨rfl, hrecent⟩
  obtain ⟨hseq, hout⟩ := recvMessage_accepts hactive' h.bound m.deliveredSeq m.data
  refine ⟨isActive_iff.mpr ⟨hstatus, ?_⟩, ?_, ?_, ?_⟩
  · rw [isRecent, htime]
    exact decide_eq_true (Nat.lt_add_of_pos_right (by decide))
  · rw [heq]
    exact (recvMessage_handshake _ _ _ _ _).2.2
  · rw [heq]
    exact Nat.le_trans (Inbound.le_acceptMessage hc h.bound m.data) (Nat.le_of_eq hseq.symm)
  · rw [heq]
    exact hout

/-- What a keep-alive does to an active stream. -/
theorem convertRegistered_keepAlive {s : VeilidStream PublicKey} (hst : s.status = .active)
    {m : AppMessage} (hcurrent : ¬ s.Stale m) (hm : messageType m.data = .status) (l : Address)
    (now : Instant) :
    ∃ id, (s.convertRegistered (some l) now m).1 = { s with
      remoteStreamId := id
      outbound :=
        (s.outbound.updateOutboundDeliveredSeq m.deliveredSeq).removeSentMessagesFromQueue } := by
  obtain ⟨id, -, hadopt⟩ := adoptRemoteStreamId_eq s m.streamId
  have hstale : ¬ ((s.adoptRemoteStreamId m.streamId).remoteStreamId ≠ 0 ∧
      m.streamId < (s.adoptRemoteStreamId m.streamId).remoteStreamId) := fun hs =>
    hcurrent ((stale_adopt_iff s m).mp hs)
  have hst' : (s.adoptRemoteStreamId m.streamId).status = .active := by rw [hadopt]; exact hst
  refine ⟨id, ?_⟩
  unfold convertRegistered
  simp only [if_neg hstale, hst', convertActive, hm]
  rw [hadopt]
  rfl

/-- A packet of a stream that can sign, as it is decoded. -/
theorem decodeMessage_encode [LawfulKeyCodec] (s : VeilidStream PublicKey) {data : Bytes}
    (hsign : (s.myKeypair.sign data).map (Identity.verify s.myKeypair.publicKey data) = some true)
    (receivedSeq seq : Nat) :
    ∃ m, decodeMessage (s.encode receivedSeq seq data) = some m ∧ m.deliveredSeq = receivedSeq ∧
      m.seq = seq ∧ m.streamId = s.myStreamId ∧ m.data = data ∧
      m.remoteAddress = s.localAddress.asParsed ∧
      Identity.verify s.myKeypair.publicKey m.data m.signature = true := by
  obtain ⟨signature, hs, hverify⟩ := Option.map_eq_some_iff.mp hsign
  rw [encode, encodeMessage, hs, decodeMessage, Address.tryFrom_toMultiaddr]
  exact ⟨_, rfl, rfl, rfl, rfl, rfl, rfl, hverify⟩

end VeilidStream

namespace Session
open VeilidStream
variable {PublicKey : Type} [KeyCodec] [Identity PublicKey]

/-- The side writes nothing. -/
def Silent (d : Side) (a : Action) : Prop := ∀ buf, a ≠ .act d (.write buf)

theorem act_drains (e : Endpoint PublicKey) {a : Endpoint.Event} (ha : ∀ buf, a ≠ .write buf) :
    Outbound.Drains e.now e.stream.outbound (e.act a).stream.outbound := by
  cases a with
  | write buf => exact absurd rfl (ha buf)
  | read waker len =>
    rw [Endpoint.act, Endpoint.read_stream]
    rcases pollRead_cases e.stream e.now waker len with ⟨-, h⟩ | ⟨-, -, h⟩ | ⟨-, -, h⟩
    · rw [h]
    · rw [h]
    · rw [h]
  | generate => exact .single (.generate _)
  | send => exact .single (sendMessages_drains _ _)
  | heartbeat => exact heartbeatStream_drains _ _
  | tick d => exact .refl

/-- **A step in which a side writes nothing drains it.** -/
theorem step_drains (s : Session PublicKey) {d : Side} {a : Action} (ha : Silent d a) :
    Outbound.Drains (s.get d).now (s.get d).stream.outbound
      ((s.step a).get d).stream.outbound := by
  cases a with
  | act x a =>
    rw [step]
    rcases Side.eq_or_eq_other x d with rfl | rfl
    · rw [Pair.get_set_self]
      exact act_drains _ fun buf h => ha buf (h ▸ rfl)
    · rw [Pair.get_set_other]
  | deliver x k =>
    rw [step]
    split
    · exact .refl
    · next p hp =>
      rcases Side.eq_or_eq_other x d with rfl | rfl
      · rw [Pair.get_set_self, Endpoint.receive]
        split
        · exact .refl
        · exact convertRegistered_drains _ _ _ _
      · rw [Pair.get_set_other]

/-- What is to be delivered stays the same while nothing is written. -/
theorem run_contents {s : Session PublicKey} {d : Side} {as : List Action}
    (has : ∀ a ∈ as, Silent d a) : ((Runs.run step s as).get d).stream.outbound.contents =
      (s.get d).stream.outbound.contents := by
  have hstep : ∀ (t : Session PublicKey) (a : Action), Silent d a →
      (t.get d).stream.outbound.contents = (s.get d).stream.outbound.contents →
      ((t.step a).get d).stream.outbound.contents = (s.get d).stream.outbound.contents := by
    intro t a ha h
    rw [← h]
    exact (step_drains t ha).contents_eq
  exact Runs.invariant_along hstep rfl (Runs.along_const.mpr has)

/-! ## A chunk that is not data -/

/-- Only data is taken in. -/
def Plain (s : Session PublicKey) (d : Side) : Prop :=
  (s.get d).stream.inbound.TakenFrom
    ((s.get d.other).stream.outbound.generated.filter fun e => messageType e.2 = .data)

theorem Plain.set {s : Session PublicKey} (hl : s.Linked) (h : ∀ d, s.Plain d) {d : Side}
    {e : Endpoint PublicKey} {m : AppMessage} (hh : Handles m (s.get d).stream e.stream)
    (hdata : messageType m.data = .data →
      (m.seq, m.data) ∈ (s.get d.other).stream.outbound.generated) :
    ∀ x, Plain (s.set d e) x := by
  obtain ⟨hg, -⟩ := Handles.consistent hh (hl.consistent d)
  have hother := h d.other
  unfold Plain at hother
  rw [Side.other_other] at hother
  refine Pair.set_forall_peer (R := fun _ (x y : Endpoint PublicKey) =>
    x.stream.inbound.TakenFrom
      (y.stream.outbound.generated.filter fun e => messageType e.2 = .data)) ?_ ?_
  · refine Handles.takenFrom hh (hl.consistent _) (h d) fun hm => ?_
    exact List.mem_filter.mpr ⟨hdata hm, decide_eq_true hm⟩
  · refine hother.mono fun x hx => ?_
    obtain ⟨hx, hm⟩ := List.mem_filter.mp hx
    exact List.mem_filter.mpr ⟨hg.generated.subset hx, hm⟩

theorem step_plain (s : Session PublicKey) (a : Action) (hl : s.Linked) (h : ∀ d, s.Plain d) :
    ∀ d, (s.step a).Plain d := by
  cases a with
  | act d a =>
    refine Plain.set hl h ((Endpoint.works_act (s.get d) a).quietly.handles
      (silent (s.get d).stream.localAddress)) fun hm => ?_
    rw [silent, messageType_status] at hm
    cases hm
  | deliver d k =>
    rw [step]
    split
    · exact h
    · next p hp =>
      rw [Endpoint.receive]
      split
      · rw [Pair.set_get]
        exact h
      · next m hm =>
        have hv := (hl.consistent d.other).vouches p (List.mem_of_getElem? hp)
        obtain ⟨-, -, hdata⟩ := decodeMessage_vouched hv hm
        exact Plain.set hl h (convertRegistered_handles _ _ _ _) hdata

omit [KeyCodec] [Identity PublicKey] in
theorem Paired.plain {s : Session PublicKey} (h : s.Paired) (d : Side) : s.Plain d := by
  obtain ⟨t, hi⟩ := h.inbound d
  rw [Plain, hi]
  exact Inbound.takenFrom_new t _

/-- No side has tried a message in the future. -/
theorem step_stamped (s : Session PublicKey) (a : Action) (hl : s.Linked) (d : Side)
    (h : (s.get d).stream.outbound.Stamped (s.get d).now) :
    ((s.step a).get d).stream.outbound.Stamped ((s.step a).get d).now := by
  have hdrains : Silent d a → (s.get d).now ≤ ((s.step a).get d).now →
      ((s.step a).get d).stream.outbound.Stamped ((s.step a).get d).now := fun ha hle =>
    (h.drains (hl.consistent d).queued (step_drains s ha)).1.mono hle
  cases a with
  | act x a =>
    rcases Side.eq_or_eq_other x d with rfl | rfl
    · rw [step, Pair.get_set_self] at *
      cases a with
      | write buf =>
        have hnow : ((s.get d).act (.write buf)).now = (s.get d).now := by
          rw [Endpoint.act, Endpoint.write]
          split <;> rfl
        rw [hnow, Endpoint.act, Endpoint.write_stream]
        rcases pollWrite_cases (s.get d).stream (s.get d).now buf with ⟨-, hw⟩ | ⟨-, hw⟩
        · rw [hw]
          exact h
        · rw [hw]
          exact h
      | read waker len =>
        refine hdrains (by simp [Silent]) (Nat.le_of_eq ?_)
        rw [Endpoint.act, Endpoint.read]
        split <;> rfl
      | tick w => exact hdrains (by simp [Silent]) (Nat.le_add_right _ _)
      | _ => exact hdrains (by simp [Silent]) (Nat.le_refl _)
    · rw [step, Pair.get_set_other]
      exact h
  | deliver x k =>
    refine hdrains (by simp [Silent]) (Nat.le_of_eq ?_)
    rw [step]
    split
    · rfl
    · rcases Side.eq_or_eq_other x d with rfl | rfl
      · rw [Pair.get_set_self, Endpoint.receive]
        split <;> rfl
      · rw [Pair.get_set_other]

/-- What holds in every state of a session. -/
structure Sound (s : Session PublicKey) : Prop where
  linked : s.Linked
  ids : s.IdsAgree
  plain : ∀ d, s.Plain d
  stamped : ∀ d, (s.get d).stream.outbound.Stamped (s.get d).now

theorem step_sound (s : Session PublicKey) (a : Action) (h : s.Sound) : (s.step a).Sound :=
  ⟨step_linked s a h.linked, step_idsAgree s a h.linked h.ids, step_plain s a h.linked h.plain,
    fun d => step_stamped s a h.linked d (h.stamped d)⟩

omit [Identity PublicKey] in
theorem Paired.sound {s : Session PublicKey} (h : s.Paired) : s.Sound where
  linked := h.linked
  ids := fun d => ⟨h.myStreamId d, h.remoteStreamId d⟩
  plain := h.plain
  stamped := fun d => by
    obtain ⟨t, ho⟩ := h.outbound d
    rw [ho]
    exact Outbound.stamped_new t _

theorem run_sound {s : Session PublicKey} (h : s.Paired) (as : List Action) :
    (Runs.run step s as).Sound :=
  Runs.invariant step_sound h.sound as

/-- Everything that was written for `d` is received: it is cut into messages, and the cursor is
behind the last. -/
structure Flushed (s : Session PublicKey) (d : Side) : Prop where
  stream : (s.get d.other).stream.outbound.stream = []
  received : (s.get d).stream.inbound.receivedSeq =
    (s.get d.other).stream.outbound.generated.length

omit [Identity PublicKey] in
/-- **What is received is data.** -/
theorem Flushed.data {s : Session PublicKey} (hs : s.Sound) {d : Side} (h : s.Flushed d)
    (hlt : (s.get d.other).stream.outbound.generated.length < 2 ^ 32) :
    ∀ c ∈ (s.get d.other).stream.outbound.contents, messageType c = .data := by
  intro c hc
  rw [Outbound.contents, h.stream, Chunks.chunks_nil, List.append_nil] at hc
  obtain ⟨-, happ⟩ := hs.linked.appended_eq d hlt
  rw [h.received, List.take_length] at happ
  rw [← happ] at hc
  obtain ⟨i, hi⟩ := List.mem_iff_getElem?.mp hc
  have hmem := (hs.plain d).appended i c hi
  exact of_decide_eq_true (List.mem_filter.mp hmem).2

end Session
end VeilidTransport
