import VeilidTransport.Session

/-!
# What signatures protect

A signature covers the data of a packet and nothing else of it; `isSigned` is computed
for every message, and two arms of the state machine look at it, those that take in data.

The acknowledgement of a `STATUS` is acted on without it.  `unsigned_unchanged_iff` says
exactly when a message that is not signed leaves an established stream as it is.

The header is not covered either, so whoever can rewrite it can renumber what the peer
signed.  What is left (`appended_signed`) is that a stream with the peer's key has taken in
nothing that the peer has not signed, at some time, as the data of some message.
-/

namespace VeilidTransport

namespace Outbound

/-- The acknowledgement is nothing new: it is the last one processed, and no message it
reaches is still queued. -/
def Settled (o : Outbound) (deliveredSeq : Nat) : Prop :=
  deliveredSeq = o.deliveredSeq ∧
    ∀ k m, o.messageQueue.lookup k = some m → deliveredSeq < k

theorem settled_iff (o : Outbound) (deliveredSeq : Nat) :
    (o.updateOutboundDeliveredSeq deliveredSeq).removeSentMessagesFromQueue = o ↔
      o.Settled deliveredSeq := by
  constructor
  · intro h
    have hack : deliveredSeq = o.deliveredSeq := congrArg Outbound.deliveredSeq h
    have hqueue : o.messageQueue.retain (fun seq => deliveredSeq < seq) = o.messageQueue :=
      congrArg Outbound.messageQueue h
    refine ⟨hack, fun k m hk => ?_⟩
    simpa using (KeyedMap.retain_eq_self_iff _ _).mp hqueue k m hk
  · rintro ⟨rfl, hqueue⟩
    have hretain := (KeyedMap.retain_eq_self_iff (fun seq => decide (o.deliveredSeq < seq))
      o.messageQueue).mpr fun k m hk => by simpa using hqueue k m hk
    show { o with messageQueue := _ } = o
    rw [updateOutboundDeliveredSeq, hretain]

end Outbound

namespace VeilidStream
variable {PublicKey : Type} [KeyCodec] [Identity PublicKey]

/-! ## Messages that are not signed -/

/-- The stream acts on a `STATUS` whose acknowledgement is news to it. -/
def Acknowledges (s : VeilidStream PublicKey) (localAddress : Option Address) (m : AppMessage) :
    Prop :=
  localAddress ≠ none ∧ ¬ Stale s m ∧ s.status = .active ∧ messageType m.data = .status ∧
    ¬ s.outbound.Settled m.deliveredSeq

omit [KeyCodec] [Identity PublicKey] in
/-- A `STATUS` on an active stream. -/
theorem convertActive_status {s : VeilidStream PublicKey} (now : Instant) {m : AppMessage}
    (hm : messageType m.data = .status) (isSigned : Bool) :
    (s.convertActive now m isSigned).1 =
      (s.updateOutboundDeliveredSeq m.deliveredSeq).removeSentMessagesFromQueue := by
  rw [convertActive, hm]

theorem convertRegistered_status {s : VeilidStream PublicKey} {localAddress : Address}
    {m : AppMessage} (hadopt : s.adoptRemoteStreamId m.streamId = s) (hstale : ¬ Stale s m)
    (hs : s.status = .active) (hm : messageType m.data = .status) (now : Instant) :
    (s.convertRegistered (some localAddress) now m).1 =
      (s.updateOutboundDeliveredSeq m.deliveredSeq).removeSentMessagesFromQueue := by
  have hstale : ¬ (s.remoteStreamId ≠ 0 ∧ m.streamId < s.remoteStreamId) := hstale
  unfold convertRegistered
  simp only [hadopt, if_neg hstale, hs]
  exact convertActive_status now hm _

omit [KeyCodec] [Identity PublicKey] in
theorem acknowledge_eq_self_iff (s : VeilidStream PublicKey) (deliveredSeq : Nat) :
    (s.updateOutboundDeliveredSeq deliveredSeq).removeSentMessagesFromQueue = s ↔
      s.outbound.Settled deliveredSeq := by
  rw [← Outbound.settled_iff]
  constructor
  · exact fun h => congrArg VeilidStream.outbound h
  · intro h
    show { s with outbound := _ } = s
    exact congrArg (fun o => { s with outbound := o }) h

/-- An established stream that is not told its remote's id by the message handles a message
that is not signed and no dial as if it had not come, but for a `STATUS`. -/
theorem Handled.unsigned {localAddress : Address} {now : Instant} {m : AppMessage}
    {s s' : VeilidStream PublicKey} {next : Next}
    (h : Handled localAddress now m s false s' next)
    (hs : s.status = .listen ∨ s.status = .active) (hm : messageType m.data ≠ .dial) :
    s' = s ∨ s.status = .active ∧ messageType m.data = .status := by
  have hdial : s.status ≠ .dial := StreamStatus.ne_dial hs
  cases h with
  | ignored => exact .inl rfl
  | superseded => exact .inl rfl
  | redial hd => exact absurd hd hdial
  | tied hd => exact absurd hd hdial
  | switched hd => exact absurd hd hdial
  | connected hd => exact absurd hd hdial
  | relisten _ ht => exact absurd ht hm
  | received _ _ hsigned => cases hsigned
  | acknowledged ha ht => exact .inr ⟨ha, ht⟩

/-- **When a message that is not signed has no effect** on an established stream: the stream
knows its remote's id already, and the message is no `STATUS` that acknowledges
anything. -/
theorem unsigned_unchanged_iff {s : VeilidStream PublicKey}
    (hs : s.status = .listen ∨ s.status = .active) (localAddress : Option Address) (now : Instant)
    {m : AppMessage} (hm : messageType m.data ≠ .dial) (hsigned : s.isSigned m = false) :
    (s.convertRegistered localAddress now m).1 = s ↔
      (s.remoteStreamId = 0 → m.streamId = 0) ∧ ¬ s.Acknowledges localAddress m := by
  by_cases hid : s.remoteStreamId = 0 → m.streamId = 0
  · -- the stream learns no id from the message
    have hadopt := (adoptRemoteStreamId_eq_self_iff s m.streamId).mpr hid
    cases localAddress with
    | none =>
      rw [convertRegistered_none, hadopt]
      exact ⟨fun _ => ⟨hid, fun h => h.1 rfl⟩, fun _ => rfl⟩
    | some l =>
      by_cases hack : ¬ Stale s m ∧ s.status = .active ∧ messageType m.data = .status
      · obtain ⟨hstale, hactive, hstatus⟩ := hack
        rw [convertRegistered_status hadopt hstale hactive hstatus now, acknowledge_eq_self_iff]
        refine ⟨fun h => ⟨hid, fun hack => hack.2.2.2.2 h⟩, fun h => ?_⟩
        by_contra hsettled
        exact h.2 ⟨by simp, hstale, hactive, hstatus, hsettled⟩
      · have heq : (s.convertRegistered (some l) now m).1 = s := by
          have hc := convertRegistered_handled s l now m
          rw [hadopt, hsigned] at hc
          rcases hc with ⟨-, h⟩ | ⟨hstale, h⟩
          · rw [h]
          · exact (h.unsigned hs hm).resolve_right fun h' => hack ⟨hstale, h'⟩
        refine ⟨fun _ => ⟨hid, fun h => hack ⟨h.2.1, h.2.2.1, h.2.2.2.1⟩⟩, fun _ => heq⟩
  · -- the stream takes the message's id for its remote's, signed or not
    refine ⟨fun h => absurd h fun heq => ?_, fun h => absurd h.1 hid⟩
    obtain ⟨h0, hne⟩ := Classical.not_imp.mp hid
    have hremote := convertRegistered_adopts h0 localAddress now m
    rw [heq, h0] at hremote
    exact hne hremote.symm

end VeilidStream

namespace VeilidStream
open Sample

/-- An active stream that has queued a message. -/
def sampleQueued : VeilidStream Sample.PublicKey :=
  ((Session.sampleStream 1 2 10 11 .active).insertToOutboundStream 0 [7]).1.generateMessages

/-- A `STATUS` that anybody could have sent. -/
def sampleStatus (deliveredSeq : Nat) : AppMessage :=
  ⟨deliveredSeq, 0, 11, addressOf 2, statusWord, []⟩

theorem unsigned_unchanged_sample :
    (sampleQueued.convertRegistered (some (addressOf 1)) 0 (sampleStatus 0)).1 = sampleQueued ↔
      (sampleQueued.remoteStreamId = 0 → (sampleStatus 0).streamId = 0) ∧
        ¬ sampleQueued.Acknowledges (some (addressOf 1)) (sampleStatus 0) :=
  unsigned_unchanged_iff (.inr rfl) (some (addressOf 1)) 0 (by decide) (by decide)

/-- **A `STATUS` that is not signed empties the queue** of messages still to be delivered. -/
theorem unsigned_acknowledges :
    sampleQueued.status = .active ∧ messageType (sampleStatus 1).data ≠ .dial ∧
    sampleQueued.isSigned (sampleStatus 1) = false ∧
    sampleQueued.outbound.messageQueue.keys = [1] ∧
    (sampleQueued.convertRegistered (some (addressOf 1)) 0
      (sampleStatus 1)).1.outbound.messageQueue.keys = [] := by
  decide

end VeilidStream

/-! ## Headers that are not signed -/

namespace VeilidStream
variable {PublicKey : Type} [KeyCodec] [Identity PublicKey]

/-- The handshake is over for the stream, and it knows its remote's key. -/
structure Established (s : VeilidStream PublicKey) (key : PublicKey) : Prop where
  status : s.status = .listen ∨ s.status = .active
  remotePublicKey : s.remotePublicKey = some key

/-- Once a stream has left `Dial` no message changes its remote's key. -/
theorem Handled.keeps_key {localAddress : Address} {now : Instant} {m : AppMessage}
    {s s' : VeilidStream PublicKey} {isSigned : Bool} {next : Next}
    (h : Handled localAddress now m s isSigned s' next) (hdial : s.status ≠ .dial) :
    s'.status ≠ .dial ∧ s'.remotePublicKey = s.remotePublicKey := by
  cases h with
  | ignored => exact ⟨hdial, rfl⟩
  | superseded => exact ⟨hdial, rfl⟩
  | redial hd => exact absurd hd hdial
  | tied hd => exact absurd hd hdial
  | switched hd => exact absurd hd hdial
  | connected hd => exact absurd hd hdial
  | relisten => exact ⟨hdial, rfl⟩
  | received =>
    obtain ⟨hst, -, hkey⟩ := recvMessage_handshake (s.updateStatus .active) now m.deliveredSeq
      m.seq m.data
    refine ⟨?_, hkey⟩
    rw [hst]
    simp [updateStatus]
  | acknowledged => exact ⟨hdial, rfl⟩

theorem convertRegistered_keeps_key {s : VeilidStream PublicKey} (hdial : s.status ≠ .dial)
    (localAddress : Option Address) (now : Instant) (m : AppMessage) :
    (s.convertRegistered localAddress now m).1.status ≠ .dial ∧
      (s.convertRegistered localAddress now m).1.remotePublicKey = s.remotePublicKey := by
  obtain ⟨id, -, hadopt⟩ := adoptRemoteStreamId_eq s m.streamId
  cases localAddress with
  | none => rw [convertRegistered_none, hadopt]; exact ⟨hdial, rfl⟩
  | some l =>
    rcases convertRegistered_handled s l now m with ⟨-, h⟩ | ⟨-, h⟩
    · rw [h, hadopt]; exact ⟨hdial, rfl⟩
    · rw [hadopt] at h; exact h.keeps_key hdial

/-- Data that is not signed changes nothing that was received, and no more does data for a
stream that dials. -/
theorem convertRegistered_untaken_data {s : VeilidStream PublicKey}
    (localAddress : Option Address) (now : Instant) {m : AppMessage}
    (hm : messageType m.data = .data) (hnot : s.isSigned m = false ∨ s.status = .dial) :
    (s.convertRegistered localAddress now m).1.inbound = s.inbound := by
  obtain ⟨id, -, hadopt⟩ := adoptRemoteStreamId_eq s m.streamId
  cases localAddress with
  | none => rw [convertRegistered_none, hadopt]
  | some l =>
    have hc := convertRegistered_handled s l now m
    rw [hadopt] at hc
    rcases hc with ⟨-, h⟩ | ⟨-, h⟩
    · rw [h]
    · generalize (s.convertRegistered (some l) now m).1 = s' at h
      generalize (s.convertRegistered (some l) now m).2 = next at h
      cases h with
      | ignored => rfl
      | received hs _ hsigned =>
        rcases hnot with hnot | hnot
        · exact Bool.noConfusion (hnot.symm.trans hsigned)
        · have hst : s.status = .listen ∨ s.status = .active := hs.imp And.left fun h => h
          exact absurd hnot (StreamStatus.ne_dial hst)
      | redial _ ht => rw [hm] at ht; cases ht
      | tied _ ht => rw [hm] at ht; cases ht
      | switched _ ht => rw [hm] at ht; cases ht
      | connected _ ht => rw [hm] at ht; cases ht
      | relisten _ ht => rw [hm] at ht; cases ht
      | acknowledged _ ht => rw [hm] at ht; cases ht
      | superseded => rfl

end VeilidStream

namespace Session
open VeilidStream

section
variable {PublicKey : Type} [KeyCodec] [Identity PublicKey]

/-- A session whose network writes messages of its own. -/
inductive HostileAction where
  | act (d : Side) (a : Endpoint.Event)
  /-- Any message at all arrives at `d`, under the other's address. -/
  | inject (d : Side) (m : AppMessage)

def hostileStep (s : Session PublicKey) : HostileAction → Session PublicKey
  | .act d a => s.set d ((s.get d).act a)
  | .inject d m => s.set d { s.get d with
      stream := ((s.get d).stream.convertRegistered (s.get d).localAddress (s.get d).now m).1 }

/-- The peer of `d` has signed the data, for this stream or, `earlier`, for another. -/
def Signed (earlier : Pair (List Bytes)) (s : Session PublicKey) (d : Side) (data : Bytes) : Prop :=
  data ∈ earlier.get d ∨ ∃ p ∈ (s.get d.other).stream.sent, p.data = data ∧
    (s.get d.other).stream.myKeypair.sign data = some p.signature

/-- Only what the peer has signed verifies under its key. -/
def Unforged (earlier : Pair (List Bytes)) (s : Session PublicKey) : HostileAction → Prop
  | .act _ _ => True
  | .inject d m =>
    Identity.verify (s.get d.other).stream.myKeypair.publicKey m.data m.signature = true →
      Signed earlier s d m.data

instance (earlier : Pair (List Bytes)) (s : Session PublicKey) (d : Side) (data : Bytes) :
    Decidable (Signed earlier s d data) :=
  inferInstanceAs (Decidable (_ ∨ ∃ p ∈ (s.get d.other).stream.sent, _ ∧ _))

instance (earlier : Pair (List Bytes)) (s : Session PublicKey) :
    ∀ a, Decidable (Unforged earlier s a)
  | .act _ _ => inferInstanceAs (Decidable True)
  | .inject _ _ => inferInstanceAs (Decidable (_ → _))

/-- What the stream `x` of `d` has taken in is data that the peer has signed, if it has the
peer's key; and while it dials it has taken in nothing. -/
structure TakesSigned (earlier : Pair (List Bytes)) (s : Session PublicKey) (d : Side)
    (x : VeilidStream PublicKey) : Prop where
  dial : x.status = .dial → x.inbound.TakenFrom []
  signed : x.status ≠ .dial →
    x.remotePublicKey = some (s.get d.other).stream.myKeypair.publicKey →
    ∃ g, x.inbound.TakenFrom g ∧ ∀ e ∈ g, messageType e.2 = .data ∧ Signed earlier s d e.2

/-- **The invariant of a session under attack.** -/
structure Authentic (earlier : Pair (List Bytes)) (s : Session PublicKey) : Prop where
  consistent : ∀ d, (s.get d).stream.Consistent
  takes : ∀ d, TakesSigned earlier s d (s.get d).stream

omit [KeyCodec] [Identity PublicKey] in
/-- The peer only signs more. -/
theorem TakesSigned.mono {earlier : Pair (List Bytes)} {s s' : Session PublicKey} {d : Side}
    {x : VeilidStream PublicKey} (h : TakesSigned earlier s d x)
    (hkeys : (s'.get d.other).stream.myKeypair = (s.get d.other).stream.myKeypair)
    (hsent : ∀ p ∈ (s.get d.other).stream.sent, p ∈ (s'.get d.other).stream.sent) :
    TakesSigned earlier s' d x := by
  refine ⟨h.dial, fun hs hkey => ?_⟩
  rw [hkeys] at hkey
  obtain ⟨g, ht, hg⟩ := h.signed hs hkey
  refine ⟨g, ht, fun e he => ⟨(hg e he).1, (hg e he).2.imp id ?_⟩⟩
  rw [hkeys]
  rintro ⟨p, hp, hd⟩
  exact ⟨p, hsent p hp, hd⟩

/-- One side moves, and takes in no more than that. -/
theorem Authentic.set {earlier : Pair (List Bytes)} {s : Session PublicKey}
    (h : s.Authentic earlier) {d : Side} {e : Endpoint PublicKey} {m : AppMessage}
    (hh : Handles m (s.get d).stream e.stream) (ht : TakesSigned earlier s d e.stream) :
    Authentic earlier (s.set d e) := by
  obtain ⟨hg, hc⟩ := Handles.consistent hh (h.consistent d)
  refine ⟨Pair.set_forall (P := fun _ (x : Endpoint PublicKey) => x.stream.Consistent) hc
    (h.consistent _), fun x => ?_⟩
  rcases Side.eq_or_eq_other d x with rfl | rfl
  · rw [Pair.get_set_self]
    refine ht.mono ?_ fun p hp => ?_
    · rw [Pair.get_set_other]
    · rw [Pair.get_set_other]
      exact hp
  · rw [Pair.get_set_other]
    refine (h.takes d.other).mono ?_ fun p hp => ?_
    · rw [Side.other_other, Pair.get_set_self]
      exact hg.myKeypair
    · rw [Side.other_other, Pair.get_set_self]
      rw [Side.other_other] at hp
      exact hg.sent.subset hp

theorem hostileStep_authentic {earlier : Pair (List Bytes)} (s : Session PublicKey)
    (a : HostileAction) (ha : Unforged earlier s a) (h : s.Authentic earlier) :
    (hostileStep s a).Authentic earlier := by
  cases a with
  | act d a =>
    have hw := Endpoint.works_act (s.get d) a
    have hh := hw.quietly.handles (silent (s.get d).stream.localAddress)
    have hs := works_handshake hw
    have hkeep : ∀ {g}, (s.get d).stream.inbound.TakenFrom g →
        ((s.get d).act a).stream.inbound.TakenFrom g := fun ht =>
      Handles.takenFrom hh (h.consistent d) ht fun hm => by
        rw [silent, messageType_status] at hm
        cases hm
    refine h.set hh ⟨fun hst => hkeep ((h.takes d).dial (hs.status ▸ hst)), fun hst hkey => ?_⟩
    rw [hs.status] at hst
    rw [hs.remotePublicKey] at hkey
    obtain ⟨g, ht, hg⟩ := (h.takes d).signed hst hkey
    exact ⟨g, hkeep ht, hg⟩
  | inject d m =>
    have hh := convertRegistered_handles (s.get d).stream (s.get d).localAddress (s.get d).now m
    have hkeep : ∀ {g}, messageType m.data ≠ .data → (s.get d).stream.inbound.TakenFrom g →
        ((s.get d).stream.convertRegistered (s.get d).localAddress
          (s.get d).now m).1.inbound.TakenFrom g :=
      fun hm ht => Handles.takenFrom hh (h.consistent d) ht fun hd => absurd hd hm
    refine h.set hh ?_
    by_cases hdial : (s.get d).stream.status = .dial
    · -- a stream that dials takes in no data
      have hnil : ((s.get d).stream.convertRegistered (s.get d).localAddress
          (s.get d).now m).1.inbound.TakenFrom [] := by
        by_cases hm : messageType m.data = .data
        · rw [convertRegistered_untaken_data _ _ hm (.inr hdial)]
          exact (h.takes d).dial hdial
        · exact hkeep hm ((h.takes d).dial hdial)
      exact ⟨fun _ => hnil, fun _ _ => ⟨[], hnil, fun e he => absurd he List.not_mem_nil⟩⟩
    · obtain ⟨hne, hkeysame⟩ := convertRegistered_keeps_key hdial (s.get d).localAddress
        (s.get d).now m
      refine ⟨fun hst => absurd hst hne, fun _ hkey => ?_⟩
      have hkey : (s.get d).stream.remotePublicKey =
        some (s.get d.other).stream.myKeypair.publicKey := hkeysame.symm.trans hkey
      obtain ⟨g, ht, hg⟩ := (h.takes d).signed hdial hkey
      by_cases hm : messageType m.data = .data
      · cases hsigned : (s.get d).stream.isSigned m with
        | true =>
          -- data with a signature the peer's key verifies
          rw [isSigned, hkey] at hsigned
          have hd := ha hsigned
          refine ⟨(m.seq, m.data) :: g, ?_, fun e he => ?_⟩
          · refine Handles.takenFrom hh (h.consistent d)
              (ht.mono fun _ => List.mem_cons_of_mem _) fun _ => List.mem_cons_self
          · rcases List.mem_cons.mp he with rfl | he
            · exact ⟨hm, hd⟩
            · exact hg e he
        | false =>
          refine ⟨g, ?_, hg⟩
          rw [convertRegistered_untaken_data _ _ hm (.inl hsigned)]
          exact ht
      · exact ⟨g, hkeep hm ht, hg⟩

/-- **Nothing is taken in that the peer has not signed**: whatever the network writes, as long
as it forges no signature, a stream that is established with the peer's key has appended as
many pieces of data as its cursor says, each of which the peer has signed at some time. -/
theorem appended_signed {s : Session PublicKey} (h : s.Paired) (earlier : Pair (List Bytes))
    (as : List HostileAction) (has : Runs.Along hostileStep (Unforged earlier) s as) (d : Side)
    (he : ((Runs.run hostileStep s as).get d).stream.Established
      ((Runs.run hostileStep s as).get d.other).stream.myKeypair.publicKey) :
    let r := Runs.run hostileStep s as
    (r.get d).stream.inbound.appended.length = (r.get d).stream.inbound.receivedSeq ∧
    ∀ x ∈ (r.get d).stream.inbound.appended, messageType x = .data ∧ Signed earlier r d x := by
  have hnil : ∀ d, (s.get d).stream.inbound.TakenFrom [] := fun d => by
    obtain ⟨t, ht⟩ := h.inbound d
    rw [ht]
    exact Inbound.takenFrom_new t []
  have hstart : s.Authentic earlier := ⟨h.linked.consistent, fun d => ⟨fun _ => hnil d,
    fun _ _ => ⟨[], hnil d, fun e he => absurd he List.not_mem_nil⟩⟩⟩
  have hr := Runs.invariant_along hostileStep_authentic hstart has
  intro r
  refine ⟨(hr.consistent d).counted.length_appended, fun x hx => ?_⟩
  obtain ⟨g, ht, hg⟩ := (hr.takes d).signed (StreamStatus.ne_dial he.status) he.remotePublicKey
  obtain ⟨k, hk⟩ := List.mem_iff_getElem?.mp hx
  exact hg _ (ht.appended k x hk)

end

section
open Sample

/-- Two messages are signed; the second comes as the first. -/
def sampleAttack : List HostileAction :=
  [.act .left (.write [7]), .act .left .generate, .act .left (.write [5]), .act .left .generate,
    .act .left .send,
    .inject .right ⟨0, 1, 10, addressOf 1, [1, 0, 0, 0, 5],
      signature ⟨keyOf 1⟩ [1, 0, 0, 0, 5]⟩]

theorem appended_signed_sample :
    let r := Runs.run hostileStep sample sampleAttack
    (r.get .right).stream.inbound.appended.length = (r.get .right).stream.inbound.receivedSeq ∧
    ∀ x ∈ (r.get .right).stream.inbound.appended,
      messageType x = .data ∧ Signed ⟨[], []⟩ r .right x :=
  appended_signed sample_paired ⟨[], []⟩ sampleAttack (by decide) .right
    ⟨.inr (by decide), by decide⟩

/-- **What the peer signed can be renumbered**: with no signature forged, a stream takes the
peer's second message for its first. -/
theorem resequenced :
    Runs.Along hostileStep (Unforged ⟨[], []⟩) sample sampleAttack ∧
    let r := Runs.run hostileStep sample sampleAttack
    (r.get .right).stream.status = .active ∧
    (r.get .right).stream.remotePublicKey = some (keypairOf 1).publicKey ∧
    (r.get .right).stream.inbound.appended.flatten = [1, 0, 0, 0, 5] ∧
    (((r.get .left).stream.outbound.generated.take
      (r.get .right).stream.inbound.receivedSeq).map Prod.snd).flatten = [1, 0, 0, 0, 7] := by
  decide

end

end Session
end VeilidTransport
