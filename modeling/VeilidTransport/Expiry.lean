import VeilidTransport.KeepAlive
import VeilidTransport.Ignored

/-!
# Expiry

A stream that has heard nothing for twenty seconds has expired: its reader and its writer
are told that it is inactive, and the next heartbeat takes it out of the map.  Until then
it is registered, and messages for it still arrive.

On a stream that listens or is active such a message changes nothing of that, since
`recv_message` looks at the time before it takes a message in (the message is one step here;
a call that is under way as the time runs out is in `HeartbeatGap`).  The arm for `Dial` does
not look: a late answer, or a late dial of the remote, sets the time anew (`Renews`).
So a stream stays expired exactly along the steps without such a message for it
(`expiry_final_iff`).
-/

namespace VeilidTransport

namespace VeilidStream
variable {PublicKey : Type} [KeyCodec] [Identity PublicKey]

omit [Identity PublicKey] in
/-- The message sets the time of the last message, however late it is: the stream has
dialed, and the answer or the dial of its remote has come. -/
def Renews (s : VeilidStream PublicKey) (localAddress : Option Address) (m : AppMessage) : Prop :=
  s.status = .dial ∧ ¬ Stale (s.adoptRemoteStreamId m.streamId) m ∧
    ∃ l ∈ localAddress, messageType m.data = .listen ∨
      messageType m.data = .dial ∧ m.remoteAddress.cmp l ≠ .eq

omit [KeyCodec] [Identity PublicKey] in
/-- A message is not received on a stream that has expired. -/
theorem recvMessage_isExpired {s : VeilidStream PublicKey} {now : Instant}
    (h : s.isExpired now = true) (deliveredSeq seq : Nat) (data : Bytes) :
    (s.recvMessage now deliveredSeq seq data).isExpired now = true := by
  rcases recvMessage_cases s now deliveredSeq seq data with hr | ⟨-, hr⟩ | ⟨hactive, -⟩
  · rw [hr]
    exact h
  · rw [hr]
    exact h
  · obtain ⟨-, hle⟩ := Transport.isExpired_iff.mp h
    have hrecent := (isActive_iff.mp hactive).2
    simp only [isRecent, decide_eq_true_eq] at hrecent
    exact absurd hrecent (Nat.not_lt.mpr hle)

/-- **An expired stream stays expired**, but for the messages that renew it. -/
theorem convertRegistered_isExpired {s : VeilidStream PublicKey} {localAddress : Option Address}
    {now : Instant} {m : AppMessage} (h : s.isExpired now = true)
    (hnot : ¬ s.Renews localAddress m) :
    (s.convertRegistered localAddress now m).1.isExpired now = true := by
  obtain ⟨id, -, hadopt⟩ := adoptRemoteStreamId_eq s m.streamId
  have h' : (s.adoptRemoteStreamId m.streamId).isExpired now = true := by
    rw [hadopt]
    exact h
  have hst : (s.adoptRemoteStreamId m.streamId).status = s.status := by rw [hadopt]
  cases localAddress with
  | none => exact h'
  | some l =>
    rcases convertRegistered_handled s l now m with ⟨-, hc⟩ | ⟨hstale, hc⟩
    · rw [hc]
      exact h'
    · have hrenew : s.status = .dial → (messageType m.data = .listen ∨
          messageType m.data = .dial ∧ m.remoteAddress.cmp l ≠ .eq) → False :=
        fun hs hm => hnot ⟨hs, hstale, l, rfl, hm⟩
      generalize s.adoptRemoteStreamId m.streamId = t at *
      generalize (s.convertRegistered (some l) now m).1 = s' at hc
      generalize (s.convertRegistered (some l) now m).2 = next at hc
      cases hc with
      | ignored => exact h'
      | superseded => exact h'
      | tied =>
        obtain ⟨key, hk⟩ := extractKey_eq t dialWord m.data
        rw [hk]
        exact h'
      | redial hs hm hcmp =>
        exact (hrenew (hst.symm.trans hs) (.inr ⟨hm, by rw [hcmp]; simp⟩)).elim
      | switched hs hm hcmp =>
        exact (hrenew (hst.symm.trans hs) (.inr ⟨hm, by rw [hcmp]; simp⟩)).elim
      | connected hs hm => exact (hrenew (hst.symm.trans hs) (.inl hm)).elim
      | relisten hs hm => exact h'
      | received hs hm hsigned =>
        refine recvMessage_isExpired ?_ _ _ _
        obtain ⟨-, hle⟩ := Transport.isExpired_iff.mp h'
        exact Transport.isExpired_iff.mpr ⟨by simp [updateStatus], hle⟩
      | acknowledged hs hm => exact h'

/-- A message that renews the stream sets the time of the last message to now. -/
theorem Renews.lastTimestamp {s : VeilidStream PublicKey} {localAddress : Option Address}
    {m : AppMessage} (h : s.Renews localAddress m) (now : Instant) :
    (s.convertRegistered localAddress now m).1.inbound.lastTimestamp = now := by
  obtain ⟨hs, hstale, l, hl, hm⟩ := h
  obtain rfl := Option.mem_def.mp hl
  obtain ⟨id, -, hadopt⟩ := adoptRemoteStreamId_eq s m.streamId
  have hs' : (s.adoptRemoteStreamId m.streamId).status = .dial := by rw [hadopt]; exact hs
  have hstale' : ¬ ((s.adoptRemoteStreamId m.streamId).remoteStreamId ≠ 0 ∧
      m.streamId < (s.adoptRemoteStreamId m.streamId).remoteStreamId) := hstale
  unfold convertRegistered
  simp only [if_neg hstale', hs']
  generalize s.adoptRemoteStreamId m.streamId = t
  rcases hm with hm | ⟨hm, hcmp⟩
  · simp only [convertDial, hm]
    exact (works_handshake (works_sendMessages _ now)).lastTimestamp
  · simp only [convertDial, hm]
    cases ho : m.remoteAddress.cmp l with
    | eq => exact absurd ho hcmp
    | lt => rfl
    | gt => rfl

theorem Renews.not_isExpired {s : VeilidStream PublicKey} {localAddress : Option Address}
    {m : AppMessage} (h : s.Renews localAddress m) (now : Instant) :
    ¬ (s.convertRegistered localAddress now m).1.isExpired now = true := by
  intro hexpired
  have hle := (Transport.isExpired_iff.mp hexpired).2
  have hpos : 0 < secs settings.streamTimeoutSecs := by decide
  rw [h.lastTimestamp now] at hle
  exact absurd hle (Nat.not_le.mpr (Nat.lt_add_of_pos_right hpos))

end VeilidStream

namespace Transport
open VeilidStream
variable {PublicKey : Type} [KeyCodec] [Identity PublicKey]

/-- The step hands the stream `h` a message that renews it. -/
def RenewedBy (n : Transport PublicKey) (h : Handle) (a : Action) : Prop :=
  ∃ packet m s, a = .update packet ∧ decodeMessage packet = some m ∧
    n.streams.lookup m.remoteAddress = some h ∧ n.heap[h]? = some s ∧ s.Renews n.localAddress m

/-- The clock never goes back. -/
theorem le_step_now (n : Transport PublicKey) (a : Action) : n.now ≤ (n.step a).now := by
  by_cases ha : ∃ d, a = .tick d
  · obtain ⟨d, rfl⟩ := ha
    exact Nat.le_add_right _ _
  · rw [step_now n fun d hd => ha ⟨d, hd⟩]

/-- A step without such a message leaves an expired stream expired. -/
theorem step_expired (n : Transport PublicKey) (a : Action) {h : Handle}
    (hnot : ¬ n.RenewedBy h a) (hn : n.Expired h) : (n.step a).Expired h := by
  obtain ⟨s, hs, hexpired⟩ := hn
  obtain ⟨s', hs'⟩ := step_stays n a hs
  have hlt := (List.getElem?_eq_some_iff.mp hs).1
  have hle := le_step_now n a
  refine ⟨s', hs', ?_⟩
  have hb := step_became n a hs'
  cases hb with
  | worked _ t _ ht hw =>
    obtain rfl := Option.some.inj (hs.symm.trans ht)
    exact isExpired_of_works hw hle hexpired
  | handled packet m t hm hstream ht =>
    obtain rfl := Option.some.inj (hs.symm.trans ht)
    have hrenews : ¬ s.Renews n.localAddress m := fun hr =>
      hnot ⟨packet, m, s, rfl, hm, hstream, hs, hr⟩
    exact isExpired_of_works .refl hle (convertRegistered_isExpired hexpired hrenews)
  | dialed i target epochSecs l r remoteTarget hi hh => exact absurd hh (Nat.ne_of_lt hlt)
  | created i target epochSecs l r id data remoteTarget hi hh => exact absurd hh (Nat.ne_of_lt hlt)

/-- A step with such a message revives it. -/
theorem RenewedBy.not_expired {n : Transport PublicKey} {h : Handle} {a : Action}
    (hr : n.RenewedBy h a) : ¬ (n.step a).Expired h := by
  obtain ⟨packet, m, s, rfl, hm, hstream, hs, hrenews⟩ := hr
  rintro ⟨s', hs', hexpired⟩
  have hlt := (List.getElem?_eq_some_iff.mp hs).1
  have hstep : n.step (.update packet) = n.update packet := rfl
  rw [hstep, update_registered hm hstream hs] at hs' hexpired
  rw [(follow_streams _ _ _ _).2.1, List.getElem?_set_self hlt] at hs'
  rw [(follow_streams _ _ _ _).2.2] at hexpired
  obtain rfl := Option.some.inj hs'
  exact hrenews.not_isExpired n.now hexpired

/-- **When expiry is final**: a stream that has expired is expired in every later state of a
run exactly if the run hands it no message that renews it. -/
theorem expiry_final_iff {n : Transport PublicKey} {h : Handle} (hn : n.Expired h)
    (as : List Action) :
    (∀ bs, bs <+: as → (Runs.run step n bs).Expired h) ↔
      Runs.Along step (fun n a => ¬ n.RenewedBy h a) n as := by
  have hgood : ∀ x : Transport PublicKey, x.Expired h → x.Expired h := fun _ hx => hx
  have hstep : ∀ (x : Transport PublicKey) a, ¬ x.RenewedBy h a → x.Expired h →
      (x.step a).Expired h :=
    fun x a hnot hx => step_expired x a hnot hx
  have hok : ∀ (x : Transport PublicKey) a, x.Expired h → (x.step a).Expired h →
      ¬ x.RenewedBy h a :=
    fun _ _ _ hx hr => hr.not_expired hx
  exact Runs.prefixes_iff_along hgood hstep hok hn as

end Transport

namespace Transport
open Sample

/-- Node 1 has dialed node 2, and nothing has come for twenty seconds. -/
def sampleUnanswered : Transport Sample.PublicKey :=
  sampleDialed.step (.tick (secs settings.streamTimeoutSecs))

theorem sampleUnanswered_expired : sampleUnanswered.Expired 0 :=
  ⟨sampleUnanswered.heap.head (by decide), rfl, by decide⟩

theorem expiry_final_sample :
    let as := [.update (samplePacket 20 statusWord), .tick 1, .heartbeat,
      .update (samplePacket 20 (sampleDialer 20).listenData)]
    (∀ bs, bs <+: as → (Runs.run step sampleUnanswered bs).Expired 0) ↔
      Runs.Along step (fun n a => ¬ n.RenewedBy 0 a) sampleUnanswered as :=
  expiry_final_iff sampleUnanswered_expired _

/-- **A late answer revives an expired stream**: it comes before the heartbeat that would
take the stream out of the map, and the stream is active. -/
theorem late_answer_revives :
    sampleUnanswered.Expired 0 ∧
    ¬ (sampleUnanswered.step (.update (samplePacket 20 (sampleDialer 20).listenData))).Expired 0 ∧
    ((sampleUnanswered.step (.update (samplePacket 20 (sampleDialer 20).listenData))).heap[0]?.map
      fun s => s.isActive sampleUnanswered.now) = some true := by
  have hactive : ((sampleUnanswered.step (.update (samplePacket 20
      (sampleDialer 20).listenData))).heap[0]?.map fun s => s.isExpired
        (sampleUnanswered.step (.update (samplePacket 20 (sampleDialer 20).listenData))).now) =
          some false := by
    decide
  refine ⟨sampleUnanswered_expired, ?_, by decide⟩
  rintro ⟨s, hs, hexpired⟩
  rw [hs, Option.map_some, hexpired] at hactive
  cases hactive

end Transport
end VeilidTransport
