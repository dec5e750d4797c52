import VeilidTransport.Draining

/-!
# Recovery

A packet may be lost, and the sender keeps every message until it is acknowledged and sends
it again.  So whatever the network has done to a session, what was written can still arrive:
the messages are sent again, one after the other is taken in, and a keep-alive acknowledges
them.  `Later` says of a continuation that nothing is written in it and that only payloads
arrive that are sent in it.

One thing stays in the way for good: a chunk that starts with a control word is not taken for
data, so the cursor never passes it.  `drained_iff` says that nothing else does.

A keep-alive acknowledges, and does no more: `idle_expires` says when a session ends that has
nothing left to deliver.
-/

namespace VeilidTransport

/-! ## A session that is alive -/

namespace Endpoint
variable {PublicKey : Type} [KeyCodec] [Identity PublicKey]

/-- The side knows its peer's key and can sign; after the time to wait it has not expired, and
a keep-alive is due. -/
structure Live (wait : Nat) (e peer : Endpoint PublicKey) : Prop where
  active : e.stream.isActive (e.now + wait) = true
  localAddress : e.localAddress ≠ none
  remotePublicKey : e.stream.remotePublicKey = some peer.stream.myKeypair.publicKey
  sign : ∀ data, (e.stream.myKeypair.sign data).map
    (Identity.verify e.stream.myKeypair.publicKey data) = some true
  keepalive : secs settings.connectionKeepaliveTimeout ≤
    e.now + wait - e.stream.outbound.lastTimestamp

omit [KeyCodec] in
theorem Live.peer {wait : Nat} {e peer peer' : Endpoint PublicKey} (h : e.Live wait peer)
    (hk : peer'.stream.myKeypair = peer.stream.myKeypair) : e.Live wait peer' :=
  ⟨h.active, h.localAddress, by rw [hk]; exact h.remotePublicKey, h.sign, h.keepalive⟩

theorem works_outbound_lastTimestamp {s s' : VeilidStream PublicKey}
    (h : VeilidStream.Works s s') : s'.outbound.lastTimestamp = s.outbound.lastTimestamp := by
  induction h with
  | refl => rfl
  | tail _ hs ih =>
    rw [← ih]
    cases hs with
    | generate =>
      refine Outbound.generateMessages_invariant (P := fun o => o.lastTimestamp = _) ?_ rfl
      exact fun _ _ h => h
    | _ => rfl

theorem Live.works {e e' peer : Endpoint PublicKey} (h : e.Live 0 peer)
    (hw : VeilidStream.Works e.stream e'.stream) (hnow : e'.now = e.now)
    (hlocal : e'.localAddress = e.localAddress) : e'.Live 0 peer := by
  have hs := VeilidStream.works_handshake hw
  have hi := VeilidStream.works_identity hw
  refine ⟨?_, by rw [hlocal]; exact h.localAddress, by rw [hs.remotePublicKey]; exact
    h.remotePublicKey, by rw [hi.myKeypair]; exact h.sign, ?_⟩
  · rw [VeilidStream.isActive_iff, VeilidStream.isRecent, hs.status, hs.lastTimestamp, hnow]
    exact VeilidStream.isActive_iff.mp h.active
  · rw [hnow, works_outbound_lastTimestamp hw]
    exact h.keepalive

omit [KeyCodec] in
/-- The next message keeps a side alive. -/
theorem Live.takesNext {e e' peer : Endpoint PublicKey} {ack : Nat} (h : e.Live 0 peer)
    (ha : VeilidStream.TakesNext e.now ack e.stream e'.stream) (hnow : e'.now = e.now)
    (hlocal : e'.localAddress = e.localAddress)
    (hk : e'.stream.myKeypair = e.stream.myKeypair) : e'.Live 0 peer := by
  refine ⟨by rw [hnow]; exact ha.active, by rw [hlocal]; exact h.localAddress,
    by rw [ha.remotePublicKey]; exact h.remotePublicKey, by rw [hk]; exact h.sign, ?_⟩
  rw [hnow, ha.outbound]
  exact h.keepalive

theorem act_frame (e : Endpoint PublicKey) {a : Event} (ha : ∀ w, a ≠ .tick w) :
    (e.act a).now = e.now ∧ (e.act a).localAddress = e.localAddress := by
  cases a with
  | write buf =>
    rw [act, write]
    split <;> exact ⟨rfl, rfl⟩
  | read waker len =>
    rw [act, read]
    split <;> exact ⟨rfl, rfl⟩
  | tick w => exact absurd rfl (ha w)
  | _ => exact ⟨rfl, rfl⟩

end Endpoint

namespace Session
open VeilidStream
variable {PublicKey : Type} [KeyCodec] [Identity PublicKey]

def Live (wait : Nat) (s : Session PublicKey) : Prop :=
  ∀ d, (s.get d).Live wait (s.get d.other)

theorem Live.act {s : Session PublicKey} (h : s.Live 0) (d : Side) {a : Endpoint.Event}
    (ha : ∀ w, a ≠ .tick w) : (s.step (.act d a)).Live 0 := by
  have hw := Endpoint.works_act (s.get d) a
  obtain ⟨hnow, hlocal⟩ := Endpoint.act_frame (s.get d) ha
  have hother := h d.other
  rw [Side.other_other] at hother
  exact Pair.set_forall_peer (R := fun _ x y => Endpoint.Live 0 x y)
    ((h d).works hw hnow hlocal) (hother.peer (works_identity hw).myKeypair)

/-- A packet of the peer arrives. -/
theorem step_deliver_some {s : Session PublicKey} {d : Side} {k : Nat} {p : Payload}
    {m : AppMessage} (hp : (s.get d.other).stream.sent[k]? = some p)
    (hm : decodeMessage p = some m) :
    s.step (.deliver d k) = s.set d { s.get d with
      stream := ((s.get d).stream.convertRegistered (s.get d).localAddress (s.get d).now m).1 } := by
  rw [step_deliver hp, Endpoint.receive, hm]

/-- **The next message arrives.** -/
theorem Live.deliver [LawfulKeyCodec] {s : Session PublicKey} (hs : s.Sound) (h : Live 0 s)
    {d : Side} {k ack : Nat} {data : Bytes}
    (hp : (s.get d.other).stream.sent[k]? = some ((s.get d.other).stream.encode ack
      ((s.get d).stream.inbound.receivedSeq + 1) data))
    (hm : messageType data = .data) (hlt : (s.get d).stream.inbound.receivedSeq + 1 < 2 ^ 32) :
    ∃ e : Endpoint PublicKey, s.step (.deliver d k) = s.set d e ∧ Live 0 (s.set d e) ∧
      e.now = (s.get d).now ∧ TakesNext (s.get d).now ack (s.get d).stream e.stream := by
  obtain ⟨m, hdecode, hack, hseq, hid, hdata, -, hverify⟩ :=
    decodeMessage_encode _ ((h d.other).sign data) ack ((s.get d).stream.inbound.receivedSeq + 1)
  obtain ⟨l, hlocal⟩ := Option.ne_none_iff_exists'.mp (h d).localAddress
  have hnext : (s.get d).stream.IsNext m := by
    refine ⟨?_, hdata ▸ hm, ?_, hseq, hlt⟩
    · rintro ⟨h0, hold⟩
      rw [hid, (hs.ids d).2.resolve_left h0] at hold
      exact Nat.lt_irrefl _ hold
    · rw [isSigned, (h d).remotePublicKey]
      exact hverify
  have htakes := convertRegistered_takesNext (hs.linked.consistent d).counted (h d).active hnext l
  rw [← hlocal, hack] at htakes
  have hkey := (handles_identity (convertRegistered_handles (s.get d).stream
    (s.get d).localAddress (s.get d).now m)).myKeypair
  have hother := h d.other
  rw [Side.other_other] at hother
  refine ⟨_, step_deliver_some hp hdecode, ?_, rfl, htakes⟩
  exact Pair.set_forall_peer (R := fun _ x y => Endpoint.Live 0 x y)
    ((h d).takesNext htakes rfl rfl hkey) (hother.peer hkey)

/-- A continuation in which nothing is written and only payloads arrive that are sent in it:
before it a side has sent `sent d` of them. -/
def Later (sent : Side → Nat) : Action → Prop
  | .act _ (.write _) => False
  | .act _ _ => True
  | .deliver d k => sent d.other ≤ k

omit [KeyCodec] [Identity PublicKey] in
theorem Later.silent {sent : Side → Nat} {a : Action} (h : Later sent a) (d : Side) :
    Silent d a := by
  rintro buf rfl
  exact h

/-- **The rest of the messages arrive**, one after the other, if the peer has sent them. -/
theorem deliver_rest [LawfulKeyCodec] {sent : Side → Nat} {d : Side} (n : Nat)
    {s : Session PublicKey} (hs : s.Sound) (h : Live 0 s)
    (hlt : (s.get d.other).stream.outbound.generated.length < 2 ^ 32)
    (hdata : ∀ e ∈ (s.get d.other).stream.outbound.generated, messageType e.2 = .data)
    (hsent : ∀ e ∈ (s.get d.other).stream.outbound.generated,
      (s.get d).stream.inbound.receivedSeq < e.1 → ∃ k ack, sent d.other ≤ k ∧
        (s.get d.other).stream.sent[k]? = some ((s.get d.other).stream.encode ack e.1 e.2))
    (hn : (s.get d.other).stream.outbound.generated.length -
      (s.get d).stream.inbound.receivedSeq ≤ n) :
    ∃ bs, (∀ a ∈ bs, Later sent a) ∧ Live 0 (Runs.run step s bs) ∧
      (Runs.run step s bs).get d.other = s.get d.other ∧
      ((s.get d).stream.outbound.Due (s.get d).now →
        ((Runs.run step s bs).get d).stream.outbound.Due ((Runs.run step s bs).get d).now) ∧
      ((Runs.run step s bs).get d).stream.inbound.receivedSeq =
        (s.get d.other).stream.outbound.generated.length := by
  induction n generalizing s with
  | zero =>
    obtain ⟨hle, -⟩ := hs.linked.appended_eq d hlt
    refine ⟨[], fun _ ha => absurd ha List.not_mem_nil, h, rfl, fun h => h, ?_⟩
    rw [Runs.run_nil]
    omega
  | succ n ih =>
    by_cases heq : (s.get d).stream.inbound.receivedSeq =
        (s.get d.other).stream.outbound.generated.length
    · exact ⟨[], fun _ ha => absurd ha List.not_mem_nil, h, rfl, fun h => h, heq⟩
    · obtain ⟨hle, -⟩ := hs.linked.appended_eq d hlt
      have hidx : (s.get d).stream.inbound.receivedSeq <
          (s.get d.other).stream.outbound.generated.length := by omega
      -- the next message is the one under the cursor's successor
      have hget := List.getElem?_eq_getElem hidx
      have hmem := List.getElem_mem hidx
      generalize (s.get d.other).stream.outbound.generated[
        (s.get d).stream.inbound.receivedSeq] = e at hget hmem
      have hseq := (hs.linked.consistent d.other).numbered.seq_eq _ _ hget
      rw [Nat.mod_eq_of_lt (by omega)] at hseq
      obtain ⟨k, ack, hk, hp⟩ := hsent e hmem (by omega)
      rw [hseq] at hp
      obtain ⟨x, hstep, hlive, hnow, htakes⟩ := h.deliver hs hp (hdata e hmem) (by omega)
      have hs' : Sound (s.set d x) := hstep ▸ step_sound s (.deliver d k) hs
      have hreceived := htakes.receivedSeq
      have hself := Pair.get_set_self s d x
      have hother := Pair.get_set_other s d x
      obtain ⟨bs, hlater, hlive', hsame, hdue, hdone⟩ := ih hs' hlive (by rw [hother]; exact hlt)
        (by rw [hother]; exact hdata)
        (by rw [hself, hother]; exact fun e he hr => hsent e he (by omega))
        (by rw [hself, hother]; omega)
      rw [hother] at hsame hdone
      rw [hself] at hdue
      refine ⟨.deliver d k :: bs, ?_, ?_⟩
      · rintro a (_ | ⟨_, ha⟩)
        · exact hk
        · exact hlater a ha
      · rw [Runs.run_cons, hstep]
        refine ⟨hlive', hsame, fun hd => hdue ?_, hdone⟩
        rw [htakes.outbound, hnow]
        exact hd.acknowledge ack

/-- **Everything written for a side is sent to it again, and arrives.** -/
theorem flush [LawfulKeyCodec] {sent : Side → Nat} {d : Side} {s : Session PublicKey}
    (hs : s.Sound) (h : Live 0 s)
    (hsent : sent d.other ≤ (s.get d.other).stream.sent.length)
    (hdue : (s.get d.other).stream.outbound.Due (s.get d.other).now)
    (hlt : (s.get d.other).stream.outbound.contents.length < 2 ^ 32)
    (hdata : ∀ c ∈ (s.get d.other).stream.outbound.contents, messageType c = .data) :
    ∃ bs, (∀ a ∈ bs, Later sent a) ∧ Live 0 (Runs.run step s bs) ∧
      Flushed (Runs.run step s bs) d ∧
      ((s.get d).stream.outbound.Due (s.get d).now →
        ((Runs.run step s bs).get d).stream.outbound.Due ((Runs.run step s bs).get d).now) := by
  obtain ⟨e, he⟩ : ∃ e, e = s.get d.other := ⟨_, rfl⟩
  obtain ⟨as, has⟩ : ∃ as : List Action, as = [.act d.other .generate, .act d.other .send] :=
    ⟨_, rfl⟩
  -- the sender's side after it has cut its stream and sent its queue
  have hget : (Runs.run step s as).get d = s.get d := by rw [has]; cases d <;> rfl
  have hother : (Runs.run step s as).get d.other =
      { e with stream := e.stream.generateMessages.sendMessages e.now } := by
    rw [has, he]
    cases d <;> rfl
  have hconsistent : e.stream.generateMessages.Consistent := by
    have hc := (step_sound s (.act d.other .generate) hs).linked.consistent d.other
    rw [step, Pair.get_set_self] at hc
    rw [he]
    exact hc
  have hsilent : ∀ a ∈ as, Later sent a := by
    rw [has]
    intro a ha
    rcases List.mem_pair.mp ha with rfl | rfl
    · exact trivial
    · exact trivial
  have hs' : (Runs.run step s as).Sound := Runs.invariant step_sound hs as
  have hlive : Live 0 (Runs.run step s as) := by
    rw [has]
    exact (h.act d.other (by simp)).act d.other (by simp)
  have hcontents := run_contents (s := s) fun a ha => (hsilent a ha).silent d.other
  have hkept := (hs'.linked.delivered d.other).kept
  rw [Side.other_other, hget] at hkept
  rw [hother] at hcontents hkept
  obtain ⟨ps, heq, -⟩ := sendMessages_eq e.stream.generateMessages e.now
  have hmem : ∀ x ∈ e.stream.generateMessages.outbound.generated,
      x.2 ∈ e.stream.outbound.contents := by
    intro x hx
    rw [he, ← hcontents, heq]
    exact List.mem_append_left _ (List.mem_map_of_mem hx)
  have hlen : e.stream.generateMessages.outbound.generated.length < 2 ^ 32 := by
    rw [← hcontents, heq, Outbound.contents, List.length_append, List.length_map] at hlt
    exact Nat.lt_of_le_of_lt (Nat.le_add_right _ _) hlt
  have hresent : ∀ x ∈ e.stream.generateMessages.outbound.generated,
      (s.get d).stream.inbound.receivedSeq < x.1 → ∃ k ack, sent d.other ≤ k ∧
        (e.stream.generateMessages.sendMessages e.now).sent[k]? =
          some ((e.stream.generateMessages.sendMessages e.now).encode ack x.1 x.2) := by
    intro x hx hr
    have hentry := hkept (by rw [heq]; exact hlen) x (by rw [heq]; exact hx) hr
    rw [heq] at hentry
    change (e.stream.generateMessages.outbound.stampSent e.now).entry x.1 = some x at hentry
    rw [Outbound.stampSent_entry] at hentry
    obtain ⟨k, hk, hp⟩ := hconsistent.resends (he ▸ hdue.generateMessages) hentry
    exact ⟨k, e.stream.inbound.receivedSeq, Nat.le_trans (he ▸ hsent) hk, hp⟩
  obtain ⟨bs, hlater, hlive', hsame, hdue', hdone⟩ :=
    deliver_rest (d := d) _ hs' hlive
      (by rw [hother, heq]; exact hlen)
      (by rw [hother, heq]; exact fun x hx => hdata _ (he ▸ hmem x hx))
      (by rw [hother, hget]; exact fun x hx => hresent x (by rw [heq] at hx; exact hx))
      (Nat.le_refl _)
  refine ⟨as ++ bs, fun a ha => (List.mem_append.mp ha).elim (hsilent a) (hlater a), ?_⟩
  rw [Runs.run_append]
  refine ⟨hlive', ⟨?_, ?_⟩, ?_⟩
  · rw [hsame, hother, heq]
    exact Outbound.generateMessages_stream _
  · rw [hdone, hsame]
  · rw [hget] at hdue'
    exact hdue'

/-- **A keep-alive acknowledges everything.** -/
theorem acknowledge_rest [LawfulKeyCodec] {sent : Side → Nat} {d : Side} {s : Session PublicKey}
    (hs : s.Sound) (h : Live 0 s)
    (hsent : sent d.other ≤ (s.get d.other).stream.sent.length)
    (hlt : (s.get d).stream.outbound.generated.length < 2 ^ 32)
    (hf : (s.get d.other).stream.inbound.receivedSeq =
      (s.get d).stream.outbound.generated.length) :
    ∃ bs, (∀ a ∈ bs, Later sent a) ∧ Live 0 (Runs.run step s bs) ∧
      ∀ k, ((Runs.run step s bs).get d).stream.outbound.entry k = none := by
  have hpeer := h d.other
  have hp := heartbeatStream_sent hpeer.active hpeer.keepalive
  have hlive := h.act d.other (a := .heartbeat) (by simp)
  have hs' := step_sound s (.act d.other .heartbeat) hs
  generalize hu : s.step (.act d.other .heartbeat) = u at hlive hs'
  have hget : u.get d = s.get d := by rw [← hu]; cases d <;> rfl
  have hother : (u.get d.other).stream =
      Transport.heartbeatStream (s.get d.other).now (s.get d.other).stream := by
    rw [← hu, step, Pair.get_set_self]
    rfl
  obtain ⟨m, hdecode, hack, -, hid, hdata, -⟩ := decodeMessage_encode _ (hpeer.sign statusWord)
    (s.get d.other).stream.inbound.receivedSeq (s.get d.other).stream.outbound.lastSeq
  obtain ⟨l, hlocal⟩ := Option.ne_none_iff_exists'.mp (h d).localAddress
  have hcurrent : ¬ (s.get d).stream.Stale m := by
    rintro ⟨h0, hold⟩
    rw [hid, (hs.ids d).2.resolve_left h0] at hold
    exact Nat.lt_irrefl _ hold
  obtain ⟨id, hkept⟩ := convertRegistered_keepAlive (isActive_iff.mp (h d).active).1 hcurrent
    (by rw [hdata]; exact messageType_status) l (s.get d).now
  have hstep := step_deliver_some (s := u) (d := d) (by rw [hother]; exact hp) hdecode
  rw [hget, hlocal, hkept] at hstep
  refine ⟨[.act d.other .heartbeat, .deliver d (s.get d.other).stream.sent.length], ?_, ?_, ?_⟩
  · intro a ha
    rcases List.mem_pair.mp ha with rfl | rfl
    · exact trivial
    · exact hsent
  · rw [Runs.run_cons, hu, Runs.run_cons, Runs.run_nil, hstep]
    have h1 := hlive d
    have h2 := hlive d.other
    rw [Side.other_other] at h2
    rw [hget] at h1 h2
    exact Pair.set_forall_peer (R := fun _ x y => Endpoint.Live 0 x y)
      ⟨h1.active, h1.localAddress, h1.remotePublicKey, h1.sign, h1.keepalive⟩ (h2.peer rfl)
  · intro k
    rw [Runs.run_cons, hu, Runs.run_cons, Runs.run_nil, hstep, Pair.get_set_self]
    change Outbound.entry (Outbound.removeSentMessagesFromQueue _) k = none
    rw [Outbound.removeSentMessagesFromQueue_entry]
    split
    · next hk =>
      -- no number above the last was ever given
      change m.deliveredSeq < k at hk
      rw [Outbound.updateOutboundDeliveredSeq_entry]
      cases hentry : (s.get d).stream.outbound.entry k with
      | none => rfl
      | some e =>
        obtain ⟨rfl, hmem⟩ := (hs.linked.consistent d).queued k e hentry
        obtain ⟨i, hi⟩ := List.mem_iff_getElem?.mp hmem
        obtain ⟨hi', -⟩ := List.getElem?_eq_some_iff.mp hi
        have hseq := (hs.linked.consistent d).numbered.seq_eq i e hi
        rw [Nat.mod_eq_of_lt (by omega)] at hseq
        omega
    · rfl

/-- Everything is received, and acknowledged. -/
structure Drained (s : Session PublicKey) (d : Side) : Prop where
  flushed : s.Flushed d
  queue : ∀ k, (s.get d.other).stream.outbound.messageQueue.lookup k = none

/-- What is received and acknowledged stays so while nothing is written. -/
theorem Flushed.step {s : Session PublicKey} (hs : s.Sound) {d : Side} (h : s.Flushed d)
    (hlt : (s.get d.other).stream.outbound.generated.length < 2 ^ 32) {a : Action}
    (ha : Silent d.other a) :
    (s.step a).Flushed d ∧ ((s.step a).get d.other).stream.outbound.generated =
        (s.get d.other).stream.outbound.generated ∧
      ∀ k, (s.get d.other).stream.outbound.entry k = none →
        ((s.step a).get d.other).stream.outbound.entry k = none := by
  obtain ⟨hstream, hgen, hentry⟩ := (step_drains s ha).settled h.stream
  refine ⟨⟨hstream, Nat.le_antisymm ?_ ?_⟩, hgen, hentry⟩
  · exact ((step_sound s a hs).linked.appended_eq d (by rw [hgen]; exact hlt)).1
  · rw [hgen, ← h.received]
    exact (step_grows s a hs.linked d).receivedSeq

theorem Flushed.run {s : Session PublicKey} (hs : s.Sound) {d : Side} (h : s.Flushed d)
    (hlt : (s.get d.other).stream.outbound.generated.length < 2 ^ 32) {bs : List Action}
    (hbs : ∀ a ∈ bs, Silent d.other a) :
    Flushed (Runs.run Session.step s bs) d ∧
      ∀ k, (s.get d.other).stream.outbound.entry k = none →
        ((Runs.run Session.step s bs).get d.other).stream.outbound.entry k = none := by
  induction bs generalizing s with
  | nil => exact ⟨h, fun _ hk => hk⟩
  | cons a bs ih =>
    obtain ⟨h', hgen, hentry⟩ := h.step hs hlt (hbs a List.mem_cons_self)
    obtain ⟨hf, hk⟩ := ih (step_sound s a hs) h' (by rw [hgen]; exact hlt)
      fun b hb => hbs b (List.mem_cons_of_mem a hb)
    exact ⟨hf, fun k hnone => hk k (hentry k hnone)⟩

/-- **A session drains**: the clocks run until every message is due, each side sends what it has
written, and a keep-alive of each side acknowledges it. -/
theorem drains [LawfulKeyCodec] {s : Session PublicKey} (hs : s.Sound)
    (hfew : ∀ d, (s.get d).stream.outbound.contents.length < 2 ^ 32)
    (h : Live (secs settings.messageRetryTimeout) s)
    (hdata : ∀ d, ∀ c ∈ (s.get d).stream.outbound.contents, messageType c = .data) :
    ∃ bs, (∀ a ∈ bs, Later (fun d => (s.get d).stream.sent.length) a) ∧
      ∀ d, Drained (Runs.run step s bs) d := by
  obtain ⟨sent, hsent⟩ : ∃ sent : Side → Nat, sent = fun d => (s.get d).stream.sent.length :=
    ⟨_, rfl⟩
  rw [← hsent]
  have hsound : ∀ bs, (Runs.run step s bs).Sound := Runs.invariant step_sound hs
  have hgrown : ∀ bs d, sent d ≤ ((Runs.run step s bs).get d).stream.sent.length := by
    intro bs d
    rw [hsent]
    exact (run_grows hs.linked bs d).sent.length_le
  have hcontents : ∀ {bs}, (∀ a ∈ bs, Later sent a) → ∀ d,
      ((Runs.run step s bs).get d).stream.outbound.contents =
        (s.get d).stream.outbound.contents := fun hbs d =>
    run_contents fun a ha => (hbs a ha).silent d
  have hshort : ∀ {bs}, (∀ a ∈ bs, Later sent a) → ∀ d,
      ((Runs.run step s bs).get d).stream.outbound.generated.length < 2 ^ 32 := by
    intro bs hbs d
    refine Nat.lt_of_le_of_lt (Outbound.length_generated_le _) ?_
    rw [hcontents hbs]
    exact hfew d
  have happend : ∀ {as bs : List Action}, (∀ a ∈ as, Later sent a) → (∀ a ∈ bs, Later sent a) →
      ∀ a ∈ as ++ bs, Later sent a := fun has hbs a ha =>
    (List.mem_append.mp ha).elim (has a) (hbs a)
  -- the clocks run
  obtain ⟨ticks, hticks⟩ : ∃ ticks : List Action, ticks =
      [.act .left (.tick (secs settings.messageRetryTimeout)),
        .act .right (.tick (secs settings.messageRetryTimeout))] := ⟨_, rfl⟩
  have h0 : ∀ a ∈ ticks, Later sent a := by
    rw [hticks]
    intro a ha
    rcases List.mem_pair.mp ha with rfl | rfl
    · exact trivial
    · exact trivial
  have hget : ∀ d, (Runs.run step s ticks).get d =
      { s.get d with now := (s.get d).now + secs settings.messageRetryTimeout } := by
    intro d
    rw [hticks]
    cases d <;> rfl
  have hlive0 : Live 0 (Runs.run step s ticks) := by
    intro d
    rw [hget, hget]
    exact ⟨(h d).active, (h d).localAddress, (h d).remotePublicKey, (h d).sign, (h d).keepalive⟩
  have hdue0 : ∀ d, ((Runs.run step s ticks).get d).stream.outbound.Due
      ((Runs.run step s ticks).get d).now := by
    intro d
    rw [hget]
    exact (hs.stamped d).due
  -- the right side sends what it has written, and then the left side
  obtain ⟨as, h1, hlive1, hleft, hdue1⟩ := flush (d := .left) (hsound ticks) hlive0
    (hgrown ticks _) (hdue0 _) (by rw [hcontents h0]; exact hfew _)
    (by rw [hcontents h0]; exact hdata _)
  rw [← Runs.run_append] at hlive1 hleft hdue1
  have h01 := happend h0 h1
  obtain ⟨bs, h2, hlive2, hright, -⟩ := flush (d := .right) (hsound (ticks ++ as)) hlive1
    (hgrown (ticks ++ as) _) (hdue1 (hdue0 _)) (by rw [hcontents h01]; exact hfew _)
    (by rw [hcontents h01]; exact hdata _)
  have hleft' := (hleft.run (hsound _) (hshort h01 _) fun a ha => (h2 a ha).silent _).1
  rw [← Runs.run_append] at hlive2 hright hleft'
  have h02 := happend h01 h2
  -- each side acknowledges
  obtain ⟨cs, h3, hlive3, hqueue⟩ := acknowledge_rest (d := .left) (hsound _) hlive2
    (hgrown (ticks ++ as ++ bs) _) (hshort h02 _) hright.received
  have hleft3 := (hleft'.run (hsound _) (hshort h02 _) fun a ha => (h3 a ha).silent _).1
  have hright3 := (hright.run (hsound _) (hshort h02 _) fun a ha => (h3 a ha).silent _).1
  rw [← Runs.run_append] at hlive3 hqueue hleft3 hright3
  have h03 := happend h02 h3
  obtain ⟨ds, h4, -, hqueue'⟩ := acknowledge_rest (d := .right) (hsound _) hlive3
    (hgrown (ticks ++ as ++ bs ++ cs) _) (hshort h03 _) hleft3.received
  have hleft4 := (hleft3.run (hsound _) (hshort h03 _) fun a ha => (h4 a ha).silent _).1
  obtain ⟨hright4, hkept⟩ := hright3.run (hsound _) (hshort h03 _) fun a ha => (h4 a ha).silent _
  rw [← Runs.run_append] at hqueue' hleft4 hright4 hkept
  refine ⟨ticks ++ as ++ bs ++ cs ++ ds, happend h03 h4, fun d => ?_⟩
  cases d with
  | left => exact ⟨hleft4, fun k => Option.map_eq_none_iff.mp (hqueue' k)⟩
  | right => exact ⟨hright4, fun k => Option.map_eq_none_iff.mp (hkept k (hqueue k))⟩

/-- **What a session can still recover from**: from every state in which both sides are alive
there is a continuation in which nothing is written and only payloads arrive that are sent in
it, and that ends with everything received and acknowledged, exactly if no chunk of what was
written is taken for anything but data. -/
theorem drained_iff [LawfulKeyCodec] {s : Session PublicKey} (h : s.Paired) (as : List Action)
    (hfew : ∀ d, ((Runs.run step s as).get d).stream.outbound.contents.length < 2 ^ 32)
    (hlive : Live (secs settings.messageRetryTimeout) (Runs.run step s as)) :
    (∃ bs, (∀ a ∈ bs, Later (fun d => ((Runs.run step s as).get d).stream.sent.length) a) ∧
        ∀ d, Drained (Runs.run step (Runs.run step s as) bs) d) ↔
      ∀ d, ∀ c ∈ ((Runs.run step s as).get d).stream.outbound.contents, messageType c = .data := by
  have hs := run_sound h as
  constructor
  · rintro ⟨bs, hbs, hdrained⟩ d
    have hsilent : ∀ a ∈ bs, Silent d a := fun a ha => (hbs a ha).silent d
    have hsound := Runs.invariant step_sound hs bs
    have hflushed := (hdrained d.other).flushed
    have hdata := hflushed.data hsound
    rw [Side.other_other, run_contents hsilent] at hdata
    refine hdata (Nat.lt_of_le_of_lt (Outbound.length_generated_le _) ?_)
    rw [run_contents hsilent]
    exact hfew d
  · exact drains hs hfew hlive

/-! ## An idle session -/

/-- Everything written for the side is received, and it has last heard from its peer then. -/
structure Idle (heard : Instant) (s : Session PublicKey) (d : Side) : Prop where
  sound : s.Sound
  flushed : s.Flushed d
  short : (s.get d.other).stream.outbound.generated.length < 2 ^ 32
  status : (s.get d).stream.status = .active
  lastTimestamp : (s.get d).stream.inbound.lastTimestamp = heard

/-- **No message is heard**: whatever arrives was received before. -/
theorem Idle.step {heard : Instant} {s : Session PublicKey} {d : Side} (h : s.Idle heard d)
    {a : Action} (ha : Silent d.other a) : (s.step a).Idle heard d := by
  obtain ⟨hflushed, hgen, -⟩ := h.flushed.step h.sound h.short ha
  have hkept : ((s.step a).get d).stream.status = (s.get d).stream.status ∧
      ((s.step a).get d).stream.inbound.lastTimestamp =
        (s.get d).stream.inbound.lastTimestamp := by
    cases a with
    | act x a =>
      rw [Session.step]
      rcases Side.eq_or_eq_other x d with rfl | rfl
      · rw [Pair.get_set_self]
        have hw := works_handshake (Endpoint.works_act (s.get d) a)
        exact ⟨hw.status, hw.lastTimestamp⟩
      · rw [Pair.get_set_other]
        exact ⟨rfl, rfl⟩
    | deliver x k =>
      rw [Session.step]
      split
      · exact ⟨rfl, rfl⟩
      · next p hp =>
        rcases Side.eq_or_eq_other x d with rfl | rfl
        · rw [Pair.get_set_self, Endpoint.receive]
          split
          · exact ⟨rfl, rfl⟩
          · next m hm =>
            have hv := (h.sound.linked.consistent d.other).vouches p (List.mem_of_getElem? hp)
            obtain ⟨-, -, hdata⟩ := decodeMessage_vouched hv hm
            have hnext : (s.get d).localAddress ≠ none → ¬ (s.get d).stream.IsNext m := by
              intro _ hnext
              obtain ⟨i, hi⟩ := List.mem_iff_getElem?.mp (hdata hnext.data)
              obtain ⟨hlt, -⟩ := List.getElem?_eq_some_iff.mp hi
              have hseq := (h.sound.linked.consistent d.other).numbered.seq_eq i _ hi
              have hshort := h.short
              have hreceived := h.flushed.received
              rw [hnext.seq, Nat.mod_eq_of_lt (by omega)] at hseq
              omega
            obtain ⟨hst, hts⟩ := convertRegistered_not_next h.status hnext (s.get d).now
            exact ⟨hst.trans h.status.symm, hts⟩
        · rw [Pair.get_set_other]
          exact ⟨rfl, rfl⟩
  exact ⟨step_sound s a h.sound, hflushed, by rw [hgen]; exact h.short,
    hkept.1.trans h.status, hkept.2.trans h.lastTimestamp⟩

/-- **An idle session expires**: once a side has received all that was written for it, and its
peer writes nothing more, it expires `streamTimeoutSecs` after it has last heard from its peer,
whatever arrives: keep-alives and messages sent again count for nothing. -/
theorem idle_expires {s : Session PublicKey} (h : s.Paired) (as bs : List Action) {d : Side}
    (hstatus : ((Runs.run step s as).get d).stream.status = .active)
    (hflushed : Flushed (Runs.run step s as) d)
    (hshort : ((Runs.run step s as).get d.other).stream.outbound.generated.length < 2 ^ 32)
    (hbs : ∀ a ∈ bs, Silent d.other a) :
    ((Runs.run step s (as ++ bs)).get d).stream.isExpired
        ((Runs.run step s (as ++ bs)).get d).now = true ↔
      ((Runs.run step s as).get d).stream.inbound.lastTimestamp +
        secs settings.streamTimeoutSecs ≤ ((Runs.run step s (as ++ bs)).get d).now := by
  have hidle : Idle ((Runs.run step s as).get d).stream.inbound.lastTimestamp
      (Runs.run step s (as ++ bs)) d := by
    have hstep : ∀ (t : Session PublicKey) (a : Action), Silent d.other a →
        t.Idle ((Runs.run step s as).get d).stream.inbound.lastTimestamp d →
        (t.step a).Idle ((Runs.run step s as).get d).stream.inbound.lastTimestamp d :=
      fun t a ha ht => ht.step ha
    rw [Runs.run_append]
    exact Runs.invariant_along hstep ⟨run_sound h as, hflushed, hshort, hstatus, rfl⟩
      (Runs.along_const.mpr hbs)
  rw [Transport.isExpired_iff, hidle.status, hidle.lastTimestamp]
  simp

/-! ## A session to recover -/

end Session

namespace Session
open Sample

/-- Both sides have written and sent, and nothing has arrived. -/
def lostRun : List Action :=
  [.act .left (.write [7, 8, 9]), .act .left .generate, .act .left .send,
    .act .right (.write [5]), .act .right .generate, .act .right .send]

theorem drained_sample :
    ∃ bs, (∀ a ∈ bs, Later (fun d => ((Runs.run step sample lostRun).get d).stream.sent.length) a) ∧
      ∀ d, Drained (Runs.run step (Runs.run step sample lostRun) bs) d := by
  refine (drained_iff sample_paired lostRun (fun d => ?_) fun d => ?_).mpr fun d => ?_
  · cases d <;> decide
  · cases d <;> exact ⟨by decide, by decide, rfl, verify_sign _, by decide⟩
  · cases d <;> decide

/-- A keep-alive arrives, and the side expires nonetheless. -/
def sampleIdle : List Action :=
  [.act .left (.tick (secs 6)), .act .left .heartbeat, .act .right (.tick (secs 6)),
    .deliver .right 0, .act .right (.tick (secs 14))]

theorem idle_expires_sample :
    ((Runs.run step sample ([] ++ sampleIdle)).get .right).stream.isExpired
        ((Runs.run step sample ([] ++ sampleIdle)).get .right).now = true ↔
      ((Runs.run step sample []).get .right).stream.inbound.lastTimestamp +
        secs settings.streamTimeoutSecs ≤
          ((Runs.run step sample ([] ++ sampleIdle)).get .right).now :=
  idle_expires sample_paired [] sampleIdle rfl ⟨rfl, rfl⟩ (by decide)
    (by simp [sampleIdle, Silent])

end Session
end VeilidTransport
