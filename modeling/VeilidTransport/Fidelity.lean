import VeilidTransport.Session

/-!
# Fidelity of a stream, from write to read

Between `poll_write` at one side and `poll_read` at the other a byte is framed, cut
into messages, resequenced, and cut back into slices.  `Faithful` follows it: what
was generated and what waits to be is the framed writes, what was appended is the
framed slices and the rest of the buffer, and what was returned and what waits to
be read is the slices.

With `Session.Linked` this gives `reads_prefix_writes`, for every run in which no
message is accepted that leaves complete slices with one, two or three bytes of
the next length behind them: there `update_inbound_stream` drops the slices
(`slices_lost`).
-/

namespace VeilidTransport
open VeilidStream

/-! ## The path of a byte at one side -/

/-- The bytes generated as messages, and then the bytes not generated yet. -/
def Outbound.written (o : Outbound) : Bytes :=
  (o.generated.map Prod.snd).flatten ++ o.stream

theorem Outbound.written_insert (o : Outbound) (buf : Bytes) :
    (o.insertToOutboundStream buf).written = o.written ++ U32.leHeader.frame buf := by
  rw [written, insertToOutboundStream_generated, insertToOutboundStream_stream, written,
    List.append_assoc]

/-- Generating messages moves bytes and loses none. -/
theorem Outbound.written_generate (o : Outbound) : o.generateMessages.written = o.written := by
  rw [written, generateMessages_data, generateMessages_stream, List.append_nil,
    List.flatten_append, Chunks.flatten_chunks (by decide), written]

section
variable {PublicKey : Type} [KeyCodec] [Identity PublicKey]

/-- What each side has of the path. -/
structure Endpoint.Faithful (e : Endpoint PublicKey) : Prop where
  written : e.stream.outbound.written = U32.leHeader.frames e.accepted
  sliced : e.stream.inbound.Sliced
  read : e.returned ++ e.stream.inbound.stream = e.stream.inbound.slices.flatten

/-- Work of the heartbeat: it may generate and send, and nothing else changes. -/
theorem heartbeatStream_eq (now : Instant) (s : VeilidStream PublicKey) :
    ∃ outbound sent, Transport.heartbeatStream now s =
        { s with outbound := outbound, sent := sent } ∧
      outbound.written = s.outbound.written := by
  unfold Transport.heartbeatStream
  by_cases hactive : s.isActive now = true
  · rw [if_pos hactive]
    obtain ⟨sent, hst⟩ : ∃ sent, s.sendStatusIfStale now = { s with sent := sent } := by
      unfold sendStatusIfStale
      split
      · exact ⟨_, rfl⟩
      · exact ⟨s.sent, rfl⟩
    obtain ⟨ps, hps, -⟩ := sendMessages_eq (s.sendStatusIfStale now).generateMessages now
    rw [hps, hst]
    exact ⟨_, _, rfl, Outbound.written_generate s.outbound⟩
  · rw [if_neg hactive]
    split
    · exact ⟨s.outbound, s.sent, rfl, rfl⟩
    · split
      · exact ⟨s.outbound, _, rfl, rfl⟩
      · exact ⟨s.outbound, _, rfl, rfl⟩
      · exact ⟨s.outbound, s.sent, rfl, rfl⟩

theorem Endpoint.act_faithful (e : Endpoint PublicKey) (a : Endpoint.Event) (h : e.Faithful) :
    (e.act a).Faithful := by
  cases a with
  | write buf =>
    rw [act, write]
    rcases pollWrite_cases e.stream e.now buf with ⟨-, hw⟩ | ⟨-, hw⟩
    · rw [hw]; exact ⟨h.written, h.sliced, h.read⟩
    · rw [hw]
      refine ⟨?_, h.sliced, h.read⟩
      simp only
      rw [Outbound.written_insert, h.written, U32.leHeader.frames_append,
        U32.leHeader.frames_cons, U32.leHeader.frames_nil, List.append_nil]
  | read waker len =>
    rw [act, read]
    rcases pollRead_cases e.stream e.now waker len with ⟨-, hr⟩ | ⟨-, -, hr⟩ | ⟨-, -, hr⟩
    · rw [hr]; exact ⟨h.written, h.sliced, h.read⟩
    · rw [hr]
      refine ⟨h.written, ⟨h.sliced.frames, h.sliced.fits⟩, ?_⟩
      simp only
      rw [List.append_assoc, List.take_append_drop]
      exact h.read
    · rw [hr]; exact ⟨h.written, h.sliced, h.read⟩
  | generate =>
    exact ⟨(Outbound.written_generate _).trans h.written, h.sliced, h.read⟩
  | send =>
    obtain ⟨ps, hps, -⟩ := sendMessages_eq e.stream e.now
    rw [act, hps]
    exact ⟨h.written, h.sliced, h.read⟩
  | heartbeat =>
    obtain ⟨outbound, sent, heq, hw⟩ := heartbeatStream_eq e.now e.stream
    rw [act, heq]
    exact ⟨hw.trans h.written, h.sliced, h.read⟩
  | tick d => exact ⟨h.written, h.sliced, h.read⟩

/-! ## A message arrives -/

/-- The message is data that the stream takes as the next one. -/
def Accepts (s : VeilidStream PublicKey) (localAddress : Option Address) (now : Instant)
    (m : AppMessage) : Prop :=
  localAddress ≠ none ∧ messageType m.data = .data ∧ s.isSigned m = true ∧
    ¬ Stale (s.adoptRemoteStreamId m.streamId) m ∧
    (s.status = .listen ∧ (s.adoptRemoteStreamId m.streamId).remoteStreamId = m.streamId ∨
      s.status = .active) ∧
    m.seq = s.inbound.receivedSeq + 1 ∧ s.isRecent now = true

instance (s : VeilidStream PublicKey) (localAddress : Option Address) (now : Instant)
    (m : AppMessage) : Decidable (Accepts s localAddress now m) :=
  inferInstanceAs (Decidable (_ ∧ _))

/-- The slices moved and the bytes still to be moved. -/
structure SameSlices (i i' : Inbound) : Prop where
  stream : i'.stream = i.stream
  buffer : i'.buffer = i.buffer
  appended : i'.appended = i.appended
  slices : i'.slices = i.slices

/-- The path of a byte through one message, but for an accepted one. -/
theorem VeilidStream.Handled.path {localAddress : Address} {now : Instant} {m : AppMessage}
    {s s' : VeilidStream PublicKey} {isSigned : Bool} {next : Next}
    (h : Handled localAddress now m s isSigned s' next) :
    s'.outbound.written = s.outbound.written ∧
    (SameSlices s.inbound s'.inbound ∨
      (messageType m.data = .data ∧ isSigned = true ∧
        (s.status = .listen ∧ s.remoteStreamId = m.streamId ∨ s.status = .active) ∧
        m.seq = s.inbound.receivedSeq + 1 ∧ s.isRecent now = true ∧
        s'.inbound = ((s.inbound.acceptMessage m.data).updateInboundStream
          |>.updateInboundLastTimestampToNow now) ∧
        s.inbound.receivedSeq + 1 < 2 ^ 32)) := by
  cases h with
  | ignored => exact ⟨rfl, .inl ⟨rfl, rfl, rfl, rfl⟩⟩
  | superseded => exact ⟨rfl, .inl ⟨rfl, rfl, rfl, rfl⟩⟩
  | tied hs hm hcmp =>
    obtain ⟨key, hk⟩ := extractKey_eq s dialWord m.data
    rw [hk]; exact ⟨rfl, .inl ⟨rfl, rfl, rfl, rfl⟩⟩
  | redial hs hm hcmp =>
    obtain ⟨key, hk⟩ := extractKey_eq s dialWord m.data
    rw [hk]; exact ⟨rfl, .inl ⟨rfl, rfl, rfl, rfl⟩⟩
  | switched hs hm hcmp =>
    obtain ⟨key, hk⟩ := extractKey_eq s dialWord m.data
    rw [hk]; exact ⟨rfl, .inl ⟨rfl, rfl, rfl, rfl⟩⟩
  | connected hs hm =>
    obtain ⟨key, hk⟩ := extractKey_eq s listenWord m.data
    rw [hk]
    obtain ⟨ps, hps, -⟩ := sendMessages_eq (generateMessages (updateStatus
      (updateRemoteStreamId (updateInboundLastTimestampToNow { s with remotePublicKey := key }
        now) m.streamId) .active)) now
    rw [hps]
    exact ⟨Outbound.written_generate s.outbound, .inl ⟨rfl, rfl, rfl, rfl⟩⟩
  | relisten => exact ⟨rfl, .inl ⟨rfl, rfl, rfl, rfl⟩⟩
  | received hs hm hsigned =>
    rcases recvMessage_cases (s.updateStatus .active) now m.deliveredSeq m.seq m.data with
      h | ⟨-, h⟩ | ⟨hact, hseq, hlt, woken, h⟩
    · rw [h]; exact ⟨rfl, .inl ⟨rfl, rfl, rfl, rfl⟩⟩
    · rw [h]; exact ⟨rfl, .inl ⟨rfl, rfl, rfl, rfl⟩⟩
    · rw [h]
      exact ⟨rfl, .inr ⟨hm, hsigned, hs, hseq, (isActive_iff.mp hact).2, rfl, hlt⟩⟩
  | acknowledged => exact ⟨rfl, .inl ⟨rfl, rfl, rfl, rfl⟩⟩

/-- Whatever the message, the path stays as it is or goes on through an accepted
message. -/
theorem convertRegistered_path (s : VeilidStream PublicKey) (localAddress : Option Address)
    (now : Instant) (m : AppMessage) :
    (s.convertRegistered localAddress now m).1.outbound.written = s.outbound.written ∧
    (SameSlices s.inbound (s.convertRegistered localAddress now m).1.inbound ∨
      (Accepts s localAddress now m ∧ s.inbound.receivedSeq + 1 < 2 ^ 32 ∧
        (s.convertRegistered localAddress now m).1.inbound =
          ((s.inbound.acceptMessage m.data).updateInboundStream
            |>.updateInboundLastTimestampToNow now))) := by
  obtain ⟨id, -, hadopt⟩ := adoptRemoteStreamId_eq s m.streamId
  cases localAddress with
  | none =>
    rw [convertRegistered_none, hadopt]
    exact ⟨rfl, .inl ⟨rfl, rfl, rfl, rfl⟩⟩
  | some localAddress =>
    rcases convertRegistered_handled s localAddress now m with ⟨-, h⟩ | ⟨hstale, h⟩
    · rw [h, hadopt]
      exact ⟨rfl, .inl ⟨rfl, rfl, rfl, rfl⟩⟩
    · obtain ⟨hw, hp⟩ := h.path
      have hin : (s.adoptRemoteStreamId m.streamId).inbound = s.inbound := by rw [hadopt]
      have hst : (s.adoptRemoteStreamId m.streamId).status = s.status := by rw [hadopt]
      have hrec : (s.adoptRemoteStreamId m.streamId).isRecent now = s.isRecent now := by
        rw [isRecent, hin, isRecent]
      have hout : (s.adoptRemoteStreamId m.streamId).outbound = s.outbound := by rw [hadopt]
      rw [hout] at hw
      rw [hin, hst, hrec] at hp
      refine ⟨hw, ?_⟩
      rcases hp with hp | ⟨hm, hsigned, hs, hseq, hr, heq, hlt⟩
      · exact .inl hp
      · exact .inr ⟨⟨by simp, hm, hsigned, hstale, hs, hseq, hr⟩, hlt, heq⟩

theorem Endpoint.receive_faithful (e : Endpoint PublicKey) (p : Payload) (h : e.Faithful)
    (hok : ∀ m, decodeMessage p = some m → Accepts e.stream e.localAddress e.now m →
      ¬ Inbound.Straddles (e.stream.inbound.bufferAfter m.seq m.data)) :
    (e.receive p).Faithful := by
  rw [receive]
  split
  · exact h
  · next m hm =>
    obtain ⟨hw, hp⟩ := convertRegistered_path e.stream e.localAddress e.now m
    refine ⟨hw.trans h.written, ?_, ?_⟩
    · rcases hp with hp | ⟨hacc, hlt, heq⟩
      · exact ⟨by rw [hp.appended, hp.slices, hp.buffer]; exact h.sliced.frames,
          by rw [hp.slices]; exact h.sliced.fits⟩
      · have hseq : addU32 e.stream.inbound.receivedSeq 1 = m.seq := by
          rw [addU32_of_lt hlt, hacc.2.2.2.2.2.1]
        have hs := (h.sliced.acceptMessage m.data).updateInboundStream (by
          rw [Inbound.acceptMessage_buffer, hseq]
          exact hok m hm hacc)
        rw [heq]
        exact ⟨hs.frames, hs.fits⟩
    · rcases hp with hp | ⟨-, -, heq⟩
      · rw [hp.stream, hp.slices]; exact h.read
      · -- the slices go to the end of the stream and of the history alike
        have hkeep : (e.stream.inbound.acceptMessage m.data).stream = e.stream.inbound.stream ∧
            (e.stream.inbound.acceptMessage m.data).slices = e.stream.inbound.slices :=
          ⟨Inbound.acceptMessage_stream _ _, Inbound.acceptMessage_slices _ _⟩
        rw [heq]
        change e.returned ++ (_ ++ _) = (_ ++ _ : List Bytes).flatten
        rw [List.flatten_append, ← List.append_assoc]
        congr 1
        change e.returned ++ (e.stream.inbound.acceptMessage m.data).stream =
          (e.stream.inbound.acceptMessage m.data).slices.flatten
        rw [hkeep.1, hkeep.2]
        exact h.read

/-! ## Along a run -/

namespace Session

/-- Each buffer written is shorter than `2 ^ 32` bytes. -/
def ShortWrites (as : List Action) : Prop :=
  ∀ d buf, .act d (.write buf) ∈ as → buf.length < 2 ^ 32

/-- The message that arrives, if it is taken as the next one, leaves the buffer
without complete slices that have one, two or three bytes behind them. -/
def NoStraddle (s : Session PublicKey) : Action → Prop
  | .act _ _ => True
  | .deliver d k => ∀ p ∈ (s.get d.other).stream.sent[k]?, ∀ m ∈ decodeMessage p,
      Accepts (s.get d).stream (s.get d).localAddress (s.get d).now m →
      ¬ Inbound.Straddles ((s.get d).stream.inbound.bufferAfter m.seq m.data)

instance (s : Session PublicKey) : ∀ a, Decidable (s.NoStraddle a)
  | .act _ _ => inferInstanceAs (Decidable True)
  | .deliver d k => inferInstanceAs (Decidable (∀ p ∈ (s.get d.other).stream.sent[k]?,
      ∀ m ∈ decodeMessage p, Accepts (s.get d).stream (s.get d).localAddress (s.get d).now m →
      ¬ Inbound.Straddles ((s.get d).stream.inbound.bufferAfter m.seq m.data)))

omit [KeyCodec] [Identity PublicKey] in
theorem Paired.faithful {s : Session PublicKey} (h : s.Paired) (d : Side) :
    (s.get d).Faithful := by
  obtain ⟨t, hi⟩ := h.inbound d
  obtain ⟨t', ho⟩ := h.outbound d
  refine ⟨?_, ?_, ?_⟩
  · rw [ho, h.accepted d]; rfl
  · rw [hi]; exact Inbound.sliced_new t
  · rw [hi, h.returned d]; rfl

theorem step_faithful (s : Session PublicKey) (a : Action) (hok : s.NoStraddle a)
    (h : ∀ d, (s.get d).Faithful) (d : Side) : ((s.step a).get d).Faithful := by
  cases a with
  | act x a =>
    rw [step]
    rcases Side.eq_or_eq_other x d with rfl | rfl
    · rw [Pair.get_set_self]; exact (s.get d).act_faithful a (h d)
    · rw [Pair.get_set_other]; exact h x.other
  | deliver x k =>
    rw [step]
    split
    · exact h d
    · next p hp =>
      rcases Side.eq_or_eq_other x d with rfl | rfl
      · rw [Pair.get_set_self]
        exact (s.get d).receive_faithful p (h d) fun m hm => hok p hp m hm
      · rw [Pair.get_set_other]; exact h x.other

/-- What `poll_write` has accepted is what was written in the run. -/
theorem step_accepted (s : Session PublicKey) (a : Action) (d : Side) :
    ((s.step a).get d).accepted = (s.get d).accepted ∨
    ∃ buf, a = .act d (.write buf) ∧
      ((s.step a).get d).accepted = (s.get d).accepted ++ [buf] := by
  cases a with
  | act x a =>
    rw [step]
    rcases Side.eq_or_eq_other x d with rfl | rfl
    · rw [Pair.get_set_self]
      cases a with
      | write buf =>
        rw [Endpoint.act, Endpoint.write]
        rcases pollWrite_cases (s.get d).stream (s.get d).now buf with ⟨-, hw⟩ | ⟨-, hw⟩
        · rw [hw]; exact .inl rfl
        · rw [hw]; exact .inr ⟨buf, rfl, rfl⟩
      | read waker len =>
        left
        rw [Endpoint.act, Endpoint.read]
        rcases (s.get d).stream.pollRead (s.get d).now waker len with ⟨_ | _ | _, s'⟩ <;> rfl
      | generate => exact .inl rfl
      | send => exact .inl rfl
      | heartbeat => exact .inl rfl
      | tick => exact .inl rfl
    · rw [Pair.get_set_other]; exact .inl rfl
  | deliver x k =>
    left
    rw [step]
    split
    · rfl
    · next p hp =>
      rcases Side.eq_or_eq_other x d with rfl | rfl
      · rw [Pair.get_set_self, Endpoint.receive]
        split <;> rfl
      · rw [Pair.get_set_other]

theorem run_accepted_fits {s : Session PublicKey} (h : s.Paired) {as : List Action}
    (hw : ShortWrites as) (d : Side) :
    U32.leHeader.Fits ((Runs.run step s as).get d).accepted := by
  have h0 : U32.leHeader.Fits (s.get d).accepted := by
    rw [h.accepted d]; exact U32.leHeader.fits_nil
  clear h
  induction as generalizing s with
  | nil => exact h0
  | cons a as ih =>
    refine ih (fun d buf hb => hw d buf (List.mem_cons_of_mem _ hb)) ?_
    rcases step_accepted s a d with heq | ⟨buf, rfl, heq⟩
    · rw [heq]; exact h0
    · rw [heq, U32.leHeader.fits_append]
      refine ⟨h0, fun b hb => ?_⟩
      obtain rfl := List.mem_singleton.mp hb
      exact hw d b List.mem_cons_self

/-- **What is read is a prefix of what was written**, in both directions of every
session in which no accepted message leaves complete slices with part of a length
behind them. -/
theorem reads_prefix_writes {s : Session PublicKey} (h : s.Paired) {as : List Action}
    (hw : ShortWrites as) (hfew : Few (Runs.run step s as))
    (hok : Runs.Along step NoStraddle s as) (d : Side) :
    ((Runs.run step s as).get d).returned <+:
      ((Runs.run step s as).get d.other).accepted.flatten := by
  have hf : ∀ d, ((Runs.run step s as).get d).Faithful :=
    Runs.invariant_along step_faithful h.faithful hok
  have hl := run_linked h as
  have hlt : ((Runs.run step s as).get d.other).stream.outbound.generated.length < 2 ^ 32 :=
    Nat.lt_of_lt_of_le (hfew d.other) (by omega)
  obtain ⟨-, happ⟩ := hl.appended_eq d hlt
  -- the bytes appended are the first bytes framed
  have hpre : ((Runs.run step s as).get d).stream.inbound.appended.flatten <+:
      U32.leHeader.frames ((Runs.run step s as).get d.other).accepted := by
    rw [← (hf d.other).written, Outbound.written, happ, List.map_take]
    refine List.IsPrefix.trans ?_ (List.prefix_append _ _)
    conv_rhs => rw [← List.take_append_drop
      ((Runs.run step s as).get d).stream.inbound.receivedSeq
      (((Runs.run step s as).get d.other).stream.outbound.generated.map Prod.snd),
      List.flatten_append]
    exact List.prefix_append _ _
  rw [(hf d).sliced.frames] at hpre
  obtain ⟨rest, hrest⟩ := U32.leHeader.frames_prefix (hf d).sliced.fits
    (run_accepted_fits h hw d.other) hpre
  rw [← hrest, List.flatten_append, ← (hf d).read, List.append_assoc]
  exact List.prefix_append _ _

end Session

end

section
open Sample
namespace Session

theorem sampleRun_short : ShortWrites sampleRun := by
  intro d buf h
  simp only [sampleRun, List.mem_cons, Action.act.injEq, Endpoint.Event.write.injEq,
    List.not_mem_nil, or_false, reduceCtorEq, and_false, false_or] at h
  obtain ⟨-, rfl⟩ | ⟨-, rfl⟩ := h <;> decide

theorem reads_prefix_writes_sample :
    ((Runs.run step sample sampleRun).get .right).returned <+:
      ((Runs.run step sample sampleRun).get (Side.other .right)).accepted.flatten := by
  exact reads_prefix_writes sample_paired sampleRun_short sample_few (by decide) .right

/-! ### The slices that are lost -/

/-- A message full, and one more. -/
theorem generateMessages_two {o : Outbound} {c d : Bytes} (hs : o.stream = c ++ d)
    (hc : c.length = settings.transportStreamPacketDataSizeBytes) (hd : 0 < d.length)
    (hd' : d.length ≤ settings.transportStreamPacketDataSizeBytes) :
    o.generateMessages = { o with
      stream := []
      lastSeq := addU32 (addU32 o.lastSeq 1) 1
      messageQueue := (o.messageQueue.insert (addU32 o.lastSeq 1)
        ⟨addU32 o.lastSeq 1, c, none⟩).insert (addU32 (addU32 o.lastSeq 1) 1)
          ⟨addU32 (addU32 o.lastSeq 1) 1, d, none⟩
      generated := o.generated ++ [(addU32 o.lastSeq 1, c)] ++
        [(addU32 (addU32 o.lastSeq 1) 1, d)] } := by
  have h1 : o.generateMessage = { o with
      stream := d
      lastSeq := addU32 o.lastSeq 1
      messageQueue := o.messageQueue.insert (addU32 o.lastSeq 1) ⟨addU32 o.lastSeq 1, c, none⟩
      generated := o.generated ++ [(addU32 o.lastSeq 1, c)] } := by
    have hlen : min settings.transportStreamPacketDataSizeBytes (c ++ d).length =
        settings.transportStreamPacketDataSizeBytes := by rw [List.length_append]; omega
    rw [Outbound.generateMessage, hs, hlen, List.take_left' hc, List.drop_left' hc]
  have hne : o.stream ≠ [] := by
    rw [hs]
    exact List.append_ne_nil_of_right_ne_nil _ (List.length_pos_iff.mp hd)
  have hne' : o.generateMessage.stream ≠ [] := by
    rw [h1]
    exact List.length_pos_iff.mp hd
  have hlen : min settings.transportStreamPacketDataSizeBytes d.length = d.length := by omega
  rw [Outbound.generateMessages_of_ne_nil hne, Outbound.generateMessages_of_ne_nil hne', h1,
    Outbound.generateMessages_of_nil]
  · simp only [Outbound.generateMessage, hlen, List.take_length, List.drop_length]
  · simp only [Outbound.generateMessage, hlen, List.drop_length]

/-- A write that fills a message but for two bytes, and one of a single byte. -/
def lossWrites (buf : Bytes) : List Action :=
  [.act .left (.write buf), .act .left (.write [1]), .act .left .generate, .act .left .send]

/-- The two messages arrive in order, and the reader reads. -/
def lossReads : List Action :=
  [.deliver .right 1, .deliver .right 0, .act .right (.read 0 16)]

/-- The messages are cut inside the length of the second write. -/
theorem lossWrites_eq {buf : Bytes} (h : buf.length = 32617) :
    let s := Runs.run step sample (lossWrites buf)
    s.left.stream.sent = [sample.left.stream.encode 0 2 [0, 0, 1],
      sample.left.stream.encode 0 1 (U32.leHeader.frame buf ++ [1, 0])] ∧
    s.left.stream.outbound.generated.length = 2 ∧ s.left.accepted = [buf, [1]] ∧
    s.right = sample.right := by
  have hstream : (([] : Bytes) ++ U32.toLeBytes (buf.length % 2 ^ 32) ++ buf) ++
      U32.toLeBytes (([1] : Bytes).length % 2 ^ 32) ++ [1] =
      (U32.leHeader.frame buf ++ [1, 0]) ++ [0, 0, 1] := by
    simp [U32.leHeader, LengthHeader.frame, h, U32.toLeBytes]
  have hlen : (U32.leHeader.frame buf ++ [1, 0]).length = 32623 := by simp [h, U32.leHeader]
  generalize U32.leHeader.frame buf ++ [1, 0] = c at hstream hlen
  have hgen : ((sample.left.stream.outbound.insertToOutboundStream buf).insertToOutboundStream
      [1]).generateMessages = ⟨[], ((∅ : KeyedMap Nat OutboundMessage).insert 1
        ⟨1, c, none⟩).insert 2 ⟨2, [0, 0, 1], none⟩, 2, 0, 0, [(1, c), (2, [0, 0, 1])]⟩ :=
    generateMessages_two hstream hlen (by decide) (by decide)
  have hqueue : Outbound.messagesToSend ⟨[], ((∅ : KeyedMap Nat OutboundMessage).insert 1
        ⟨1, c, none⟩).insert 2 ⟨2, [0, 0, 1], none⟩, 2, 0, 0, [(1, c), (2, [0, 0, 1])]⟩ 0 =
      [⟨2, [0, 0, 1], none⟩, ⟨1, c, none⟩] := rfl
  have hlim : ¬ settings.veilidNetworkMessageLimitBytes < c.length := by rw [hlen]; decide
  have hstep : (Runs.run step sample (lossWrites buf)).left.stream =
      VeilidStream.sendMessages { sample.left.stream with outbound :=
        ((sample.left.stream.outbound.insertToOutboundStream buf).insertToOutboundStream
          [1]).generateMessages } 0 := rfl
  rw [hgen] at hstep
  refine ⟨?_, ?_, rfl, rfl⟩
  · rw [hstep, VeilidStream.sendMessages, hqueue, sendEach, if_neg (by decide), sendEach,
      if_neg hlim, sendEach]
    rfl
  · obtain ⟨ps, hps, -⟩ := sendMessages_eq { sample.left.stream with outbound :=
      ⟨[], ((∅ : KeyedMap Nat OutboundMessage).insert 1 ⟨1, c, none⟩).insert 2
        ⟨2, [0, 0, 1], none⟩, 2, 0, 0, [(1, c), (2, [0, 0, 1])]⟩ } 0
    rw [hstep, hps]
    rfl

/-- The first message holds the first slice, and two bytes of the next length. -/
theorem sliceLoop_first {buf : Bytes} (h : buf.length < 2 ^ 32) :
    Inbound.sliceLoop (U32.leHeader.frame buf ++ [1, 0]).length
      (U32.leHeader.frame buf ++ [1, 0]) = ([buf], [1, 0], true) := by
  obtain ⟨fuel, hfuel⟩ : ∃ fuel, (U32.leHeader.frame buf ++ [1, 0]).length = fuel + 1 + 1 :=
    ⟨4 + buf.length, by simp [U32.leHeader]⟩
  rw [hfuel, Inbound.sliceLoop_frame h]
  rfl

/-- The receiver after the first message: nothing to read, and two bytes left. -/
def afterFirst (c : Bytes) : Endpoint Sample.PublicKey :=
  { sample.right with stream := { sample.right.stream with
      status := .active
      inbound := ⟨[], [1, 0], 1, ∅, 0, [c], []⟩ } }

theorem decodeMessage_first (c : Bytes) : decodeMessage (sample.left.stream.encode 0 1 c) =
    some ⟨0, 1, 10, addressOf 1, c, signature ⟨keyOf 1⟩ c⟩ := rfl

theorem convertRegistered_first {c : Bytes} (hm : messageType c = .data) :
    sample.right.stream.convertRegistered sample.right.localAddress sample.right.now
      ⟨0, 1, 10, addressOf 1, c, signature ⟨keyOf 1⟩ c⟩ =
    ((sample.right.stream.updateStatus .active).recvMessage 0 0 1 c, .pending) := by
  have hsigned : sample.right.stream.isSigned
      ⟨0, 1, 10, addressOf 1, c, signature ⟨keyOf 1⟩ c⟩ = true := by
    show decide (signature ⟨keyOf 1⟩ c = signature ⟨keyOf 1⟩ c) = true
    exact decide_eq_true rfl
  unfold convertRegistered
  rw [hsigned]
  show sample.right.stream.convertActive 0 _ true = _
  unfold convertActive
  rw [hm]
  rfl

theorem receive_first {c buf : Bytes} (hm : messageType c = .data)
    (hloop : Inbound.sliceLoop c.length c = ([buf], [1, 0], true)) :
    sample.right.receive (sample.left.stream.encode 0 1 c) = afterFirst c := by
  have htake : Inbound.takeCompleteSlices ⟨[], c, 1, ∅, 0, [c], []⟩ =
      ([], ⟨[], [1, 0], 1, ∅, 0, [c], []⟩) := by
    unfold Inbound.takeCompleteSlices
    rw [hloop]
    rfl
  have hupdate : VeilidStream.updateInboundStream { sample.right.stream with
      status := .active
      inbound := ⟨[], c, 1, ∅, 0, [c], []⟩ } = (afterFirst c).stream := by
    unfold VeilidStream.updateInboundStream Inbound.updateInboundStream
    rw [htake]
    rfl
  have hrecv : (sample.right.stream.updateStatus .active).recvMessage 0 0 1 c =
      (afterFirst c).stream := by
    show updateInboundLastTimestampToNow (VeilidStream.updateInboundStream
      { sample.right.stream with
        status := .active
        inbound := ⟨[], c, 1, ∅, 0, [c], []⟩ }) 0 = _
    rw [hupdate]
    rfl
  rw [Endpoint.receive, decodeMessage_first]
  simp only
  rw [convertRegistered_first hm, hrecv]
  rfl

theorem receive_second (c : Bytes) :
    let e := ((afterFirst c).receive (sample.left.stream.encode 0 2 [0, 0, 1])).read 0 16
    e.returned = [1] ∧ e.stream.outbound.generated = [] := by
  have hdecode : decodeMessage (sample.left.stream.encode 0 2 [0, 0, 1]) =
      some ⟨0, 2, 10, addressOf 1, [0, 0, 1], signature ⟨keyOf 1⟩ [0, 0, 1]⟩ := rfl
  -- the two bytes that were left and these are the length of the second write
  have hconvert : ((afterFirst c).stream.convertRegistered (some (addressOf 2)) 0
      ⟨0, 2, 10, addressOf 1, [0, 0, 1], signature ⟨keyOf 1⟩ [0, 0, 1]⟩).1 =
      { (afterFirst c).stream with inbound := ⟨[1], [], 2, ∅, 0, [c, [0, 0, 1]], [[1]]⟩ } := rfl
  have hreceive : (afterFirst c).receive (sample.left.stream.encode 0 2 [0, 0, 1]) =
      { afterFirst c with stream := ((afterFirst c).stream.convertRegistered
        (some (addressOf 2)) 0
        ⟨0, 2, 10, addressOf 1, [0, 0, 1], signature ⟨keyOf 1⟩ [0, 0, 1]⟩).1 } := by
    rw [Endpoint.receive, hdecode]
    rfl
  rw [hreceive, hconvert]
  exact ⟨rfl, rfl⟩

theorem lossReads_eq {c buf : Bytes} (hm : messageType c = .data)
    (hloop : Inbound.sliceLoop c.length c = ([buf], [1, 0], true))
    {l : Endpoint Sample.PublicKey} (hs : l.stream.sent =
      [sample.left.stream.encode 0 2 [0, 0, 1], sample.left.stream.encode 0 1 c]) :
    let s := Runs.run step ⟨l, sample.right⟩ lossReads
    s.left = l ∧ s.right.returned = [1] ∧ s.right.stream.outbound.generated = [] := by
  have h1 : step ⟨l, sample.right⟩ (.deliver .right 1) = ⟨l, afterFirst c⟩ := by
    have hget : (Pair.get ⟨l, sample.right⟩ (Side.other .right)).stream.sent[1]? =
        some (sample.left.stream.encode 0 1 c) := by
      show l.stream.sent[1]? = _
      rw [hs]
      rfl
    rw [step_deliver hget, ← receive_first hm hloop]
    rfl
  have h2 : step ⟨l, afterFirst c⟩ (.deliver .right 0) =
      ⟨l, (afterFirst c).receive (sample.left.stream.encode 0 2 [0, 0, 1])⟩ := by
    have hget : (Pair.get ⟨l, afterFirst c⟩ (Side.other .right)).stream.sent[0]? =
        some (sample.left.stream.encode 0 2 [0, 0, 1]) := by
      show l.stream.sent[0]? = _
      rw [hs]
      rfl
    rw [step_deliver hget]
    rfl
  rw [lossReads, Runs.run_cons, h1, Runs.run_cons, h2]
  exact ⟨rfl, receive_second c⟩

theorem lossRun_eq {buf : Bytes} (h : buf.length = 32617) {s : Session Sample.PublicKey}
    (hs : Runs.run step sample (lossWrites buf ++ lossReads) = s) :
    s.left.accepted = [buf, [1]] ∧ s.right.returned = [1] ∧
    s.left.stream.outbound.generated.length = 2 ∧ s.right.stream.outbound.generated = [] := by
  have hm : messageType (U32.leHeader.frame buf ++ [1, 0]) = .data := by
    have hx : U32.leHeader.frame buf ++ [1, 0] = 0x69 :: 0x7F :: 0 :: 0 :: (buf ++ [1, 0]) := by
      simp [LengthHeader.frame, U32.leHeader, h, U32.toLeBytes]
    rw [hx, messageType_eq_data_iff]
    simp [dialWord, listenWord, statusWord, pingWord]
  obtain ⟨hsent, hgen, hacc, hright⟩ := lossWrites_eq h
  rw [Runs.run_append] at hs
  generalize Runs.run step sample (lossWrites buf) = t at hs hsent hgen hacc hright
  obtain ⟨l, r⟩ := t
  simp only at hsent hgen hacc hright
  subst hright
  obtain ⟨hl, hread, hgen'⟩ := lossReads_eq hm (sliceLoop_first (by omega)) hsent
  rw [hs] at hl hread hgen'
  rw [hl]
  exact ⟨hacc, hread, hgen, hgen'⟩

theorem lossRun_short {buf : Bytes} (h : buf.length < 2 ^ 32) :
    ShortWrites (lossWrites buf ++ lossReads) := by
  intro d b hb
  simp only [lossWrites, lossReads, List.mem_append, List.mem_cons, Action.act.injEq,
    Endpoint.Event.write.injEq, List.not_mem_nil, or_false, reduceCtorEq, and_false] at hb
  obtain ⟨-, rfl⟩ | ⟨-, rfl⟩ := hb
  · exact h
  · decide

/-- **A write can be lost**: the first write ends two bytes before the end of a
message, so the message leaves one complete slice and two bytes of the next length;
the reader reads the second write and never the first. -/
theorem slices_lost :
    let as := lossWrites (List.replicate 32617 0) ++ lossReads
    let s := Runs.run step sample as
    Paired sample ∧ (∀ d, (sample.get d).stream.status = .active) ∧ ShortWrites as ∧ Few s ∧
      ¬ (s.get .right).returned <+: (s.get .left).accepted.flatten := by
  have hlen : (List.replicate 32617 (0 : UInt8)).length = 32617 := List.length_replicate
  have hhead : ∃ x, (List.replicate 32617 (0 : UInt8)) = 0 :: x := ⟨_, List.replicate_succ⟩
  generalize List.replicate 32617 (0 : UInt8) = buf at hlen hhead
  intro as s
  obtain ⟨hacc, hread, hgen, hgen'⟩ := lossRun_eq hlen (s := s) rfl
  refine ⟨sample_paired, fun d => by cases d <;> rfl, lossRun_short (by omega), ?_, ?_⟩
  · intro d
    cases d with
    | left => rw [Pair.get_left, hgen]; decide
    | right => rw [Pair.get_right, hgen']; decide
  · rw [Pair.get_left, Pair.get_right, hread, hacc]
    obtain ⟨x, rfl⟩ := hhead
    simp

end Session
end

end VeilidTransport
