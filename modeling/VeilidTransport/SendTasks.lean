import VeilidTransport.ReceiveTasks

/-!
# Calls on the outbound half that overlap

Writes, heartbeats and the handshake spawn tasks of their own, so calls of
`insert_to_outbound_stream`, `generate_messages`, `send_messages` and
`remove_sent_messages_from_queue` overlap on one stream.  `SendCall.next` is one call as the
atomic steps between its locks.  The lock of `outbound_stream` is held over many steps, and
is a field of its own; the lock of `outbound_message_queue` is held within one step only.

A task alone computes what the functions of `VeilidStream` do (`solo_insert`,
`solo_generate`, `solo_send`, `solo_acknowledge`).  `chunking_conserves` is about every
interleaving: what is written is what is generated and what still waits, up to the piece that
the task with the lock has in its hands.
-/

namespace VeilidTransport

/-- A call on the outbound half, at its next step. -/
inductive SendCall where
  /-- `insert_to_outbound_stream`, before it has the lock of `outbound_stream`. -/
  | lockToInsert (data : Bytes)
  /-- `extend_from_slice(&data_len.to_le_bytes())`. -/
  | extendLen (data : Bytes)
  /-- `extend_from_slice(data)`. -/
  | extendData (data : Bytes)
  /-- `drop(outbound_stream)`. -/
  | dropInserted
  /-- `generate_messages`, before it has the lock of `outbound_stream`. -/
  | lockToGenerate
  /-- The test of the loop, and the `drain` or the end of the call. -/
  | drain
  /-- `increment_outbound_last_seq`. -/
  | incrementLastSeq (msg : Bytes)
  /-- `get_outbound_last_seq`. -/
  | getLastSeq (msg : Bytes)
  /-- Insert into `outbound_message_queue`, under its lock. -/
  | queueMessage (seq : Nat) (msg : Bytes)
  /-- `send_messages`: `Instant::now()`. -/
  | readClock
  /-- Collect what is due and stamp it, under the lock of `outbound_message_queue`. -/
  | collect (now : Instant)
  /-- Send what is collected. -/
  | send (now : Instant) (messages : List OutboundMessage)
  /-- `update_outbound_delivered_seq`. -/
  | updateDeliveredSeq (deliveredSeq : Nat)
  /-- `remove_sent_messages_from_queue`, the load. -/
  | loadDeliveredSeq
  /-- `retain`, under the lock of `outbound_message_queue`. -/
  | prune (deliveredSeq : Nat)
  | done

/-- What was done to `outbound_message_queue` under its lock. -/
inductive QueueEvent where
  | queued (seq : Nat) (message : OutboundMessage)
  /-- A call of `send_messages` that read the clock as `now`. -/
  | collected (now : Instant) (messages : List OutboundMessage)
  | pruned (deliveredSeq : Nat)

/-- The key and the message of an insertion. -/
def QueueEvent.insertion : QueueEvent → Option (Nat × OutboundMessage)
  | queued seq message => some (seq, message)
  | _ => none

/-- What the calls share: the stream, and the clock. -/
structure Sender (PublicKey : Type) where
  stream : VeilidStream PublicKey
  now : Instant
  /-- The lock of `outbound_stream` is taken. -/
  locked : Bool
  /-- History: the writes, in order. -/
  written : List Bytes
  /-- History: what was done to the queue, in order. -/
  queueLog : List QueueEvent
  /-- History: the number and the stamp of each message sent. -/
  sends : List (Nat × Instant)

abbrev SendTasks (PublicKey : Type) := Pool (Sender PublicKey) SendCall

namespace Sender
variable {PublicKey : Type}

abbrev outbound (c : Sender PublicKey) : Outbound := c.stream.outbound

def setOutbound (c : Sender PublicKey) (o : Outbound) : Sender PublicKey :=
  { c with stream := { c.stream with outbound := o } }

def logQueue (c : Sender PublicKey) (e : QueueEvent) : Sender PublicKey :=
  { c with queueLog := c.queueLog ++ [e] }

end Sender

namespace SendCall
variable {PublicKey : Type} [KeyCodec]

/-- **One atomic step of a call.**  A call that does not get the lock stays where it is. -/
def next (call : SendCall) (c : Sender PublicKey) : SendCall × Sender PublicKey :=
  let o := c.outbound
  match call with
  | lockToInsert data =>
    if c.locked then (lockToInsert data, c) else (extendLen data, { c with locked := true })
  | extendLen data =>
    let dataLen := data.length % 2 ^ 32
    (extendData data, c.setOutbound { o with stream := o.stream ++ U32.toLeBytes dataLen })
  | extendData data =>
    (dropInserted, { c.setOutbound { o with stream := o.stream ++ data } with
      written := c.written ++ [data] })
  | dropInserted => (done, { c with locked := false })
  | lockToGenerate =>
    if c.locked then (lockToGenerate, c) else (drain, { c with locked := true })
  | drain =>
    if o.stream = [] then (done, { c with locked := false })
    else
      let drainLimit := min settings.transportStreamPacketDataSizeBytes o.stream.length
      (incrementLastSeq (o.stream.take drainLimit),
        c.setOutbound { o with stream := o.stream.drop drainLimit })
  | incrementLastSeq msg =>
    (getLastSeq msg, c.setOutbound { o with lastSeq := addU32 o.lastSeq 1 })
  | getLastSeq msg => (queueMessage o.lastSeq msg, c)
  | queueMessage seq msg =>
    (drain, (c.setOutbound { o with
      messageQueue := o.messageQueue.insert seq ⟨seq, msg, none⟩
      generated := o.generated ++ [(seq, msg)] }).logQueue (.queued seq ⟨seq, msg, none⟩))
  | readClock => (collect c.now, c)
  | collect now =>
    (send now (o.messagesToSend now),
      (c.setOutbound (o.stampSent now)).logQueue (.collected now (o.messagesToSend now)))
  | send _ [] => (done, c)
  | send now (message :: messages) =>
    -- the panic ends the call
    if settings.veilidNetworkMessageLimitBytes < message.data.length then (done, c)
    else (send now messages, { c with
      stream := c.stream.sendMessageToRemote
        (c.stream.encode c.stream.inbound.receivedSeq message.seq message.data)
      sends := c.sends ++ [(message.seq, now)] })
  | updateDeliveredSeq deliveredSeq =>
    (loadDeliveredSeq, c.setOutbound (o.updateOutboundDeliveredSeq deliveredSeq))
  | loadDeliveredSeq => (prune o.deliveredSeq, c)
  | prune deliveredSeq =>
    (done, (c.setOutbound { o with
      messageQueue := o.messageQueue.retain fun seq => deliveredSeq < seq }).logQueue
        (.pruned deliveredSeq))
  | done => (done, c)

end SendCall

namespace SendTasks
open SendCall
variable {PublicKey : Type} [KeyCodec]

/-- A stream before its first write, whatever the rest of it. -/
def start (s : VeilidStream PublicKey) (now : Instant) : SendTasks PublicKey :=
  ⟨⟨{ s with outbound := Outbound.new now }, now, false, [], [], []⟩, []⟩

inductive Action where
  | insert (data : Bytes)
  | generate
  | send
  | acknowledge (deliveredSeq : Nat)
  /-- The `i`-th call takes a step. -/
  | advance (i : Nat)
  | tick (d : Nat)
  /-- The inbound half, which the sends read, goes on as it may. -/
  | receive (inbound : Inbound)

/-- A write spawns the two calls that send it, if the stream is active, and heartbeats and
the handshake spawn them too: here any call may be spawned at any time. -/
def step (p : SendTasks PublicKey) : Action → SendTasks PublicKey
  | .insert data => p.spawn (lockToInsert data)
  | .generate => p.spawn lockToGenerate
  | .send => p.spawn readClock
  | .acknowledge deliveredSeq => p.spawn (updateDeliveredSeq deliveredSeq)
  | .advance i => p.advance next i
  | .tick d => { p with shared := { p.shared with now := p.shared.now + d } }
  | .receive inbound =>
    { p with shared := { p.shared with stream := { p.shared.stream with inbound := inbound } } }

/-! ## A call alone -/

theorem solo_insert {c : Sender PublicKey} (hfree : c.locked = false) (data : Bytes) :
    Pool.Solo next (lockToInsert data, c) (done, { c with
      stream := (c.stream.insertToOutboundStream c.now data).1
      written := c.written ++ [data] }) := by
  have hlock : next (lockToInsert data) c = (extendLen data, { c with locked := true }) := by
    simp only [next, hfree, Bool.false_eq_true, if_false]
  refine .step hlock (.step rfl (.step rfl (.single ?_)))
  simp only [next, Sender.setOutbound, VeilidStream.insertToOutboundStream,
    Outbound.insertToOutboundStream, ← hfree]

theorem solo_drain {c : Sender PublicKey} (hheld : c.locked = true) :
    ∃ log, Pool.Solo next (drain, c) (done, { c with
      stream := c.stream.generateMessages
      locked := false
      queueLog := c.queueLog ++ log }) := by
  obtain ⟨o, ho⟩ : ∃ o, c.stream.outbound = o := ⟨_, rfl⟩
  induction o using Outbound.generateMessages_induction generalizing c with
  | nil o hs =>
    have hstep : next drain c = (done, { c with locked := false }) := by
      simp only [next, Sender.outbound, ho, hs, if_true]
    have hend : c.stream.generateMessages = c.stream := by
      rw [VeilidStream.generateMessages, ho, Outbound.generateMessages_of_nil hs, ← ho]
    refine ⟨[], .single ?_⟩
    rw [hstep, List.append_nil, hend]
  | pass o hs ih =>
    let drainLimit := min settings.transportStreamPacketDataSizeBytes o.stream.length
    let c' := c.setOutbound { o with stream := o.stream.drop drainLimit }
    let seq := addU32 o.lastSeq 1
    let message : OutboundMessage := ⟨seq, o.stream.take drainLimit, none⟩
    have hstep : next drain c = (incrementLastSeq (o.stream.take drainLimit), c') := by
      simp only [next, Sender.outbound, ho, if_neg hs]
      rfl
    obtain ⟨log, hlog⟩ := ih
      (c := (c.setOutbound o.generateMessage).logQueue (.queued seq message)) hheld rfl
    refine ⟨.queued seq message :: log, .step hstep (.step rfl (.step rfl (.step rfl ?_)))⟩
    have hend : c.stream.generateMessages =
        (c.setOutbound o.generateMessage).stream.generateMessages := by
      simp only [VeilidStream.generateMessages, Sender.setOutbound, ho,
        Outbound.generateMessages_of_ne_nil hs]
    rw [hend, List.append_cons]
    exact hlog

theorem solo_generate {c : Sender PublicKey} (hfree : c.locked = false) :
    ∃ log, Pool.Solo next (lockToGenerate, c) (done, { c with
      stream := c.stream.generateMessages
      queueLog := c.queueLog ++ log }) := by
  have hlock : next lockToGenerate c = (drain, { c with locked := true }) := by
    simp only [next, hfree, Bool.false_eq_true, if_false]
  have hheld : ({ c with locked := true } : Sender PublicKey).locked = true := rfl
  obtain ⟨log, hlog⟩ := solo_drain hheld
  refine ⟨log, .step hlock ?_⟩
  rw [← hfree] at hlog
  exact hlog

/-- Unless a message is above Veilid's limit, all that is collected is sent. -/
theorem solo_sendEach (now : Instant) (messages : List OutboundMessage) (c : Sender PublicKey) :
    ∃ ms, ms <+: messages ∧
      ((∀ m ∈ messages, m.data.length ≤ settings.veilidNetworkMessageLimitBytes) →
        ms = messages) ∧
      Pool.Solo next (send now messages, c) (done, { c with
        stream := VeilidStream.sendEach messages c.stream
        sends := c.sends ++ ms.map fun m => (m.seq, now) }) := by
  induction messages generalizing c with
  | nil =>
    exact ⟨[], List.prefix_rfl, fun _ => rfl, .single (by simp [next, VeilidStream.sendEach])⟩
  | cons m messages ih =>
    by_cases hm : settings.veilidNetworkMessageLimitBytes < m.data.length
    · have hstep : next (send now (m :: messages)) c = (done, c) := by
        simp only [next, if_pos hm]
      refine ⟨[], List.nil_prefix, ?_, .single ?_⟩
      · intro h
        have := h m List.mem_cons_self
        omega
      · rw [hstep, VeilidStream.sendEach, if_pos hm, List.map_nil, List.append_nil]
    · let c' : Sender PublicKey := { c with
        stream := c.stream.sendMessageToRemote
          (c.stream.encode c.stream.inbound.receivedSeq m.seq m.data)
        sends := c.sends ++ [(m.seq, now)] }
      have hstep : next (send now (m :: messages)) c = (send now messages, c') := by
        simp only [next, if_neg hm]
        rfl
      obtain ⟨ms, hpre, hall, hsolo⟩ := ih c'
      refine ⟨m :: ms, (List.prefix_cons_inj m).mpr hpre, ?_, .step hstep ?_⟩
      · intro h
        rw [hall fun m' hm' => h m' (List.mem_cons_of_mem _ hm')]
      · rw [VeilidStream.sendEach, if_neg hm, List.map_cons, List.append_cons]
        exact hsolo

theorem solo_send (c : Sender PublicKey) :
    ∃ ms, ms <+: c.outbound.messagesToSend c.now ∧
      ((∀ m ∈ c.outbound.messagesToSend c.now,
        m.data.length ≤ settings.veilidNetworkMessageLimitBytes) →
        ms = c.outbound.messagesToSend c.now) ∧
      Pool.Solo next (readClock, c) (done, { c with
        stream := c.stream.sendMessages c.now
        queueLog := c.queueLog ++ [.collected c.now (c.outbound.messagesToSend c.now)]
        sends := c.sends ++ ms.map fun m => (m.seq, c.now) }) := by
  obtain ⟨ms, hpre, hall, hsolo⟩ := solo_sendEach c.now (c.outbound.messagesToSend c.now)
    ((c.setOutbound (c.outbound.stampSent c.now)).logQueue
      (.collected c.now (c.outbound.messagesToSend c.now)))
  exact ⟨ms, hpre, hall, .step rfl (.step rfl hsolo)⟩

theorem solo_acknowledge (c : Sender PublicKey) (deliveredSeq : Nat) :
    Pool.Solo next (updateDeliveredSeq deliveredSeq, c) (done, { c with
      stream := (c.stream.updateOutboundDeliveredSeq deliveredSeq).removeSentMessagesFromQueue
      queueLog := c.queueLog ++ [.pruned deliveredSeq] }) :=
  .step rfl (.step rfl (.single rfl))

end SendTasks

/-! ## What the lock keeps together -/

namespace SendCall

/-- The call holds the lock of `outbound_stream`. -/
def holdsLock : SendCall → Bool
  | extendLen _ | extendData _ | dropInserted => true
  | drain | incrementLastSeq _ | getLastSeq _ | queueMessage _ _ => true
  | _ => false

/-- The length that stands in `outbound_stream` without its write. -/
def header : SendCall → Bytes
  | extendData data => U32.toLeBytes data.length
  | _ => []

/-- The bytes taken from `outbound_stream` and not yet queued. -/
def piece : SendCall → Bytes
  | incrementLastSeq msg | getLastSeq msg | queueMessage _ msg => msg
  | _ => []

/-- How many numbers are taken and not yet given to a message. -/
def taken : SendCall → Nat
  | getLastSeq _ | queueMessage _ _ => 1
  | _ => 0

/-- What a call with a piece in its hands knows of it. -/
def Knows (o : Outbound) : SendCall → Prop
  | incrementLastSeq msg | getLastSeq msg =>
    0 < msg.length ∧ msg.length ≤ settings.transportStreamPacketDataSizeBytes
  | queueMessage seq msg => seq = o.lastSeq ∧
    0 < msg.length ∧ msg.length ≤ settings.transportStreamPacketDataSizeBytes
  | _ => True

theorem holds_nothing {t : SendCall} (h : t.holdsLock = false) :
    t.taken = 0 ∧ t.piece = [] ∧ t.header = [] := by
  cases t with
  | extendData _ | incrementLastSeq _ | getLastSeq _ | queueMessage _ _ => cases h
  | _ => exact ⟨rfl, rfl, rfl⟩

end SendCall

namespace Sender
variable {PublicKey : Type}

/-- **The account** of a stream whose lock the call `t` holds; a call that holds nothing
stands for the stream whose lock is free. -/
structure Accounted (c : Sender PublicKey) (t : SendCall) : Prop where
  seq_eq : ∀ i e, c.outbound.generated[i]? = some e → e.1 = (i + 1) % 2 ^ 32
  lastSeq_eq : c.outbound.lastSeq = (c.outbound.generated.length + t.taken) % 2 ^ 32
  sized : c.outbound.Sized
  queued : c.outbound.Queued
  text : (c.outbound.generated.map Prod.snd).flatten ++ t.piece ++ c.outbound.stream =
    U32.leHeader.frames c.written ++ t.header
  insertions : c.queueLog.filterMap QueueEvent.insertion =
    c.outbound.generated.map fun e => (e.1, ⟨e.1, e.2, none⟩)
  knows : t.Knows c.outbound

/-- What the call with the lock can see is the same, but for queued messages that are gone. -/
structure Agrees (c c' : Sender PublicKey) : Prop where
  generated : c'.outbound.generated = c.outbound.generated
  lastSeq : c'.outbound.lastSeq = c.outbound.lastSeq
  text : c'.outbound.stream = c.outbound.stream
  written : c'.written = c.written
  insertions : c'.queueLog.filterMap QueueEvent.insertion =
    c.queueLog.filterMap QueueEvent.insertion
  entry : ∀ k e, c'.outbound.entry k = some e → c.outbound.entry k = some e

theorem Agrees.refl (c : Sender PublicKey) : c.Agrees c :=
  ⟨rfl, rfl, rfl, rfl, rfl, fun _ _ h => h⟩

theorem Accounted.of_agrees {c c' : Sender PublicKey} {t : SendCall} (h : c.Accounted t)
    (hc : c.Agrees c') : c'.Accounted t := by
  refine ⟨?_, ?_, ?_, ?_, ?_, ?_, ?_⟩
  · rw [hc.generated]
    exact h.seq_eq
  · rw [hc.lastSeq, hc.generated]
    exact h.lastSeq_eq
  · intro e he
    rw [hc.generated] at he
    exact h.sized e he
  · intro k e he
    rw [hc.generated]
    exact h.queued k e (hc.entry k e he)
  · rw [hc.generated, hc.text, hc.written]
    exact h.text
  · rw [hc.insertions, hc.generated]
    exact h.insertions
  · have hk := h.knows
    unfold SendCall.Knows at hk ⊢
    rw [hc.lastSeq]
    exact hk

/-- Only what a call has in its hands counts. -/
theorem Accounted.of_call {c : Sender PublicKey} {t t' : SendCall} (h : c.Accounted t)
    (htaken : t'.taken = t.taken) (hpiece : t'.piece = t.piece) (hheader : t'.header = t.header)
    (hknows : t'.Knows c.outbound) : c.Accounted t' :=
  ⟨h.seq_eq, htaken ▸ h.lastSeq_eq, h.sized, h.queued,
    by rw [hpiece, hheader]; exact h.text, h.insertions, hknows⟩

theorem accounted_start (s : VeilidStream PublicKey) (now : Instant) :
    (⟨{ s with outbound := Outbound.new now }, now, false, [], [], []⟩ :
      Sender PublicKey).Accounted .done :=
  ⟨by simp [Outbound.new], rfl, Outbound.sized_new now, Outbound.queued_new now, rfl, rfl,
    trivial⟩

end Sender

namespace SendTasks
open SendCall
variable {PublicKey : Type} [KeyCodec]

/-- **A step of a call without the lock**: the call takes the lock, or the call with the lock
does not see it. -/
theorem next_outside (t : SendCall) (c : Sender PublicKey) (ht : t.holdsLock = false) :
    (c.locked = false ∧ (∃ t', next t c = (t', { c with locked := true }) ∧ t'.holdsLock = true ∧
      t'.taken = 0 ∧ t'.piece = [] ∧ t'.header = [] ∧ t'.Knows c.outbound)) ∨
    ((next t c).1.holdsLock = false ∧ (next t c).2.locked = c.locked ∧
      c.Agrees (next t c).2) := by
  cases t with
  | lockToInsert data =>
    cases hl : c.locked with
    | true =>
      have hstep : next (lockToInsert data) c = (lockToInsert data, c) := by simp [next, hl]
      rw [hstep]
      exact .inr ⟨rfl, hl, .refl c⟩
    | false =>
      exact .inl ⟨rfl, extendLen data, by simp [next, hl], rfl, rfl, rfl, rfl, trivial⟩
  | lockToGenerate =>
    cases hl : c.locked with
    | true =>
      have hstep : next lockToGenerate c = (lockToGenerate, c) := by simp [next, hl]
      rw [hstep]
      exact .inr ⟨rfl, hl, .refl c⟩
    | false => exact .inl ⟨rfl, drain, by simp [next, hl], rfl, rfl, rfl, rfl, trivial⟩
  | collect now =>
    refine .inr ⟨rfl, rfl, rfl, rfl, rfl, rfl, ?_, ?_⟩
    · show (c.queueLog ++ [_]).filterMap QueueEvent.insertion = _
      rw [List.filterMap_append]
      exact List.append_nil _
    · intro k e he
      have hstamp := c.outbound.stampSent_entry now
      exact hstamp ▸ he
  | send now messages =>
    cases messages with
    | nil => exact .inr ⟨rfl, rfl, .refl c⟩
    | cons m messages =>
      by_cases hm : settings.veilidNetworkMessageLimitBytes < m.data.length
      · have hstep : next (send now (m :: messages)) c = (done, c) := by
          simp only [next, if_pos hm]
        rw [hstep]
        exact .inr ⟨rfl, rfl, .refl c⟩
      · refine .inr ?_
        simp only [next, if_neg hm]
        exact ⟨rfl, trivial, rfl, rfl, rfl, rfl, rfl, fun _ _ h => h⟩
  | prune deliveredSeq =>
    refine .inr ⟨rfl, rfl, rfl, rfl, rfl, rfl, ?_, ?_⟩
    · show (c.queueLog ++ [_]).filterMap QueueEvent.insertion = _
      rw [List.filterMap_append]
      exact List.append_nil _
    · intro k e he
      have hprune := Outbound.removeSentMessagesFromQueue_entry
        { c.outbound with deliveredSeq := deliveredSeq } k
      have he' : (if deliveredSeq < k then c.outbound.entry k else none) = some e :=
        hprune.symm.trans he
      split at he'
      · exact he'
      · cases he'
  | readClock => exact .inr ⟨rfl, rfl, .refl c⟩
  | updateDeliveredSeq deliveredSeq =>
    exact .inr ⟨rfl, rfl, rfl, rfl, rfl, rfl, rfl, fun _ _ h => h⟩
  | loadDeliveredSeq => exact .inr ⟨rfl, rfl, .refl c⟩
  | done => exact .inr ⟨rfl, rfl, .refl c⟩
  | _ => cases ht

/-- The piece in the hands of the call is queued under the number taken for it. -/
theorem queueMessage_accounted {c : Sender PublicKey} {seq : Nat} {msg : Bytes}
    (h : c.Accounted (queueMessage seq msg)) :
    (next (queueMessage seq msg) c).2.Accounted drain := by
  obtain ⟨hseq, hfits⟩ := h.knows
  have hlast := h.lastSeq_eq
  simp only [taken] at hlast
  refine ⟨?_, ?_, h.sized.concat (e := (seq, msg)) hfits rfl, h.queued.concat ?_ rfl, ?_, ?_, trivial⟩
  · intro i e he
    simp only [next, Sender.logQueue, Sender.setOutbound, Sender.outbound] at he
    rcases getElem?_concat_cases he with he | ⟨rfl, rfl⟩
    · exact h.seq_eq i e he
    · exact hseq.trans hlast
  · simp only [next, Sender.logQueue, Sender.setOutbound, Sender.outbound, taken,
      List.length_append, List.length_singleton]
    exact hlast
  · intro k
    simp only [next, Sender.logQueue, Sender.setOutbound, Sender.outbound, Outbound.entry,
      KeyedMap.lookup_insert]
    split
    · rfl
    · rfl
  · have htext := h.text
    simp only [piece, header, List.append_nil] at htext
    simp only [next, Sender.logQueue, Sender.setOutbound, Sender.outbound, piece, header,
      List.append_nil, List.map_append, List.map_cons, List.map_nil, List.flatten_append,
      List.flatten_cons, List.flatten_nil]
    exact htext
  · simp only [next, Sender.logQueue, Sender.setOutbound, Sender.outbound,
      List.filterMap_append, List.map_append, h.insertions]
    rfl

/-- **A step of the call with the lock** keeps the account, and the lock until it ends. -/
theorem next_inside {t : SendCall} {c : Sender PublicKey} (ht : t.holdsLock = true)
    (hl : c.locked = true) (h : c.Accounted t) :
    (next t c).2.Accounted (next t c).1 ∧ (next t c).2.locked = (next t c).1.holdsLock := by
  cases t with
  | extendLen data =>
    refine ⟨⟨h.seq_eq, h.lastSeq_eq, h.sized, h.queued, ?_, h.insertions, trivial⟩, hl⟩
    have htext := h.text
    simp only [piece, header, List.append_nil] at htext
    simp only [next, Sender.setOutbound, Sender.outbound, piece, header, List.append_nil,
      U32.toLeBytes_mod]
    rw [← List.append_assoc, htext]
  | extendData data =>
    refine ⟨⟨h.seq_eq, h.lastSeq_eq, h.sized, h.queued, ?_, h.insertions, trivial⟩, hl⟩
    have htext := h.text
    simp only [piece, header, List.append_nil] at htext
    simp only [next, Sender.setOutbound, Sender.outbound, piece, header, List.append_nil,
      U32.leHeader.frames_append, U32.leHeader.frames_cons, U32.leHeader.frames_nil]
    rw [← List.append_assoc, htext, List.append_assoc]
    rfl
  | dropInserted =>
    exact ⟨⟨h.seq_eq, h.lastSeq_eq, h.sized, h.queued, h.text, h.insertions, trivial⟩, rfl⟩
  | drain =>
    by_cases hs : c.outbound.stream = []
    · have hstep : next drain c = (done, { c with locked := false }) := by
        simp only [next, if_pos hs]
      rw [hstep]
      exact ⟨⟨h.seq_eq, h.lastSeq_eq, h.sized, h.queued, h.text, h.insertions, trivial⟩, rfl⟩
    · simp only [next, if_neg hs, Outbound.take_min_length]
      refine ⟨⟨h.seq_eq, h.lastSeq_eq, h.sized, h.queued, ?_, h.insertions, ?_⟩, hl⟩
      · have htext := h.text
        simp only [piece, header, List.append_nil] at htext
        simp only [Sender.setOutbound, Sender.outbound, piece, header, List.append_nil]
        rw [← htext, List.append_assoc, ← Outbound.take_min_length, List.take_append_drop]
      · exact Outbound.take_sized hs
  | incrementLastSeq msg =>
    refine ⟨⟨h.seq_eq, ?_, h.sized, h.queued, h.text, h.insertions, h.knows⟩, hl⟩
    show addU32 c.outbound.lastSeq 1 = (c.outbound.generated.length + 1) % 2 ^ 32
    rw [h.lastSeq_eq, addU32, Nat.mod_add_mod]
    rfl
  | getLastSeq msg =>
    exact ⟨⟨h.seq_eq, h.lastSeq_eq, h.sized, h.queued, h.text, h.insertions, rfl, h.knows⟩, hl⟩
  | queueMessage seq msg => exact ⟨queueMessage_accounted h, hl⟩
  | _ => cases ht

/-- The calls inside are those that hold the lock. -/
def lockSection : Pool.Section (Sender PublicKey) SendCall where
  inside t := t.holdsLock = true
  idle c := c.locked = false ∧ c.Accounted .done
  busy t c := c.locked = true ∧ c.Accounted t

omit [KeyCodec] in
theorem guarded_start (s : VeilidStream PublicKey) (now : Instant) :
    (start s now).Guarded lockSection :=
  ⟨by simp [start], fun _ => ⟨rfl, Sender.accounted_start s now⟩, by simp [start]⟩

theorem Guarded.advance {p : SendTasks PublicKey} (h : p.Guarded lockSection) (i : Nat) :
    (p.advance next i).Guarded lockSection := by
  refine Pool.advance_rule next p i h fun t hi => ?_
  cases ht : t.holdsLock with
  | true =>
    obtain ⟨hl, hacc⟩ := h.busy t (List.mem_of_getElem? hi) ht
    obtain ⟨hacc', hl'⟩ := next_inside ht hl hacc
    refine h.advance_alone hi (.inl ht) (fun hin => ⟨hl'.trans hin, hacc'⟩) ?_
    intro hout
    have hout' : (next t p.shared).1.holdsLock = false := Bool.eq_false_iff.mpr hout
    obtain ⟨htaken, hpiece, hheader⟩ := holds_nothing hout'
    exact ⟨hl'.trans hout', hacc'.of_call htaken.symm hpiece.symm hheader.symm trivial⟩
  | false =>
    obtain ⟨hl, t', hstep, hin', htaken, hpiece, hheader, hknows⟩ | ⟨hout', hl', hagree⟩ :=
      next_outside t p.shared ht
    · have hnone : ∀ u ∈ p.tasks, ¬ u.holdsLock = true := by
        intro u hu hin
        have := (h.busy u hu hin).1
        rw [hl] at this
        cases this
      rw [hstep]
      refine h.advance_alone hi (.inr hnone) ?_ (fun hout => absurd hin' hout)
      intro _
      have hacc := (h.idle hnone).2.of_call htaken hpiece hheader hknows
      exact ⟨rfl, hacc.seq_eq, hacc.lastSeq_eq, hacc.sized, hacc.queued, hacc.text,
        hacc.insertions, hacc.knows⟩
    · refine h.advance_outside hi (Bool.eq_false_iff.mp ht) (Bool.eq_false_iff.mp hout') ?_ ?_
      · rintro ⟨hl, hacc⟩
        exact ⟨hl'.trans hl, hacc.of_agrees hagree⟩
      · rintro u _ ⟨hl, hacc⟩
        exact ⟨hl'.trans hl, hacc.of_agrees hagree⟩

theorem Guarded.step {p : SendTasks PublicKey} (h : p.Guarded lockSection) (a : Action) :
    (step p a).Guarded lockSection := by
  -- neither the clock nor the inbound half is on the account
  have hframe : ∀ c : Sender PublicKey, p.shared.Agrees c → c.locked = p.shared.locked →
      Pool.Guarded lockSection ⟨c, p.tasks⟩ := by
    intro c hc hl
    refine h.of_shared ?_ ?_
    · exact fun hidle => ⟨hl.trans hidle.1, hidle.2.of_agrees hc⟩
    · exact fun u _ hbusy => ⟨hl.trans hbusy.1, hbusy.2.of_agrees hc⟩
  cases a with
  | insert data => exact h.spawn (t := lockToInsert data) (by simp [lockSection, holdsLock])
  | generate => exact h.spawn (t := lockToGenerate) (by simp [lockSection, holdsLock])
  | send => exact h.spawn (t := readClock) (by simp [lockSection, holdsLock])
  | acknowledge deliveredSeq =>
    exact h.spawn (t := updateDeliveredSeq deliveredSeq) (by simp [lockSection, holdsLock])
  | advance i => exact Guarded.advance h i
  | tick d => exact hframe _ ⟨rfl, rfl, rfl, rfl, rfl, fun _ _ h => h⟩ rfl
  | receive inbound => exact hframe _ ⟨rfl, rfl, rfl, rfl, rfl, fun _ _ h => h⟩ rfl

omit [KeyCodec] in
/-- Whoever holds the lock, some account of the stream holds. -/
theorem Guarded.accounted {p : SendTasks PublicKey} (h : p.Guarded lockSection) :
    ∃ t, p.shared.Accounted t := by
  by_cases hin : ∃ t ∈ p.tasks, t.holdsLock = true
  · obtain ⟨t, ht, hin⟩ := hin
    exact ⟨t, (h.busy t ht hin).2⟩
  · exact ⟨done, (h.idle fun t ht hin' => hin ⟨t, ht, hin'⟩).2⟩

theorem run_guarded (s : VeilidStream PublicKey) (now : Instant) (as : List Action) :
    (Runs.run step (start s now) as).Guarded lockSection := by
  have hstep : ∀ (p : SendTasks PublicKey) (a : Action), p.Guarded lockSection →
      (step p a).Guarded lockSection := fun _ a h => Guarded.step h a
  exact Runs.invariant hstep (guarded_start s now) as

omit [KeyCodec] in
/-- Below `2 ^ 32` messages the numbers are `1, 2, …`. -/
theorem Accounted.numbers {c : Sender PublicKey} {t : SendCall} (h : c.Accounted t)
    (hlt : c.outbound.generated.length < 2 ^ 32) :
    c.outbound.generated.map Prod.fst = List.range' 1 c.outbound.generated.length := by
  have hn : Outbound.Numbered { c.outbound with lastSeq := c.outbound.generated.length } :=
    ⟨h.seq_eq, (Nat.mod_eq_of_lt hlt).symm⟩
  exact hn.map_fst hlt

/-- **Chunking loses and duplicates nothing**, whatever calls overlap.  While the lock of
`outbound_stream` is free the messages have the numbers `1, 2, …, lastSeq`, and their data and
the stream are what was written; while a call holds it, up to what that call has in its hands.
A message is queued once, under its number, and is neither empty nor too long for a packet. -/
theorem chunking_conserves (s : VeilidStream PublicKey) (now : Instant) (as : List Action) :
    let p := Runs.run step (start s now) as
    let c := p.shared
    let o := c.outbound
    o.generated.length < 2 ^ 32 →
      o.generated.map Prod.fst = List.range' 1 o.generated.length ∧
      c.queueLog.filterMap QueueEvent.insertion =
        o.generated.map (fun e => (e.1, ⟨e.1, e.2, none⟩)) ∧
      o.Sized ∧ o.Queued ∧
      (c.locked = false → o.lastSeq = o.generated.length ∧
        (o.generated.map Prod.snd).flatten ++ o.stream = U32.leHeader.frames c.written) ∧
      ∀ t ∈ p.tasks, t.holdsLock = true →
        o.lastSeq = (o.generated.length + t.taken) % 2 ^ 32 ∧
        (o.generated.map Prod.snd).flatten ++ t.piece ++ o.stream =
          U32.leHeader.frames c.written ++ t.header := by
  intro p c o hlt
  have hg : p.Guarded lockSection := run_guarded s now as
  have hbusy : ∀ t ∈ p.tasks, t.holdsLock = true → c.locked = true ∧ c.Accounted t := hg.busy
  have hidle : c.locked = false → c.Accounted done := by
    intro hfree
    refine (hg.idle fun t ht hin => ?_).2
    have hheld := (hbusy t ht hin).1
    rw [hfree] at hheld
    cases hheld
  obtain ⟨t, hacc⟩ : ∃ t, c.Accounted t := Guarded.accounted hg
  refine ⟨Accounted.numbers hacc hlt, hacc.insertions, hacc.sized, hacc.queued, ?_, ?_⟩
  · intro hfree
    have h := hidle hfree
    refine ⟨h.lastSeq_eq.trans (Nat.mod_eq_of_lt hlt), ?_⟩
    have htext := h.text
    simp only [piece, header, List.append_nil] at htext
    exact htext
  · intro t ht hin
    exact ⟨(hbusy t ht hin).2.lastSeq_eq, (hbusy t ht hin).2.text⟩

end SendTasks

namespace SendTasks
open Sample

/-- A write, and two calls that generate; the second one waits for the lock. -/
def sampleCalls : List Action :=
  [.insert [7], .generate, .generate, .advance 0, .advance 1, .advance 0, .advance 0, .advance 0,
    .advance 1, .advance 1, .advance 2, .advance 1, .advance 1, .advance 1, .advance 1, .advance 2,
    .advance 2]

theorem chunking_conserves_sample :
    let c := (Runs.run step (start ReceiveTasks.sampleStream 0) sampleCalls).shared
    c.outbound.lastSeq = c.outbound.generated.length ∧
      (c.outbound.generated.map Prod.snd).flatten ++ c.outbound.stream =
        U32.leHeader.frames c.written :=
  (chunking_conserves ReceiveTasks.sampleStream 0 sampleCalls (by decide)).2.2.2.2.1 (by decide)

end SendTasks
end VeilidTransport
