import VeilidTransport.Stream
import VeilidTransport.Sample
import VeilidTransport.Foundation.Pool
import VeilidTransport.Foundation.Runs

/-!
# Calls of `recv_message` that overlap

`get_next_event` spawns one task for each update, so calls of `recv_message` on one
stream overlap.  Every field of the stream has a lock of its own: `RecvCall.next` is one
call as the atomic steps between its locks, and `run_alone` says that a call that no
other interrupts is `recvMessage`.

Between the load of the cursor and its store nothing keeps a second call away.
`calls_in_order` holds for the interleavings in which a call takes the next message
only while no other call is taking one; `duplicate_appended` is an interleaving
without that, in which two copies of a message are both appended.
-/

namespace VeilidTransport

/-- The messages of a sender under their numbers. -/
def numbered (messages : List Bytes) : List (Nat × Bytes) :=
  messages.mapIdx fun k data => (k + 1, data)

theorem mem_numbered {messages : List Bytes} {k : Nat} {data : Bytes} :
    (k + 1, data) ∈ numbered messages ↔ messages[k]? = some data := by
  rw [numbered, List.mem_mapIdx]
  constructor
  · rintro ⟨i, hi, heq⟩
    obtain ⟨rfl, rfl⟩ : i = k ∧ messages[i] = data := by simpa using heq
    exact List.getElem?_eq_getElem hi
  · intro h
    obtain ⟨hi, rfl⟩ := List.getElem?_eq_some_iff.mp h
    exact ⟨k, hi, rfl⟩

theorem numbered_getElem {messages : List Bytes} {k : Nat} {data : Bytes}
    (h : (k + 1, data) ∈ numbered messages) : (numbered messages)[k]? = some (k + 1, data) := by
  rw [numbered, List.getElem?_mapIdx, mem_numbered.mp h]
  rfl

theorem map_snd_numbered (messages : List Bytes) :
    (numbered messages).map Prod.snd = messages := by
  refine List.ext_getElem? fun k => ?_
  rw [numbered, List.getElem?_map, List.getElem?_mapIdx]
  cases messages[k]? <;> rfl

namespace Inbound

/-- The slices moved to the stream, and those about to be, are among the slices framed
in what was appended, in the same order. -/
def Framed (i : Inbound) (pending : List Bytes) : Prop :=
  ∃ framed, U32.leHeader.Fits framed ∧
    i.appended.flatten = U32.leHeader.frames framed ++ i.buffer ∧
    (i.slices ++ pending).Sublist framed

theorem framed_new (t : Instant) : (new t).Framed [] :=
  ⟨[], U32.leHeader.fits_nil, rfl, List.Sublist.refl _⟩

theorem Framed.moved {i : Inbound} {ps : List Bytes} (h : i.Framed ps) : i.Framed [] := by
  obtain ⟨framed, hfit, happ, hsub⟩ := h
  refine ⟨framed, hfit, happ, ?_⟩
  rw [List.append_nil]
  exact (List.sublist_append_left i.slices ps).trans hsub

theorem Framed.recvInboundBuffer {i : Inbound} {ps : List Bytes} (h : i.Framed ps)
    (data : Bytes) : (i.recvInboundBuffer data).Framed ps := by
  obtain ⟨framed, hfit, happ, hsub⟩ := h
  refine ⟨framed, hfit, ?_, hsub⟩
  simp only [Inbound.recvInboundBuffer, List.flatten_append, List.flatten_singleton, happ,
    List.append_assoc]

theorem Framed.drain {i : Inbound} {ps : List Bytes} (h : i.Framed ps) (n : Nat) :
    (i.drainMessageQueue n).2.Framed ps := by
  refine drainLoop_invariant (P := fun _ i => Framed i ps) ?_ _ h
  intro n i data _ h
  exact Framed.recvInboundBuffer (i := i.removeMessage (addU32 n 1)) h data

/-- Cutting slices off moves them from the buffer to the slices about to be moved,
unless they are dropped. -/
theorem Framed.takeCompleteSlices {i : Inbound} (h : i.Framed []) :
    i.takeCompleteSlices.2.Framed i.takeCompleteSlices.1 := by
  obtain ⟨framed, hfit, happ, hsub⟩ := h
  obtain ⟨h1, h2, -⟩ := sliceLoop_spec i.buffer.length i.buffer
  unfold Inbound.takeCompleteSlices
  revert h1 h2
  rcases sliceLoop i.buffer.length i.buffer with ⟨ds, left, returned⟩
  intro h1 h2
  rw [List.append_nil] at hsub
  refine ⟨framed ++ ds, U32.leHeader.fits_append.mpr ⟨hfit, h2⟩, ?_, ?_⟩
  · show i.appended.flatten = U32.leHeader.frames (framed ++ ds) ++ left
    rw [U32.leHeader.frames_append, List.append_assoc, ← h1]
    exact happ
  · show (i.slices ++ if returned then [] else ds).Sublist (framed ++ ds)
    by_cases hr : returned = true
    · rw [if_pos hr, List.append_nil]
      exact hsub.trans (List.sublist_append_left framed ds)
    · rw [if_neg hr]
      exact hsub.append (List.Sublist.refl ds)

theorem Framed.pushSlices {i : Inbound} {ps : List Bytes} (h : i.Framed ps) :
    (i.pushSlices ps).Framed [] := by
  obtain ⟨framed, hfit, happ, hsub⟩ := h
  refine ⟨framed, hfit, happ, ?_⟩
  rw [List.append_nil]
  exact hsub

/-- The inbound half with the first `n` messages appended, and with these slices about
to be moved to the stream. -/
structure Settled (messages : List Bytes) (i : Inbound) (n : Nat) (ps : List Bytes) : Prop where
  counted : i.Counted n
  takenFrom : i.TakenFrom (numbered messages)
  framed : i.Framed ps

theorem Settled.storeMessage {messages : List Bytes} {i : Inbound} {n : Nat} {ps : List Bytes}
    (h : Settled messages i n ps) {k : Nat} {data : Bytes}
    (hm : (k + 1, data) ∈ numbered messages) :
    Settled messages (i.storeMessage (k + 1) data) n ps :=
  ⟨h.counted.storeMessage (Nat.succ_pos k) data, h.takenFrom.storeMessage hm, h.framed⟩

theorem Settled.recvInboundBuffer {messages : List Bytes} {i : Inbound} {n : Nat}
    {ps : List Bytes} (h : Settled messages i n ps) {data : Bytes} (hlt : n + 1 < 2 ^ 32)
    (hm : (n + 1, data) ∈ numbered messages) :
    Settled messages (i.recvInboundBuffer data) (n + 1) ps :=
  ⟨h.counted.recvInboundBuffer hlt data, h.takenFrom.recvInboundBuffer h.counted hm,
    h.framed.recvInboundBuffer data⟩

theorem Settled.drain {messages : List Bytes} {i : Inbound} {n : Nat} {ps : List Bytes}
    (h : Settled messages i n ps) :
    Settled messages (i.drainMessageQueue n).2 (i.drainMessageQueue n).1 ps :=
  ⟨h.counted.drain, h.takenFrom.drain h.counted, h.framed.drain n⟩

theorem Settled.takeCompleteSlices {messages : List Bytes} {i : Inbound} {n : Nat}
    (h : Settled messages i n []) :
    Settled messages i.takeCompleteSlices.2 n i.takeCompleteSlices.1 :=
  ⟨⟨h.counted.length_appended, h.counted.cursor_lt, h.counted.lookup_zero⟩,
    ⟨h.takenFrom.appended, h.takenFrom.queued⟩, h.framed.takeCompleteSlices⟩

theorem Settled.pushSlices {messages : List Bytes} {i : Inbound} {n : Nat} {ps : List Bytes}
    (h : Settled messages i n ps) : Settled messages (i.pushSlices ps) n [] :=
  ⟨⟨h.counted.length_appended, h.counted.cursor_lt, h.counted.lookup_zero⟩,
    ⟨h.takenFrom.appended, h.takenFrom.queued⟩, h.framed.pushSlices⟩

/-- Only the history and the queue count. -/
theorem Settled.congr {messages : List Bytes} {i i' : Inbound} {n : Nat} {ps : List Bytes}
    (h : Settled messages i n ps) (happ : i'.appended = i.appended)
    (hbuf : i'.buffer = i.buffer) (hsl : i'.slices = i.slices)
    (hq : i'.messageQueue = i.messageQueue) : Settled messages i' n ps := by
  refine ⟨⟨?_, h.counted.cursor_lt, ?_⟩, ⟨?_, ?_⟩, ?_⟩
  · rw [happ]; exact h.counted.length_appended
  · rw [hq]; exact h.counted.lookup_zero
  · rw [happ]; exact h.takenFrom.appended
  · rw [hq]; exact h.takenFrom.queued
  · obtain ⟨framed, hfit, hflat, hsub⟩ := h.framed
    exact ⟨framed, hfit, by rw [happ, hbuf]; exact hflat, by rw [hsl]; exact hsub⟩

theorem Settled.appended_eq {messages : List Bytes} {i : Inbound} {n : Nat} {ps : List Bytes}
    (h : Settled messages i n ps) : n ≤ messages.length ∧ i.appended = messages.take n := by
  obtain ⟨hle, happ⟩ := h.takenFrom.appended_eq h.counted fun _ _ hm => numbered_getElem hm
  rw [List.map_take, map_snd_numbered] at happ
  refine ⟨?_, happ⟩
  rwa [numbered, List.length_mapIdx] at hle

end Inbound

/-! ## A call, step by step -/

/-- A call of `recv_message`, at its next step. -/
inductive RecvCall where
  /-- `get_inbound_received_seq`. -/
  | load (deliveredSeq seq : Nat) (data : Bytes)
  /-- Insert into `inbound_message_queue`. -/
  | store (seq : Nat) (data : Bytes)
  /-- `is_active`. -/
  | check (deliveredSeq finalSeq : Nat) (data : Bytes)
  /-- `recv_inbound_buffer`. -/
  | append (deliveredSeq finalSeq : Nat) (data : Bytes)
  /-- The `while let` over `inbound_message_queue`, under its lock. -/
  | drain (deliveredSeq finalSeq : Nat)
  /-- `update_inbound_received_seq`. -/
  | updateReceivedSeq (deliveredSeq finalSeq : Nat)
  /-- `update_outbound_delivered_seq`. -/
  | updateDeliveredSeq (deliveredSeq : Nat)
  /-- `remove_sent_messages_from_queue`, the load. -/
  | loadDeliveredSeq
  /-- `remove_sent_messages_from_queue`, the queue's lock. -/
  | prune (deliveredSeq : Nat)
  /-- `update_inbound_stream`, the buffer's lock. -/
  | takeSlices
  /-- `update_inbound_stream`, the stream's lock. -/
  | pushSlices (completeSlices : List Bytes)
  /-- `wake_to_read`. -/
  | wake
  /-- `update_inbound_last_timestamp_to_now`. -/
  | stamp
  | done
  deriving DecidableEq

/-- What the calls share: the stream, and the clock. -/
structure Receiver (PublicKey : Type) where
  stream : VeilidStream PublicKey
  now : Instant

abbrev ReceiveTasks (PublicKey : Type) := Pool (Receiver PublicKey) RecvCall

namespace RecvCall
variable {PublicKey : Type}

/-- The call goes on to `call`, with the inbound half changed. -/
def andInbound (call : RecvCall) (r : Receiver PublicKey) (i : Inbound) :
    RecvCall × Receiver PublicKey :=
  (call, { r with stream := { r.stream with inbound := i } })

/-- The call goes on to `call`, with the outbound half changed. -/
def andOutbound (call : RecvCall) (r : Receiver PublicKey) (o : Outbound) :
    RecvCall × Receiver PublicKey :=
  (call, { r with stream := { r.stream with outbound := o } })

/-- **One atomic step of a call.** -/
def next (call : RecvCall) (r : Receiver PublicKey) : RecvCall × Receiver PublicKey :=
  match call with
  | load deliveredSeq seq data =>
    let receivedSeq := r.stream.inbound.receivedSeq
    if seq ≤ receivedSeq then (done, r)
    else if addU32 receivedSeq 1 < seq then
      if seq < addU32 receivedSeq 20 then (store seq data, r) else (done, r)
    else (check deliveredSeq receivedSeq data, r)
  | store seq data => done.andInbound r (r.stream.inbound.storeMessage seq data)
  | check deliveredSeq finalSeq data =>
    if r.stream.isActive r.now then (append deliveredSeq finalSeq data, r) else (done, r)
  | append deliveredSeq finalSeq data =>
    (drain deliveredSeq (addU32 finalSeq 1)).andInbound r (r.stream.inbound.recvInboundBuffer data)
  | drain deliveredSeq finalSeq =>
    (updateReceivedSeq deliveredSeq (r.stream.inbound.drainMessageQueue finalSeq).1).andInbound r
      (r.stream.inbound.drainMessageQueue finalSeq).2
  | updateReceivedSeq deliveredSeq finalSeq =>
    (updateDeliveredSeq deliveredSeq).andInbound r
      (r.stream.inbound.updateInboundReceivedSeq finalSeq)
  | updateDeliveredSeq deliveredSeq =>
    loadDeliveredSeq.andOutbound r (r.stream.outbound.updateOutboundDeliveredSeq deliveredSeq)
  | loadDeliveredSeq => (prune r.stream.outbound.deliveredSeq, r)
  | prune deliveredSeq =>
    takeSlices.andOutbound r { r.stream.outbound with
      messageQueue := r.stream.outbound.messageQueue.retain fun seq => deliveredSeq < seq }
  | takeSlices =>
    let completeSlices := r.stream.inbound.takeCompleteSlices.1
    (if completeSlices = [] then stamp else pushSlices completeSlices).andInbound r
      r.stream.inbound.takeCompleteSlices.2
  | pushSlices completeSlices =>
    wake.andInbound r (r.stream.inbound.pushSlices completeSlices)
  | wake => (stamp, { r with stream := r.stream.wakeToRead })
  | stamp => done.andInbound r (r.stream.inbound.updateInboundLastTimestampToNow r.now)
  | done => (done, r)

/-- A call that has started and not ended. -/
def midway : RecvCall → Bool
  | load _ _ _ => false
  | done => false
  | _ => true

/-- A call about to load the cursor, for the message with this number. -/
def loads (seq : Nat) : RecvCall → Bool
  | load _ n _ => n = seq
  | _ => false

/-- A call that is taking the next message: from the load of the cursor until its
slices are in the stream. -/
def accepting : RecvCall → Bool
  | check _ _ _ => true
  | append _ _ _ => true
  | drain _ _ => true
  | updateReceivedSeq _ _ => true
  | updateDeliveredSeq _ => true
  | loadDeliveredSeq => true
  | prune _ => true
  | takeSlices => true
  | pushSlices _ => true
  | _ => false

end RecvCall

namespace ReceiveTasks
open RecvCall
variable {PublicKey : Type}

inductive Action where
  /-- A copy of the message with the index `k` arrives, and its call is spawned. -/
  | arrive (deliveredSeq k : Nat)
  /-- The `i`-th call takes a step. -/
  | advance (i : Nat)
  | tick (d : Nat)

def step (messages : List Bytes) (p : ReceiveTasks PublicKey) : Action → ReceiveTasks PublicKey
  | .arrive deliveredSeq k =>
    match messages[k]? with
    | none => p
    | some data => p.spawn (load deliveredSeq (k + 1) data)
  | .advance i => p.advance next i
  | .tick d => { p with shared := { p.shared with now := p.shared.now + d } }

/-- The stream before any call. -/
def start (s : VeilidStream PublicKey) (now : Instant) : ReceiveTasks PublicKey := ⟨⟨s, now⟩, []⟩

theorem advance_one (r : Receiver PublicKey) (call : RecvCall) :
    Pool.advance next ⟨r, [call]⟩ 0 = ⟨(call.next r).2, [(call.next r).1]⟩ := rfl

theorem run_done (r : Receiver PublicKey) (n : Nat) :
    Runs.run (Pool.advance next) ⟨r, [done]⟩ (List.replicate n 0) = ⟨r, [done]⟩ := by
  induction n with
  | zero => rfl
  | succ n ih =>
    rw [List.replicate_succ, Runs.run_cons, advance_one]
    exact ih

/-- From the buffer's lock to the end. -/
theorem run_takeSlices (s : VeilidStream PublicKey) (now : Instant) :
    Runs.run (Pool.advance next) ⟨⟨s, now⟩, [takeSlices]⟩ [0, 0, 0, 0] =
      ⟨⟨s.updateInboundStream.updateInboundLastTimestampToNow now, now⟩, [done]⟩ := by
  have htake : next takeSlices ⟨s, now⟩ = RecvCall.andInbound
      (if s.inbound.takeCompleteSlices.1 = [] then stamp
        else pushSlices s.inbound.takeCompleteSlices.1) ⟨s, now⟩
      s.inbound.takeCompleteSlices.2 := rfl
  rw [Runs.run_cons, advance_one, htake]
  unfold VeilidStream.updateInboundStream
  by_cases hnil : s.inbound.takeCompleteSlices.1 = []
  · rw [if_pos hnil, if_pos hnil]
    have hsame : s.inbound.updateInboundStream = s.inbound.takeCompleteSlices.2 := by
      rw [Inbound.updateInboundStream, hnil]
      simp [Inbound.pushSlices]
    rw [hsame]
    rfl
  · rw [if_neg hnil, if_neg hnil]
    rfl

/-- From the append to the buffer's lock. -/
theorem run_append (s : VeilidStream PublicKey) (now : Instant) (deliveredSeq : Nat)
    (data : Bytes) :
    Runs.run (Pool.advance next)
        ⟨⟨s, now⟩, [append deliveredSeq s.inbound.receivedSeq data]⟩ [0, 0, 0, 0, 0, 0] =
      ⟨⟨({ s with inbound := s.inbound.acceptMessage data }.updateOutboundDeliveredSeq
        deliveredSeq).removeSentMessagesFromQueue, now⟩, [takeSlices]⟩ := by
  simp only [Runs.run_cons, Runs.run_nil, advance_one, next, andInbound, andOutbound]
  rfl

/-- **A call that no other interrupts is `recv_message`.** -/
theorem run_alone (s : VeilidStream PublicKey) (now : Instant) (deliveredSeq seq : Nat)
    (data : Bytes) :
    Runs.run (Pool.advance next) ⟨⟨s, now⟩, [load deliveredSeq seq data]⟩ (List.replicate 12 0) =
      ⟨⟨s.recvMessage now deliveredSeq seq data, now⟩, [done]⟩ := by
  have hload : next (load deliveredSeq seq data) ⟨s, now⟩ =
      if seq ≤ s.inbound.receivedSeq then (done, ⟨s, now⟩)
      else if addU32 s.inbound.receivedSeq 1 < seq then
        if seq < addU32 s.inbound.receivedSeq 20 then (store seq data, ⟨s, now⟩)
        else (done, ⟨s, now⟩)
      else (check deliveredSeq s.inbound.receivedSeq data, ⟨s, now⟩) := rfl
  have hcheck : next (check deliveredSeq s.inbound.receivedSeq data) ⟨s, now⟩ =
      if s.isActive now then (append deliveredSeq s.inbound.receivedSeq data, ⟨s, now⟩)
      else (done, ⟨s, now⟩) := rfl
  rw [List.replicate_succ, Runs.run_cons, advance_one, hload]
  unfold VeilidStream.recvMessage
  simp only
  by_cases hdup : seq ≤ s.inbound.receivedSeq
  · rw [if_pos hdup, if_pos hdup]
    exact run_done _ 11
  · rw [if_neg hdup, if_neg hdup]
    by_cases hahead : addU32 s.inbound.receivedSeq 1 < seq
    · rw [if_pos hahead, if_pos hahead]
      by_cases hnear : seq < addU32 s.inbound.receivedSeq 20
      · rw [if_pos hnear, if_pos hnear, List.replicate_succ, Runs.run_cons, advance_one]
        exact run_done _ 10
      · rw [if_neg hnear, if_neg hnear]
        exact run_done _ 11
    · rw [if_neg hahead, if_neg hahead, List.replicate_succ, Runs.run_cons, advance_one]
      simp only
      rw [hcheck]
      by_cases hactive : s.isActive now = true
      · rw [if_pos hactive, if_pos hactive]
        have hsteps : List.replicate 10 0 = [0, 0, 0, 0, 0, 0] ++ [0, 0, 0, 0] := rfl
        rw [hsteps, Runs.run_append, run_append, run_takeSlices]
      · rw [if_neg hactive, if_neg hactive]
        exact run_done _ 10

/-! ## Where calls do not overlap -/

open Inbound (Settled counted_new takenFrom_new framed_new next_of_not_lt)

/-- What the inbound half is like while this call takes the next message. -/
def Taking (messages : List Bytes) (i : Inbound) : RecvCall → Prop
  | check _ n _ => n = i.receivedSeq ∧ Settled messages i n []
  | append _ n _ => n = i.receivedSeq ∧ Settled messages i n []
  | drain _ n => n = i.receivedSeq + 1 ∧ Settled messages i n []
  | updateReceivedSeq _ n => i.receivedSeq ≤ n ∧ Settled messages i n []
  | pushSlices completeSlices => Settled messages i i.receivedSeq completeSlices
  | _ => Settled messages i i.receivedSeq []

/-- Taking a message is a critical section. -/
def taking (PublicKey : Type) (messages : List Bytes) :
    Pool.Section (Receiver PublicKey) RecvCall where
  inside call := call.accepting = true
  idle r := Settled messages r.stream.inbound r.stream.inbound.receivedSeq []
  busy call r := Taking messages r.stream.inbound call

/-- The message a call carries is one of the sender's. -/
def Honest (messages : List Bytes) : RecvCall → Prop
  | load _ seq data => ∃ k, seq = k + 1 ∧ (k + 1, data) ∈ numbered messages
  | store seq data => ∃ k, seq = k + 1 ∧ (k + 1, data) ∈ numbered messages
  | check _ n data => n + 1 < 2 ^ 32 ∧ (n + 1, data) ∈ numbered messages
  | append _ n data => n + 1 < 2 ^ 32 ∧ (n + 1, data) ∈ numbered messages
  | _ => True

/-- **The invariant.** -/
structure Sound (messages : List Bytes) (p : ReceiveTasks PublicKey) : Prop where
  honest : ∀ call ∈ p.tasks, Honest messages call
  guarded : p.Guarded (taking PublicKey messages)

/-- A call loads the cursor right below its message only while no other call is taking
a message. -/
def Alone (p : ReceiveTasks PublicKey) : Action → Prop
  | .advance i => ∀ call ∈ p.tasks[i]?, call.loads (p.shared.stream.inbound.receivedSeq + 1) →
      ∀ other ∈ p.tasks, other.accepting = false
  | _ => True

instance (p : ReceiveTasks PublicKey) : ∀ a, Decidable (Alone p a)
  | .arrive _ _ => inferInstanceAs (Decidable True)
  | .tick _ => inferInstanceAs (Decidable True)
  | .advance i => inferInstanceAs (Decidable (∀ call ∈ p.tasks[i]?,
      call.loads (p.shared.stream.inbound.receivedSeq + 1) →
      ∀ other ∈ p.tasks, other.accepting = false))

/-- A step outside leaves what the others see: the queue may get one more message. -/
theorem Taking.of_settled {messages : List Bytes} {i i' : Inbound}
    (hseq : i'.receivedSeq = i.receivedSeq)
    (h : ∀ n ps, Settled messages i n ps → Settled messages i' n ps) (call : RecvCall)
    (ht : Taking messages i call) : Taking messages i' call := by
  cases call <;> simp only [Taking, hseq] at ht ⊢
  case check | append | drain | updateReceivedSeq => exact ⟨ht.1, h _ _ ht.2⟩
  all_goals exact h _ _ ht

theorem sound_start (messages : List Bytes) {s : VeilidStream PublicKey} {t : Instant}
    (hs : s.inbound = Inbound.new t) (now : Instant) : Sound messages (start s now) := by
  refine ⟨fun _ h => absurd h List.not_mem_nil, ⟨?_, ?_, fun _ h => absurd h List.not_mem_nil⟩⟩
  · intro i j t u hi
    simp [start] at hi
  · intro _
    show Settled messages s.inbound s.inbound.receivedSeq []
    rw [hs]
    exact ⟨counted_new t, takenFrom_new t _, framed_new t⟩

/-- One step of the call `call`, from the state `r`. -/
theorem next_honest {messages : List Bytes} {r : Receiver PublicKey} {call : RecvCall}
    (h : Honest messages call) : Honest messages (call.next r).1 := by
  cases call with
  | load deliveredSeq seq data =>
    obtain ⟨k, rfl, hm⟩ := h
    unfold next
    simp only
    split
    · trivial
    · next hdup =>
      split
      · split
        · exact ⟨k, rfl, hm⟩
        · trivial
      · next hahead =>
        obtain ⟨hk, -, hlt⟩ := next_of_not_lt hdup hahead
        obtain rfl : k = r.stream.inbound.receivedSeq := by omega
        exact ⟨hlt, hm⟩
  | check deliveredSeq n data =>
    unfold next
    simp only
    split
    · exact h
    · trivial
  | takeSlices =>
    show Honest messages (if _ then _ else _)
    split <;> trivial
  | _ => trivial

/-- A step that leaves what the others see as it was. -/
theorem Sound.outside {messages : List Bytes} {p : ReceiveTasks PublicKey} {i : Nat}
    {call call' : RecvCall} {r : Receiver PublicKey} (h : Sound messages p)
    (hi : p.tasks[i]? = some call) (hout : call.accepting = false)
    (hout' : call'.accepting = false)
    (hseq : r.stream.inbound.receivedSeq = p.shared.stream.inbound.receivedSeq)
    (hsettled : ∀ n ps, Settled messages p.shared.stream.inbound n ps →
      Settled messages r.stream.inbound n ps) :
    Pool.Guarded (taking PublicKey messages) ⟨r, p.tasks.set i call'⟩ := by
  refine h.guarded.advance_outside hi (by simp [taking, hout]) (by simp [taking, hout']) ?_ ?_
  · intro hidle
    show Settled messages r.stream.inbound r.stream.inbound.receivedSeq []
    rw [hseq]
    exact hsettled _ _ hidle
  · intro u _ hu
    exact Taking.of_settled hseq hsettled u hu

/-- A step of the call that takes a message. -/
theorem Sound.inside {messages : List Bytes} {p : ReceiveTasks PublicKey} {i : Nat}
    {call call' : RecvCall} {r : Receiver PublicKey} (h : Sound messages p)
    (hi : p.tasks[i]? = some call) (hin : call.accepting = true)
    (hbusy : call'.accepting = true → Taking messages r.stream.inbound call')
    (hidle : call'.accepting = false →
      Settled messages r.stream.inbound r.stream.inbound.receivedSeq []) :
    Pool.Guarded (taking PublicKey messages) ⟨r, p.tasks.set i call'⟩ := by
  refine h.guarded.advance_alone hi (.inl hin) hbusy fun hout => hidle ?_
  simpa [taking] using hout

/-- The first step of a call: it starts to take its message if no other call is at it. -/
theorem Sound.load {messages : List Bytes} {p : ReceiveTasks PublicKey} {i : Nat}
    {deliveredSeq seq : Nat} {data : Bytes} (h : Sound messages p)
    (hi : p.tasks[i]? = some (load deliveredSeq seq data))
    (halone : (load deliveredSeq seq data).loads (p.shared.stream.inbound.receivedSeq + 1) →
      ∀ other ∈ p.tasks, other.accepting = false) :
    (next (load deliveredSeq seq data) p.shared).2 = p.shared ∧
      Pool.Guarded (taking PublicKey messages)
        ⟨p.shared, p.tasks.set i (next (load deliveredSeq seq data) p.shared).1⟩ := by
  constructor
  · unfold next
    simp only
    repeat' split
    all_goals rfl
  · unfold next
    simp only
    split
    · exact h.outside hi rfl rfl rfl fun _ _ hs => hs
    · next hdup =>
      split
      · split
        · exact h.outside hi rfl rfl rfl fun _ _ hs => hs
        · exact h.outside hi rfl rfl rfl fun _ _ hs => hs
      · next hahead =>
        obtain ⟨hseq, -, -⟩ := next_of_not_lt hdup hahead
        have hnone := halone (by simp [loads, hseq])
        refine h.guarded.advance_alone hi (.inr fun u hu => ?_) (fun _ => ?_) (fun hout => ?_)
        · simp [taking, hnone u hu]
        · exact ⟨rfl, h.guarded.idle fun u hu => by simp [taking, hnone u hu]⟩
        · exact absurd rfl hout

/-- **The step lemma**, for the call that takes a step. -/
theorem Sound.advance {messages : List Bytes} {p : ReceiveTasks PublicKey} {i : Nat}
    {call : RecvCall} (h : Sound messages p) (hi : p.tasks[i]? = some call)
    (halone : call.loads (p.shared.stream.inbound.receivedSeq + 1) →
      ∀ other ∈ p.tasks, other.accepting = false) :
    p.shared.stream.inbound.receivedSeq ≤ (call.next p.shared).2.stream.inbound.receivedSeq ∧
    Pool.Guarded (taking PublicKey messages)
      ⟨(call.next p.shared).2, p.tasks.set i (call.next p.shared).1⟩ := by
  have hmem := List.mem_of_getElem? hi
  have hhon := h.honest call hmem
  have hbusy := h.guarded.busy call hmem
  cases call with
  | load deliveredSeq seq data =>
    obtain ⟨hsame, hguarded⟩ := h.load hi halone
    rw [hsame]
    exact ⟨Nat.le_refl _, hguarded⟩
  | store seq data =>
    obtain ⟨k, rfl, hm⟩ := hhon
    exact ⟨Nat.le_refl _, h.outside hi rfl rfl rfl fun _ _ hs => hs.storeMessage hm⟩
  | check deliveredSeq n data =>
    obtain ⟨hn, hs⟩ := hbusy rfl
    unfold next
    simp only
    split
    · exact ⟨Nat.le_refl _, h.inside hi rfl (fun _ => ⟨hn, hs⟩) fun hf => by cases hf⟩
    · exact ⟨Nat.le_refl _, h.inside hi rfl (fun hf => by cases hf) fun _ => hn ▸ hs⟩
  | append deliveredSeq n data =>
    obtain ⟨hn, hs⟩ := hbusy rfl
    obtain ⟨hlt, hm⟩ := hhon
    refine ⟨Nat.le_refl _, h.inside hi rfl (fun _ => ?_) fun hf => by cases hf⟩
    show addU32 n 1 = p.shared.stream.inbound.receivedSeq + 1 ∧
      Settled messages (p.shared.stream.inbound.recvInboundBuffer data) (addU32 n 1) []
    rw [addU32_of_lt hlt]
    exact ⟨by rw [hn], hs.recvInboundBuffer hlt hm⟩
  | drain deliveredSeq n =>
    obtain ⟨hn, hs⟩ := hbusy rfl
    have hsame : (p.shared.stream.inbound.drainMessageQueue n).2.receivedSeq =
        p.shared.stream.inbound.receivedSeq := Inbound.drainMessageQueue_receivedSeq _ n
    have hle := Inbound.le_drainMessageQueue hs.counted
    refine ⟨Nat.le_of_eq hsame.symm, h.inside hi rfl (fun _ => ⟨?_, hs.drain⟩)
      fun hf => by cases hf⟩
    show (p.shared.stream.inbound.drainMessageQueue n).2.receivedSeq ≤ _
    rw [hsame]
    exact Nat.le_trans (by omega) hle
  | updateReceivedSeq deliveredSeq n =>
    obtain ⟨hn, hs⟩ := hbusy rfl
    refine ⟨hn, h.inside hi rfl (fun _ => ?_) fun hf => by cases hf⟩
    exact hs.congr rfl rfl rfl rfl
  | updateDeliveredSeq deliveredSeq =>
    exact ⟨Nat.le_refl _, h.inside hi rfl (fun _ => hbusy rfl) fun hf => by cases hf⟩
  | loadDeliveredSeq =>
    exact ⟨Nat.le_refl _, h.inside hi rfl (fun _ => hbusy rfl) fun hf => by cases hf⟩
  | prune deliveredSeq =>
    exact ⟨Nat.le_refl _, h.inside hi rfl (fun _ => hbusy rfl) fun hf => by cases hf⟩
  | takeSlices =>
    have hs := Settled.takeCompleteSlices (hbusy rfl)
    have hcall : (next takeSlices p.shared).1 =
        if p.shared.stream.inbound.takeCompleteSlices.1 = [] then stamp
        else pushSlices p.shared.stream.inbound.takeCompleteSlices.1 := rfl
    refine ⟨Nat.le_refl _, h.inside hi rfl ?_ ?_⟩
    · intro hin
      rw [hcall] at hin ⊢
      split at hin
      · cases hin
      · next hne => rw [if_neg hne]; exact hs
    · intro hout
      rw [hcall] at hout
      split at hout
      · next hnil => exact hnil ▸ hs
      · cases hout
  | pushSlices completeSlices =>
    have hs := Settled.pushSlices (hbusy rfl)
    exact ⟨Nat.le_refl _, h.inside hi rfl (fun hf => by cases hf) fun _ => hs⟩
  | wake =>
    have hsame : (next wake p.shared).2.stream.inbound = p.shared.stream.inbound := by
      show p.shared.stream.wakeToRead.inbound = _
      rw [VeilidStream.wakeToRead_eq]
    refine ⟨by rw [hsame], h.outside hi rfl rfl (by rw [hsame]) fun _ _ hs => ?_⟩
    rw [hsame]
    exact hs
  | stamp =>
    exact ⟨Nat.le_refl _, h.outside hi rfl rfl rfl
      fun _ _ hs => hs.congr rfl rfl rfl rfl⟩
  | done =>
    exact ⟨Nat.le_refl _, h.outside hi rfl rfl rfl fun _ _ hs => hs⟩

theorem step_sound {messages : List Bytes} (p : ReceiveTasks PublicKey) (a : Action)
    (hok : Alone p a) (h : Sound messages p) :
    p.shared.stream.inbound.receivedSeq ≤ (step messages p a).shared.stream.inbound.receivedSeq ∧
    Sound messages (step messages p a) := by
  cases a with
  | arrive deliveredSeq k =>
    rw [step]
    split
    · exact ⟨Nat.le_refl _, h⟩
    · next data hdata =>
      refine ⟨Nat.le_refl _, fun call hcall => ?_, h.guarded.spawn (by simp [taking, accepting])⟩
      rcases List.mem_append.mp hcall with hcall | hcall
      · exact h.honest call hcall
      · obtain rfl := List.mem_singleton.mp hcall
        exact ⟨k, rfl, mem_numbered.mpr hdata⟩
  | advance i =>
    rw [step, Pool.advance]
    split
    · exact ⟨Nat.le_refl _, h⟩
    · next call hi =>
      obtain ⟨hle, hg⟩ := h.advance hi (hok call hi)
      refine ⟨hle, fun c hc => ?_, hg⟩
      rcases List.mem_or_eq_of_mem_set hc with hc | rfl
      · exact h.honest c hc
      · exact next_honest (h.honest call (List.mem_of_getElem? hi))
  | tick d => exact ⟨Nat.le_refl _, h.honest, h.guarded.lone, h.guarded.idle, h.guarded.busy⟩

/-- The cursor does not fall along a run. -/
theorem run_le {messages : List Bytes} {p : ReceiveTasks PublicKey} (h : Sound messages p)
    {as : List Action} (hok : Runs.Along (step messages) Alone p as) :
    p.shared.stream.inbound.receivedSeq ≤
      (Runs.run (step messages) p as).shared.stream.inbound.receivedSeq := by
  induction as generalizing p with
  | nil => exact Nat.le_refl _
  | cons a as ih =>
    obtain ⟨hle, hs⟩ := step_sound p a hok.1 h
    exact Nat.le_trans hle (ih hs hok.2)

/-- No call is mid-way. -/
def Quiet (p : ReceiveTasks PublicKey) : Prop := ∀ call ∈ p.tasks, call.midway = false

instance (p : ReceiveTasks PublicKey) : Decidable (Quiet p) :=
  inferInstanceAs (Decidable (∀ call ∈ p.tasks, call.midway = false))

theorem accepting_midway {call : RecvCall} (h : call.midway = false) : call.accepting = false := by
  cases call <;> first | rfl | cases h

/-- In every phase of a call the slices are in the order they were framed. -/
theorem Taking.framed {messages : List Bytes} {i : Inbound} {call : RecvCall}
    (h : Taking messages i call) : i.Framed [] := by
  cases call
  case check | append | drain | updateReceivedSeq => exact h.2.framed
  all_goals exact (Settled.framed h).moved

/-- **Calls that take the next message one at a time keep the stream in order**: along
every such interleaving, whenever no call is mid-way the messages `1, 2, …, receivedSeq`
have been appended once each, the cursor never falls, and the slices have come to the
stream in the order they were framed. -/
theorem calls_in_order (messages : List Bytes) {s : VeilidStream PublicKey} {t : Instant}
    (hs : s.inbound = Inbound.new t) (now : Instant) (as bs : List Action)
    (hok : Runs.Along (step messages) Alone (start s now) (as ++ bs)) :
    let p := Runs.run (step messages) (start s now) as
    let i := p.shared.stream.inbound
    (Quiet p → i.receivedSeq ≤ messages.length ∧ i.appended = messages.take i.receivedSeq) ∧
    i.receivedSeq ≤
      (Runs.run (step messages) (start s now) (as ++ bs)).shared.stream.inbound.receivedSeq ∧
    i.Framed [] := by
  obtain ⟨hoka, hokb⟩ := Runs.along_append.mp hok
  have hsound : Sound messages (Runs.run (step messages) (start s now) as) :=
    Runs.invariant_along (fun p a hok h => (step_sound p a hok h).2)
      (sound_start messages hs now) hoka
  intro p i
  refine ⟨fun hq => ?_, ?_, ?_⟩
  · have hidle : Settled messages i i.receivedSeq [] :=
      hsound.guarded.idle fun call hcall => by simp [taking, accepting_midway (hq call hcall)]
    exact hidle.appended_eq
  · rw [Runs.run_append]
    exact run_le hsound hokb
  · by_cases hin : ∃ call ∈ p.tasks, call.accepting = true
    · obtain ⟨call, hcall, hin⟩ := hin
      exact Taking.framed (hsound.guarded.busy call hcall hin)
    · have hidle : Settled messages i i.receivedSeq [] :=
        hsound.guarded.idle fun call hcall hin' => hin ⟨call, hcall, hin'⟩
      exact hidle.framed

end ReceiveTasks

namespace ReceiveTasks
open RecvCall Sample

/-- An active stream that has received nothing. -/
def sampleStream : VeilidStream Sample.PublicKey :=
  (VeilidStream.new (addressOf 1) (addressOf 2) (.nodeId (keyOf 2)) 11 (keypairOf 1) 10
    0).updateStatus .active

/-- The second message is stored while the call for the first has begun, and a copy of the
first comes before that call has ended. -/
def sampleCalls : List Action :=
  [.arrive 0 1, .arrive 0 0, .advance 0, .advance 1, .advance 0] ++
    List.replicate 4 (.advance 1) ++ [.arrive 0 0, .advance 2] ++
    List.replicate 8 (.advance 1) ++ [.advance 2]

theorem calls_in_order_sample :
    let messages : List Bytes := [[1, 0, 0, 0, 7], [1, 0, 0, 0, 8]]
    let p := Runs.run (step messages) (start sampleStream 0) sampleCalls
    let i := p.shared.stream.inbound
    (Quiet p → i.receivedSeq ≤ messages.length ∧ i.appended = messages.take i.receivedSeq) ∧
    i.receivedSeq ≤ (Runs.run (step messages) (start sampleStream 0)
      (sampleCalls ++ [])).shared.stream.inbound.receivedSeq ∧
    i.Framed [] :=
  calls_in_order [[1, 0, 0, 0, 7], [1, 0, 0, 0, 8]] rfl 0 sampleCalls [] (by decide)

/-- Each call of the list takes all its steps before the next one starts. -/
def oneByOne (calls : List Nat) : List Action :=
  calls.flatMap fun i => List.replicate 12 (.advance i)

/-- **Two copies of a message can both be appended**: both calls load the cursor before
either stores it. -/
theorem duplicate_appended :
    let messages : List Bytes := [[1, 0, 0, 0, 7]]
    let p := Runs.run (step messages) (start sampleStream 0)
      ([.arrive 0 0, .arrive 0 0, .advance 0, .advance 1] ++ oneByOne [0, 1])
    let i := p.shared.stream.inbound
    Quiet p ∧ i.receivedSeq = 1 ∧ i.appended ≠ messages.take i.receivedSeq ∧
      i.stream = [7, 7] := by
  decide

end ReceiveTasks
end VeilidTransport
