import VeilidTransport.Basic
import VeilidTransport.Foundation.KeyedMap
import VeilidTransport.Foundation.Framing
import VeilidTransport.Foundation.Chunks
import Mathlib.Data.List.Basic

/-!
# The outbound half of a stream

Written bytes wait in `stream`, each write behind its four-byte length.
`generateMessages` cuts them into messages of at most
`transportStreamPacketDataSizeBytes` bytes, numbers the messages, and queues
them; a message leaves the queue when it is acknowledged.

`generated` is history: every message `generateMessages` has queued, in order,
under its number.  No function reads it.  The two facts the rest rests on are
`Queued`, which says the queue holds only generated messages, and `Numbered`,
which says the `i`-th message has the number `i + 1`, modulo `2 ^ 32`.
-/

namespace VeilidTransport

structure OutboundMessage where
  seq : Nat
  data : Bytes
  lastTrySend : Option Instant

structure Outbound where
  /-- Complete slices, not yet cut into messages. -/
  stream : Bytes
  /-- Messages not yet successfully delivered. -/
  messageQueue : KeyedMap Nat OutboundMessage
  /-- Last seq given to a message. -/
  lastSeq : Nat
  /-- Last known seq successfully delivered. -/
  deliveredSeq : Nat
  /-- Last outbound message sent; nothing updates it. -/
  lastTimestamp : Instant
  /-- History: the messages generated so far. -/
  generated : List (Nat × Bytes)

namespace Outbound

def new (now : Instant) : Outbound := ⟨[], ∅, 0, 0, now, []⟩

/-- The bytes of one write, behind their length `as u32`. -/
def insertToOutboundStream (o : Outbound) (data : Bytes) : Outbound :=
  let dataLen := data.length % 2 ^ 32
  { o with stream := o.stream ++ U32.toLeBytes dataLen ++ data }

/-- One pass of the loop of `generate_messages`.  The drained message is never
empty, since the stream is not. -/
def generateMessage (o : Outbound) : Outbound :=
  let drainLimit := min settings.transportStreamPacketDataSizeBytes o.stream.length
  let msg := o.stream.take drainLimit
  let seq := addU32 o.lastSeq 1
  { o with
    stream := o.stream.drop drainLimit
    lastSeq := seq
    messageQueue := o.messageQueue.insert seq ⟨seq, msg, none⟩
    generated := o.generated ++ [(seq, msg)] }

/-- `while stream.len() > 0`, for at most `fuel` passes. -/
def generateLoop : Nat → Outbound → Outbound
  | 0, o => o
  | fuel + 1, o => if o.stream = [] then o else generateLoop fuel o.generateMessage

/-- Every pass takes a byte at least, so the stream's length bounds the passes. -/
def generateMessages (o : Outbound) : Outbound := generateLoop o.stream.length o

def updateOutboundDeliveredSeq (o : Outbound) (newValue : Nat) : Outbound :=
  { o with deliveredSeq := newValue }

/-- Only the messages above the delivered seq stay. -/
def removeSentMessagesFromQueue (o : Outbound) : Outbound :=
  { o with messageQueue := o.messageQueue.retain fun seq => o.deliveredSeq < seq }

/-- A message never tried is due, and so is one last tried
`message_retry_timeout` ago; `duration_since` saturates at zero. -/
def readyToSend (now : Instant) (m : OutboundMessage) : Bool :=
  match m.lastTrySend with
  | none => true
  | some t => secs settings.messageRetryTimeout ≤ now - t

def messagesToSend (o : Outbound) (now : Instant) : List OutboundMessage :=
  o.messageQueue.values.filter (readyToSend now)

/-- The messages about to be sent get the time of this try. -/
def stampSent (o : Outbound) (now : Instant) : Outbound :=
  let stamp := fun (queue : KeyedMap Nat OutboundMessage) (message : OutboundMessage) =>
    queue.modify message.seq fun m => { m with lastTrySend := some now }
  { o with messageQueue := (o.messagesToSend now).foldl stamp o.messageQueue }

/-! ## What each operation does to the queue -/

theorem take_min_length (n : Nat) (l : Bytes) : l.take (min n l.length) = l.take n := by
  rcases Nat.le_total n l.length with h | h
  · rw [Nat.min_eq_left h]
  · rw [Nat.min_eq_right h, List.take_length, List.take_of_length_le h]

/-- The number and data queued under `k`. -/
def entry (o : Outbound) (k : Nat) : Option (Nat × Bytes) :=
  (o.messageQueue.lookup k).map fun m => (m.seq, m.data)

theorem insertToOutboundStream_stream (o : Outbound) (data : Bytes) :
    (o.insertToOutboundStream data).stream = o.stream ++ U32.leHeader.frame data := by
  rw [insertToOutboundStream, U32.toLeBytes_mod, List.append_assoc]
  rfl

@[simp] theorem insertToOutboundStream_generated (o : Outbound) (data : Bytes) :
    (o.insertToOutboundStream data).generated = o.generated := rfl

theorem generateMessage_entry (o : Outbound) (k : Nat) :
    o.generateMessage.entry k =
      if k = addU32 o.lastSeq 1 then
        some (addU32 o.lastSeq 1, o.stream.take settings.transportStreamPacketDataSizeBytes)
      else o.entry k := by
  simp only [entry, generateMessage, KeyedMap.lookup_insert, take_min_length]
  split
  · rfl
  · rfl

theorem generateMessage_generated (o : Outbound) :
    o.generateMessage.generated = o.generated ++
      [(addU32 o.lastSeq 1, o.stream.take settings.transportStreamPacketDataSizeBytes)] := by
  simp only [generateMessage, take_min_length]

theorem generateMessage_stream (o : Outbound) :
    o.generateMessage.stream = o.stream.drop settings.transportStreamPacketDataSizeBytes := by
  rcases Nat.le_total settings.transportStreamPacketDataSizeBytes o.stream.length with h | h
  · simp only [generateMessage, Nat.min_eq_left h]
  · simp only [generateMessage, Nat.min_eq_right h, List.drop_length, List.drop_of_length_le h]

@[simp] theorem generateMessage_lastSeq (o : Outbound) :
    o.generateMessage.lastSeq = addU32 o.lastSeq 1 := rfl

/-- What one pass keeps on a stream that is not empty, the loop keeps. -/
theorem generateLoop_invariant {P : Outbound → Prop}
    (hpass : ∀ o : Outbound, o.stream ≠ [] → P o → P o.generateMessage) (fuel : Nat)
    {o : Outbound} (h : P o) : P (generateLoop fuel o) := by
  induction fuel generalizing o with
  | zero => exact h
  | succ fuel ih =>
    rw [generateLoop]
    split
    · exact h
    · next hs => exact ih (hpass o hs h)

theorem generateMessages_invariant {P : Outbound → Prop}
    (hpass : ∀ o : Outbound, o.stream ≠ [] → P o → P o.generateMessage)
    {o : Outbound} (h : P o) : P o.generateMessages :=
  generateLoop_invariant hpass _ h

@[simp] theorem generateMessages_deliveredSeq (o : Outbound) :
    o.generateMessages.deliveredSeq = o.deliveredSeq :=
  generateMessages_invariant (P := fun o' => o'.deliveredSeq = o.deliveredSeq)
    (fun _ _ h => h) rfl

theorem generateMessages_generated_prefix (o : Outbound) :
    o.generated <+: o.generateMessages.generated := by
  refine generateMessages_invariant (P := fun o' => o.generated <+: o'.generated) ?_
    List.prefix_rfl
  intro o' _ h
  rw [generateMessage_generated]
  exact h.trans (List.prefix_append _ _)

/-- Fuel beyond the stream's length changes nothing. -/
theorem generateLoop_of_le {fuel : Nat} {o : Outbound} (h : o.stream.length ≤ fuel) :
    generateLoop fuel o = o.generateMessages := by
  suffices key : ∀ k fuel (o : Outbound), o.stream.length ≤ k → o.stream.length ≤ fuel →
      generateLoop fuel o = generateLoop k o from key _ _ _ (Nat.le_refl _) h
  intro k
  induction k with
  | zero =>
    intro fuel o hk _
    have hs : o.stream = [] := List.length_eq_zero_iff.mp (Nat.le_zero.mp hk)
    cases fuel with
    | zero => rfl
    | succ fuel => simp only [generateLoop, if_pos hs]
  | succ k ih =>
    intro fuel o hk hf
    by_cases hs : o.stream = []
    · cases fuel with
      | zero => rw [generateLoop, generateLoop, if_pos hs]
      | succ fuel => rw [generateLoop, if_pos hs, generateLoop, if_pos hs]
    · have hpos := List.length_pos_iff.mpr hs
      have hlim : 0 < settings.transportStreamPacketDataSizeBytes := by decide
      obtain ⟨fuel, rfl⟩ : ∃ f, fuel = f + 1 := ⟨fuel - 1, by omega⟩
      rw [generateLoop, if_neg hs, generateLoop, if_neg hs]
      apply ih
      · rw [generateMessage_stream, List.length_drop]; omega
      · rw [generateMessage_stream, List.length_drop]; omega

theorem generateMessages_of_nil {o : Outbound} (hs : o.stream = []) : o.generateMessages = o := by
  rw [generateMessages, hs]
  rfl

/-- On a stream that is not empty, one pass and then the rest. -/
theorem generateMessages_of_ne_nil {o : Outbound} (hs : o.stream ≠ []) :
    o.generateMessages = o.generateMessage.generateMessages := by
  have hpos := List.length_pos_iff.mpr hs
  have hlim : 0 < settings.transportStreamPacketDataSizeBytes := by decide
  obtain ⟨k, hk⟩ : ∃ k, o.stream.length = k + 1 := ⟨o.stream.length - 1, by omega⟩
  rw [generateMessages, hk, generateLoop, if_neg hs, generateLoop_of_le]
  rw [generateMessage_stream, List.length_drop]
  omega

/-- What holds of an empty stream, and of a stream once it holds after one pass. -/
theorem generateMessages_induction {P : Outbound → Prop}
    (nil : ∀ o : Outbound, o.stream = [] → P o)
    (pass : ∀ o : Outbound, o.stream ≠ [] → P o.generateMessage → P o) (o : Outbound) : P o := by
  suffices key : ∀ k (o : Outbound), o.stream.length ≤ k → P o from key _ o (Nat.le_refl _)
  intro k
  induction k with
  | zero => exact fun o h => nil o (List.length_eq_zero_iff.mp (Nat.le_zero.mp h))
  | succ k ih =>
    intro o h
    by_cases hs : o.stream = []
    · exact nil o hs
    · have hpos := List.length_pos_iff.mpr hs
      have hlim : 0 < settings.transportStreamPacketDataSizeBytes := by decide
      apply pass o hs
      apply ih
      rw [generateMessage_stream, List.length_drop]
      omega

/-- **The messages generated are the chunks of the stream**, in order. -/
theorem generateMessages_data (o : Outbound) :
    o.generateMessages.generated.map Prod.snd =
      o.generated.map Prod.snd ++
        Chunks.chunks settings.transportStreamPacketDataSizeBytes o.stream := by
  induction o using generateMessages_induction with
  | nil o hs => rw [generateMessages_of_nil hs, hs, Chunks.chunks_nil, List.append_nil]
  | pass o hs ih =>
    have hlim : 0 < settings.transportStreamPacketDataSizeBytes := by decide
    rw [generateMessages_of_ne_nil hs, ih, generateMessage_generated, generateMessage_stream,
      Chunks.chunks_of_ne_nil hlim hs]
    simp

/-- **The loop empties the stream.** -/
theorem generateMessages_stream (o : Outbound) : o.generateMessages.stream = [] := by
  induction o using generateMessages_induction with
  | nil o hs => rw [generateMessages_of_nil hs, hs]
  | pass o hs ih => rw [generateMessages_of_ne_nil hs, ih]

@[simp] theorem updateOutboundDeliveredSeq_entry (o : Outbound) (d : Nat) :
    (o.updateOutboundDeliveredSeq d).entry = o.entry := rfl

theorem removeSentMessagesFromQueue_entry (o : Outbound) (k : Nat) :
    o.removeSentMessagesFromQueue.entry k = if o.deliveredSeq < k then o.entry k else none := by
  rw [entry, removeSentMessagesFromQueue, KeyedMap.lookup_retain]
  by_cases h : o.deliveredSeq < k
  · simp [h, entry]
  · simp [h]

/-- Stamping changes no number and no data. -/
theorem stampSent_entry (o : Outbound) (now : Instant) : (o.stampSent now).entry = o.entry := by
  funext k
  suffices key : ∀ (ms : List OutboundMessage) (queue : KeyedMap Nat OutboundMessage),
      ((ms.foldl (fun queue message =>
          queue.modify message.seq fun m => { m with lastTrySend := some now }) queue).lookup k).map
        (fun m => (m.seq, m.data)) = (queue.lookup k).map fun m => (m.seq, m.data) from
    key _ _
  intro ms
  induction ms with
  | nil => exact fun _ => rfl
  | cons m ms ih =>
    intro queue
    rw [List.foldl_cons, ih, KeyedMap.lookup_modify]
    split
    · rw [Option.map_map]; rfl
    · rfl

/-! ## Numbering -/

/-- The queue holds only generated messages, each under its own number. -/
def Queued (o : Outbound) : Prop :=
  ∀ k e, o.entry k = some e → e.1 = k ∧ e ∈ o.generated

/-- The `i`-th message generated has the number `i + 1`, modulo `2 ^ 32`. -/
structure Numbered (o : Outbound) : Prop where
  seq_eq : ∀ i e, o.generated[i]? = some e → e.1 = (i + 1) % 2 ^ 32
  lastSeq_eq : o.lastSeq = o.generated.length % 2 ^ 32

/-- No message is empty or longer than a packet may carry. -/
def Sized (o : Outbound) : Prop :=
  ∀ e ∈ o.generated, 0 < e.2.length ∧ e.2.length ≤ settings.transportStreamPacketDataSizeBytes

theorem queued_new (now : Instant) : (new now).Queued := by
  intro k e h
  simp [entry, new] at h

theorem numbered_new (now : Instant) : (new now).Numbered := ⟨by simp [new], rfl⟩

theorem sized_new (now : Instant) : (new now).Sized := by simp [Sized, new]

/-- One more message is generated, and queued under its number. -/
theorem Queued.concat {o o' : Outbound} (h : o.Queued) {seq : Nat} {data : Bytes}
    (hentry : ∀ k, o'.entry k = if k = seq then some (seq, data) else o.entry k)
    (hgen : o'.generated = o.generated ++ [(seq, data)]) : o'.Queued := by
  intro k e he
  rw [hentry] at he
  rw [hgen]
  split at he
  · next hk =>
    obtain rfl := Option.some.inj he
    exact ⟨hk.symm, List.mem_append_right _ List.mem_cons_self⟩
  · exact ⟨(h k e he).1, List.mem_append_left _ (h k e he).2⟩

theorem Queued.generateMessages {o : Outbound} (h : o.Queued) : o.generateMessages.Queued :=
  generateMessages_invariant
    (fun o _ h => h.concat o.generateMessage_entry o.generateMessage_generated) h

theorem Numbered.generateMessage {o : Outbound} (h : o.Numbered) : o.generateMessage.Numbered := by
  have hseq : addU32 o.lastSeq 1 = (o.generated.length + 1) % 2 ^ 32 := by
    rw [addU32, h.lastSeq_eq, Nat.mod_add_mod]
  constructor
  · intro i e he
    rw [generateMessage_generated] at he
    rcases getElem?_concat_cases he with he | ⟨rfl, rfl⟩
    · exact h.seq_eq i e he
    · exact hseq
  · rw [generateMessage_lastSeq, generateMessage_generated, List.length_append,
      List.length_singleton, hseq]

theorem Numbered.generateMessages {o : Outbound} (h : o.Numbered) :
    o.generateMessages.Numbered :=
  generateMessages_invariant (fun _ _ h => h.generateMessage) h

/-- What is drained of a stream with bytes in it is a message. -/
theorem take_sized {stream : Bytes} (h : stream ≠ []) :
    0 < (stream.take settings.transportStreamPacketDataSizeBytes).length ∧
      (stream.take settings.transportStreamPacketDataSizeBytes).length ≤
        settings.transportStreamPacketDataSizeBytes := by
  have hpos := List.length_pos_iff.mpr h
  have hlim : 0 < settings.transportStreamPacketDataSizeBytes := by decide
  rw [List.length_take]
  omega

theorem Sized.concat {o o' : Outbound} (h : o.Sized) {e : Nat × Bytes}
    (he : 0 < e.2.length ∧ e.2.length ≤ settings.transportStreamPacketDataSizeBytes)
    (hgen : o'.generated = o.generated ++ [e]) : o'.Sized := by
  intro e' he'
  rw [hgen] at he'
  rcases List.mem_append.mp he' with he' | he'
  · exact h e' he'
  · obtain rfl := List.mem_singleton.mp he'
    exact he

theorem Sized.generateMessages {o : Outbound} (h : o.Sized) : o.generateMessages.Sized :=
  generateMessages_invariant
    (fun o hs h => h.concat (take_sized hs) o.generateMessage_generated) h

theorem Queued.removeSentMessagesFromQueue {o : Outbound} (h : o.Queued) :
    o.removeSentMessagesFromQueue.Queued := by
  intro k e he
  rw [removeSentMessagesFromQueue_entry] at he
  split at he
  · exact h k e he
  · cases he

theorem Queued.stampSent {o : Outbound} (h : o.Queued) (now : Instant) :
    (o.stampSent now).Queued := by
  intro k e he
  rw [stampSent_entry] at he
  exact h k e he

/-- A message is queued under its own number. -/
theorem Queued.seq_eq {o : Outbound} (h : o.Queued) {k : Nat} {m : OutboundMessage}
    (hm : o.messageQueue.lookup k = some m) : m.seq = k ∧ (k, m.data) ∈ o.generated := by
  have he : o.entry k = some (m.seq, m.data) := by rw [entry, hm]; rfl
  obtain ⟨hseq, hmem⟩ := h k _ he
  obtain rfl : m.seq = k := hseq
  exact ⟨rfl, hmem⟩

theorem mem_messagesToSend {o : Outbound} {now : Instant} {m : OutboundMessage} :
    m ∈ o.messagesToSend now ↔
      (∃ k, o.messageQueue.lookup k = some m) ∧ readyToSend now m = true := by
  rw [messagesToSend, List.mem_filter, KeyedMap.mem_values]

/-- No number is collected twice. -/
theorem Queued.nodup_messagesToSend {o : Outbound} (h : o.Queued) (now : Instant) :
    ((o.messagesToSend now).map OutboundMessage.seq).Nodup := by
  have hkeys : o.messageQueue.values.map OutboundMessage.seq = o.messageQueue.keys := by
    rw [KeyedMap.values, AList.keys, List.keys, List.map_map]
    refine List.map_congr_left fun e he => ?_
    exact (h.seq_eq (AList.mem_lookup_iff.mpr he)).1
  have hsub : (o.messagesToSend now).Sublist o.messageQueue.values := List.filter_sublist
  have hnodup : (o.messageQueue.values.map OutboundMessage.seq).Nodup :=
    hkeys ▸ AList.keys_nodup o.messageQueue
  exact hnodup.sublist (hsub.map _)

/-- **What stamping does**: a message that is due has the time of this try. -/
theorem Queued.stampSent_lookup {o : Outbound} (h : o.Queued) (now : Instant) (k : Nat) :
    (o.stampSent now).messageQueue.lookup k = (o.messageQueue.lookup k).map fun m =>
      if readyToSend now m then { m with lastTrySend := some now } else m := by
  have hfold : ∀ (ms : List OutboundMessage) (queue : KeyedMap Nat OutboundMessage),
      (ms.foldl (fun queue message => queue.modify message.seq
        fun m => { m with lastTrySend := some now }) queue).lookup k =
      if k ∈ ms.map OutboundMessage.seq then
        (queue.lookup k).map fun m => { m with lastTrySend := some now }
      else queue.lookup k := by
    intro ms
    induction ms with
    | nil => exact fun _ => by simp
    | cons m ms ih =>
      intro queue
      rw [List.foldl_cons, ih, KeyedMap.lookup_modify, List.map_cons]
      by_cases hk : k = m.seq
      · rw [if_pos hk, if_pos (List.mem_cons.mpr (.inl hk)), Option.map_map]
        split <;> rfl
      · rw [if_neg hk]
        simp only [List.mem_cons, hk, false_or]
  rw [Outbound.stampSent, hfold]
  cases hm : o.messageQueue.lookup k with
  | none => simp
  | some m =>
    have hmem : k ∈ (o.messagesToSend now).map OutboundMessage.seq ↔ readyToSend now m = true := by
      rw [List.mem_map]
      constructor
      · rintro ⟨m', hm', rfl⟩
        obtain ⟨⟨j, hj⟩, hready⟩ := mem_messagesToSend.mp hm'
        obtain rfl := (h.seq_eq hj).1
        rw [hm] at hj
        rwa [Option.some.inj hj]
      · exact fun hready => ⟨m, mem_messagesToSend.mpr ⟨⟨k, hm⟩, hready⟩, (h.seq_eq hm).1⟩
    simp only [hmem, Option.map_some]
    split <;> rfl

/-- Below `2 ^ 32` messages, a message's number is its place. -/
theorem Numbered.getElem_of_mem {o : Outbound} (h : o.Numbered)
    (hlt : o.generated.length < 2 ^ 32) {k : Nat} {d : Bytes} (he : (k + 1, d) ∈ o.generated) :
    o.generated[k]? = some (k + 1, d) := by
  obtain ⟨i, hi⟩ := List.mem_iff_getElem?.mp he
  obtain ⟨hi', -⟩ := List.getElem?_eq_some_iff.mp hi
  have hk := h.seq_eq i _ hi
  rw [Nat.mod_eq_of_lt (by omega)] at hk
  obtain rfl : k = i := by simpa using hk
  exact hi

theorem Numbered.lastSeq_of_lt {o : Outbound} (h : o.Numbered)
    (hlt : o.generated.length < 2 ^ 32) : o.lastSeq = o.generated.length := by
  rw [h.lastSeq_eq, Nat.mod_eq_of_lt hlt]

/-- Below `2 ^ 32` messages, the numbers are `1, 2, …, lastSeq`. -/
theorem Numbered.map_fst {o : Outbound} (h : o.Numbered) (hlt : o.generated.length < 2 ^ 32) :
    o.generated.map Prod.fst = List.range' 1 o.lastSeq := by
  rw [h.lastSeq_of_lt hlt]
  refine List.ext_getElem (by simp) fun i h₁ _ => ?_
  rw [List.length_map] at h₁
  have := h.seq_eq i _ (List.getElem?_eq_getElem h₁)
  rw [Nat.mod_eq_of_lt (by omega)] at this
  rw [List.getElem_map, List.getElem_range', this]
  omega

/-- Every generated message above `r` is still queued. -/
def Kept (r : Nat) (o : Outbound) : Prop :=
  ∀ e ∈ o.generated, r < e.1 → o.entry e.1 = some e

theorem kept_new (r : Nat) (now : Instant) : (new now).Kept r := by simp [Kept, new]

theorem Kept.mono {r r' : Nat} {o : Outbound} (h : o.Kept r) (hr : r ≤ r') : o.Kept r' :=
  fun e he hlt => h e he (by omega)

theorem Kept.stampSent {r : Nat} {o : Outbound} (h : o.Kept r) (now : Instant) :
    (o.stampSent now).Kept r := by
  intro e he hlt
  rw [stampSent_entry]
  exact h e he hlt

/-- Pruning at an acknowledgement no greater than `r` keeps what is above `r`. -/
theorem Kept.removeSentMessagesFromQueue {r : Nat} {o : Outbound} (h : o.Kept r)
    (hd : o.deliveredSeq ≤ r) : o.removeSentMessagesFromQueue.Kept r := by
  intro e he hlt
  rw [removeSentMessagesFromQueue_entry, if_pos (by omega)]
  exact h e he hlt

/-- Generating queues what it numbers, and below `2 ^ 32` messages no number is
used twice. -/
theorem Kept.generateMessages {r : Nat} {o : Outbound} (hn : o.Numbered) (h : o.Kept r)
    (hlt : o.generateMessages.generated.length < 2 ^ 32) : o.generateMessages.Kept r := by
  suffices key : o.generateMessages.Numbered ∧
      (o.generateMessages.generated.length < 2 ^ 32 → o.generateMessages.Kept r) from key.2 hlt
  refine generateMessages_invariant (P := fun o => o.Numbered ∧
    (o.generated.length < 2 ^ 32 → o.Kept r)) ?_ ⟨hn, fun _ => h⟩
  rintro o - ⟨hn, h⟩
  have hlen : o.generateMessage.generated.length = o.generated.length + 1 := by
    rw [generateMessage_generated, List.length_append, List.length_singleton]
  refine ⟨hn.generateMessage, fun hlt e he hr => ?_⟩
  rw [hlen] at hlt
  have hseq : addU32 o.lastSeq 1 = o.generated.length + 1 := by
    rw [hn.lastSeq_of_lt (by omega), addU32_of_lt hlt]
  rw [generateMessage_generated] at he
  rw [generateMessage_entry]
  rcases List.mem_append.mp he with he | he
  · obtain ⟨i, hi⟩ := List.mem_iff_getElem?.mp he
    obtain ⟨hi', -⟩ := List.getElem?_eq_some_iff.mp hi
    have hk := hn.seq_eq i e hi
    rw [Nat.mod_eq_of_lt (by omega)] at hk
    rw [if_neg (by omega)]
    exact h (by omega) e he hr
  · obtain rfl := List.mem_singleton.mp he
    rw [if_pos rfl]

end Outbound
end VeilidTransport
