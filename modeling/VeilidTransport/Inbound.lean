import VeilidTransport.Basic
import VeilidTransport.Foundation.KeyedMap
import VeilidTransport.Foundation.Framing
import Mathlib.Data.List.Basic

/-!
# The inbound half of a stream

Messages arrive under their numbers.  The next one in order is appended to
`buffer`, together with the ones after it that were waiting in `messageQueue`;
complete slices are then cut off the front of `buffer` and moved to `stream`,
where they are read.

`appended` and `slices` are history: the message data appended to the buffer so
far, one entry for each message, and the slices moved to the stream.  No function
reads them.

The cutting loop has two ways out.  When the buffer holds no further complete
slice it ends, and the slices cut so far are kept.  When fewer than four bytes
are left, not enough for a length, the source returns from inside the loop, and
the slices cut so far are dropped with it (`Straddles`).
-/

namespace VeilidTransport

structure Inbound where
  /-- Slices that are complete and readable. -/
  stream : Bytes
  /-- Bytes that await further data. -/
  buffer : Bytes
  /-- Seq cursor of contiguous data. -/
  receivedSeq : Nat
  /-- Messages not ready to be processed. -/
  messageQueue : KeyedMap Nat Bytes
  /-- Last inbound message received. -/
  lastTimestamp : Instant
  /-- History: the data of the messages appended to the buffer. -/
  appended : List Bytes
  /-- History: the slices moved to the stream. -/
  slices : List Bytes

namespace Inbound

def new (now : Instant) : Inbound := ⟨[], [], 0, ∅, now, [], []⟩

def recvInboundBuffer (i : Inbound) (data : Bytes) : Inbound :=
  { i with buffer := i.buffer ++ data, appended := i.appended ++ [data] }

/-- Keep a message for later. -/
def storeMessage (i : Inbound) (seq : Nat) (data : Bytes) : Inbound :=
  { i with messageQueue := i.messageQueue.insert seq data }

/-- Take a message out of the queue. -/
def removeMessage (i : Inbound) (seq : Nat) : Inbound :=
  { i with messageQueue := i.messageQueue.erase seq }

/-- `while let Some(data) = queue.remove(&(final_seq + 1))`, for at most `fuel`
passes. -/
def drainLoop : Nat → Nat → Inbound → Nat × Inbound
  | 0, finalSeq, i => (finalSeq, i)
  | fuel + 1, finalSeq, i =>
    match i.messageQueue.lookup (addU32 finalSeq 1) with
    | none => (finalSeq, i)
    | some data =>
      drainLoop fuel (addU32 finalSeq 1)
        ((i.removeMessage (addU32 finalSeq 1)).recvInboundBuffer data)

/-- Every pass removes a message, so the queue's size bounds the passes. -/
def drainMessageQueue (i : Inbound) (finalSeq : Nat) : Nat × Inbound :=
  drainLoop i.messageQueue.entries.length finalSeq i

def updateInboundReceivedSeq (i : Inbound) (newValue : Nat) : Inbound :=
  { i with receivedSeq := newValue }

def updateInboundLastTimestampToNow (i : Inbound) (now : Instant) : Inbound :=
  { i with lastTimestamp := now }

/-- The loop of `update_inbound_stream`, for at most `fuel` passes: the slices
cut off, what is left of the buffer, and whether the loop was left by `return`. -/
def sliceLoop : Nat → Bytes → List Bytes × Bytes × Bool
  | 0, buffer => ([], buffer, false)
  | fuel + 1, buffer =>
    if buffer = [] then ([], buffer, false)
    else if buffer.length < 4 then ([], buffer, true)
    else
      let sliceLen := U32.fromLeBytes (buffer.take 4)
      if sliceLen + 4 ≤ buffer.length then
        let slice := (buffer.take (4 + sliceLen)).drop 4
        let (slices, left, returned) := sliceLoop fuel (buffer.drop (4 + sliceLen))
        (slice :: slices, left, returned)
      else ([], buffer, false)

/-- The part of `update_inbound_stream` that holds the buffer's lock: the slices
it hands on, none when the loop was left by `return`. -/
def takeCompleteSlices (i : Inbound) : List Bytes × Inbound :=
  match sliceLoop i.buffer.length i.buffer with
  | (completeSlices, left, returned) =>
    (if returned then [] else completeSlices, { i with buffer := left })

/-- The part of `update_inbound_stream` that holds the stream's lock. -/
def pushSlices (i : Inbound) (completeSlices : List Bytes) : Inbound :=
  { i with stream := i.stream ++ completeSlices.flatten, slices := i.slices ++ completeSlices }

/-- Append the next message in order, then the ones waiting after it, and move
the cursor behind the last. -/
def acceptMessage (i : Inbound) (data : Bytes) : Inbound :=
  match (i.recvInboundBuffer data).drainMessageQueue (addU32 i.receivedSeq 1) with
  | (finalSeq, i) => i.updateInboundReceivedSeq finalSeq

/-- `update_inbound_stream`, but for the wake-up. -/
def updateInboundStream (i : Inbound) : Inbound :=
  i.takeCompleteSlices.2.pushSlices i.takeCompleteSlices.1

/-- Up to `len` bytes off the front of the stream, `none` if it is empty. -/
def readInboundStream (i : Inbound) (len : Nat) : Option Bytes × Inbound :=
  if i.stream = [] then (none, i)
  else
    let readable := min len i.stream.length
    (some (i.stream.take readable), { i with stream := i.stream.drop readable })

/-! ## Resequencing -/

/-- One message appended for each step of the cursor, and no message waiting
under the number zero. -/
structure Counted (i : Inbound) (cursor : Nat) : Prop where
  length_appended : i.appended.length = cursor
  cursor_lt : cursor < 2 ^ 32
  lookup_zero : i.messageQueue.lookup 0 = none

/-- What was appended, and what waits, is what `generated` holds under the same
numbers. -/
structure TakenFrom (i : Inbound) (generated : List (Nat × Bytes)) : Prop where
  appended : ∀ k d, i.appended[k]? = some d → (k + 1, d) ∈ generated
  queued : ∀ k d, i.messageQueue.lookup k = some d → (k, d) ∈ generated

theorem counted_new (now : Instant) : (new now).Counted 0 := ⟨rfl, by decide, rfl⟩

theorem takenFrom_new (now : Instant) (generated : List (Nat × Bytes)) :
    (new now).TakenFrom generated := by
  constructor
  · intro k d h
    simp [new] at h
  · intro k d h
    simp [new] at h

theorem TakenFrom.mono {i : Inbound} {g g' : List (Nat × Bytes)} (h : i.TakenFrom g)
    (hg : ∀ e ∈ g, e ∈ g') : i.TakenFrom g' :=
  ⟨fun k d hd => hg _ (h.appended k d hd), fun k d hd => hg _ (h.queued k d hd)⟩

theorem Counted.storeMessage {i : Inbound} {n seq : Nat} (h : i.Counted n) (hseq : 0 < seq)
    (data : Bytes) : (i.storeMessage seq data).Counted n := by
  refine ⟨h.length_appended, h.cursor_lt, ?_⟩
  rw [Inbound.storeMessage, KeyedMap.lookup_insert, if_neg (by omega)]
  exact h.lookup_zero

theorem TakenFrom.storeMessage {i : Inbound} {g : List (Nat × Bytes)} (h : i.TakenFrom g)
    {seq : Nat} {data : Bytes} (hm : (seq, data) ∈ g) : (i.storeMessage seq data).TakenFrom g := by
  refine ⟨h.appended, fun k d hd => ?_⟩
  rw [Inbound.storeMessage, KeyedMap.lookup_insert] at hd
  split at hd
  · next hk =>
    obtain rfl := Option.some.inj hd
    exact hk ▸ hm
  · exact h.queued k d hd

theorem Counted.recvInboundBuffer {i : Inbound} {n : Nat} (h : i.Counted n) (hn : n + 1 < 2 ^ 32)
    (data : Bytes) : (i.recvInboundBuffer data).Counted (n + 1) :=
  ⟨by simp [Inbound.recvInboundBuffer, h.length_appended], hn, h.lookup_zero⟩

theorem TakenFrom.recvInboundBuffer {i : Inbound} {g : List (Nat × Bytes)} {n : Nat}
    (hc : i.Counted n) (h : i.TakenFrom g) {data : Bytes} (hm : (n + 1, data) ∈ g) :
    (i.recvInboundBuffer data).TakenFrom g := by
  refine ⟨fun k d hd => ?_, h.queued⟩
  rw [Inbound.recvInboundBuffer] at hd
  rcases getElem?_concat_cases hd with hd | ⟨rfl, rfl⟩
  · exact h.appended k d hd
  · rw [hc.length_appended]
    exact hm

/-- A message found under the successor of the cursor: the successor has not
wrapped, and taking the message out keeps the rest. -/
theorem Counted.of_lookup {i : Inbound} {n : Nat} (h : i.Counted n) {data : Bytes}
    (hd : i.messageQueue.lookup (addU32 n 1) = some data) :
    addU32 n 1 = n + 1 ∧ n + 1 < 2 ^ 32 := by
  have hne : addU32 n 1 ≠ 0 := by
    intro h0
    rw [h0, h.lookup_zero] at hd
    cases hd
  have hlt := h.cursor_lt
  unfold addU32 at *
  omega

theorem Counted.removeMessage {i : Inbound} {n : Nat} (h : i.Counted n) (seq : Nat) :
    (i.removeMessage seq).Counted n := by
  refine ⟨h.length_appended, h.cursor_lt, ?_⟩
  rw [Inbound.removeMessage, KeyedMap.lookup_erase]
  split
  · rfl
  · exact h.lookup_zero

theorem TakenFrom.removeMessage {i : Inbound} {g : List (Nat × Bytes)} (h : i.TakenFrom g)
    (seq : Nat) : (i.removeMessage seq).TakenFrom g := by
  refine ⟨h.appended, fun k d hd => ?_⟩
  rw [Inbound.removeMessage, KeyedMap.lookup_erase] at hd
  split at hd
  · cases hd
  · exact h.queued k d hd

/-- What one pass of the drain keeps, the drain keeps. -/
theorem drainLoop_invariant {P : Nat → Inbound → Prop}
    (hpass : ∀ n (i : Inbound) data, i.messageQueue.lookup (addU32 n 1) = some data → P n i →
      P (addU32 n 1) ((i.removeMessage (addU32 n 1)).recvInboundBuffer data))
    (fuel : Nat) {n : Nat} {i : Inbound} (h : P n i) :
    P (drainLoop fuel n i).1 (drainLoop fuel n i).2 := by
  induction fuel generalizing n i with
  | zero => exact h
  | succ fuel ih =>
    rw [drainLoop]
    split
    · exact h
    · next data hd => exact ih (hpass n i data hd h)

/-- **The drain ends only where no further message waits.** -/
theorem drainMessageQueue_done (i : Inbound) (n : Nat) :
    (i.drainMessageQueue n).2.messageQueue.lookup (addU32 (i.drainMessageQueue n).1 1) = none := by
  suffices key : ∀ fuel n (i : Inbound), i.messageQueue.entries.length ≤ fuel →
      (drainLoop fuel n i).2.messageQueue.lookup (addU32 (drainLoop fuel n i).1 1) = none from
    key _ _ _ (Nat.le_refl _)
  intro fuel
  induction fuel with
  | zero =>
    intro n i h
    have hnil : i.messageQueue.entries = [] := List.length_eq_zero_iff.mp (Nat.le_zero.mp h)
    rw [drainLoop, AList.lookup_eq_none, AList.mem_keys, AList.keys, hnil]
    exact List.not_mem_nil
  | succ fuel ih =>
    intro n i h
    rw [drainLoop]
    split
    · next hnone => exact hnone
    · next data hd =>
      have hlt := KeyedMap.size_erase_lt hd
      exact ih _ _ (by change (i.messageQueue.erase _).entries.length ≤ fuel; omega)

theorem Counted.drain {i : Inbound} {n : Nat} (h : i.Counted n) :
    (i.drainMessageQueue n).2.Counted (i.drainMessageQueue n).1 := by
  refine drainLoop_invariant (P := fun n i => Counted i n) ?_ _ h
  intro n i data hd h
  obtain ⟨hn, hlt⟩ := h.of_lookup hd
  rw [hn]
  exact (h.removeMessage _).recvInboundBuffer hlt data

theorem TakenFrom.drain {i : Inbound} {n : Nat} {g : List (Nat × Bytes)} (hc : i.Counted n)
    (h : i.TakenFrom g) : (i.drainMessageQueue n).2.TakenFrom g := by
  refine (drainLoop_invariant (P := fun n i => Counted i n ∧ TakenFrom i g) ?_ _ ⟨hc, h⟩).2
  rintro n i data hd ⟨hc, h⟩
  obtain ⟨hn, hlt⟩ := hc.of_lookup hd
  rw [hn] at hd ⊢
  have hc' := hc.removeMessage (n + 1)
  exact ⟨hc'.recvInboundBuffer hlt data,
    (h.removeMessage _).recvInboundBuffer hc' (h.queued _ _ hd)⟩

theorem le_drainMessageQueue {i : Inbound} {n : Nat} (h : i.Counted n) :
    n ≤ (i.drainMessageQueue n).1 := by
  refine (drainLoop_invariant (P := fun m i => Counted i m ∧ n ≤ m) ?_ _ ⟨h, Nat.le_refl n⟩).2
  rintro m i data hd ⟨hc, hle⟩
  obtain ⟨hm, hlt⟩ := hc.of_lookup hd
  rw [hm]
  exact ⟨(hc.removeMessage _).recvInboundBuffer hlt data, by omega⟩

/-- The number of a message that is neither a duplicate nor ahead of the cursor. -/
theorem next_of_not_lt {r seq : Nat} (h1 : ¬ seq ≤ r) (h2 : ¬ addU32 r 1 < seq) :
    seq = r + 1 ∧ addU32 r 1 = r + 1 ∧ r + 1 < 2 ^ 32 := by
  unfold addU32 at *
  omega

theorem Counted.acceptMessage {i : Inbound} (h : i.Counted i.receivedSeq)
    (hlt : i.receivedSeq + 1 < 2 ^ 32) (data : Bytes) :
    (i.acceptMessage data).Counted (i.acceptMessage data).receivedSeq := by
  have hc := (h.recvInboundBuffer hlt data).drain
  rw [Inbound.acceptMessage, addU32_of_lt hlt]
  exact ⟨hc.length_appended, hc.cursor_lt, hc.lookup_zero⟩

theorem le_acceptMessage {i : Inbound} (h : i.Counted i.receivedSeq)
    (hlt : i.receivedSeq + 1 < 2 ^ 32) (data : Bytes) :
    i.receivedSeq + 1 ≤ (i.acceptMessage data).receivedSeq := by
  rw [acceptMessage, addU32_of_lt hlt]
  exact le_drainMessageQueue (h.recvInboundBuffer hlt data)

theorem TakenFrom.acceptMessage {i : Inbound} {g : List (Nat × Bytes)}
    (hc : i.Counted i.receivedSeq) (h : i.TakenFrom g) (hlt : i.receivedSeq + 1 < 2 ^ 32)
    {data : Bytes} (hm : (i.receivedSeq + 1, data) ∈ g) : (i.acceptMessage data).TakenFrom g := by
  have ht := (h.recvInboundBuffer hc hm).drain (hc.recvInboundBuffer hlt data)
  rw [Inbound.acceptMessage, addU32_of_lt hlt]
  exact ⟨ht.appended, ht.queued⟩

/-- **In-order, exactly once**: with the messages numbered by their places, what
was appended is the data of the first ones. -/
theorem TakenFrom.appended_eq {i : Inbound} {n : Nat} {g : List (Nat × Bytes)}
    (hc : i.Counted n) (h : i.TakenFrom g)
    (hg : ∀ k d, (k + 1, d) ∈ g → g[k]? = some (k + 1, d)) :
    n ≤ g.length ∧ i.appended = (g.take n).map Prod.snd := by
  have hget : ∀ k d, i.appended[k]? = some d → g[k]? = some (k + 1, d) :=
    fun k d hd => hg k d (h.appended k d hd)
  have hle : n ≤ g.length := by
    rcases Nat.eq_zero_or_pos n with h0 | hpos
    · omega
    · have hk : n - 1 < i.appended.length := by rw [hc.length_appended]; omega
      obtain ⟨hlt, -⟩ := List.getElem?_eq_some_iff.mp
        (hget _ _ (List.getElem?_eq_getElem hk))
      omega
  refine ⟨hle, List.ext_getElem ?_ fun k h₁ h₂ => ?_⟩
  · rw [List.length_map, List.length_take, hc.length_appended, Nat.min_eq_left hle]
  · have := hget k _ (List.getElem?_eq_getElem h₁)
    obtain ⟨hlt, heq⟩ := List.getElem?_eq_some_iff.mp this
    rw [List.getElem_map, List.getElem_take, heq]

/-! ## Slices -/

/-- The messages waiting right after the number `n`, in order. -/
def waiting : Nat → Nat → KeyedMap Nat Bytes → Bytes
  | 0, _, _ => []
  | fuel + 1, n, queue =>
    match queue.lookup (addU32 n 1) with
    | none => []
    | some data => data ++ waiting fuel (addU32 n 1) (queue.erase (addU32 n 1))

/-- What the buffer holds once `data`, with the number `seq`, and the messages
waiting after it are appended. -/
def bufferAfter (i : Inbound) (seq : Nat) (data : Bytes) : Bytes :=
  i.buffer ++ data ++ waiting i.messageQueue.entries.length seq i.messageQueue

theorem drainMessageQueue_buffer (i : Inbound) (n : Nat) :
    (i.drainMessageQueue n).2.buffer =
      i.buffer ++ waiting i.messageQueue.entries.length n i.messageQueue := by
  suffices key : ∀ fuel n (i : Inbound),
      (drainLoop fuel n i).2.buffer = i.buffer ++ waiting fuel n i.messageQueue from key _ _ _
  intro fuel
  induction fuel with
  | zero => exact fun _ i => (List.append_nil i.buffer).symm
  | succ fuel ih =>
    intro n i
    rw [drainLoop, waiting]
    cases hd : i.messageQueue.lookup (addU32 n 1) with
    | none => exact (List.append_nil i.buffer).symm
    | some data =>
      simp only
      rw [ih, recvInboundBuffer, removeMessage, List.append_assoc]

theorem drainMessageQueue_stream (i : Inbound) (n : Nat) :
    (i.drainMessageQueue n).2.stream = i.stream :=
  drainLoop_invariant (P := fun _ j => j.stream = i.stream) (fun _ _ _ _ h => h) _ rfl

theorem acceptMessage_stream (i : Inbound) (data : Bytes) :
    (i.acceptMessage data).stream = i.stream :=
  drainMessageQueue_stream (i.recvInboundBuffer data) _

theorem acceptMessage_slices (i : Inbound) (data : Bytes) :
    (i.acceptMessage data).slices = i.slices :=
  drainLoop_invariant (P := fun _ j => j.slices = i.slices) (fun _ _ _ _ h => h) _ rfl

theorem drainMessageQueue_receivedSeq (i : Inbound) (n : Nat) :
    (i.drainMessageQueue n).2.receivedSeq = i.receivedSeq :=
  drainLoop_invariant (P := fun _ j => j.receivedSeq = i.receivedSeq) (fun _ _ _ _ h => h) _ rfl

/-- One or more complete slices with one, two or three bytes behind them. -/
def Straddles (buffer : Bytes) : Prop :=
  ∃ ds x, ds ≠ [] ∧ U32.leHeader.Fits ds ∧ buffer = U32.leHeader.frames ds ++ x ∧
    0 < x.length ∧ x.length < 4

/-- The first slice of a buffer that holds a complete one. -/
theorem frame_of_le {buffer : Bytes} (h4 : ¬ buffer.length < 4)
    (hle : U32.fromLeBytes (buffer.take 4) + 4 ≤ buffer.length) :
    ((buffer.take (4 + U32.fromLeBytes (buffer.take 4))).drop 4).length < 2 ^ 32 ∧
    buffer = U32.leHeader.frame ((buffer.take (4 + U32.fromLeBytes (buffer.take 4))).drop 4) ++
      buffer.drop (4 + U32.fromLeBytes (buffer.take 4)) := by
  have hhead : (buffer.take 4).length = 4 := by rw [List.length_take]; omega
  have hlt := U32.fromLeBytes_lt hhead
  have hlen : ((buffer.take (4 + U32.fromLeBytes (buffer.take 4))).drop 4).length =
      U32.fromLeBytes (buffer.take 4) := by
    rw [List.length_drop, List.length_take]
    omega
  refine ⟨by omega, ?_⟩
  rw [U32.leHeader.frame_of_header hhead hlen, List.drop_take, Nat.add_sub_cancel_left]
  conv_lhs => rw [← List.take_append_drop (4 + U32.fromLeBytes (buffer.take 4)) buffer]
  rw [List.take_add]

/-- **What the loop cuts off are frames of the buffer**, and it returns only when
one, two or three bytes are left. -/
theorem sliceLoop_spec (fuel : Nat) (buffer : Bytes) :
    buffer = U32.leHeader.frames (sliceLoop fuel buffer).1 ++ (sliceLoop fuel buffer).2.1 ∧
    U32.leHeader.Fits (sliceLoop fuel buffer).1 ∧
    ((sliceLoop fuel buffer).2.2 = true →
      0 < (sliceLoop fuel buffer).2.1.length ∧ (sliceLoop fuel buffer).2.1.length < 4) := by
  induction fuel generalizing buffer with
  | zero => exact ⟨rfl, U32.leHeader.fits_nil, by simp [sliceLoop]⟩
  | succ fuel ih =>
    rw [sliceLoop]
    by_cases hnil : buffer = []
    · rw [if_pos hnil]
      exact ⟨rfl, U32.leHeader.fits_nil, by simp⟩
    · rw [if_neg hnil]
      by_cases h4 : buffer.length < 4
      · rw [if_pos h4]
        exact ⟨rfl, U32.leHeader.fits_nil, fun _ => ⟨List.length_pos_iff.mpr hnil, h4⟩⟩
      · rw [if_neg h4]
        simp only
        by_cases hle : U32.fromLeBytes (buffer.take 4) + 4 ≤ buffer.length
        · rw [if_pos hle]
          obtain ⟨hfit, hbuf⟩ := frame_of_le h4 hle
          obtain ⟨h1, h2, h3⟩ := ih (buffer.drop (4 + U32.fromLeBytes (buffer.take 4)))
          refine ⟨?_, ?_, h3⟩
          · simp only
            rw [U32.leHeader.frames_cons, List.append_assoc, ← h1]
            exact hbuf
          · intro d hd
            rcases List.mem_cons.mp hd with rfl | hd
            · exact hfit
            · exact h2 d hd
        · rw [if_neg hle]
          exact ⟨rfl, U32.leHeader.fits_nil, by simp⟩

/-- A frame at the front of the buffer is cut off. -/
theorem sliceLoop_frame {d : Bytes} (hd : d.length < 2 ^ 32) (fuel : Nat) (rest : Bytes) :
    sliceLoop (fuel + 1) (U32.leHeader.frame d ++ rest) =
      (d :: (sliceLoop fuel rest).1, (sliceLoop fuel rest).2) := by
  have hhead : (U32.toLeBytes d.length).length = 4 := rfl
  have hbuf : U32.leHeader.frame d ++ rest = U32.toLeBytes d.length ++ (d ++ rest) := by
    rw [LengthHeader.frame, List.append_assoc]
    rfl
  have hnum : U32.fromLeBytes ((U32.toLeBytes d.length ++ (d ++ rest)).take 4) = d.length := by
    rw [List.take_left' hhead, U32.fromLeBytes_toLeBytes, Nat.mod_eq_of_lt hd]
  have htake : ((U32.toLeBytes d.length ++ (d ++ rest)).take (4 + d.length)).drop 4 = d := by
    rw [List.drop_take, Nat.add_sub_cancel_left, List.drop_left' hhead, List.take_left]
  have hdrop : (U32.toLeBytes d.length ++ (d ++ rest)).drop (4 + d.length) = rest := by
    rw [← List.append_assoc, List.drop_left' (by rw [List.length_append, hhead])]
  have hlen : (U32.toLeBytes d.length ++ (d ++ rest)).length = 4 + (d.length + rest.length) := by
    rw [List.length_append, List.length_append, hhead]
  have hne : U32.toLeBytes d.length ++ (d ++ rest) ≠ [] :=
    List.append_ne_nil_of_left_ne_nil (List.cons_ne_nil _ _) _
  rw [hbuf, sliceLoop, if_neg hne, if_neg (by omega), hnum]
  simp only
  rw [htake, hdrop, if_pos (by omega)]

/-- **The loop drops slices exactly on a buffer that straddles a length.** -/
theorem straddles_iff (buffer : Bytes) :
    Straddles buffer ↔ (sliceLoop buffer.length buffer).1 ≠ [] ∧
      (sliceLoop buffer.length buffer).2.2 = true := by
  constructor
  · rintro ⟨ds, x, hne, hfit, rfl, hpos, hlt⟩
    suffices key : ∀ ds, U32.leHeader.Fits ds → ∀ fuel,
        (U32.leHeader.frames ds ++ x).length ≤ fuel →
        sliceLoop fuel (U32.leHeader.frames ds ++ x) = (ds, x, true) by
      rw [key ds hfit _ (Nat.le_refl _)]
      exact ⟨hne, rfl⟩
    intro ds
    induction ds with
    | nil =>
      intro _ fuel hfuel
      obtain ⟨fuel, rfl⟩ : ∃ f, fuel = f + 1 := by
        refine ⟨fuel - 1, ?_⟩
        simp only [LengthHeader.frames_nil, List.nil_append] at hfuel
        omega
      rw [LengthHeader.frames_nil, List.nil_append, sliceLoop,
        if_neg (List.length_pos_iff.mp hpos), if_pos hlt]
    | cons d ds ih =>
      intro hfit fuel hfuel
      have hd : d.length < 2 ^ 32 := hfit d List.mem_cons_self
      rw [LengthHeader.frames_cons, List.append_assoc] at hfuel ⊢
      rw [List.length_append, LengthHeader.length_frame] at hfuel
      have hw : U32.leHeader.width = 4 := rfl
      obtain ⟨fuel, rfl⟩ : ∃ f, fuel = f + 1 := ⟨fuel - 1, by omega⟩
      rw [sliceLoop_frame hd, ih (fun e he => hfit e (List.mem_cons_of_mem _ he)) fuel (by omega)]
  · rintro ⟨hne, hr⟩
    obtain ⟨h1, h2, h3⟩ := sliceLoop_spec buffer.length buffer
    exact ⟨_, _, hne, h2, h1, h3 hr⟩

instance (buffer : Bytes) : Decidable (Straddles buffer) :=
  decidable_of_iff _ (straddles_iff buffer).symm

/-- **On a buffer that does not straddle a length, nothing is lost.** -/
theorem takeCompleteSlices_of_not_straddles {i : Inbound} (h : ¬ Straddles i.buffer) :
    i.buffer = U32.leHeader.frames i.takeCompleteSlices.1 ++ i.takeCompleteSlices.2.buffer ∧
    U32.leHeader.Fits i.takeCompleteSlices.1 := by
  obtain ⟨h1, h2, h3⟩ := sliceLoop_spec i.buffer.length i.buffer
  unfold takeCompleteSlices
  revert h1 h2 h3
  rcases sliceLoop i.buffer.length i.buffer with ⟨ds, left, returned⟩
  intro h1 h2 h3
  simp only at h1 h2 h3 ⊢
  by_cases hr : returned = true
  · -- left by `return`: the loop can have cut nothing off
    have hds : ds = [] := by
      by_contra hne
      exact h ⟨ds, left, hne, h2, h1, h3 hr⟩
    subst hds
    rw [if_pos hr]
    exact ⟨h1, h2⟩
  · rw [if_neg hr]
    exact ⟨h1, h2⟩

/-- What was appended is the framed slices and the rest of the buffer. -/
structure Sliced (i : Inbound) : Prop where
  frames : i.appended.flatten = U32.leHeader.frames i.slices ++ i.buffer
  fits : U32.leHeader.Fits i.slices

theorem sliced_new (now : Instant) : (new now).Sliced := ⟨rfl, U32.leHeader.fits_nil⟩

theorem Sliced.recvInboundBuffer {i : Inbound} (h : i.Sliced) (data : Bytes) :
    (i.recvInboundBuffer data).Sliced := by
  refine ⟨?_, h.fits⟩
  simp only [Inbound.recvInboundBuffer, List.flatten_append, List.flatten_singleton, h.frames,
    List.append_assoc]

theorem Sliced.removeMessage {i : Inbound} (h : i.Sliced) (seq : Nat) :
    (i.removeMessage seq).Sliced := ⟨h.frames, h.fits⟩

theorem Sliced.drain {i : Inbound} (h : i.Sliced) (n : Nat) :
    (i.drainMessageQueue n).2.Sliced := by
  refine drainLoop_invariant (P := fun _ i => Sliced i) ?_ _ h
  intro n i data _ h
  exact (h.removeMessage _).recvInboundBuffer data

theorem Sliced.acceptMessage {i : Inbound} (h : i.Sliced) (data : Bytes) :
    (i.acceptMessage data).Sliced :=
  have hd := (h.recvInboundBuffer data).drain (addU32 i.receivedSeq 1)
  ⟨hd.frames, hd.fits⟩

theorem acceptMessage_buffer (i : Inbound) (data : Bytes) :
    (i.acceptMessage data).buffer = i.bufferAfter (addU32 i.receivedSeq 1) data := by
  rw [bufferAfter]
  exact drainMessageQueue_buffer (i.recvInboundBuffer data) (addU32 i.receivedSeq 1)

theorem Sliced.updateInboundStream {i : Inbound} (h : i.Sliced) (hs : ¬ Straddles i.buffer) :
    i.updateInboundStream.Sliced := by
  obtain ⟨h1, h2⟩ := takeCompleteSlices_of_not_straddles hs
  have hb : i.takeCompleteSlices.2.appended = i.appended ∧
      i.takeCompleteSlices.2.slices = i.slices := ⟨rfl, rfl⟩
  constructor
  · rw [Inbound.updateInboundStream, pushSlices, hb.1, hb.2, U32.leHeader.frames_append,
      List.append_assoc, ← h1]
    exact h.frames
  · rw [Inbound.updateInboundStream, pushSlices, hb.2]
    exact U32.leHeader.fits_append.mpr ⟨h.fits, h2⟩

end Inbound
end VeilidTransport
