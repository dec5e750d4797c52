import VeilidTransport.Window

/-!
# The reorder queue

Whatever numbers a remote puts on its messages, what waits in the queue is ahead of the
cursor and within its window.  A message is kept only between the two ends of the window;
the window only moves up; and when the cursor moves, the drain takes out every message
that it passes, and stops only in front of a number that is missing.

`Ahead` is what the drain keeps at each pass, and `Windowed` what a call of
`recv_message` leaves behind: the queue is never larger than the window, and holds
neither a message that the cursor has passed nor the one it stands in front of.
-/

namespace VeilidTransport
open Runs

namespace Inbound

/-- The messages that wait are behind the number `n`, at most 19 numbers. -/
structure Ahead (i : Inbound) (n : Nat) : Prop where
  cursor_lt : n < 2 ^ 32
  queue : ∀ k ∈ i.messageQueue.keys, n < k ∧ k ≤ n + 19 ∧ k < 2 ^ 32

/-- The messages that wait are within the window of the cursor, and the first is missing. -/
structure Windowed (i : Inbound) : Prop extends Ahead i i.receivedSeq where
  next_notMem : i.receivedSeq + 1 ∉ i.messageQueue.keys

theorem windowed_of_empty {i : Inbound} (hq : i.messageQueue = ∅) (hr : i.receivedSeq < 2 ^ 32) :
    i.Windowed := by
  refine ⟨⟨hr, fun k hk => ?_⟩, ?_⟩
  · rw [hq] at hk
    exact absurd hk List.not_mem_nil
  · rw [hq]
    exact List.not_mem_nil

/-- A message between the ends of the window is kept; the sums are exact, or it is not. -/
theorem Windowed.storeMessage {i : Inbound} (h : i.Windowed) {seq : Nat}
    (hahead : addU32 i.receivedSeq 1 < seq) (hwithin : seq < addU32 i.receivedSeq 20)
    (hnew : i.receivedSeq < seq) (data : Bytes) : (i.storeMessage seq data).Windowed := by
  have hlt := h.cursor_lt
  have hnext : i.receivedSeq + 1 < seq ∧ seq < i.receivedSeq + 20 ∧ seq < 2 ^ 32 := by
    unfold addU32 at hahead hwithin
    omega
  have hkeys : ∀ k ∈ (i.storeMessage seq data).messageQueue.keys,
      k = seq ∨ k ∈ i.messageQueue.keys := by
    intro k hk
    rw [Inbound.storeMessage, AList.keys_insert] at hk
    exact (List.mem_cons.mp hk).imp_right List.mem_of_mem_erase
  refine ⟨⟨hlt, fun k hk => ?_⟩, fun hk => ?_⟩
  · rcases hkeys k hk with rfl | hk
    · change i.receivedSeq < k ∧ k ≤ i.receivedSeq + 19 ∧ k < 2 ^ 32
      omega
    · exact h.queue k hk
  · rcases hkeys _ hk with heq | hk
    · change i.receivedSeq + 1 = seq at heq
      omega
    · exact h.next_notMem hk

/-- A message that the drain finds is the next number, which is no longer in the queue. -/
theorem Ahead.pass {i : Inbound} {n : Nat} (h : i.Ahead n) {data : Bytes}
    (hd : i.messageQueue.lookup (addU32 n 1) = some data) :
    ((i.removeMessage (addU32 n 1)).recvInboundBuffer data).Ahead (addU32 n 1) := by
  have hmem : addU32 n 1 ∈ i.messageQueue.keys :=
    AList.mem_keys.mp (AList.lookup_isSome.mp (by rw [hd]; rfl))
  obtain ⟨hlt, -, hbound⟩ := h.queue _ hmem
  have hsucc : addU32 n 1 = n + 1 := by
    unfold addU32 at *
    omega
  refine ⟨hbound, fun k hk => ?_⟩
  obtain ⟨hne, hk⟩ := AList.mem_erase.mp (AList.mem_keys.mpr hk)
  obtain ⟨hk1, hk2, hk3⟩ := h.queue k (AList.mem_keys.mp hk)
  omega

/-- **The drain stops in front of a missing number.** -/
theorem Ahead.drain {i : Inbound} {n : Nat} (h : i.Ahead n) :
    (i.drainMessageQueue n).2.Ahead (i.drainMessageQueue n).1 ∧
      (i.drainMessageQueue n).1 + 1 ∉ (i.drainMessageQueue n).2.messageQueue.keys := by
  have hahead : (i.drainMessageQueue n).2.Ahead (i.drainMessageQueue n).1 :=
    drainLoop_invariant (P := fun n i => Ahead i n) (fun _ _ _ hd h => h.pass hd) _ h
  refine ⟨hahead, fun hmem => ?_⟩
  have hbound := (hahead.queue _ hmem).2.2
  have hdone := i.drainMessageQueue_done n
  rw [addU32_of_lt hbound] at hdone
  exact AList.lookup_eq_none.mp hdone (AList.mem_keys.mpr hmem)

/-- The next message is taken, and the ones that waited for it. -/
theorem Windowed.acceptMessage {i : Inbound} (h : i.Windowed) (hlt : i.receivedSeq + 1 < 2 ^ 32)
    (data : Bytes) : (i.acceptMessage data).Windowed := by
  have hbase : (i.recvInboundBuffer data).Ahead (addU32 i.receivedSeq 1) := by
    rw [addU32_of_lt hlt]
    refine ⟨hlt, fun k hk => ?_⟩
    obtain ⟨hk1, hk2, hk3⟩ := h.queue k hk
    have hne : k ≠ i.receivedSeq + 1 := fun heq => h.next_notMem (heq ▸ hk)
    omega
  exact ⟨⟨hbase.drain.1.cursor_lt, hbase.drain.1.queue⟩, hbase.drain.2⟩

/-- **A queue within the window is not larger than it.** -/
theorem Windowed.bounds {i : Inbound} (h : i.Windowed) :
    (∀ k ∈ i.messageQueue.keys, i.receivedSeq + 2 ≤ k ∧ k ≤ i.receivedSeq + 19) ∧
      i.messageQueue.entries.length ≤ 18 := by
  have hkeys : ∀ k ∈ i.messageQueue.keys, i.receivedSeq + 2 ≤ k ∧ k ≤ i.receivedSeq + 19 := by
    intro k hk
    obtain ⟨hk1, hk2, -⟩ := h.queue k hk
    have hne : k ≠ i.receivedSeq + 1 := fun heq => h.next_notMem (heq ▸ hk)
    omega
  refine ⟨hkeys, ?_⟩
  have hsub : i.messageQueue.keys ⊆ List.range' (i.receivedSeq + 2) 18 := by
    intro k hk
    have := hkeys k hk
    rw [List.mem_range'_1]
    omega
  have hlen := (List.subperm_of_subset i.messageQueue.keys_nodup hsub).length_le
  rw [List.length_range'] at hlen
  rw [AList.keys, List.keys, List.length_map] at hlen
  exact hlen

end Inbound

namespace VeilidStream
variable {PublicKey : Type}

/-- **A call of `recv_message`**, whatever the message and the time, keeps the queue within
the window. -/
theorem recv_windowed (s : VeilidStream PublicKey) (a : Arrival) (h : s.inbound.Windowed) :
    (s.recv a).inbound.Windowed := by
  unfold recv recvMessage
  simp only
  split
  · exact h
  · next hnew =>
    split
    · next hahead =>
      split
      · next hwithin => exact h.storeMessage hahead hwithin (Nat.not_le.mp hnew) a.data
      · exact h
    · next hnext =>
      split
      · obtain ⟨-, -, hlt⟩ := Inbound.next_of_not_lt hnew hnext
        obtain ⟨woken, hw⟩ := updateInboundStream_eq
          (removeSentMessagesFromQueue (updateOutboundDeliveredSeq
            { s with inbound := s.inbound.acceptMessage a.data } a.deliveredSeq))
        have haccept := h.acceptMessage hlt a.data
        rw [hw]
        exact ⟨⟨haccept.cursor_lt, haccept.queue⟩, haccept.next_notMem⟩
      · exact h

/-- **The reorder queue is bounded and ahead of the cursor**, after any calls of
`recv_message` on a stream that begins with an empty queue. -/
theorem reorder_queue_bounded {s : VeilidStream PublicKey} (hq : s.inbound.messageQueue = ∅)
    (hr : s.inbound.receivedSeq < 2 ^ 32) (ms : List Arrival) :
    (∀ k ∈ (run recv s ms).inbound.messageQueue.keys,
      (run recv s ms).inbound.receivedSeq + 2 ≤ k ∧ k ≤ (run recv s ms).inbound.receivedSeq + 19) ∧
    (run recv s ms).inbound.messageQueue.entries.length ≤ 18 :=
  (invariant recv_windowed (Inbound.windowed_of_empty hq hr) ms).bounds

/-- The number 2 moves the cursor past 3, which waited; 5 stays. -/
theorem reorder_queue_bounded_sample :
    (run recv (sampleAt 0) sampleArrivals).inbound.receivedSeq = 3 ∧
      (run recv (sampleAt 0) sampleArrivals).inbound.messageQueue.keys = [5] ∧
      (run recv (sampleAt 0) sampleArrivals).inbound.messageQueue.entries.length ≤ 18 :=
  ⟨by decide, by decide, (reorder_queue_bounded rfl (by decide) sampleArrivals).2⟩

end VeilidStream
end VeilidTransport
