import VeilidTransport.Window
import VeilidTransport.Receive

/-!
# Sequence numbers at the end of their range

`recv_message` compares the number of a message with the cursor, the number behind it and
the end of the window, and both sums are sums of `u32`.  `recvDecision` is the comparison
the code makes, `exactDecision` the same comparison over all integers.  A build that
checks its sums panics where they differ, and once more where the drain looks for the
number behind the greatest one (`recvExact_iff`).

On the sending side the greatest number is followed by zero: a message with that number
is pruned at the next acknowledgement, whatever it acknowledges (`numberFresh_iff`).
-/

namespace VeilidTransport

/-- `StreamSeq::increment`: the number after the stored one, which it replaces. -/
def StreamSeq.increment (value : Nat) : Nat := addU32 value 1

/-- What `recv_message` makes of the number of a message. -/
inductive RecvDecision where
  /-- Discarded. -/
  | duplicate
  /-- Kept for later. -/
  | store
  | ignore
  /-- Taken, if the stream is active. -/
  | next
  deriving DecidableEq

/-- The comparisons of `recv_message`. -/
def recvDecision (receivedSeq seq : Nat) : RecvDecision :=
  if seq ≤ receivedSeq then .duplicate
  else if addU32 receivedSeq 1 < seq then
    if seq < addU32 receivedSeq 20 then .store else .ignore
  else .next

/-- The comparisons over all integers. -/
def exactDecision (receivedSeq seq : Nat) : RecvDecision :=
  if seq ≤ receivedSeq then .duplicate
  else if receivedSeq + 1 < seq then
    if seq < receivedSeq + 20 then .store else .ignore
  else .next

/-- **The two comparisons agree** unless a message ahead is compared with the end of a window
that has wrapped around. -/
theorem recvDecision_eq_exact_iff {r seq : Nat} (hr : r < 2 ^ 32) (hseq : seq < 2 ^ 32) :
    recvDecision r seq = exactDecision r seq ↔ (r + 1 < seq → r + 20 < 2 ^ 32) := by
  unfold recvDecision exactDecision
  by_cases hdup : seq ≤ r
  · rw [if_pos hdup, if_pos hdup]
    exact ⟨fun _ h => by omega, fun _ => rfl⟩
  · have hsucc : addU32 r 1 = r + 1 := addU32_of_lt (by omega)
    rw [if_neg hdup, if_neg hdup, hsucc]
    by_cases hahead : r + 1 < seq
    · rw [if_pos hahead, if_pos hahead]
      by_cases hwrap : r + 20 < 2 ^ 32
      · rw [addU32_of_lt hwrap]
        exact ⟨fun _ _ => hwrap, fun _ => rfl⟩
      · -- the sum is below 20, and the message above the cursor
        have hend : ¬ seq < addU32 r 20 := by
          unfold addU32
          omega
        rw [if_neg hend, if_pos (by omega)]
        refine ⟨fun h => ?_, fun h => absurd (h hahead) hwrap⟩
        cases h
    · rw [if_neg hahead, if_neg hahead]
      exact ⟨fun _ h => absurd h hahead, fun _ => rfl⟩

namespace Checked

/-- **The drain overflows** if it takes the message with the greatest number, or would. -/
theorem drainLoop_returns_iff {fuel n : Nat} {i : Inbound}
    (hfuel : i.messageQueue.entries.length < fuel) :
    Panic.Returns (drainLoop fuel n i) ↔ ∃ k, n < k ∧ k < 2 ^ 32 ∧ k ∉ i.messageQueue.keys := by
  induction fuel generalizing n i with
  | zero => omega
  | succ fuel ih =>
    rw [drainLoop, Panic.add]
    by_cases hn : n + 1 < 2 ^ 32
    · rw [if_pos hn, Panic.ok_bind]
      cases hd : i.messageQueue.lookup (n + 1) with
      | none =>
        have hnot : n + 1 ∉ i.messageQueue.keys := AList.lookup_eq_none.mp hd
        exact ⟨fun _ => ⟨n + 1, Nat.lt_succ_self n, hn, hnot⟩, fun _ => Panic.returns_ok _⟩
      | some data =>
        have hmem : n + 1 ∈ i.messageQueue.keys := AList.lookup_isSome.mp (by rw [hd]; rfl)
        have hsmaller : (i.messageQueue.erase (n + 1)).entries.length < fuel := by
          have := KeyedMap.size_erase_lt hd
          omega
        refine (ih hsmaller).trans (exists_congr fun k => ?_)
        have hkeys : k ∈ (i.messageQueue.erase (n + 1)).keys ↔
            k ≠ n + 1 ∧ k ∈ i.messageQueue.keys := AList.mem_erase
        change n + 1 < k ∧ k < 2 ^ 32 ∧ k ∉ (i.messageQueue.erase (n + 1)).keys ↔ _
        rw [hkeys]
        constructor
        · rintro ⟨hlt, hk, hnot⟩
          exact ⟨by omega, hk, fun h => hnot ⟨by omega, h⟩⟩
        · rintro ⟨hlt, hk, hnot⟩
          have hne : k ≠ n + 1 := by
            rintro rfl
            exact hnot hmem
          exact ⟨by omega, hk, fun h => hnot h.2⟩
    · rw [if_neg hn, Panic.error_bind]
      refine ⟨fun h => absurd h (Panic.not_returns_error _), ?_⟩
      rintro ⟨k, hlt, hk, -⟩
      omega

theorem acceptMessage_returns_iff {i : Inbound} (hlt : i.receivedSeq + 1 < 2 ^ 32)
    (data : Bytes) : Panic.Returns (acceptMessage i data) ↔
      ∃ k, i.receivedSeq + 1 < k ∧ k < 2 ^ 32 ∧ k ∉ i.messageQueue.keys := by
  have hdrain := drainLoop_returns_iff (n := i.receivedSeq + 1) (i := i.recvInboundBuffer data)
    (Nat.lt_succ_self i.messageQueue.entries.length)
  rw [acceptMessage, Panic.add_of_lt hlt, Panic.ok_bind]
  exact (Panic.returns_bind_iff fun _ => Panic.returns_ok _).trans hdrain

end Checked

namespace VeilidStream
variable {PublicKey : Type}

/-- **`recv_message` does what `recvDecision` says.** -/
theorem recvMessage_eq_decision (s : VeilidStream PublicKey) (now : Instant)
    (deliveredSeq seq : Nat) (data : Bytes) :
    s.recvMessage now deliveredSeq seq data =
      match recvDecision s.inbound.receivedSeq seq with
      | .duplicate => s
      | .store => { s with inbound := s.inbound.storeMessage seq data }
      | .ignore => s
      | .next =>
        if s.isActive now then
          { s with inbound := s.inbound.acceptMessage data }
            |>.updateOutboundDeliveredSeq deliveredSeq
            |>.removeSentMessagesFromQueue
            |>.updateInboundStream
            |>.updateInboundLastTimestampToNow now
        else s := by
  unfold recvMessage recvDecision
  simp only
  split
  · rfl
  · split
    · split
      · rfl
      · rfl
    · rfl

/-- The message is compared as over all integers, and no sum on the way overflows. -/
structure RecvExact (s : VeilidStream PublicKey) (now : Instant) (deliveredSeq seq : Nat)
    (data : Bytes) : Prop where
  decision : recvDecision s.inbound.receivedSeq seq = exactDecision s.inbound.receivedSeq seq
  sums : Panic.Returns (Checked.recvMessage s now deliveredSeq seq data)

/-- The window of a message ahead ends within `u32`, and after the next message some number
is missing. -/
structure RecvFits (s : VeilidStream PublicKey) (now : Instant) (seq : Nat) : Prop where
  window : s.inbound.receivedSeq + 1 < seq → s.inbound.receivedSeq + 20 < 2 ^ 32
  drain : seq = s.inbound.receivedSeq + 1 → s.isActive now = true →
    ∃ k, seq < k ∧ k < 2 ^ 32 ∧ k ∉ s.inbound.messageQueue.keys

/-- **Receiving is exact**, for any cursor and any number, exactly as far as the sums fit. -/
theorem recvExact_iff (s : VeilidStream PublicKey) (now : Instant) {deliveredSeq seq : Nat}
    (hr : s.inbound.receivedSeq < 2 ^ 32) (hseq : seq < 2 ^ 32) (data : Bytes) :
    s.RecvExact now deliveredSeq seq data ↔ s.RecvFits now seq := by
  have hdecision := recvDecision_eq_exact_iff hr hseq
  suffices hsums : (s.inbound.receivedSeq + 1 < seq → s.inbound.receivedSeq + 20 < 2 ^ 32) →
      (Panic.Returns (Checked.recvMessage s now deliveredSeq seq data) ↔
        (seq = s.inbound.receivedSeq + 1 → s.isActive now = true →
          ∃ k, seq < k ∧ k < 2 ^ 32 ∧ k ∉ s.inbound.messageQueue.keys)) by
    constructor
    · rintro ⟨hd, hs⟩
      exact ⟨hdecision.mp hd, (hsums (hdecision.mp hd)).mp hs⟩
    · rintro ⟨hw, hd⟩
      exact ⟨hdecision.mpr hw, (hsums hw).mpr hd⟩
  intro hwindow
  unfold Checked.recvMessage
  simp only
  by_cases hdup : seq ≤ s.inbound.receivedSeq
  · rw [if_pos hdup]
    exact ⟨fun _ h => by omega, fun _ => Panic.returns_ok _⟩
  · have hlt : s.inbound.receivedSeq + 1 < 2 ^ 32 := by omega
    rw [if_neg hdup, Panic.add_of_lt hlt, Panic.ok_bind]
    by_cases hahead : s.inbound.receivedSeq + 1 < seq
    · rw [if_pos hahead, Panic.add_of_lt (hwindow hahead), Panic.ok_bind]
      refine ⟨fun _ h => by omega, fun _ => ?_⟩
      split
      · exact Panic.returns_ok _
      · exact Panic.returns_ok _
    · obtain rfl : seq = s.inbound.receivedSeq + 1 := by omega
      rw [if_neg hahead]
      by_cases hactive : s.isActive now = true
      · have haccept := Checked.acceptMessage_returns_iff hlt data
        rw [if_pos hactive]
        refine (Panic.returns_bind_iff fun inbound => ?_).trans
          (haccept.trans ⟨fun h _ _ => h, fun h => h rfl hactive⟩)
        rw [Checked.updateInboundStream_eq]
        exact Panic.returns_ok _
      · rw [if_neg hactive]
        exact ⟨fun _ _ h => absurd h hactive, fun _ => Panic.returns_ok _⟩

end VeilidStream

/-! ## Numbers of generated messages -/

namespace Outbound

/-- The next message has a number above the last one, and stays queued while only messages
before it are acknowledged. -/
structure NumberFresh (o : Outbound) : Prop where
  greater : o.lastSeq < StreamSeq.increment o.lastSeq
  kept : ∀ deliveredSeq ≤ o.lastSeq,
    ((o.generateMessage.updateOutboundDeliveredSeq deliveredSeq).removeSentMessagesFromQueue).entry
      (StreamSeq.increment o.lastSeq) ≠ none

/-- **Numbers are fresh up to the greatest one**, which zero follows. -/
theorem numberFresh_iff {o : Outbound} (hlast : o.lastSeq < 2 ^ 32) :
    o.NumberFresh ↔ o.lastSeq + 1 < 2 ^ 32 := by
  constructor
  · rintro ⟨hgreater, -⟩
    unfold StreamSeq.increment addU32 at hgreater
    omega
  · intro hlt
    have hsucc : StreamSeq.increment o.lastSeq = o.lastSeq + 1 := addU32_of_lt hlt
    rw [← addU32_of_lt hlt] at hsucc
    have hgreater : o.lastSeq < StreamSeq.increment o.lastSeq := by
      rw [hsucc, addU32_of_lt hlt]
      exact Nat.lt_succ_self _
    refine ⟨hgreater, fun deliveredSeq hle => ?_⟩
    rw [removeSentMessagesFromQueue_entry]
    change (if deliveredSeq < _ then o.generateMessage.entry _ else none) ≠ none
    rw [if_pos (Nat.lt_of_le_of_lt hle hgreater), hsucc, generateMessage_entry, if_pos rfl]
    exact Option.some_ne_none _

/-- **The numbers of the messages increase** as long as there are fewer than `2 ^ 32`. -/
theorem Numbered.increase_iff {o : Outbound} (h : o.Numbered) :
    (o.generated.map Prod.fst).Pairwise (· < ·) ↔ o.generated.length < 2 ^ 32 := by
  have hseq : ∀ i (hi : i < (o.generated.map Prod.fst).length),
      (o.generated.map Prod.fst)[i] = (i + 1) % 2 ^ 32 := by
    intro i hi
    rw [List.length_map] at hi
    rw [List.getElem_map]
    exact h.seq_eq i _ (List.getElem?_eq_getElem hi)
  rw [List.pairwise_iff_getElem]
  constructor
  · intro hall
    by_contra hlong
    have hi : 2 ^ 32 - 1 < (o.generated.map Prod.fst).length := by
      rw [List.length_map]
      omega
    have hlt := hall (2 ^ 32 - 2) (2 ^ 32 - 1) (by omega) hi (by decide)
    rw [hseq, hseq] at hlt
    revert hlt
    decide
  · intro hlt i j hi hj hij
    rw [hseq i hi, hseq j hj]
    rw [List.length_map] at hj
    omega

end Outbound

namespace VeilidStream
variable {PublicKey : Type}

/-- **Sequence arithmetic is exact**: for any two cursors and any number of a message, as
far as the sums of `recv_message` fit and the last number given out is not the greatest;
and the numbers a stream gives out increase, in every run of a node, as long as it has
generated fewer than `2 ^ 32` messages. -/
theorem sequence_exact_iff [KeyCodec] [Identity PublicKey] (s : VeilidStream PublicKey)
    (now : Instant) {deliveredSeq seq : Nat} (data : Bytes)
    (hr : s.inbound.receivedSeq < 2 ^ 32) (hseq : seq < 2 ^ 32)
    (hlast : s.outbound.lastSeq < 2 ^ 32) :
    (s.RecvExact now deliveredSeq seq data ∧ s.outbound.NumberFresh ↔
      s.RecvFits now seq ∧ s.outbound.lastSeq + 1 < 2 ^ 32) ∧
    ∀ (localAddress : Option Address) (keypair : Keypair PublicKey) (start : Instant)
      (as : List Transport.Action), ∀ t ∈ (Runs.run Transport.step
        (Transport.new localAddress keypair start) as).heap,
      (t.outbound.generated.map Prod.fst).Pairwise (· < ·) ↔
        t.outbound.generated.length < 2 ^ 32 := by
  refine ⟨and_congr (recvExact_iff s now hr hseq data) (Outbound.numberFresh_iff hlast), ?_⟩
  intro localAddress keypair start as t ht
  exact (Checked.run_consistent localAddress keypair start as t ht).numbered.increase_iff

end VeilidStream

namespace VeilidStream
open Sample

/-- The last cursor whose window ends within `u32`, and the last number with a successor. -/
def sampleLast : VeilidStream PublicKey :=
  { sampleAt 4294967275 with
    outbound := { (sampleAt 4294967275).outbound with lastSeq := 4294967294 } }

theorem sequence_exact_sample : sampleLast.RecvExact 0 0 4294967277 [] ∧
    sampleLast.outbound.NumberFresh := by
  have hfits : sampleLast.RecvFits 0 4294967277 :=
    ⟨fun _ => by decide, fun hnext => absurd hnext (by decide)⟩
  exact (sequence_exact_iff sampleLast 0 [] (by decide) (by decide) (by decide)).1.mpr
    ⟨hfits, by decide⟩

/-- A cursor 20 below `2 ^ 32`, and the greatest number given out. -/
def sampleWrapped : VeilidStream PublicKey :=
  { sampleAt 4294967276 with
    outbound := { (sampleAt 4294967276).outbound with lastSeq := 4294967295 } }

/-- **Both ends are missed**: a message two numbers ahead is ignored instead of kept, and the
number after the greatest is zero, below every acknowledgement. -/
theorem sequence_wraps :
    recvDecision sampleWrapped.inbound.receivedSeq 4294967278 = .ignore ∧
    exactDecision sampleWrapped.inbound.receivedSeq 4294967278 = .store ∧
    ¬ sampleWrapped.RecvExact 0 0 4294967278 [] ∧
    StreamSeq.increment sampleWrapped.outbound.lastSeq = 0 ∧
    ¬ sampleWrapped.outbound.NumberFresh := by
  refine ⟨by decide, by decide, ?_, by decide, ?_⟩
  · rintro ⟨hdecision, -⟩
    revert hdecision
    decide
  · rintro ⟨hgreater, -⟩
    revert hgreater
    decide

end VeilidStream
end VeilidTransport
