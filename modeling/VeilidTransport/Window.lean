import VeilidTransport.Stream
import VeilidTransport.Sample
import VeilidTransport.Foundation.Runs
import Mathlib.Order.Bounds.Basic
import Mathlib.Data.List.Induction

/-!
# Arrival order inside the window

Messages whose numbers lie within the window may arrive in any order, any number of
times.  In the end the cursor stands behind the numbers that occur without a gap, their
data has been appended in order, and the rest waits in the queue: that is what
`Resequenced` says of the state after a list of messages, without a word about the
order in which they came.

The window moves with the cursor, and its end is computed on `u32`.  Once the cursor has
come within twenty of the greatest number, `inbound_received_seq + 20` wraps around to a
small number, and a message ahead of the cursor is ignored instead of kept.  So every
arrival has to be a repetition, or without a gap before it, or in time (`InTime`).
-/

namespace VeilidTransport
open Runs

/-- A message as `recv_message` gets it, and when. -/
structure Arrival where
  now : Instant
  deliveredSeq : Nat
  seq : Nat
  data : Bytes
  deriving DecidableEq

/-- The number `k` has arrived with this data. -/
def Arrived (ms : List Arrival) (k : Nat) (data : Bytes) : Prop :=
  ∃ a ∈ ms, a.seq = k ∧ a.data = data

/-- Every number above `r`, up to `k`, has arrived. -/
def Gapless (r : Nat) (ms : List Arrival) (k : Nat) : Prop :=
  ∀ j, r < j → j ≤ k → j ∈ ms.map Arrival.seq

/-- The state `j` after the messages `ms` on the state `i`: the data of the first `m`
numbers has been appended, and the other numbers wait. -/
structure Filled (i : Inbound) (ms : List Arrival) (m : Nat) (j : Inbound) : Prop where
  gapless : Gapless i.receivedSeq ms (i.receivedSeq + m)
  appended : ∃ ds, List.Forall₂ (Arrived ms) (List.range' (i.receivedSeq + 1) m) ds ∧
    j.appended = i.appended ++ ds
  queue : ∀ k d, j.messageQueue.lookup k = some d ↔ i.receivedSeq + m < k ∧ Arrived ms k d

/-- As it should be whatever the order: `m` is the greatest number such that all numbers up
to `m` behind the cursor have arrived, and the cursor has moved by `m`. -/
structure Resequenced (i : Inbound) (ms : List Arrival) (m : Nat) (j : Inbound) : Prop
    extends Filled i ms m j where
  greatest : IsGreatest {n | Gapless i.receivedSeq ms (i.receivedSeq + n)} m
  cursor : j.receivedSeq = i.receivedSeq + m

/-! ## Numbers that have arrived -/

theorem mem_map_seq {ms : List Arrival} {k : Nat} :
    k ∈ ms.map Arrival.seq ↔ ∃ d, Arrived ms k d := by
  rw [List.mem_map]
  constructor
  · rintro ⟨a, ha, rfl⟩
    exact ⟨a.data, a, ha, rfl, rfl⟩
  · rintro ⟨d, a, ha, rfl, -⟩
    exact ⟨a, ha, rfl⟩

theorem Arrived.mono {ms ns : List Arrival} {k : Nat} {d : Bytes} (h : Arrived ms k d)
    (hsub : ms ⊆ ns) : Arrived ns k d := by
  obtain ⟨a, ha, hk⟩ := h
  exact ⟨a, hsub ha, hk⟩

theorem Gapless.mono {r : Nat} {ms ns : List Arrival} {k : Nat} (h : Gapless r ms k)
    (hsub : ms ⊆ ns) : Gapless r ns k := by
  intro j hr hk
  obtain ⟨d, hd⟩ := mem_map_seq.mp (h j hr hk)
  exact mem_map_seq.mpr ⟨d, hd.mono hsub⟩

/-- The greatest number without a gap before it is the one before the first gap. -/
theorem isGreatest_iff {r : Nat} {ms : List Arrival} {m : Nat} :
    IsGreatest {n | Gapless r ms (r + n)} m ↔
      Gapless r ms (r + m) ∧ r + m + 1 ∉ ms.map Arrival.seq := by
  constructor
  · rintro ⟨hm, hub⟩
    refine ⟨hm, fun hnext => ?_⟩
    have hsucc : Gapless r ms (r + (m + 1)) := by
      intro j hr hj
      by_cases h : j ≤ r + m
      · exact hm j hr h
      · obtain rfl : j = r + m + 1 := by omega
        exact hnext
    have := hub hsucc
    omega
  · rintro ⟨hm, hnext⟩
    refine ⟨hm, fun n hn => ?_⟩
    by_contra hlt
    exact hnext (hn _ (by omega) (by omega))

/-! ## Draining the queue -/

/-- The data of the next number is appended, and only numbers above it wait. -/
theorem Filled.append {i j : Inbound} {ms : List Arrival} {m : Nat} {data : Bytes}
    (hgapless : Gapless i.receivedSeq ms (i.receivedSeq + m))
    (happended : ∃ ds, List.Forall₂ (Arrived ms) (List.range' (i.receivedSeq + 1) m) ds ∧
      j.appended = i.appended ++ ds)
    (hqueue : ∀ k d, j.messageQueue.lookup k = some d ↔
      i.receivedSeq + m + 1 < k ∧ Arrived ms k d)
    (hd : Arrived ms (i.receivedSeq + m + 1) data) :
    Filled i ms (m + 1) (j.recvInboundBuffer data) := by
  refine ⟨?_, ?_, hqueue⟩
  · intro k hr hk
    by_cases hm : k ≤ i.receivedSeq + m
    · exact hgapless k hr hm
    · obtain rfl : k = i.receivedSeq + m + 1 := by omega
      exact mem_map_seq.mpr ⟨data, hd⟩
  · obtain ⟨ds, hds, happ⟩ := happended
    refine ⟨ds ++ [data], ?_, ?_⟩
    · rw [List.range'_concat]
      refine List.rel_append hds (.cons ?_ .nil)
      rw [Nat.one_mul, Nat.add_right_comm]
      exact hd
    · simp only [Inbound.recvInboundBuffer, happ, List.append_assoc]

/-- A message taken out of the queue is the next one. -/
theorem Filled.pass {i j : Inbound} {ms : List Arrival} {m : Nat} (h : Filled i ms m j)
    {data : Bytes} (hd : Arrived ms (i.receivedSeq + m + 1) data) :
    Filled i ms (m + 1) ((j.removeMessage (i.receivedSeq + m + 1)).recvInboundBuffer data) := by
  refine .append h.gapless h.appended ?_ hd
  intro k d
  rw [Inbound.removeMessage, KeyedMap.lookup_erase]
  by_cases hk : k = i.receivedSeq + m + 1
  · rw [if_pos hk]
    constructor
    · intro hnone
      cases hnone
    · rintro ⟨hlt, -⟩
      omega
  · rw [if_neg hk, h.queue]
    constructor
    · rintro ⟨hlt, ha⟩
      exact ⟨by omega, ha⟩
    · rintro ⟨hlt, ha⟩
      exact ⟨by omega, ha⟩

/-- **The drain moves to the end of what has arrived without a gap.** -/
theorem Filled.drain {i j : Inbound} {ms : List Arrival} {m : Nat} (h : Filled i ms m j)
    (hlt : ∀ a ∈ ms, a.seq < 2 ^ 32) :
    ∃ n, (j.drainMessageQueue (i.receivedSeq + m)).1 = i.receivedSeq + n ∧
      Filled i ms n (j.drainMessageQueue (i.receivedSeq + m)).2 ∧
      i.receivedSeq + n + 1 ∉ ms.map Arrival.seq := by
  have hloop : ∃ n, (j.drainMessageQueue (i.receivedSeq + m)).1 = i.receivedSeq + n ∧
      Filled i ms n (j.drainMessageQueue (i.receivedSeq + m)).2 := by
    refine Inbound.drainLoop_invariant
      (P := fun k (j : Inbound) => ∃ n, k = i.receivedSeq + n ∧ Filled i ms n j) ?_ _ ⟨m, rfl, h⟩
    rintro k j data hd ⟨n, rfl, hf⟩
    -- the number found in the queue has arrived, so it has not wrapped around
    obtain ⟨hn, a, ha, hseq, hdata⟩ := (hf.queue _ _).mp hd
    have hsucc : addU32 (i.receivedSeq + n) 1 = i.receivedSeq + n + 1 := by
      have := hlt a ha
      unfold addU32 at *
      omega
    rw [hsucc] at hseq ⊢
    exact ⟨n + 1, rfl, hf.pass ⟨a, ha, hseq, hdata⟩⟩
  obtain ⟨n, hn, hf⟩ := hloop
  refine ⟨n, hn, hf, fun hmem => ?_⟩
  obtain ⟨d, hd⟩ := mem_map_seq.mp hmem
  have hdone := Inbound.drainMessageQueue_done j (i.receivedSeq + m)
  obtain ⟨a, ha, hseq, -⟩ := id hd
  have hbound := hlt a ha
  rw [hn, addU32_of_lt (by omega), (hf.queue _ d).mpr ⟨by omega, hd⟩] at hdone
  cases hdone

/-! ## One message -/

namespace VeilidStream
variable {PublicKey : Type}

def recv (s : VeilidStream PublicKey) (a : Arrival) : VeilidStream PublicKey :=
  s.recvMessage a.now a.deliveredSeq a.seq a.data

/-- The messages of the window behind the cursor, each with one data, which find the
stream active. -/
structure Admissible (s : VeilidStream PublicKey) (ms : List Arrival) : Prop where
  window : ∀ a ∈ ms, s.inbound.receivedSeq < a.seq ∧ a.seq ≤ s.inbound.receivedSeq + 19
  agree : ∀ a ∈ ms, ∀ b ∈ ms, a.seq = b.seq → a.data = b.data
  active : Along recv (fun t a => t.isActive a.now = true) s ms

/-- After the messages `ms` behind the cursor `r`, a further one is in time: its number has
arrived already, or no number before it is missing, or the end of the window is a `u32`. -/
def InTime (r : Nat) (ms : List Arrival) (a : Arrival) : Prop :=
  a.seq ∈ ms.map Arrival.seq ∨ Gapless r ms (a.seq - 1) ∨ ¬ Gapless r ms (2 ^ 32 - 20)

theorem recv_inbound {s : VeilidStream PublicKey} {a : Arrival} (h : s.isActive a.now = true) :
    (s.recv a).inbound =
      if a.seq ≤ s.inbound.receivedSeq then s.inbound
      else if addU32 s.inbound.receivedSeq 1 < a.seq then
        if a.seq < addU32 s.inbound.receivedSeq 20 then s.inbound.storeMessage a.seq a.data
        else s.inbound
      else (s.inbound.acceptMessage a.data).updateInboundStream
        |>.updateInboundLastTimestampToNow a.now := by
  rw [recv, recvMessage]
  simp only [h, if_true]
  split
  · rfl
  · split
    · split
      · rfl
      · rfl
    · obtain ⟨woken, hw⟩ := updateInboundStream_eq
        (removeSentMessagesFromQueue (updateOutboundDeliveredSeq
          { s with inbound := s.inbound.acceptMessage a.data } a.deliveredSeq))
      rw [hw]
      rfl

/-- A repetition, or a message that is ignored, changes nothing that has to change only
if its number has arrived already. -/
theorem resequenced_append_iff_of_eq {i j : Inbound} {ms : List Arrival} {m : Nat} {a : Arrival}
    (h : Resequenced i ms m j) (hagree : ∀ b ∈ ms, b.seq = a.seq → b.data = a.data)
    (hlt : i.receivedSeq < a.seq) :
    (∃ n, Resequenced i (ms ++ [a]) n j) ↔ a.seq ∈ ms.map Arrival.seq := by
  constructor
  · rintro ⟨n, hn⟩
    have hnm : n = m := by
      have := h.cursor
      have := hn.cursor
      omega
    subst hnm
    have hself : Arrived (ms ++ [a]) a.seq a.data := ⟨a, by simp, rfl, rfl⟩
    by_cases hle : a.seq ≤ i.receivedSeq + n
    · exact h.gapless _ hlt hle
    · -- ahead of the cursor, it would have to be in the queue
      have hq := (hn.queue a.seq a.data).mpr ⟨by omega, hself⟩
      exact mem_map_seq.mpr ⟨_, ((h.queue _ _).mp hq).2⟩
  · intro hmem
    have hiff : ∀ k d, Arrived (ms ++ [a]) k d ↔ Arrived ms k d := by
      intro k d
      constructor
      · rintro ⟨b, hb, rfl, rfl⟩
        rcases List.mem_append.mp hb with hb | hb
        · exact ⟨b, hb, rfl, rfl⟩
        · obtain rfl := List.mem_singleton.mp hb
          obtain ⟨c, hc, hseq⟩ := List.mem_map.mp hmem
          exact ⟨c, hc, hseq, hagree c hc hseq⟩
      · exact fun h => h.mono (List.subset_append_left _ _)
    have hgap : ∀ k, Gapless i.receivedSeq (ms ++ [a]) k ↔ Gapless i.receivedSeq ms k := by
      intro k
      simp only [Gapless, mem_map_seq, hiff]
    refine ⟨m, ⟨(hgap _).mpr h.gapless, ?_, ?_⟩, ?_, h.cursor⟩
    · obtain ⟨ds, hds, happ⟩ := h.appended
      exact ⟨ds, hds.imp fun k d hk => (hiff k d).mpr hk, happ⟩
    · intro k d
      rw [hiff]
      exact h.queue k d
    · simp only [hgap]
      exact h.greatest

/-- With one message more, a number has what it had, and the message's number has its data. -/
theorem arrived_append {ms : List Arrival} {a : Arrival} {k : Nat} {d : Bytes} :
    Arrived (ms ++ [a]) k d ↔ Arrived ms k d ∨ (a.seq = k ∧ a.data = d) := by
  simp only [Arrived, List.mem_append, List.mem_singleton, or_and_right, exists_or,
    exists_eq_left]

/-- A message ahead of the cursor is kept for later. -/
theorem resequenced_store {i j : Inbound} {ms : List Arrival} {m : Nat} {a : Arrival}
    (h : Resequenced i ms m j) (hagree : ∀ b ∈ ms, b.seq = a.seq → b.data = a.data)
    (hahead : i.receivedSeq + m + 1 < a.seq) :
    Resequenced i (ms ++ [a]) m (j.storeMessage a.seq a.data) := by
  have hsub : ms ⊆ ms ++ [a] := List.subset_append_left _ _
  have hgap := (isGreatest_iff.mp h.greatest).2
  refine ⟨⟨h.gapless.mono hsub, ?_, ?_⟩, isGreatest_iff.mpr ⟨h.gapless.mono hsub, ?_⟩, h.cursor⟩
  · obtain ⟨ds, hds, happ⟩ := h.appended
    exact ⟨ds, hds.imp fun k d hk => hk.mono hsub, happ⟩
  · intro k d
    rw [Inbound.storeMessage, KeyedMap.lookup_insert, arrived_append]
    by_cases hk : k = a.seq
    · subst hk
      rw [if_pos rfl, Option.some_inj]
      constructor
      · intro hd
        exact ⟨by omega, .inr ⟨rfl, hd⟩⟩
      · rintro ⟨-, ⟨b, hb, hseq, rfl⟩ | ⟨-, hd⟩⟩
        · exact (hagree b hb hseq).symm
        · exact hd
    · rw [if_neg hk, h.queue]
      constructor
      · rintro ⟨hlt, hd⟩
        exact ⟨hlt, .inl hd⟩
      · rintro ⟨hlt, hd | ⟨hseq, -⟩⟩
        · exact ⟨hlt, hd⟩
        · exact absurd hseq.symm hk
  · rw [List.map_append, List.mem_append]
    rintro (hmem | hmem)
    · exact hgap hmem
    · obtain hseq := List.mem_singleton.mp hmem
      omega

/-- The next message in order is appended, and the ones that waited for it. -/
theorem resequenced_accept {i j : Inbound} {ms : List Arrival} {m : Nat} {a : Arrival}
    (h : Resequenced i ms m j) (hnext : a.seq = i.receivedSeq + m + 1)
    (hlt : ∀ b ∈ ms ++ [a], b.seq < 2 ^ 32) (now : Instant) :
    ∃ n, Resequenced i (ms ++ [a]) n
      ((j.acceptMessage a.data).updateInboundStream.updateInboundLastTimestampToNow now) := by
  have hsub : ms ⊆ ms ++ [a] := List.subset_append_left _ _
  have hgap := (isGreatest_iff.mp h.greatest).2
  have hself : Arrived (ms ++ [a]) (i.receivedSeq + m + 1) a.data := ⟨a, by simp, hnext, rfl⟩
  -- the number was missing, so no message waits under it
  have hqueue : ∀ k d, j.messageQueue.lookup k = some d ↔
      i.receivedSeq + m + 1 < k ∧ Arrived (ms ++ [a]) k d := by
    intro k d
    rw [h.queue, arrived_append]
    constructor
    · rintro ⟨hk, hd⟩
      refine ⟨?_, .inl hd⟩
      by_contra hle
      obtain rfl : k = i.receivedSeq + m + 1 := by omega
      exact hgap (mem_map_seq.mpr ⟨d, hd⟩)
    · rintro ⟨hk, hd | ⟨hseq, -⟩⟩
      · exact ⟨by omega, hd⟩
      · omega
  have happended : ∃ ds, List.Forall₂ (Arrived (ms ++ [a])) (List.range' (i.receivedSeq + 1) m) ds ∧
      j.appended = i.appended ++ ds := by
    obtain ⟨ds, hds, happ⟩ := h.appended
    exact ⟨ds, hds.imp fun k d hk => hk.mono hsub, happ⟩
  have hbase := Filled.append (h.gapless.mono hsub) happended hqueue hself
  obtain ⟨n, hn, hf, hmiss⟩ := hbase.drain hlt
  have hsucc : addU32 j.receivedSeq 1 = i.receivedSeq + (m + 1) := by
    have := hlt a (by simp)
    rw [h.cursor, addU32_of_lt (by omega), Nat.add_assoc]
  rw [Inbound.acceptMessage, hsucc]
  exact ⟨n, ⟨hf.gapless, hf.appended, hf.queue⟩, isGreatest_iff.mpr ⟨hf.gapless, hmiss⟩, hn⟩

/-- **One message more**: the state is resequenced again exactly if the message was in time. -/
theorem resequenced_append_iff {s t : VeilidStream PublicKey} {ms : List Arrival} {m : Nat}
    {a : Arrival} (h : Resequenced s.inbound ms m t.inbound)
    (hwindow : ∀ b ∈ ms ++ [a], s.inbound.receivedSeq < b.seq ∧ b.seq ≤ s.inbound.receivedSeq + 19)
    (hagree : ∀ b ∈ ms, b.seq = a.seq → b.data = a.data) (hactive : t.isActive a.now = true)
    (hr : s.inbound.receivedSeq + 20 < 2 ^ 32) :
    (∃ n, Resequenced s.inbound (ms ++ [a]) n (t.recv a).inbound) ↔
      InTime s.inbound.receivedSeq ms a := by
  obtain ⟨hlt, hle⟩ := hwindow a (by simp)
  obtain ⟨hgapless, hgap⟩ := isGreatest_iff.mp h.greatest
  have hm : s.inbound.receivedSeq + m ≤ s.inbound.receivedSeq + 19 := by
    by_contra hbig
    obtain ⟨b, hb, hseq⟩ := List.mem_map.mp
      (hgapless (s.inbound.receivedSeq + 20) (by omega) (by omega))
    have := (hwindow b (List.mem_append_left _ hb)).2
    omega
  have hsucc : addU32 t.inbound.receivedSeq 1 = s.inbound.receivedSeq + m + 1 := by
    rw [h.cursor, addU32_of_lt (by omega)]
  rw [recv_inbound hactive, hsucc, h.cursor]
  by_cases hdup : a.seq ≤ s.inbound.receivedSeq + m
  · -- a duplicate
    have hmem := hgapless a.seq hlt hdup
    rw [if_pos hdup, resequenced_append_iff_of_eq h hagree hlt]
    exact ⟨fun _ => .inl hmem, fun _ => hmem⟩
  · rw [if_neg hdup]
    by_cases hahead : s.inbound.receivedSeq + m + 1 < a.seq
    · rw [if_pos hahead]
      have hnot : ¬ Gapless s.inbound.receivedSeq ms (a.seq - 1) := fun hg =>
        hgap (hg _ (by omega) (by omega))
      by_cases hwrap : s.inbound.receivedSeq + m + 20 < 2 ^ 32
      · -- the window ends within `u32`
        rw [addU32_of_lt hwrap, if_pos (by omega)]
        refine ⟨fun _ => .inr (.inr fun hg => hgap (hg _ (by omega) (by omega))), fun _ => ?_⟩
        exact ⟨m, resequenced_store h hagree hahead⟩
      · -- the end of the window wraps around, and the message is ignored
        have hend : ¬ a.seq < addU32 (s.inbound.receivedSeq + m) 20 := by
          unfold addU32
          omega
        have hall : Gapless s.inbound.receivedSeq ms (2 ^ 32 - 20) := fun k hk hk' =>
          hgapless k hk (by omega)
        rw [if_neg hend, resequenced_append_iff_of_eq h hagree hlt]
        exact ⟨.inl, fun h => h.resolve_right (not_or.mpr ⟨hnot, not_not.mpr hall⟩)⟩
    · have hnext : a.seq = s.inbound.receivedSeq + m + 1 := by omega
      rw [if_neg hahead]
      refine ⟨fun _ => .inr (.inl ?_), fun _ => ?_⟩
      · intro k hk hk'
        exact hgapless k hk (by omega)
      · apply resequenced_accept h hnext
        intro b hb
        have := hwindow b hb
        omega

/-! ## Every order -/

theorem resequenced_nil {i : Inbound} (hq : i.messageQueue = ∅) : Resequenced i [] 0 i := by
  have hgap : Gapless i.receivedSeq [] (i.receivedSeq + 0) := fun j hr hj => by omega
  refine ⟨⟨hgap, ⟨[], .nil, (List.append_nil _).symm⟩, ?_⟩, isGreatest_iff.mpr ⟨hgap, ?_⟩, rfl⟩
  · intro k d
    rw [hq]
    simp [Arrived]
  · exact List.not_mem_nil

theorem Admissible.of_prefix {s : VeilidStream PublicKey} {ps ms : List Arrival}
    (hms : Admissible s ms) (hps : ps <+: ms) : Admissible s ps := by
  obtain ⟨rest, rfl⟩ := hps
  have hsub : ps ⊆ ps ++ rest := List.subset_append_left _ _
  exact ⟨fun a ha => hms.window a (hsub ha),
    fun a ha b hb => hms.agree a (hsub ha) b (hsub hb), (along_append.mp hms.active).1⟩

/-- The arrivals so far are those that have come, in the order they came in. -/
theorem run_arrivals (ms : List Arrival) : run (fun ps (a : Arrival) => ps ++ [a]) [] ms = ms := by
  induction ms using List.reverseRecOn with
  | nil => rfl
  | append_singleton ms a ih => rw [run_append, ih, run_cons, run_nil]

/-- **Arrival order does not matter as long as the window's end is a `u32`**: every prefix
of the messages leaves the state resequenced exactly if every message comes in time. -/
theorem prefixes_resequenced_iff {s : VeilidStream PublicKey}
    (hq : s.inbound.messageQueue = ∅) (hr : s.inbound.receivedSeq + 20 < 2 ^ 32)
    {ms : List Arrival} (hms : Admissible s ms) :
    (∀ ps, ps <+: ms → ∃ m, Resequenced s.inbound ps m (run recv s ps).inbound) ↔
      Along (fun ps a => ps ++ [a]) (InTime s.inbound.receivedSeq) [] ms := by
  induction ms using List.reverseRecOn with
  | nil =>
    refine ⟨fun _ => trivial, fun _ ps hps => ?_⟩
    obtain rfl := List.prefix_nil.mp hps
    exact ⟨0, resequenced_nil hq⟩
  | append_singleton ms a ih =>
    obtain ⟨-, hlast, -⟩ := along_append.mp hms.active
    have hagree : ∀ b ∈ ms, b.seq = a.seq → b.data = a.data := fun b hb =>
      hms.agree b (List.mem_append_left _ hb) a (by simp)
    have hbefore_iff := ih (hms.of_prefix (List.prefix_append _ _))
    rw [along_append, run_arrivals, along_cons]
    constructor
    · intro h
      have hbefore := fun ps (hps : ps <+: ms) => h ps (hps.trans (List.prefix_append _ _))
      obtain ⟨m, hm⟩ := hbefore ms List.prefix_rfl
      have hall := h _ List.prefix_rfl
      rw [run_append, run_cons, run_nil,
        resequenced_append_iff hm hms.window hagree hlast hr] at hall
      exact ⟨hbefore_iff.mp hbefore, hall, trivial⟩
    · rintro ⟨halong, hin, -⟩ ps hps
      have hbefore := hbefore_iff.mpr halong
      rcases List.prefix_concat_iff.mp hps with rfl | hps
      · obtain ⟨m, hm⟩ := hbefore ms List.prefix_rfl
        rw [run_append, run_cons, run_nil]
        exact (resequenced_append_iff hm hms.window hagree hlast hr).mpr hin
      · exact hbefore ps hps

/-- A stream active at an instant is active then after a message that came then. -/
theorem recv_isActive {s : VeilidStream PublicKey} {a : Arrival} (h : s.isActive a.now = true) :
    (s.recv a).isActive a.now = true := by
  rw [isActive_iff] at h
  rcases recvMessage_cases s a.now a.deliveredSeq a.seq a.data with
    heq | ⟨-, heq⟩ | ⟨-, -, -, _, heq⟩
  · rw [recv, heq, isActive_iff]
    exact h
  · rw [recv, heq, isActive_iff]
    exact h
  · rw [recv, heq, isActive_iff]
    refine ⟨h.1, ?_⟩
    have hpos : 0 < secs settings.streamTimeoutSecs := by decide
    exact decide_eq_true (Nat.lt_add_of_pos_right hpos)

theorem along_isActive {s : VeilidStream PublicKey} {now : Instant} (hs : s.isActive now = true)
    {ms : List Arrival} (hms : ∀ a ∈ ms, a.now = now) :
    Along recv (fun t a => t.isActive a.now = true) s ms := by
  induction ms generalizing s with
  | nil => exact trivial
  | cons a ms ih =>
    obtain rfl := hms a List.mem_cons_self
    exact ⟨hs, ih (recv_isActive hs) fun b hb => hms b (List.mem_cons_of_mem _ hb)⟩

/-- An arrival at `now` under the number `k`. -/
def arrivalOf (now : Instant) (k : Nat) : Arrival := ⟨now, 0, k, []⟩

theorem map_seq_arrivalOf (now : Instant) (ks : List Nat) :
    (ks.map (arrivalOf now)).map Arrival.seq = ks := by
  rw [List.map_map]
  exact List.map_id _

/-- The numbers up to the last whose window fits, and then one ahead of a gap. -/
theorem exists_not_inTime {s : VeilidStream PublicKey} {now : Instant}
    (hs : s.isActive now = true) (hr : s.inbound.receivedSeq + 20 < 2 ^ 32)
    (hbig : 2 ^ 32 ≤ s.inbound.receivedSeq + 37) :
    ∃ ms a, Admissible s (ms ++ [a]) ∧ ¬ InTime s.inbound.receivedSeq ms a := by
  let ks := List.range' (s.inbound.receivedSeq + 1) (2 ^ 32 - 20 - s.inbound.receivedSeq)
  have hks : ∀ k, k ∈ ks ↔ s.inbound.receivedSeq < k ∧ k ≤ 2 ^ 32 - 20 := by
    intro k
    rw [List.mem_range'_1]
    omega
  have hmap := map_seq_arrivalOf now ks
  refine ⟨ks.map (arrivalOf now), arrivalOf now (s.inbound.receivedSeq + 19), ⟨?_, ?_, ?_⟩, ?_⟩
  · intro b hb
    rcases List.mem_append.mp hb with hb | hb
    · have hk := (hks b.seq).mp (hmap ▸ List.mem_map_of_mem hb)
      omega
    · obtain rfl := List.mem_singleton.mp hb
      exact ⟨Nat.lt_add_of_pos_right (by decide), Nat.le_refl _⟩
  · have hnil : ∀ b ∈ ks.map (arrivalOf now) ++ [arrivalOf now (s.inbound.receivedSeq + 19)],
        b.data = [] := by
      intro b hb
      rw [← List.map_singleton, ← List.map_append] at hb
      obtain ⟨k, -, rfl⟩ := List.mem_map.mp hb
      rfl
    intro b hb c hc _
    rw [hnil b hb, hnil c hc]
  · apply along_isActive hs
    intro b hb
    rw [← List.map_singleton, ← List.map_append] at hb
    obtain ⟨k, -, rfl⟩ := List.mem_map.mp hb
    rfl
  · -- all numbers up to the last that fits are there, and the two after it are missing
    rintro (h | h | h)
    · rw [hmap, hks] at h
      simp only [arrivalOf] at h
      omega
    · have hmiss := h (s.inbound.receivedSeq + 18) (by omega) (Nat.le_refl _)
      rw [hmap, hks] at hmiss
      omega
    · refine h fun k hk hk' => ?_
      rw [hmap, hks]
      exact ⟨hk, hk'⟩

/-- If the window's end is a `u32` wherever the cursor can get, every message is in time. -/
theorem along_inTime {r : Nat} (hr : r + 37 < 2 ^ 32) {ms : List Arrival}
    (hms : ∀ a ∈ ms, a.seq ≤ r + 19) (ps : List Arrival) :
    Along (fun ps (a : Arrival) => ps ++ [a]) (InTime r) ps ms := by
  induction ms generalizing ps with
  | nil => exact trivial
  | cons a ms ih =>
    refine ⟨?_, ih (fun b hb => hms b (List.mem_cons_of_mem _ hb)) _⟩
    have ha := hms a List.mem_cons_self
    by_cases hall : Gapless r ps (2 ^ 32 - 20)
    · exact .inr (.inl fun k hk hk' => hall k hk (by omega))
    · exact .inr (.inr hall)

/-- **Arrival order inside the window.**  From an active stream with an empty queue, every
admissible list of messages leaves the state resequenced exactly if the cursor is at least
37 below `2 ^ 32`; and whatever the cursor, every prefix of a list does exactly if every
message of the list is in time. -/
theorem arrival_order_iff {s : VeilidStream PublicKey} {now : Instant}
    (hs : s.isActive now = true) (hq : s.inbound.messageQueue = ∅)
    (hr : s.inbound.receivedSeq + 20 < 2 ^ 32) :
    ((∀ ms, Admissible s ms → ∃ m, Resequenced s.inbound ms m (run recv s ms).inbound) ↔
      s.inbound.receivedSeq + 37 < 2 ^ 32) ∧
    ∀ ms, Admissible s ms →
      ((∀ ps, ps <+: ms → ∃ m, Resequenced s.inbound ps m (run recv s ps).inbound) ↔
        Along (fun ps a => ps ++ [a]) (InTime s.inbound.receivedSeq) [] ms) := by
  refine ⟨⟨fun hall => ?_, fun hfit ms hms => ?_⟩,
    fun ms hms => prefixes_resequenced_iff hq hr hms⟩
  · by_contra hbig
    obtain ⟨ms, a, hms, hnot⟩ := exists_not_inTime hs hr (by omega)
    have halong := (prefixes_resequenced_iff hq hr hms).mp fun ps hps => hall ps (hms.of_prefix hps)
    rw [along_append, run_arrivals] at halong
    exact hnot halong.2.1
  · have halong := along_inTime hfit (fun a ha => (hms.window a ha).2) []
    exact (prefixes_resequenced_iff hq hr hms).mpr halong ms List.prefix_rfl

/-- An active stream whose cursor is at `r`. -/
def sampleAt (r : Nat) : VeilidStream Sample.PublicKey :=
  let s := new (Sample.addressOf 1) (Sample.addressOf 2) (.nodeId (Sample.keyOf 2)) 0
    (Sample.keypairOf 1) 0 0
  { s with status := .active, inbound := s.inbound.updateInboundReceivedSeq r }

/-- The numbers 3, 1 and 2, and 1 and 5 once more. -/
def sampleArrivals : List Arrival :=
  [⟨0, 0, 3, [30]⟩, ⟨0, 0, 1, [10]⟩, ⟨0, 0, 2, [20]⟩, ⟨0, 0, 1, [10]⟩, ⟨0, 0, 5, [50]⟩]

theorem arrival_order_sample :
    ∃ m, Resequenced (sampleAt 0).inbound sampleArrivals m
      (run recv (sampleAt 0) sampleArrivals).inbound := by
  have hs : (sampleAt 0).isActive 0 = true := by decide
  have hms : Admissible (sampleAt 0) sampleArrivals :=
    ⟨by decide, by decide, along_isActive hs (by decide)⟩
  exact (arrival_order_iff hs rfl (by decide)).1.mpr (by decide) sampleArrivals hms

/-- The next number, and the one after the gap behind it. -/
def lateArrivals : List Arrival := [⟨0, 0, 4294967276, [1]⟩, ⟨0, 0, 4294967278, [3]⟩]

/-- **A message of the window is ignored** once the window's end wraps around: with the
cursor 20 below the greatest number, the third number behind it is not kept. -/
theorem message_in_window_ignored :
    (sampleAt 4294967275).isActive 0 = true ∧ 4294967275 + 20 ≤ 2 ^ 32 - 1 ∧
    Admissible (sampleAt 4294967275) lateArrivals ∧
    ¬ ∃ m, Resequenced (sampleAt 4294967275).inbound lateArrivals m
      (run recv (sampleAt 4294967275) lateArrivals).inbound := by
  have hs : (sampleAt 4294967275).isActive 0 = true := by decide
  refine ⟨hs, by decide, ⟨by decide, by decide, along_isActive hs (by decide)⟩, ?_⟩
  rintro ⟨m, hm⟩
  have hcursor : 4294967276 = 4294967275 + m := hm.cursor
  have harrived : Arrived lateArrivals 4294967278 [3] := ⟨_, .tail _ (.head _), rfl, rfl⟩
  have hwaits : (sampleAt 4294967275).inbound.receivedSeq + m < 4294967278 := by
    change 4294967275 + m < 4294967278
    omega
  have hsome := (hm.queue 4294967278 [3]).mpr ⟨hwaits, harrived⟩
  revert hsome
  decide

end VeilidStream
end VeilidTransport
