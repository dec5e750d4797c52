import VeilidTransport.SendTasks

/-!
# The pace of retransmission

A call of `send_messages` reads the clock before it takes the lock of the queue, so a call
with an older reading may come after one with a newer.  What counts is the order of the
locks, which is the order of `queueLog`: the first call after a message is queued collects
it (`Prompt`), and the stamps of one message rise by `message_retry_timeout` at least
(`Tried`).  `retries_paced` says so of every interleaving.

Two limits show in `pace_broken`.  An acknowledgement removes whatever it covers, sent or
not; and a sequence number that comes again after `2 ^ 32` messages is a message never
tried, whenever its namesake was sent.
-/

namespace VeilidTransport
namespace QueueEvent

/-- The sends that a call takes on, each with its stamp. -/
def stamps : QueueEvent → List (Nat × Instant)
  | collected now messages => messages.map fun m => (m.seq, now)
  | _ => []

theorem stamps_concat (log : List QueueEvent) (e : QueueEvent) :
    (log ++ [e]).flatMap stamps = log.flatMap stamps ++ e.stamps := by
  rw [List.flatMap_append, List.flatMap_singleton]

/-- The message `k` is still in the queue, and no call has collected it. -/
def Spares (k : Nat) : QueueEvent → Prop
  | queued _ _ => True
  | collected _ _ => False
  | pruned deliveredSeq => deliveredSeq < k

/-- The message `k` was queued, and has been waiting since. -/
def Waiting (k : Nat) (log : List QueueEvent) : Prop :=
  ∃ pre m mid, log = pre ++ queued k m :: mid ∧ ∀ e ∈ mid, e.Spares k

/-- **Each call collects all messages that wait for one.** -/
def Prompt (log : List QueueEvent) : Prop :=
  ∀ pre now messages post, log = pre ++ collected now messages :: post →
    ∀ k, Waiting k pre → k ∈ messages.map OutboundMessage.seq

/-- The same of all messages queued since the last call, acknowledged or not. -/
def AlwaysPrompt (log : List QueueEvent) : Prop :=
  ∀ pre k m mid now messages post,
    log = pre ++ queued k m :: (mid ++ collected now messages :: post) →
    (∀ e ∈ mid, ∀ now' messages', e ≠ collected now' messages') →
    k ∈ messages.map OutboundMessage.seq

theorem waiting_concat {k : Nat} {log : List QueueEvent} {e : QueueEvent}
    (h : Waiting k (log ++ [e])) : (∃ m, e = queued k m) ∨ Waiting k log ∧ e.Spares k := by
  obtain ⟨pre, m, mid, heq, hmid⟩ := h
  rcases List.eq_nil_or_concat mid with rfl | ⟨mid, e', rfl⟩
  · obtain ⟨-, he⟩ := List.append_inj' heq rfl
    exact .inl ⟨m, (List.cons.inj he).1⟩
  · simp only [List.concat_eq_append] at heq hmid
    rw [← List.cons_append, ← List.append_assoc] at heq
    obtain ⟨hlog, he⟩ := List.append_inj' heq rfl
    obtain rfl := (List.cons.inj he).1
    refine .inr ⟨⟨pre, m, mid, hlog, fun e' he' => hmid e' ?_⟩, hmid e ?_⟩
    · exact List.mem_append_left _ he'
    · exact List.mem_append_right _ List.mem_cons_self

theorem prompt_nil : Prompt [] := by
  intro pre now messages post h
  cases pre <;> cases h

theorem Prompt.concat {log : List QueueEvent} {e : QueueEvent} (h : Prompt log)
    (he : ∀ now messages, e = collected now messages →
      ∀ k, Waiting k log → k ∈ messages.map OutboundMessage.seq) : Prompt (log ++ [e]) := by
  intro pre now messages post heq k hk
  rcases List.eq_nil_or_concat post with rfl | ⟨post, e', rfl⟩
  · obtain ⟨rfl, hlast⟩ := List.append_inj' heq rfl
    exact he now messages (List.cons.inj hlast).1 k hk
  · rw [List.concat_eq_append, ← List.cons_append, ← List.append_assoc] at heq
    obtain ⟨hlog, -⟩ := List.append_inj' heq rfl
    exact h pre now messages post hlog k hk

end QueueEvent

/-! ## Stamps and the queue -/

/-- Sends of one number are stamped `message_retry_timeout` apart. -/
def Apart (a b : Nat × Instant) : Prop :=
  a.1 = b.1 → a.2 + secs settings.messageRetryTimeout ≤ b.2 ∨
    b.2 + secs settings.messageRetryTimeout ≤ a.2

def Paced (sends : List (Nat × Instant)) : Prop := sends.Pairwise Apart

namespace Outbound

/-- **The stamps of each number rise**, and a queued message knows the last one of its own. -/
structure Tried (o : Outbound) (stamps : List (Nat × Instant)) : Prop where
  rising : stamps.Pairwise fun a b => a.1 = b.1 →
    a.2 + secs settings.messageRetryTimeout ≤ b.2
  last : ∀ k m t, o.messageQueue.lookup k = some m → (k, t) ∈ stamps →
    ∃ t', m.lastTrySend = some t' ∧ t ≤ t'
  generated : ∀ k t, (k, t) ∈ stamps → k ∈ o.generated.map Prod.fst

theorem tried_new (now : Instant) : (new now).Tried [] :=
  ⟨List.Pairwise.nil, by simp, by simp⟩

theorem readyToSend_iff {now : Instant} {m : OutboundMessage} :
    readyToSend now m = true ↔
      ∀ t, m.lastTrySend = some t → t + secs settings.messageRetryTimeout ≤ now := by
  have hpos : 0 < secs settings.messageRetryTimeout := by decide
  unfold readyToSend
  split
  · next hm => simp [hm]
  · next t hm =>
    simp only [hm, Option.some.injEq, forall_eq', decide_eq_true_eq]
    constructor
    · intro h
      have hle : t ≤ now := Nat.le_of_lt (Nat.lt_of_sub_pos (Nat.lt_of_lt_of_le hpos h))
      exact (Nat.le_sub_iff_add_le' hle).mp h
    · exact fun h => Nat.le_sub_of_add_le' h

/-- A call stamps what is due, at a reading of the clock that may be old. -/
theorem Tried.collect {o : Outbound} {stamps : List (Nat × Instant)} (h : o.Tried stamps)
    (hq : o.Queued) (now : Instant) : (o.stampSent now).Tried
      (stamps ++ (o.messagesToSend now).map fun m => (m.seq, now)) := by
  have hpos : 0 < secs settings.messageRetryTimeout := by decide
  -- every earlier stamp of a message that is due lies the timeout back
  have hdue : ∀ m ∈ o.messagesToSend now, ∀ t, (m.seq, t) ∈ stamps →
      t + secs settings.messageRetryTimeout ≤ now := by
    intro m hm t ht
    obtain ⟨⟨k, hk⟩, hready⟩ := mem_messagesToSend.mp hm
    obtain rfl := (hq.seq_eq hk).1
    obtain ⟨t', ht', hle⟩ := h.last _ m t hk ht
    exact Nat.le_trans (Nat.add_le_add_right hle _) (readyToSend_iff.mp hready t' ht')
  refine ⟨?_, ?_, ?_⟩
  · rw [List.pairwise_append]
    refine ⟨h.rising, ?_, ?_⟩
    · rw [List.pairwise_map]
      have hnodup : (o.messagesToSend now).Pairwise fun m m' => m.seq ≠ m'.seq :=
        List.pairwise_map.mp (hq.nodup_messagesToSend now)
      exact hnodup.imp fun hne heq => absurd heq hne
    · rintro ⟨k, t⟩ ht b hb heq
      obtain ⟨m, hm, rfl⟩ := List.mem_map.mp hb
      obtain rfl : k = m.seq := heq
      exact hdue m hm t ht
  · intro k m t hm ht
    rw [hq.stampSent_lookup] at hm
    obtain ⟨m₀, hm₀, rfl⟩ := Option.map_eq_some_iff.mp hm
    have hseq := (hq.seq_eq hm₀).1
    by_cases hready : readyToSend now m₀ = true
    · have hmem : m₀ ∈ o.messagesToSend now := mem_messagesToSend.mpr ⟨⟨k, hm₀⟩, hready⟩
      rw [if_pos hready]
      refine ⟨now, rfl, ?_⟩
      rcases List.mem_append.mp ht with ht | ht
      · exact Nat.le_trans (Nat.le_add_right _ _) (hdue m₀ hmem t (hseq ▸ ht))
      · obtain ⟨m', -, heq⟩ := List.mem_map.mp ht
        exact Nat.le_of_eq (Prod.mk.inj heq).2.symm
    · rw [if_neg hready]
      rcases List.mem_append.mp ht with ht | ht
      · exact h.last k m₀ t hm₀ ht
      · obtain ⟨m', hm', heq⟩ := List.mem_map.mp ht
        obtain ⟨⟨k', hk'⟩, hready'⟩ := mem_messagesToSend.mp hm'
        obtain rfl : m'.seq = k := (Prod.mk.inj heq).1
        obtain rfl := (hq.seq_eq hk').1
        rw [hm₀] at hk'
        exact absurd (Option.some.inj hk' ▸ hready') hready
  · intro k t ht
    rcases List.mem_append.mp ht with ht | ht
    · exact h.generated k t ht
    · obtain ⟨m, hm, heq⟩ := List.mem_map.mp ht
      obtain ⟨⟨k', hk'⟩, -⟩ := mem_messagesToSend.mp hm
      obtain rfl : m.seq = k := (Prod.mk.inj heq).1
      obtain ⟨rfl, hgen⟩ := hq.seq_eq hk'
      exact List.mem_map.mpr ⟨_, hgen, rfl⟩

/-- A message under a new number has not been tried. -/
theorem Tried.queue {o o' : Outbound} {stamps : List (Nat × Instant)} (h : o.Tried stamps)
    {seq : Nat} {m : OutboundMessage} (hnew : seq ∉ o.generated.map Prod.fst)
    (hqueue : o'.messageQueue = o.messageQueue.insert seq m)
    (hgen : o.generated <+: o'.generated) : o'.Tried stamps := by
  refine ⟨h.rising, ?_, ?_⟩
  · intro k m' t hm ht
    rw [hqueue, KeyedMap.lookup_insert] at hm
    split at hm
    · next hk => exact absurd (h.generated k t ht) (hk ▸ hnew)
    · exact h.last k m' t hm ht
  · exact fun k t ht => (hgen.map Prod.fst).subset (h.generated k t ht)

/-- What is taken out of the queue is not missed. -/
theorem Tried.of_queue_sub {o o' : Outbound} {stamps : List (Nat × Instant)} (h : o.Tried stamps)
    (hqueue : ∀ k m, o'.messageQueue.lookup k = some m → o.messageQueue.lookup k = some m)
    (hgen : o'.generated = o.generated) : o'.Tried stamps :=
  ⟨h.rising, fun k m t hm ht => h.last k m t (hqueue k m hm) ht, hgen ▸ h.generated⟩

end Outbound

namespace SendCall

/-- The messages that a call has collected and not yet sent. -/
def collected : SendCall → List OutboundMessage
  | send _ messages => messages
  | _ => []

/-- The sends that a call still has to make. -/
def stamps : SendCall → List (Nat × Instant)
  | send now messages => messages.map fun m => (m.seq, now)
  | _ => []

end SendCall

namespace SendTasks
open SendCall QueueEvent Outbound
variable {PublicKey : Type}

/-- The queue's log is prompt, and the queue knows which messages wait and which were tried. -/
structure Punctual (c : Sender PublicKey) : Prop where
  waiting : ∀ k, Waiting k c.queueLog →
    ∃ m, c.outbound.messageQueue.lookup k = some m ∧ m.lastTrySend = none
  prompt : Prompt c.queueLog
  tried : c.outbound.generated.length ≤ 2 ^ 32 →
    c.outbound.Tried (c.queueLog.flatMap QueueEvent.stamps)

/-- **The account of the sends.** -/
structure Pacing (p : SendTasks PublicKey) : Prop where
  guarded : p.Guarded lockSection
  light : ∀ t ∈ p.tasks, ∀ m ∈ t.collected,
    m.data.length ≤ settings.veilidNetworkMessageLimitBytes
  conserved : (p.shared.queueLog.flatMap QueueEvent.stamps).Perm
    (p.shared.sends ++ p.tasks.flatMap SendCall.stamps)
  punctual : Punctual p.shared

theorem pacing_start (s : VeilidStream PublicKey) (now : Instant) :
    Pacing (start s now) := by
  refine ⟨guarded_start s now, ?_, List.Perm.refl _, ?_, prompt_nil, fun _ => tried_new now⟩
  · intro t ht
    cases ht
  · rintro k ⟨pre, m, mid, heq, -⟩
    cases pre <;> cases heq

/-- What is queued is no longer than Veilid allows. -/
theorem Pacing.light_queue {p : SendTasks PublicKey} (h : Pacing p) {k : Nat}
    {m : OutboundMessage} (hm : p.shared.outbound.messageQueue.lookup k = some m) :
    m.data.length ≤ settings.veilidNetworkMessageLimitBytes := by
  have hlim : settings.transportStreamPacketDataSizeBytes ≤
      settings.veilidNetworkMessageLimitBytes := by decide
  obtain ⟨t, hacc⟩ := Guarded.accounted h.guarded
  exact Nat.le_trans (hacc.sized _ (hacc.queued.seq_eq hm).2).2 hlim

/-! ## What a step does to the queue and the sends -/

section Steps
variable [KeyCodec]

/-- Three steps of all have the lock of the queue, and work on it. -/
theorem next_queue (t : SendCall) (c : Sender PublicKey) :
    (∃ seq msg, t = queueMessage seq msg) ∨ (∃ now, t = collect now) ∨
    (∃ deliveredSeq, t = prune deliveredSeq) ∨
    ((next t c).2.queueLog = c.queueLog ∧
      (next t c).2.outbound.messageQueue = c.outbound.messageQueue ∧
      (next t c).2.outbound.generated = c.outbound.generated) := by
  cases t with
  | queueMessage seq msg => exact .inl ⟨seq, msg, rfl⟩
  | collect now => exact .inr (.inl ⟨now, rfl⟩)
  | prune deliveredSeq => exact .inr (.inr (.inl ⟨deliveredSeq, rfl⟩))
  | lockToInsert | lockToGenerate | drain =>
    refine .inr (.inr (.inr ?_))
    simp only [next]
    split <;> exact ⟨rfl, rfl, rfl⟩
  | send now messages =>
    refine .inr (.inr (.inr ?_))
    cases messages with
    | nil => exact ⟨rfl, rfl, rfl⟩
    | cons m messages =>
      simp only [next]
      split <;> exact ⟨rfl, rfl, rfl⟩
  | _ => exact .inr (.inr (.inr ⟨rfl, rfl, rfl⟩))

/-- **No send is lost or made twice**: those that a call takes on, it makes or still has to
make. -/
theorem next_sends {t : SendCall} (c : Sender PublicKey) (hlight : ∀ m ∈ t.collected,
      m.data.length ≤ settings.veilidNetworkMessageLimitBytes) :
    ∃ new sent, (next t c).2.queueLog.flatMap QueueEvent.stamps =
        c.queueLog.flatMap QueueEvent.stamps ++ new ∧
      (next t c).2.sends = c.sends ++ sent ∧ t.stamps ++ new = sent ++ (next t c).1.stamps := by
  cases t with
  | collect now =>
    exact ⟨_, [], stamps_concat c.queueLog (.collected now (c.outbound.messagesToSend now)),
      (List.append_nil _).symm, rfl⟩
  | send now messages =>
    cases messages with
    | nil => exact ⟨[], [], (List.append_nil _).symm, (List.append_nil _).symm, rfl⟩
    | cons m messages =>
      have hm : ¬ settings.veilidNetworkMessageLimitBytes < m.data.length :=
        Nat.not_lt.mpr (hlight m List.mem_cons_self)
      simp only [next, if_neg hm]
      refine ⟨[], [(m.seq, now)], (List.append_nil _).symm, rfl, ?_⟩
      rw [List.append_nil]
      rfl
  | queueMessage seq msg =>
    exact ⟨[], [], stamps_concat c.queueLog _, (List.append_nil _).symm, rfl⟩
  | prune deliveredSeq =>
    exact ⟨[], [], stamps_concat c.queueLog _, (List.append_nil _).symm, rfl⟩
  | lockToInsert | lockToGenerate | drain =>
    simp only [next]
    split <;> exact ⟨[], [], (List.append_nil _).symm, (List.append_nil _).symm, rfl⟩
  | _ => exact ⟨[], [], (List.append_nil _).symm, (List.append_nil _).symm, rfl⟩

/-- A call has messages that it had, or collects them from the queue. -/
theorem mem_collected_next {t : SendCall} {c : Sender PublicKey} {m : OutboundMessage}
    (hm : m ∈ (next t c).1.collected) :
    m ∈ t.collected ∨ ∃ k, c.outbound.messageQueue.lookup k = some m := by
  cases t with
  | collect now => exact .inr (mem_messagesToSend.mp hm).1
  | send now messages =>
    cases messages with
    | nil => cases hm
    | cons m' messages =>
      simp only [next] at hm
      split at hm
      · cases hm
      · exact .inl (List.mem_cons_of_mem _ hm)
  | lockToInsert | lockToGenerate | drain =>
    simp only [next] at hm
    split at hm <;> cases hm
  | _ => cases hm

omit [KeyCodec] in
/-- The number that a call gives to a message is new, unless the numbers have wrapped. -/
theorem number_new {c : Sender PublicKey} {seq : Nat} {msg : Bytes}
    (h : c.Accounted (queueMessage seq msg)) (hlt : c.outbound.generated.length < 2 ^ 32) :
    seq ∉ c.outbound.generated.map Prod.fst := by
  intro hmem
  obtain ⟨e, he, rfl⟩ := List.mem_map.mp hmem
  obtain ⟨i, hi⟩ := List.mem_iff_getElem?.mp he
  obtain ⟨hlen, -⟩ := List.getElem?_eq_some_iff.mp hi
  have hold := h.seq_eq i e hi
  have hnew : e.1 = (c.outbound.generated.length + 1) % 2 ^ 32 := h.knows.1.trans h.lastSeq_eq
  generalize c.outbound.generated.length = n at *
  omega

theorem Punctual.next {t : SendCall} {c : Sender PublicKey} (h : Punctual c)
    (hq : c.outbound.Queued) (hacc : t.holdsLock = true → c.Accounted t) :
    Punctual (t.next c).2 := by
  obtain ⟨seq, msg, rfl⟩ | ⟨now, rfl⟩ | ⟨deliveredSeq, rfl⟩ | ⟨hlog, hqueue, hgen⟩ :=
    next_queue t c
  · refine ⟨?_, h.prompt.concat (fun _ _ he => by cases he), ?_⟩
    · intro k hk
      simp only [SendCall.next, Sender.logQueue, Sender.setOutbound, Sender.outbound,
        KeyedMap.lookup_insert]
      split
      · exact ⟨_, rfl, rfl⟩
      · next hne =>
        obtain ⟨m, he⟩ | ⟨hk, -⟩ := waiting_concat hk
        · exact absurd (QueueEvent.queued.inj he).1.symm hne
        · exact h.waiting k hk
    · intro hlt
      have hlen : c.outbound.generated.length + 1 ≤ 2 ^ 32 := by
        have hlt' : (c.outbound.generated ++ [(seq, msg)]).length ≤ 2 ^ 32 := hlt
        rwa [List.length_append, List.length_singleton] at hlt'
      have hstamps := (stamps_concat c.queueLog (queued seq ⟨seq, msg, none⟩)).trans
        (List.append_nil _)
      simp only [SendCall.next, Sender.logQueue, Sender.setOutbound, hstamps]
      exact (h.tried (Nat.le_of_succ_le hlen)).queue
        (number_new (hacc rfl) hlen) rfl (List.prefix_append _ _)
  · refine ⟨?_, h.prompt.concat ?_, ?_⟩
    · intro k hk
      obtain ⟨m, he⟩ | ⟨-, hspares⟩ := waiting_concat hk
      · cases he
      · exact hspares.elim
    · intro now' messages he k hk
      obtain ⟨rfl, rfl⟩ := QueueEvent.collected.inj he
      obtain ⟨m, hm, hnone⟩ := h.waiting k hk
      have hready : readyToSend now m = true := by rw [readyToSend, hnone]
      exact List.mem_map.mpr
        ⟨m, mem_messagesToSend.mpr ⟨⟨k, hm⟩, hready⟩, (hq.seq_eq hm).1⟩
    · intro hlt
      simp only [SendCall.next, Sender.logQueue, Sender.setOutbound, stamps_concat]
      exact (h.tried hlt).collect hq now
  · have hretain : ∀ k m,
        (SendCall.next (prune deliveredSeq) c).2.outbound.messageQueue.lookup k = some m ↔
          deliveredSeq < k ∧ c.outbound.messageQueue.lookup k = some m := by
      intro k m
      simp only [SendCall.next, Sender.logQueue, Sender.setOutbound, Sender.outbound,
        KeyedMap.lookup_retain, decide_eq_true_eq]
      by_cases hk : deliveredSeq < k
      · simp [hk]
      · simp [hk]
    refine ⟨?_, h.prompt.concat (fun _ _ he => by cases he), ?_⟩
    · intro k hk
      obtain ⟨m, he⟩ | ⟨hk, hspares⟩ := waiting_concat hk
      · cases he
      · obtain ⟨m, hm, hnone⟩ := h.waiting k hk
        exact ⟨m, (hretain k m).mpr ⟨hspares, hm⟩, hnone⟩
    · intro hlt
      have hstamps := (stamps_concat c.queueLog (pruned deliveredSeq)).trans (List.append_nil _)
      simp only [SendCall.next, Sender.logQueue, Sender.setOutbound, hstamps]
      exact (h.tried hlt).of_queue_sub (fun k m hm => ((hretain k m).mp hm).2) rfl
  · refine ⟨?_, ?_, ?_⟩
    · rw [hlog, hqueue]
      exact h.waiting
    · rw [hlog]
      exact h.prompt
    · rw [hlog, hgen]
      intro hlt
      exact (h.tried hlt).of_queue_sub (fun k m hm => hqueue ▸ hm) hgen

theorem Pacing.advance {p : SendTasks PublicKey} (h : Pacing p) (i : Nat) :
    Pacing (p.advance next i) := by
  have hg := Guarded.advance h.guarded i
  obtain ⟨u, hacc⟩ := Guarded.accounted h.guarded
  revert hg
  refine Pool.advance_rule next p i (fun _ => h) fun t hi hg => ?_
  have ht : t ∈ p.tasks := List.mem_of_getElem? hi
  have hlight : ∀ t' ∈ p.tasks.set i (next t p.shared).1, ∀ m ∈ t'.collected,
      m.data.length ≤ settings.veilidNetworkMessageLimitBytes := by
    intro t' ht' m hm
    rcases List.mem_or_eq_of_mem_set ht' with ht' | rfl
    · exact h.light t' ht' m hm
    · rcases mem_collected_next hm with hm | ⟨k, hk⟩
      · exact h.light t ht m hm
      · exact h.light_queue hk
  have hconserved : ((next t p.shared).2.queueLog.flatMap QueueEvent.stamps).Perm
      ((next t p.shared).2.sends ++
        (p.tasks.set i (next t p.shared).1).flatMap SendCall.stamps) := by
    obtain ⟨new, sent, hlog, hsends, hbalance⟩ := next_sends p.shared (h.light t ht)
    have hset := Pool.flatMap_set_perm SendCall.stamps hi (next t p.shared).1
    rw [hlog, hsends, List.perm_iff_count]
    intro x
    have hold := h.conserved.count_eq x
    have hnew := hset.count_eq x
    have hbal := congrArg (List.count x) hbalance
    simp only [List.count_append] at hold hnew hbal ⊢
    omega
  exact ⟨hg, hlight, hconserved, h.punctual.next hacc.queued fun hin =>
    (h.guarded.busy t ht hin).2⟩

omit [KeyCodec] in
/-- A call that is spawned has collected nothing. -/
theorem Pacing.spawn {p : SendTasks PublicKey} (h : Pacing p) {t : SendCall}
    (ht : t.holdsLock = false) (hnone : t.collected = []) (hstamps : t.stamps = []) :
    Pacing (p.spawn t) := by
  refine ⟨h.guarded.spawn (Bool.eq_false_iff.mp ht), ?_, ?_, h.punctual⟩
  · intro t' ht' m hm
    rcases List.mem_append.mp ht' with ht' | ht'
    · exact h.light t' ht' m hm
    · obtain rfl := List.mem_singleton.mp ht'
      rw [hnone] at hm
      cases hm
  · simp only [Pool.spawn, List.flatMap_append, List.flatMap_singleton, hstamps, List.append_nil]
    exact h.conserved

theorem Pacing.step {p : SendTasks PublicKey} (h : Pacing p) (a : Action) :
    Pacing (step p a) := by
  cases a with
  | insert data => exact h.spawn (t := lockToInsert data) rfl rfl rfl
  | generate => exact h.spawn (t := lockToGenerate) rfl rfl rfl
  | send => exact h.spawn (t := readClock) rfl rfl rfl
  | acknowledge deliveredSeq => exact h.spawn (t := updateDeliveredSeq deliveredSeq) rfl rfl rfl
  | advance i => exact h.advance i
  | tick d =>
    exact ⟨Guarded.step h.guarded (.tick d), h.light, h.conserved, h.punctual.waiting,
      h.punctual.prompt, h.punctual.tried⟩
  | receive inbound =>
    exact ⟨Guarded.step h.guarded (.receive inbound), h.light, h.conserved, h.punctual.waiting,
      h.punctual.prompt, h.punctual.tried⟩

theorem run_pacing (s : VeilidStream PublicKey) (now : Instant) (as : List Action) :
    Pacing (Runs.run step (start s now) as) := by
  have hstep : ∀ (p : SendTasks PublicKey) (a : Action), Pacing p → Pacing (SendTasks.step p a) :=
    fun _ a h => h.step a
  exact Runs.invariant hstep (pacing_start s now) as

/-- **Retransmission is paced**, whatever calls overlap.  Each call collects all messages that
wait for one; what is collected is sent, or its call still has it to send; and as long as no
number is used twice, the sends of each number are stamped `message_retry_timeout` apart. -/
theorem retries_paced (s : VeilidStream PublicKey) (now : Instant) (as : List Action) :
    let p := Runs.run step (start s now) as
    let c := p.shared
    Prompt c.queueLog ∧
    (c.queueLog.flatMap QueueEvent.stamps).Perm (c.sends ++ p.tasks.flatMap SendCall.stamps) ∧
    (c.outbound.generated.length ≤ 2 ^ 32 → Paced c.sends) := by
  intro p c
  have h : Pacing p := run_pacing s now as
  refine ⟨h.punctual.prompt, h.conserved, fun hlt => ?_⟩
  have hsymm : ∀ {a b : Nat × Instant}, Apart a b → Apart b a :=
    fun hab heq => (hab heq.symm).symm
  have hlog : (c.queueLog.flatMap QueueEvent.stamps).Pairwise Apart :=
    (h.punctual.tried hlt).rising.imp fun hab heq => .inl (hab heq)
  have hall : (c.sends ++ p.tasks.flatMap SendCall.stamps).Pairwise Apart :=
    (h.conserved.pairwise_iff hsymm).mp hlog
  exact (List.pairwise_append.mp hall).1

end Steps

/-! ## Numbers that wrap -/

section Wrap
variable [KeyCodec]

/-- Some calls, one after the other, lead from one state to the other. -/
def Leads (p q : SendTasks PublicKey) : Prop := ∃ as, Runs.run step p as = q

theorem Leads.trans {p q r : SendTasks PublicKey} (h : Leads p q) (h' : Leads q r) :
    Leads p r := by
  obtain ⟨as, rfl⟩ := h
  obtain ⟨bs, rfl⟩ := h'
  exact ⟨as ++ bs, Runs.run_append ..⟩

/-- A call that is spawned and then runs alone. -/
theorem leads_call {p : SendTasks PublicKey} {a : Action} {t t' : SendCall}
    {c : Sender PublicKey} (ha : step p a = p.spawn t)
    (h : Pool.Solo next (t, p.shared) (t', c)) : Leads p ⟨c, p.tasks ++ [t']⟩ := by
  obtain ⟨n, hn⟩ := h.advances p.tasks
  refine ⟨a :: List.replicate n (.advance p.tasks.length), ?_⟩
  have hrun : ∀ q : SendTasks PublicKey, Runs.run step q (List.replicate n
      (.advance p.tasks.length)) =
        (List.replicate n p.tasks.length).foldl (Pool.advance next) q := by
    intro q
    rw [← List.map_replicate, Runs.run, List.foldl_map]
    rfl
  rw [Runs.run_cons, ha, hrun]
  exact hn

/-- A stream at rest after `n` messages. -/
structure Rests (p : SendTasks PublicKey) (n : Nat) : Prop where
  free : p.shared.locked = false
  text : p.shared.outbound.stream = []
  lastSeq : p.shared.outbound.lastSeq = n % 2 ^ 32

def Untried (p : SendTasks PublicKey) (k : Nat) : Prop :=
  ∃ m, p.shared.outbound.messageQueue.lookup k = some m ∧ m.lastTrySend = none

/-- One write, one message. -/
theorem Rests.next {p : SendTasks PublicKey} {n : Nat} (h : Rests p n) :
    ∃ q, Leads p q ∧ Rests q (n + 1) ∧ Untried q ((n + 1) % 2 ^ 32) ∧
      q.shared.sends = p.shared.sends ∧ q.shared.now = p.shared.now := by
  have hinsert := leads_call (a := .insert []) rfl (solo_insert h.free [])
  obtain ⟨log, hgenerate⟩ := solo_generate (c := { p.shared with
    stream := (p.shared.stream.insertToOutboundStream p.shared.now []).1
    written := p.shared.written ++ [[]] }) h.free
  have htext : (p.shared.outbound.insertToOutboundStream []).stream = [0, 0, 0, 0] := by
    rw [Outbound.insertToOutboundStream_stream, h.text]
    rfl
  have hgen : (p.shared.outbound.insertToOutboundStream []).generateMessages =
      (p.shared.outbound.insertToOutboundStream []).generateMessage := by
    rw [Outbound.generateMessages_of_ne_nil (by rw [htext]; simp),
      Outbound.generateMessages_of_nil]
    rw [Outbound.generateMessage_stream, htext]
    rfl
  have hseq : addU32 (p.shared.outbound.insertToOutboundStream []).lastSeq 1 =
      (n + 1) % 2 ^ 32 := by
    have hlast : (p.shared.outbound.insertToOutboundStream []).lastSeq = n % 2 ^ 32 := h.lastSeq
    rw [hlast, addU32, Nat.mod_add_mod]
  refine ⟨_, hinsert.trans (leads_call (a := .generate) rfl hgenerate),
    ⟨h.free, Outbound.generateMessages_stream _, ?_⟩, ?_, rfl, rfl⟩
  · show (p.shared.outbound.insertToOutboundStream []).generateMessages.lastSeq = _
    rw [hgen, Outbound.generateMessage_lastSeq, hseq]
  · show ∃ m, (p.shared.outbound.insertToOutboundStream
      []).generateMessages.messageQueue.lookup _ = some m ∧ _
    rw [hgen, Outbound.generateMessage]
    simp only [hseq]
    exact ⟨_, AList.lookup_insert _, rfl⟩

/-- So the numbers come round. -/
theorem Rests.add {p : SendTasks PublicKey} {n : Nat} (h : Rests p n) (k : Nat) :
    ∃ q, Leads p q ∧ Rests q (n + k) ∧ q.shared.sends = p.shared.sends ∧
      q.shared.now = p.shared.now := by
  induction k with
  | zero => exact ⟨p, ⟨[], rfl⟩, h, rfl, rfl⟩
  | succ k ih =>
    obtain ⟨q, hq, hrest, hsends, hnow⟩ := ih
    obtain ⟨r, hr, hrest', -, hsends', hnow'⟩ := hrest.next
    exact ⟨r, hq.trans hr, hrest', hsends'.trans hsends, hnow'.trans hnow⟩

/-- A call of `send_messages` sends what is untried. -/
theorem Rests.send {s : VeilidStream PublicKey} {now : Instant} {p : SendTasks PublicKey}
    {n k : Nat} (hp : Leads (start s now) p) (h : Rests p n) (hk : Untried p k) :
    ∃ q stamps, Leads p q ∧ Rests q n ∧ q.shared.sends = p.shared.sends ++ stamps ∧
      (k, p.shared.now) ∈ stamps ∧ q.shared.now = p.shared.now := by
  obtain ⟨as, rfl⟩ := hp
  have hpacing := run_pacing s now as
  generalize Runs.run step (start s now) as = p at h hk hpacing ⊢
  obtain ⟨t, hacc⟩ := Guarded.accounted hpacing.guarded
  obtain ⟨ms, -, hall, hsolo⟩ := solo_send p.shared
  have hlight : ∀ m ∈ p.shared.outbound.messagesToSend p.shared.now,
      m.data.length ≤ settings.veilidNetworkMessageLimitBytes := by
    intro m hm
    obtain ⟨⟨j, hj⟩, -⟩ := mem_messagesToSend.mp hm
    exact hpacing.light_queue hj
  obtain rfl := hall hlight
  obtain ⟨m, hm, hnone⟩ := hk
  have hready : readyToSend p.shared.now m = true := by rw [readyToSend, hnone]
  have hmem : m ∈ p.shared.outbound.messagesToSend p.shared.now :=
    mem_messagesToSend.mpr ⟨⟨_, hm⟩, hready⟩
  obtain ⟨ms, -, hsend⟩ := VeilidStream.sendEach_eq
    (p.shared.outbound.messagesToSend p.shared.now)
    { p.shared.stream with outbound := p.shared.outbound.stampSent p.shared.now }
  rw [VeilidStream.sendMessages, hsend] at hsolo
  refine ⟨_, _, leads_call (a := .send) rfl hsolo, ⟨h.free, h.text, h.lastSeq⟩, rfl,
    List.mem_map.mpr ⟨m, hmem, ?_⟩, rfl⟩
  rw [(hacc.queued.seq_eq hm).1]

/-- **Two sends of one number at one time**: after `2 ^ 32` more messages the number is a
message never tried. -/
theorem repeated_at_once (s : VeilidStream PublicKey) (now : Instant) :
    ∃ as, ¬ Paced (Runs.run step (start s now) as).shared.sends := by
  have hstart : Rests (start s now) 0 := ⟨rfl, rfl, rfl⟩
  obtain ⟨p, hp, hrest, huntried, -, hnow⟩ := hstart.next
  obtain ⟨q, first, hpq, hrest, hfirst, hmem, hnow₁⟩ := hrest.send hp huntried
  obtain ⟨r, hqr, hrest, hsends, hnow₂⟩ := hrest.add (2 ^ 32 - 1)
  obtain ⟨r', hr, hrest, huntried, hsends', hnow₃⟩ := hrest.next
  have hlead := ((hp.trans hpq).trans hqr).trans hr
  obtain ⟨w, second, hw, -, hsent, hsecond, -⟩ := hrest.send hlead huntried
  obtain ⟨as, rfl⟩ := hlead.trans hw
  refine ⟨as, fun hpaced => ?_⟩
  rw [hsent, hsends', hsends, hfirst] at hpaced
  have hnow' : r'.shared.now = p.shared.now := hnow₃.trans (hnow₂.trans hnow₁)
  have hwrap : (1 + (2 ^ 32 - 1) + 1) % 2 ^ 32 = (0 + 1) % 2 ^ 32 := by omega
  rw [hnow', hwrap] at hsecond
  have hpos : 0 < secs settings.messageRetryTimeout := by decide
  have hapart := (List.pairwise_append.mp hpaced).2.2 _ (List.mem_append_right _ hmem) _ hsecond
  rcases hapart rfl with hle | hle
  · exact absurd hle (Nat.not_le.mpr (Nat.lt_add_of_pos_right hpos))
  · exact absurd hle (Nat.not_le.mpr (Nat.lt_add_of_pos_right hpos))

end Wrap

end SendTasks

namespace SendTasks
open Sample

/-- So many steps of a call. -/
def steps (i n : Nat) : List Action := List.replicate n (.advance i)

/-- A message is sent at 5 s; a call that has read the clock before comes to the queue after
that; the message is sent again at 10 s. -/
def sampleRetries : List Action :=
  [.insert [7]] ++ steps 0 4 ++ [.generate] ++ steps 1 6 ++ [.send] ++ steps 2 1 ++
    [.tick (secs 5), .send] ++ steps 3 4 ++ steps 2 2 ++ [.tick (secs 5), .send] ++ steps 4 4

theorem retries_paced_sample :
    let c := (Runs.run step (start ReceiveTasks.sampleStream 0) sampleRetries).shared
    c.sends = [(1, secs 5), (1, secs 10)] ∧ Paced c.sends :=
  ⟨by decide, (retries_paced ReceiveTasks.sampleStream 0 sampleRetries).2.2 (by decide)⟩

/-- A message is acknowledged before a call has collected it. -/
def sampleAcknowledged : List Action :=
  [.insert [7]] ++ steps 0 4 ++ [.generate] ++ steps 1 6 ++ [.acknowledge 1] ++ steps 2 3 ++
    [.send] ++ steps 3 2

/-- **Two limits of the pace**: a message that is acknowledged unsent is never sent, and a
number that comes again is sent again at once. -/
theorem pace_broken :
    ¬ (∀ as, QueueEvent.AlwaysPrompt
      (Runs.run step (start ReceiveTasks.sampleStream 0) as).shared.queueLog) ∧
    ¬ (∀ as, Paced (Runs.run step (start ReceiveTasks.sampleStream 0) as).shared.sends) := by
  constructor
  · intro h
    have hlog : (Runs.run step (start ReceiveTasks.sampleStream 0)
        sampleAcknowledged).shared.queueLog =
          [] ++ .queued 1 ⟨1, [1, 0, 0, 0, 7], none⟩ :: ([.pruned 1] ++ .collected 0 [] :: []) := by
      rfl
    have hmem := h sampleAcknowledged [] 1 _ [.pruned 1] 0 [] [] hlog (by simp)
    cases hmem
  · intro h
    obtain ⟨as, has⟩ := repeated_at_once ReceiveTasks.sampleStream 0
    exact has (h as)

end SendTasks
end VeilidTransport
