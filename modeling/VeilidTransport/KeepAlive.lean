import VeilidTransport.Displacement
import VeilidTransport.Redial

/-!
# Keeping a stream alive

A stream that hears nothing for `streamTimeoutSecs` expires, and the heartbeat then
removes it.  `Hearing` is a node together with the time at which one of its streams has last
heard from its remote; which messages count as heard is a parameter.  Messages and heartbeats
are whole steps here, each at one reading of the clock.

Only one kind of message sets the time that expiry is measured from: signed data that is
the next in order (`IsNext`).  `kept_iff` says that a stream is kept exactly as long as such
messages come in time.  A keep-alive, or data that is a duplicate or ahead of its turn, counts
for nothing, and `keepalives_expire` is a stream that expires while they arrive.
-/

namespace VeilidTransport
namespace VeilidStream
variable {PublicKey : Type} [Identity PublicKey]

/-- The message is from the matching stream of the remote: a keep-alive, or signed data. -/
def IsKeepAlive (s : VeilidStream PublicKey) (m : AppMessage) : Prop :=
  m.streamId = s.remoteStreamId ∧
    (messageType m.data = .status ∨ messageType m.data = .data ∧ s.isSigned m = true)

instance (s : VeilidStream PublicKey) (m : AppMessage) : Decidable (s.IsKeepAlive m) :=
  inferInstanceAs (Decidable (_ ∧ _))

/-- The message is signed data, the next in order. -/
structure IsNext (s : VeilidStream PublicKey) (m : AppMessage) : Prop where
  current : ¬ s.Stale m
  data : messageType m.data = .data
  signed : s.isSigned m = true
  seq : m.seq = s.inbound.receivedSeq + 1
  bound : s.inbound.receivedSeq + 1 < 2 ^ 32

instance (s : VeilidStream PublicKey) (m : AppMessage) : Decidable (s.IsNext m) :=
  decidable_of_iff (¬ s.Stale m ∧ messageType m.data = .data ∧ s.isSigned m = true ∧
      m.seq = s.inbound.receivedSeq + 1 ∧ s.inbound.receivedSeq + 1 < 2 ^ 32)
    ⟨fun ⟨h1, h2, h3, h4, h5⟩ => ⟨h1, h2, h3, h4, h5⟩,
      fun ⟨h1, h2, h3, h4, h5⟩ => ⟨h1, h2, h3, h4, h5⟩⟩

omit [Identity PublicKey] in
theorem recvMessage_next {s : VeilidStream PublicKey} {now : Instant}
    (hactive : s.isActive now = true) (hlt : s.inbound.receivedSeq + 1 < 2 ^ 32)
    (deliveredSeq : Nat) (data : Bytes) :
    (s.recvMessage now deliveredSeq (s.inbound.receivedSeq + 1) data).inbound.lastTimestamp =
      now := by
  have hdup : ¬ s.inbound.receivedSeq + 1 ≤ s.inbound.receivedSeq := by omega
  have hnext : ¬ addU32 s.inbound.receivedSeq 1 < s.inbound.receivedSeq + 1 := by
    rw [addU32_of_lt hlt]
    omega
  simp only [recvMessage, if_neg hdup, if_neg hnext, if_pos hactive]
  rfl

variable [KeyCodec]

/-- **The next message in order** sets the time of the last message. -/
theorem convertRegistered_next {s : VeilidStream PublicKey} {now : Instant}
    (hactive : s.isActive now = true) {m : AppMessage} (h : s.IsNext m) (l : Address) :
    (s.convertRegistered (some l) now m).1.status = .active ∧
      (s.convertRegistered (some l) now m).1.inbound.lastTimestamp = now := by
  obtain ⟨id, -, hadopt⟩ := adoptRemoteStreamId_eq s m.streamId
  have hstale : ¬ ((s.adoptRemoteStreamId m.streamId).remoteStreamId ≠ 0 ∧
      m.streamId < (s.adoptRemoteStreamId m.streamId).remoteStreamId) := fun hs =>
    h.current ((stale_adopt_iff s m).mp hs)
  obtain ⟨hst, hrecent⟩ := isActive_iff.mp hactive
  have heq : (s.convertRegistered (some l) now m).1 =
      ((s.adoptRemoteStreamId m.streamId).updateStatus .active).recvMessage now m.deliveredSeq
        m.seq m.data := by
    have hst' : (s.adoptRemoteStreamId m.streamId).status = .active := by rw [hadopt]; exact hst
    unfold convertRegistered
    simp only [if_neg hstale, hst', convertActive, h.data, h.signed, if_true]
  rw [heq, hadopt]
  refine ⟨(recvMessage_handshake _ _ _ _ _).1, ?_⟩
  have hactive' : (updateStatus { s with remoteStreamId := id } .active).isActive now = true :=
    isActive_iff.mpr ⟨rfl, hrecent⟩
  rw [h.seq]
  exact recvMessage_next hactive' h.bound m.deliveredSeq m.data

/-- **No other message does**, and none changes the status of an active stream. -/
theorem convertRegistered_not_next {s : VeilidStream PublicKey} (hst : s.status = .active)
    {localAddress : Option Address} {m : AppMessage}
    (h : localAddress ≠ none → ¬ s.IsNext m) (now : Instant) :
    (s.convertRegistered localAddress now m).1.status = .active ∧
      (s.convertRegistered localAddress now m).1.inbound.lastTimestamp =
        s.inbound.lastTimestamp := by
  obtain ⟨id, -, hadopt⟩ := adoptRemoteStreamId_eq s m.streamId
  have hsame : (s.adoptRemoteStreamId m.streamId).status = .active ∧
      (s.adoptRemoteStreamId m.streamId).inbound = s.inbound := by
    rw [hadopt]
    exact ⟨hst, rfl⟩
  have hstale := stale_adopt_iff s m
  cases localAddress with
  | none => exact ⟨hsame.1, by rw [convertRegistered_none, hsame.2]⟩
  | some l =>
    rcases convertRegistered_handled s l now m with ⟨-, hc⟩ | ⟨hcurrent, hc⟩
    · rw [hc]
      exact ⟨hsame.1, by rw [hsame.2]⟩
    · rw [hstale] at hcurrent
      generalize s.adoptRemoteStreamId m.streamId = t at *
      obtain ⟨ht, hin⟩ := hsame
      have hts : t.inbound.lastTimestamp = s.inbound.lastTimestamp := by rw [hin]
      have hother : t.status ≠ .dial ∧ t.status ≠ .listen := by rw [ht]; simp
      generalize (s.convertRegistered (some l) now m).1 = s' at hc
      generalize (s.convertRegistered (some l) now m).2 = next at hc
      cases hc with
      | ignored => exact ⟨ht, hts⟩
      | superseded => exact ⟨ht, hts⟩
      | acknowledged => exact ⟨ht, hts⟩
      | redial hs => exact absurd hs hother.1
      | tied hs => exact absurd hs hother.1
      | switched hs => exact absurd hs hother.1
      | connected hs => exact absurd hs hother.1
      | relisten hs => exact absurd hs hother.2
      | received hs hm hsigned =>
        refine ⟨(recvMessage_handshake _ _ _ _ _).1, ?_⟩
        rcases recvMessage_cases (t.updateStatus .active) now m.deliveredSeq m.seq m.data with
          hr | ⟨-, hr⟩ | ⟨-, hseq, hlt, -⟩
        · rw [hr]
          exact hts
        · rw [hr]
          exact hts
        · -- it is taken as the next message, which it is not
          have hin' : (t.updateStatus .active).inbound = s.inbound := hin
          rw [hin'] at hseq hlt
          exact absurd ⟨hcurrent, hm, hsigned, hseq, hlt⟩ (h (by simp))

end VeilidStream

/-- A node, and when one of its streams has last heard from its remote. -/
structure Hearing (PublicKey : Type) where
  node : Transport PublicKey
  heard : Instant

namespace Transport
variable {PublicKey : Type} [KeyCodec] [Identity PublicKey]

/-- A message that counts comes for the stream `h`, and the node processes it. -/
def Hears (counts : VeilidStream PublicKey → AppMessage → Prop) (h : Handle)
    (n : Transport PublicKey) : Action → Prop
  | .update packet => n.localAddress ≠ none ∧ ∃ m ∈ VeilidStream.decodeMessage packet,
      n.streams.lookup m.remoteAddress = some h ∧ ∃ s ∈ n.heap[h]?, counts s m
  | _ => False

instance (counts : VeilidStream PublicKey → AppMessage → Prop)
    [∀ s m, Decidable (counts s m)] (h : Handle) (n : Transport PublicKey) :
    ∀ a, Decidable (Hears counts h n a)
  | .update packet => inferInstanceAs (Decidable (n.localAddress ≠ none ∧
      ∃ m ∈ VeilidStream.decodeMessage packet,
        n.streams.lookup m.remoteAddress = some h ∧ ∃ s ∈ n.heap[h]?, counts s m))
  | .dial _ => inferInstanceAs (Decidable False)
  | .resume _ _ _ => inferInstanceAs (Decidable False)
  | .pump _ => inferInstanceAs (Decidable False)
  | .heartbeat => inferInstanceAs (Decidable False)
  | .pollRead _ _ _ => inferInstanceAs (Decidable False)
  | .pollWrite _ _ => inferInstanceAs (Decidable False)
  | .tick _ => inferInstanceAs (Decidable False)
  | .setLocalAddress _ => inferInstanceAs (Decidable False)

/-- The stream is not found expired in the run, and no heartbeat of it removes it. -/
structure Keeps (n : Transport PublicKey) (h : Handle) (as : List Action) : Prop where
  live : ∀ bs, bs <+: as → ∀ s ∈ (Runs.run step n bs).heap[h]?,
    s.isExpired (Runs.run step n bs).now = false
  registered : ∀ bs, bs ++ [.heartbeat] <+: as → ∀ r,
    (Runs.run step n bs).streams.lookup r = some h →
    (Runs.run step n bs).heartbeat.streams.lookup r = some h

/-- The heartbeat keeps what has not expired. -/
theorem heartbeat_keeps {n : Transport PublicKey} (hn : n.Registered) {h : Handle}
    (hlive : ∀ s ∈ n.heap[h]?, s.isExpired n.now = false) {r : Address}
    (hr : n.streams.lookup r = some h) : n.heartbeat.streams.lookup r = some h := by
  rw [heartbeat_lookup]
  by_cases hmem : r ∈ n.expiredAddresses
  · obtain ⟨g, s, hg, hs, hdel⟩ := hn.mem_expiredAddresses hmem
    obtain rfl := Option.some.inj (hr.symm.trans hg)
    have hx := hlive s hs
    simp [toDelete, hx] at hdel
  · rw [if_neg hmem]
    exact hr

/-- Only the passing of time moves the clock. -/
theorem step_now (n : Transport PublicKey) {a : Action} (ha : ∀ d, a ≠ .tick d) :
    (n.step a).now = n.now := by
  cases a with
  | dial remoteAddress =>
    rw [step, dial]
    split
    · rfl
    · split
      · split <;> rfl
      · rfl
  | update packet =>
    show (n.update packet).now = n.now
    have hu := update_updated n packet
    generalize n.update packet = n' at hu
    cases hu with
    | ignored => rfl
    | dialed => rfl
    | handled => exact (follow_streams _ _ _ _).2.2
  | resume i target epochSecs =>
    show (n.resume i target epochSecs).now = n.now
    have hr := resume_resumed n i target epochSecs
    generalize n.resume i target epochSecs = n' at hr
    cases hr <;> rfl
  | pump i =>
    rw [step, pump]
    split <;> rfl
  | heartbeat =>
    have hvisit : ∀ (l : List Handle) (n : Transport PublicKey),
        (l.foldl (fun n h => n.modifyStream h (heartbeatStream n.now)) n).now = n.now := by
      intro l
      induction l with
      | nil => exact fun _ => rfl
      | cons g l ih => exact fun n => ih _
    rw [step, heartbeat, foldl_deleteStream_now, hvisit]
  | pollRead h waker len =>
    rw [step, pollRead]
    split <;> rfl
  | pollWrite h buf =>
    rw [step, pollWrite]
    split
    · split
      · rfl
      · simp only
        split <;> rfl
    · rfl
  | tick d => exact absurd rfl (ha d)
  | setLocalAddress localAddress => rfl

end Transport

namespace Hearing
open Transport
variable {PublicKey : Type} [KeyCodec] [Identity PublicKey]

section
variable (counts : VeilidStream PublicKey → AppMessage → Prop) [∀ s m, Decidable (counts s m)]
  (h : Handle)

def step (k : Hearing PublicKey) (a : Transport.Action) : Hearing PublicKey where
  node := k.node.step a
  heard := if Hears counts h k.node a then k.node.now else k.heard

theorem run_node (k : Hearing PublicKey) (as : List Transport.Action) :
    (Runs.run (step counts h) k as).node = Runs.run Transport.step k.node as := by
  induction as generalizing k with
  | nil => rfl
  | cons a as ih => exact ih _

end

omit [KeyCodec] [Identity PublicKey] in
/-- The clock is never further than `limit` behind the last message that counts. -/
def Within (limit : Nat) (k : Hearing PublicKey) : Transport.Action → Prop
  | .tick d => k.node.now + d ≤ k.heard + limit
  | _ => True

instance (limit : Nat) (k : Hearing PublicKey) : ∀ a, Decidable (Within limit k a)
  | .tick d => inferInstanceAs (Decidable (k.node.now + d ≤ k.heard + limit))
  | .update _ => inferInstanceAs (Decidable True)
  | .dial _ => inferInstanceAs (Decidable True)
  | .resume _ _ _ => inferInstanceAs (Decidable True)
  | .pump _ => inferInstanceAs (Decidable True)
  | .heartbeat => inferInstanceAs (Decidable True)
  | .pollRead _ _ _ => inferInstanceAs (Decidable True)
  | .pollWrite _ _ => inferInstanceAs (Decidable True)
  | .setLocalAddress _ => inferInstanceAs (Decidable True)

/-- The time of the last message that counts is the one the stream has. -/
def Timed (h : Handle) (k : Hearing PublicKey) : Prop :=
  ∃ s, k.node.heap[h]? = some s ∧ s.status = .active ∧ s.inbound.lastTimestamp = k.heard

/-- **The invariant.** -/
structure Fresh (h : Handle) (k : Hearing PublicKey) : Prop where
  registered : k.node.Registered
  timed : k.Timed h
  recent : k.node.now < k.heard + secs settings.streamTimeoutSecs

/-- A message, heard or not, leaves the stream timed. -/
theorem Timed.update {h : Handle} {k : Hearing PublicKey} (ht : k.Timed h)
    (hrecent : k.node.now < k.heard + secs settings.streamTimeoutSecs) (packet : Payload) :
    (step VeilidStream.IsNext h k (.update packet)).Timed h := by
  obtain ⟨s, hs, hst, hts⟩ := ht
  have hactive : s.isActive k.node.now = true := by
    rw [VeilidStream.isActive_iff]
    refine ⟨hst, ?_⟩
    rw [VeilidStream.isRecent, hts, decide_eq_true_eq]
    exact hrecent
  unfold step
  by_cases hears : Hears VeilidStream.IsNext h k.node (.update packet)
  · rw [if_pos hears]
    obtain ⟨hlocal, m, hm, hstream, t, ht, hnext⟩ := hears
    obtain rfl := Option.some.inj (hs.symm.trans ht)
    obtain ⟨l, hl⟩ := Option.ne_none_iff_exists'.mp hlocal
    obtain ⟨hst', hts'⟩ := VeilidStream.convertRegistered_next hactive hnext l
    refine ⟨_, ?_, hst', hts'⟩
    show (k.node.update packet).heap[h]? = _
    rw [update_registered hm hstream hs, (follow_streams _ _ _ _).2.1, hl]
    exact List.getElem?_set_self (List.getElem?_eq_some_iff.mp hs).1
  · rw [if_neg hears]
    have hu := update_updated k.node packet
    show Timed h ⟨k.node.update packet, k.heard⟩
    generalize k.node.update packet = n' at hu
    cases hu with
    | ignored => exact ⟨s, hs, hst, hts⟩
    | dialed => exact ⟨s, hs, hst, hts⟩
    | handled m g t hm hstream ht =>
      unfold Timed
      simp only
      rw [(follow_streams _ _ _ _).2.1]
      by_cases hg : g = h
      · subst hg
        obtain rfl := Option.some.inj (hs.symm.trans ht)
        have hnot : k.node.localAddress ≠ none → ¬ s.IsNext m := fun hlocal hnext =>
          hears ⟨hlocal, m, hm, hstream, s, hs, hnext⟩
        obtain ⟨hst', hts'⟩ := VeilidStream.convertRegistered_not_next hst hnot k.node.now
        exact ⟨_, List.getElem?_set_self (List.getElem?_eq_some_iff.mp hs).1, hst',
          hts'.trans hts⟩
      · exact ⟨s, (List.getElem?_set_ne hg).trans hs, hst, hts⟩

theorem Fresh.timed_step {h : Handle} {k : Hearing PublicKey} (hk : k.Fresh h)
    (a : Transport.Action) : (step VeilidStream.IsNext h k a).Timed h := by
  obtain ⟨s, hs, hst, hts⟩ := hk.timed
  have hlt : ¬ h = k.node.heap.length := fun hh => by
    rw [hh] at hs
    simp at hs
  -- a step that is not a message leaves the stream's time alone
  have hother : ¬ Hears VeilidStream.IsNext h k.node a →
      (∀ packet, a ≠ .update packet) → (step VeilidStream.IsNext h k a).Timed h := by
    intro hears ha
    obtain ⟨s', hs'⟩ := step_stays k.node a hs
    unfold step
    rw [if_neg hears]
    refine ⟨s', hs', ?_⟩
    cases step_became k.node a hs' with
    | worked _ t _ ht hw =>
      obtain rfl := Option.some.inj (hs.symm.trans ht)
      have hh := VeilidStream.works_handshake hw
      exact ⟨hh.status.trans hst, hh.lastTimestamp.trans hts⟩
    | handled packet => exact absurd rfl (ha packet)
    | dialed _ _ _ _ _ _ _ hh => exact absurd hh hlt
    | created _ _ _ _ _ _ _ _ _ hh => exact absurd hh hlt
  cases a with
  | update packet => exact hk.timed.update hk.recent packet
  | _ => exact hother (fun hears => hears) (by simp)

/-- The clock and the last message after time has passed. -/
theorem tick_eq (counts : VeilidStream PublicKey → AppMessage → Prop)
    [∀ s m, Decidable (counts s m)] (h : Handle) (k : Hearing PublicKey) (d : Nat) :
    (step counts h k (.tick d)).node.now = k.node.now + d ∧
      (step counts h k (.tick d)).heard = k.heard := by
  have hears : ¬ Hears counts h k.node (.tick d) := fun hears => hears
  refine ⟨rfl, ?_⟩
  unfold step
  rw [if_neg hears]

/-- The clock is short of the timeout after a step that is within the limit. -/
theorem step_recent {h : Handle} {k : Hearing PublicKey} {a : Transport.Action}
    (hok : Within (secs settings.streamTimeoutSecs - 1) k a)
    (hrecent : k.node.now < k.heard + secs settings.streamTimeoutSecs) :
    (step VeilidStream.IsNext h k a).node.now <
      (step VeilidStream.IsNext h k a).heard + secs settings.streamTimeoutSecs := by
  have hpos : 0 < secs settings.streamTimeoutSecs := by decide
  by_cases ha : ∀ d, a ≠ .tick d
  · have hnow : (step VeilidStream.IsNext h k a).node.now = k.node.now := step_now k.node ha
    rw [hnow]
    unfold step
    by_cases hears : Hears VeilidStream.IsNext h k.node a
    · rw [if_pos hears]
      exact Nat.lt_add_of_pos_right hpos
    · rw [if_neg hears]
      exact hrecent
  · obtain ⟨d, rfl⟩ := not_forall_not.mp ha
    obtain ⟨hnow, hheard⟩ := tick_eq VeilidStream.IsNext h k d
    rw [hnow, hheard]
    exact Nat.lt_of_le_of_lt hok (Nat.add_lt_add_left (Nat.sub_lt hpos Nat.one_pos) k.heard)

theorem step_fresh {h : Handle} (k : Hearing PublicKey) (a : Transport.Action)
    (hok : Within (secs settings.streamTimeoutSecs - 1) k a) (hk : k.Fresh h) :
    (step VeilidStream.IsNext h k a).Fresh h :=
  ⟨step_registered k.node a hk.registered, hk.timed_step a, step_recent hok hk.recent⟩

/-- The stream has not expired. -/
def Live (h : Handle) (k : Hearing PublicKey) : Prop :=
  ∀ s ∈ k.node.heap[h]?, s.isExpired k.node.now = false

omit [KeyCodec] [Identity PublicKey] in
theorem Timed.live_iff {h : Handle} {k : Hearing PublicKey} (ht : k.Timed h) :
    k.Live h ↔ k.node.now < k.heard + secs settings.streamTimeoutSecs := by
  obtain ⟨s, hs, hst, hts⟩ := ht
  have hx : s.isExpired k.node.now = false ↔
      k.node.now < k.heard + secs settings.streamTimeoutSecs := by
    rw [← hts, ← Bool.not_eq_true, isExpired_iff, not_and, Nat.not_le]
    exact ⟨fun h => h (by rw [hst]; simp), fun h _ => h⟩
  constructor
  · intro hlive
    exact hx.mp (hlive s hs)
  · intro hrecent t ht
    obtain rfl := Option.some.inj (hs.symm.trans ht)
    exact hx.mpr hrecent

/-- A step to a state in which the stream lives is within the limit. -/
theorem within_of_live {h : Handle} (k : Hearing PublicKey) (a : Transport.Action)
    (hk : k.Fresh h) (hlive : (step VeilidStream.IsNext h k a).Live h) :
    Within (secs settings.streamTimeoutSecs - 1) k a := by
  have hrecent := (hk.timed_step a).live_iff.mp hlive
  have hpos : 0 < secs settings.streamTimeoutSecs := by decide
  cases a with
  | tick d =>
    obtain ⟨hnow, hheard⟩ := tick_eq VeilidStream.IsNext h k d
    rw [hnow, hheard] at hrecent
    have hle := Nat.le_sub_one_of_lt hrecent
    rw [Nat.add_sub_assoc hpos] at hle
    exact hle
  | _ => trivial

/-- **When a stream is kept**: exactly when the clock never gets as far as the timeout behind
the last message that was signed data and the next in order. -/
theorem kept_iff (localAddress : Option Address) (keypair : Keypair PublicKey) (now : Instant)
    (as : List Transport.Action) {n : Transport PublicKey}
    (hn : n = Runs.run Transport.step (Transport.new localAddress keypair now) as) {h : Handle}
    {s : VeilidStream PublicKey} (hs : n.heap[h]? = some s) (hactive : s.isActive n.now = true)
    (bs : List Transport.Action) :
    n.Keeps h bs ↔
      Runs.Along (step VeilidStream.IsNext h) (Within (secs settings.streamTimeoutSecs - 1))
        ⟨n, s.inbound.lastTimestamp⟩ bs := by
  obtain ⟨hst, hrecent⟩ := VeilidStream.isActive_iff.mp hactive
  have hregistered : ∀ cs, (Runs.run Transport.step n cs).Registered := by
    intro cs
    subst hn
    rw [← Runs.run_append]
    refine Runs.invariant step_registered (fun a h hlookup => ?_) _
    cases hlookup
  have hfresh : Fresh h ⟨n, s.inbound.lastTimestamp⟩ :=
    ⟨hregistered [], ⟨s, hs, hst, rfl⟩, of_decide_eq_true hrecent⟩
  have hnode : ∀ cs, (Runs.run (step VeilidStream.IsNext h) ⟨n, s.inbound.lastTimestamp⟩ cs).node =
      Runs.run Transport.step n cs := run_node _ h _
  rw [← Runs.prefixes_iff_along (fun k hk => hk.timed.live_iff.mpr hk.recent) step_fresh
    within_of_live hfresh bs]
  constructor
  · intro hkeeps cs hcs
    unfold Live
    rw [hnode]
    exact hkeeps.live cs hcs
  · intro hlive
    have hlive' : ∀ cs, cs <+: bs → ∀ t ∈ (Runs.run Transport.step n cs).heap[h]?,
        t.isExpired (Runs.run Transport.step n cs).now = false := by
      intro cs hcs
      have hl := hlive cs hcs
      unfold Live at hl
      rw [hnode] at hl
      exact hl
    refine ⟨hlive', fun cs hcs r hr => ?_⟩
    exact heartbeat_keeps (hregistered cs) (hlive' cs ((List.prefix_append _ _).trans hcs)) hr

end Hearing

namespace Hearing
open Sample Transport

/-- Node 2 sends a keep-alive to node 1. -/
def sampleStatus : Transport.Action := .update ((sampleDialer 20).encode 1 1 statusWord)

/-- Keep-alives come every ten seconds, and then the heartbeat. -/
def sampleKeepAlives : List Transport.Action :=
  [.tick (secs 10), sampleStatus, .tick (secs 10), sampleStatus, .heartbeat]

/-- The same with the next message in order in place of the first keep-alive. -/
def sampleMessages : List Transport.Action :=
  [.tick (secs 10), .update ((sampleDialer 20).encode 1 2 [8]), .tick (secs 10), sampleStatus,
    .heartbeat]

theorem kept_sample :
    sampleEstablished.Keeps 0 sampleMessages ↔
      Runs.Along (step VeilidStream.IsNext 0) (Within (secs settings.streamTimeoutSecs - 1))
        ⟨sampleEstablished, (sampleEstablished.heap.head (by decide)).inbound.lastTimestamp⟩
        sampleMessages :=
  kept_iff (some (addressOf 1)) (keypairOf 1) 0 _ rfl (s := sampleEstablished.heap.head (by decide))
    rfl (by decide) sampleMessages

example : Runs.Along (step VeilidStream.IsNext 0) (Within (secs settings.streamTimeoutSecs - 1))
    ⟨sampleEstablished, 0⟩ sampleMessages := by
  decide

/-- **A stream can expire while keep-alives arrive** in time, and is removed. -/
theorem keepalives_expire :
    Runs.Along (step VeilidStream.IsKeepAlive 0)
        (Within (secs (settings.streamTimeoutSecs - 1))) ⟨sampleEstablished, 0⟩
        sampleKeepAlives ∧
      (sampleEstablished.heap.head (by decide)).isActive sampleEstablished.now = true ∧
      ¬ sampleEstablished.Keeps 0 sampleKeepAlives := by
  refine ⟨by decide, by decide, fun hkeeps => ?_⟩
  have hregistered := hkeeps.registered
    [.tick (secs 10), sampleStatus, .tick (secs 10), sampleStatus] List.prefix_rfl (addressOf 2)
    (by decide)
  revert hregistered
  decide

end Hearing
end VeilidTransport
