import VeilidTransport.Transport
import VeilidTransport.Sample
import VeilidTransport.Foundation.Runs
import VeilidTransport.Foundation.Channel
import VeilidTransport.Foundation.TwoParty

/-!
# A session between two streams

Two honest streams, each registered at its node for the other's address, and a
network between them that keeps every payload ever sent and delivers any of them
at any time, any number of times, or never: so it may lose, duplicate, delay and
reorder, and it alters nothing.

`Linked` is the invariant of every run: in each direction the receiver has taken
in only what the sender has generated, and what it has not yet received the sender
still has.  `exactly_once` and `nothing_discarded` read off it, and
`refines_channel` says that each direction is a first-in first-out channel of messages.

The results are about fewer than `2 ^ 32 - 20` messages in a direction, where no
sequence number wraps.
-/

namespace VeilidTransport

/-- One side of a session: the stream, what its listener knows, and the history of
the connection over it. -/
structure Endpoint (PublicKey : Type) where
  stream : VeilidStream PublicKey
  /-- The listener's local address. -/
  localAddress : Option Address
  now : Instant
  /-- History: the buffers `poll_write` has accepted. -/
  accepted : List Bytes
  /-- History: the bytes `poll_read` has returned. -/
  returned : Bytes

abbrev Session (PublicKey : Type) := Pair (Endpoint PublicKey)

namespace Endpoint
variable {PublicKey : Type} [KeyCodec] [Identity PublicKey]

/-- What happens at one side alone. -/
inductive Event where
  | write (buf : Bytes)
  | read (waker : Waker) (len : Nat)
  | generate
  | send
  | heartbeat
  | tick (d : Nat)

/-- The connection is written to. -/
def write (e : Endpoint PublicKey) (buf : Bytes) : Endpoint PublicKey :=
  match e.stream.pollWrite e.now buf with
  | (.ready _, stream) => { e with stream := stream, accepted := e.accepted ++ [buf] }
  | (_, stream) => { e with stream := stream }

/-- The connection is read. -/
def read (e : Endpoint PublicKey) (waker : Waker) (len : Nat) : Endpoint PublicKey :=
  match e.stream.pollRead e.now waker len with
  | (.ready data, stream) => { e with stream := stream, returned := e.returned ++ data }
  | (_, stream) => { e with stream := stream }

def act (e : Endpoint PublicKey) : Event → Endpoint PublicKey
  | .write buf => e.write buf
  | .read waker len => e.read waker len
  | .generate => { e with stream := e.stream.generateMessages }
  | .send => { e with stream := e.stream.sendMessages e.now }
  | .heartbeat => { e with stream := Transport.heartbeatStream e.now e.stream }
  | .tick d => { e with now := e.now + d }

/-- A payload of the peer's stream arrives. -/
def receive (e : Endpoint PublicKey) (p : Payload) : Endpoint PublicKey :=
  match VeilidStream.decodeMessage p with
  | none => e
  | some m => { e with stream := (e.stream.convertRegistered e.localAddress e.now m).1 }

omit [KeyCodec] [Identity PublicKey] in
theorem write_stream (e : Endpoint PublicKey) (buf : Bytes) :
    (e.write buf).stream = (e.stream.pollWrite e.now buf).2 := by
  unfold write
  rcases e.stream.pollWrite e.now buf with ⟨_ | _ | _, s⟩ <;> rfl

omit [KeyCodec] [Identity PublicKey] in
theorem read_stream (e : Endpoint PublicKey) (waker : Waker) (len : Nat) :
    (e.read waker len).stream = (e.stream.pollRead e.now waker len).2 := by
  unfold read
  rcases e.stream.pollRead e.now waker len with ⟨_ | _ | _, s⟩ <;> rfl

/-- What a side does alone is work on its stream. -/
theorem works_act (e : Endpoint PublicKey) (a : Event) :
    VeilidStream.Works e.stream (e.act a).stream := by
  cases a with
  | write buf =>
    rw [act, write_stream]
    exact VeilidStream.works_pollWrite e.stream e.now buf
  | read waker len =>
    rw [act, read_stream]
    exact VeilidStream.works_pollRead e.stream e.now waker len
  | generate => exact .single (.generate e.stream)
  | send => exact VeilidStream.works_sendMessages e.stream e.now
  | heartbeat => exact Transport.works_heartbeatStream e.now e.stream
  | tick d => exact .refl

end Endpoint

namespace Session
open VeilidStream

section
variable {PublicKey : Type} [KeyCodec] [Identity PublicKey]

inductive Action where
  | act (d : Side) (a : Endpoint.Event)
  /-- The `k`-th payload the other side has sent arrives at `d`. -/
  | deliver (d : Side) (k : Nat)

def step (s : Session PublicKey) : Action → Session PublicKey
  | .act d a => s.set d ((s.get d).act a)
  | .deliver d k =>
    match (s.get d.other).stream.sent[k]? with
    | none => s
    | some p => s.set d ((s.get d).receive p)

theorem step_deliver {s : Session PublicKey} {d : Side} {k : Nat} {p : Payload}
    (hp : (s.get d.other).stream.sent[k]? = some p) :
    s.step (.deliver d k) = s.set d ((s.get d).receive p) := by
  rw [step, hp]

/-- Two streams just made for each other, in whatever state of the handshake: each
has an id, and knows the other's or none. -/
structure Paired (s : Session PublicKey) : Prop where
  inbound : ∀ d, ∃ t, (s.get d).stream.inbound = Inbound.new t
  outbound : ∀ d, ∃ t, (s.get d).stream.outbound = Outbound.new t
  sent : ∀ d, (s.get d).stream.sent = []
  myStreamId : ∀ d, (s.get d).stream.myStreamId ≠ 0
  remoteStreamId : ∀ d, (s.get d).stream.remoteStreamId = 0 ∨
    (s.get d).stream.remoteStreamId = (s.get d.other).stream.myStreamId
  accepted : ∀ d, (s.get d).accepted = []
  returned : ∀ d, (s.get d).returned = []

/-- Fewer than `2 ^ 32 - 20` messages in each direction. -/
def Few (s : Session PublicKey) : Prop :=
  ∀ d, (s.get d).stream.outbound.generated.length < 2 ^ 32 - 20

/-- **The invariant of a session.** -/
structure Linked (s : Session PublicKey) : Prop where
  consistent : ∀ d, (s.get d).stream.Consistent
  takenFrom : ∀ d,
    (s.get d).stream.inbound.TakenFrom (s.get d.other).stream.outbound.generated
  delivered : ∀ d, Delivered (s.get d).stream (s.get d.other).stream

omit [Identity PublicKey] in
theorem Paired.linked {s : Session PublicKey} (h : s.Paired) : s.Linked where
  consistent d := by
    obtain ⟨t, hi⟩ := h.inbound d
    obtain ⟨t', ho⟩ := h.outbound d
    refine ⟨?_, ?_, ?_, ?_, ?_⟩
    · rw [ho]; exact Outbound.queued_new t'
    · rw [ho]; exact Outbound.numbered_new t'
    · rw [ho]; exact Outbound.sized_new t'
    · rw [hi]; exact Inbound.counted_new t
    · rw [h.sent d]; exact fun _ hp => absurd hp List.not_mem_nil
  takenFrom d := by
    obtain ⟨t, hi⟩ := h.inbound d
    rw [hi]
    exact Inbound.takenFrom_new t _
  delivered d := by
    obtain ⟨t, ho⟩ := h.outbound d
    refine ⟨?_, fun _ => ?_⟩
    · rw [ho]; exact Nat.zero_le _
    · rw [ho]; exact Outbound.kept_new _ t

/-- **One side handling a message the other vouches for keeps the invariant.** -/
theorem Linked.set {s : Session PublicKey} (h : s.Linked) {d : Side} {e : Endpoint PublicKey}
    {m : AppMessage} (hh : Handles m (s.get d).stream e.stream)
    (hack : m.deliveredSeq ≤ (s.get d.other).stream.inbound.receivedSeq)
    (hdata : messageType m.data = .data →
      (m.seq, m.data) ∈ (s.get d.other).stream.outbound.generated) :
    Linked (s.set d e) := by
  obtain ⟨hg, hc⟩ := Handles.consistent hh (h.consistent d)
  have ht := h.takenFrom d.other
  have hd := h.delivered d.other
  rw [Side.other_other] at ht hd
  refine ⟨?_, ?_, ?_⟩
  · exact Pair.set_forall (P := fun _ (x : Endpoint PublicKey) => x.stream.Consistent) hc
      (h.consistent _)
  · refine Pair.set_forall_peer (R := fun _ (x y : Endpoint PublicKey) =>
      x.stream.inbound.TakenFrom y.stream.outbound.generated) ?_ ?_
    · exact Handles.takenFrom hh (h.consistent _) (h.takenFrom _) hdata
    · exact ht.mono fun _ he => hg.generated.subset he
  · refine Pair.set_forall_peer
      (R := fun _ (x y : Endpoint PublicKey) => Delivered x.stream y.stream) ?_ ?_
    · exact Handles.delivered hh (h.consistent _) (h.delivered _) hack
    · exact hd.receiver hg

theorem step_linked (s : Session PublicKey) (a : Action) (h : s.Linked) : (s.step a).Linked := by
  cases a with
  | act d a =>
    refine h.set ((Endpoint.works_act (s.get d) a).quietly.handles
      (silent (s.get d).stream.localAddress)) (Nat.zero_le _) fun hm => ?_
    rw [silent, messageType_status] at hm
    cases hm
  | deliver d k =>
    rw [step]
    split
    · exact h
    · next p hp =>
      rw [Endpoint.receive]
      split
      · rw [Pair.set_get]
        exact h
      · next m hm =>
        have hv := (h.consistent d.other).vouches p (List.mem_of_getElem? hp)
        obtain ⟨-, hack, hdata⟩ := decodeMessage_vouched hv hm
        exact h.set (convertRegistered_handles _ _ _ _) hack hdata

/-- **Every state of every session satisfies the invariant.** -/
theorem run_linked {s : Session PublicKey} (h : s.Paired) (as : List Action) :
    (Runs.run step s as).Linked :=
  Runs.invariant step_linked h.linked as

/-- The history of either stream only grows. -/
theorem step_grows (s : Session PublicKey) (a : Action) (h : s.Linked) (d : Side) :
    Grows (s.get d).stream ((s.step a).get d).stream := by
  cases a with
  | act x a =>
    rw [step]
    rcases Side.eq_or_eq_other x d with rfl | rfl
    · rw [Pair.get_set_self]
      exact (Handles.consistent ((Endpoint.works_act _ a).quietly.handles
        (silent (s.get d).stream.localAddress)) (h.consistent d)).1
    · rw [Pair.get_set_other]; exact Grows.refl _
  | deliver x k =>
    rw [step]
    split
    · exact Grows.refl _
    · next p hp =>
      rcases Side.eq_or_eq_other x d with rfl | rfl
      · rw [Pair.get_set_self, Endpoint.receive]
        split
        · exact Grows.refl _
        · exact (Handles.consistent (convertRegistered_handles _ _ _ _) (h.consistent d)).1
      · rw [Pair.get_set_other]; exact Grows.refl _

theorem run_grows {s : Session PublicKey} (h : s.Linked) (as : List Action) (d : Side) :
    Grows (s.get d).stream ((Runs.run step s as).get d).stream := by
  induction as generalizing s with
  | nil => exact Grows.refl _
  | cons a as ih => exact (step_grows s a h d).trans (ih (step_linked s a h))

/-! ## Exactly once, in order -/

omit [Identity PublicKey] in
/-- In one direction, below the wrap: the receiver has appended the sender's first
messages. -/
theorem Linked.appended_eq {s : Session PublicKey} (h : s.Linked) (d : Side)
    (hlt : (s.get d.other).stream.outbound.generated.length < 2 ^ 32) :
    (s.get d).stream.inbound.receivedSeq ≤
        (s.get d.other).stream.outbound.generated.length ∧
    (s.get d).stream.inbound.appended =
      ((s.get d.other).stream.outbound.generated.take
        (s.get d).stream.inbound.receivedSeq).map Prod.snd :=
  (h.takenFrom d).appended_eq (h.consistent d).counted fun _ _ he =>
    (h.consistent d.other).numbered.getElem_of_mem hlt he

/-- **Exactly once, in order**: in every state of every session, what a stream has
appended to its inbound buffer is the data of the other's messages `1, 2, …,
receivedSeq`, and this cursor never falls and never passes the last number given. -/
theorem exactly_once {s : Session PublicKey} (h : s.Paired) (as bs : List Action) (d : Side)
    (hfew : Few (Runs.run step s as)) :
    let receiver := ((Runs.run step s as).get d).stream.inbound
    let sender := ((Runs.run step s as).get d.other).stream.outbound
    sender.generated.map Prod.fst = List.range' 1 sender.lastSeq ∧
    receiver.appended.flatten =
      ((sender.generated.take receiver.receivedSeq).map Prod.snd).flatten ∧
    receiver.receivedSeq ≤ sender.lastSeq ∧
    receiver.receivedSeq ≤
      ((Runs.run step s (as ++ bs)).get d).stream.inbound.receivedSeq := by
  have hl := run_linked h as
  have hlt : ((Runs.run step s as).get d.other).stream.outbound.generated.length < 2 ^ 32 :=
    Nat.lt_of_lt_of_le (hfew d.other) (by omega)
  obtain ⟨hle, happ⟩ := hl.appended_eq d hlt
  have hnum := (hl.consistent d.other).numbered
  refine ⟨hnum.map_fst hlt, by rw [happ], ?_, ?_⟩
  · rw [hnum.lastSeq_of_lt hlt]
    exact hle
  · rw [Runs.run_append]
    exact (run_grows hl bs d).receivedSeq

end

/-! ## A session to run -/

section
open Sample

/-- The stream of node `a` for node `b`, which knows `b`'s key and id. -/
def sampleStream (a b : UInt8) (myStreamId remoteStreamId : Nat) (status : StreamStatus) :
    VeilidStream Sample.PublicKey :=
  (((VeilidStream.new (addressOf a) (addressOf b) (.nodeId (keyOf b)) 0 (keypairOf a) myStreamId
    0).updateRemotePublicKey ⟨keyOf b⟩).updateRemoteStreamId remoteStreamId).updateStatus status

/-- Two active streams, paired with each other. -/
def sample : Session Sample.PublicKey where
  left := ⟨sampleStream 1 2 10 11 .active, some (addressOf 1), 0, [], []⟩
  right := ⟨sampleStream 2 1 11 10 .active, some (addressOf 2), 0, [], []⟩

theorem sample_paired : Paired sample where
  inbound d := by cases d <;> exact ⟨0, rfl⟩
  outbound d := by cases d <;> exact ⟨0, rfl⟩
  sent d := by cases d <;> rfl
  myStreamId d := by cases d <;> decide
  remoteStreamId d := by cases d <;> exact .inr rfl
  accepted d := by cases d <;> rfl
  returned d := by cases d <;> rfl

/-- Two writes become two messages, which arrive in the wrong order and twice. -/
def sampleRun : List Action :=
  [.act .left (.write [7, 8, 9]), .act .left .generate, .act .left (.write [5]),
    .act .left .generate, .act .left .send, .deliver .right 1, .deliver .right 0,
    .deliver .right 0, .deliver .right 1, .act .right (.read 0 16)]

theorem sample_few : Few (Runs.run step sample sampleRun) := by
  intro d
  cases d <;> decide

theorem exactly_once_sample :
    let receiver := ((Runs.run step sample sampleRun).get .right).stream.inbound
    let sender := ((Runs.run step sample sampleRun).get (Side.other .right)).stream.outbound
    sender.generated.map Prod.fst = List.range' 1 sender.lastSeq ∧
    receiver.appended.flatten =
      ((sender.generated.take receiver.receivedSeq).map Prod.snd).flatten ∧
    receiver.receivedSeq ≤ sender.lastSeq ∧
    receiver.receivedSeq ≤
      ((Runs.run step sample (sampleRun ++ [])).get .right).stream.inbound.receivedSeq :=
  exactly_once sample_paired sampleRun [] .right sample_few

end

section
variable {PublicKey : Type} [KeyCodec] [Identity PublicKey]

/-- **Nothing undelivered is discarded**: in every state of every session, no stream
has an acknowledgement above what the other has received, and every message
above that is still queued, with the data it was generated with. -/
theorem nothing_discarded {s : Session PublicKey} (h : s.Paired) (as : List Action) (d : Side)
    (hfew : Few (Runs.run step s as)) :
    let sender := ((Runs.run step s as).get d).stream.outbound
    let receiver := ((Runs.run step s as).get d.other).stream.inbound
    sender.deliveredSeq ≤ receiver.receivedSeq ∧
    receiver.receivedSeq ≤ sender.lastSeq ∧
    ∀ k, receiver.receivedSeq < k → k ≤ sender.lastSeq →
      ∃ m, sender.messageQueue.lookup k = some m ∧ m.seq = k ∧
        sender.generated[k - 1]? = some (k, m.data) := by
  have hl := run_linked h as
  have hlt : ((Runs.run step s as).get d).stream.outbound.generated.length < 2 ^ 32 :=
    Nat.lt_of_lt_of_le (hfew d) (by omega)
  have hle := hl.appended_eq d.other (by rw [Side.other_other]; exact hlt)
  rw [Side.other_other] at hle
  have hnum := (hl.consistent d).numbered
  intro sender receiver
  have hlt : sender.generated.length < 2 ^ 32 := hlt
  have hlast : sender.lastSeq = sender.generated.length := hnum.lastSeq_of_lt hlt
  refine ⟨(hl.delivered d).deliveredSeq_le, by rw [hlast]; exact hle.1, fun k hk hkl => ?_⟩
  have hidx : k - 1 < sender.generated.length := by omega
  have hget := List.getElem?_eq_getElem hidx
  have hseq := hnum.seq_eq _ _ hget
  rw [Nat.mod_eq_of_lt (by omega), Nat.sub_add_cancel (by omega)] at hseq
  have hent := (hl.delivered d).kept hlt _ (List.getElem_mem hidx) (by rw [hseq]; exact hk)
  rw [hseq] at hent
  obtain ⟨m, hm, heq⟩ := Option.map_eq_some_iff.mp hent
  refine ⟨m, hm, ?_, ?_⟩
  · rw [← hseq, ← heq]
  · rw [hget, ← heq]
    have : m.seq = k := by rw [← hseq, ← heq]
    rw [this]

end

open Sample in
/-- Of two messages the first arrives, and the other side says so with data of its own. -/
def sampleAcknowledged : List Action :=
  [.act .left (.write [7]), .act .left .generate, .act .left (.write [5]), .act .left .generate,
    .act .left .send, .deliver .right 1, .act .right (.write [1]), .act .right .generate,
    .act .right .send, .deliver .left 0]

open Sample in
theorem nothing_discarded_sample :
    let sender := ((Runs.run step sample sampleAcknowledged).get .left).stream.outbound
    let receiver :=
      ((Runs.run step sample sampleAcknowledged).get (Side.other .left)).stream.inbound
    sender.deliveredSeq ≤ receiver.receivedSeq ∧
    receiver.receivedSeq ≤ sender.lastSeq ∧
    ∀ k, receiver.receivedSeq < k → k ≤ sender.lastSeq →
      ∃ m, sender.messageQueue.lookup k = some m ∧ m.seq = k ∧
        sender.generated[k - 1]? = some (k, m.data) :=
  nothing_discarded sample_paired sampleAcknowledged .left fun d => by cases d <;> decide

open Sample in
example : ((Runs.run step sample sampleAcknowledged).get .left).stream.outbound.deliveredSeq = 1 ∧
    ((Runs.run step sample sampleAcknowledged).get .left).stream.outbound.messageQueue.keys =
      [2] := by
  decide

section
variable {PublicKey : Type} [KeyCodec] [Identity PublicKey]

/-! ## The channel a direction is -/

/-- The messages to `d`, as a channel: what was generated for it, and how much of it
was received. -/
def channel (s : Session PublicKey) (d : Side)
    (h : (s.get d).stream.inbound.receivedSeq ≤
      (s.get d.other).stream.outbound.generated.length) : Channel Bytes where
  log := (s.get d.other).stream.outbound.generated.map Prod.snd
  cursor := (s.get d).stream.inbound.receivedSeq
  cursor_le := by rw [List.length_map]; exact h

/-- **Each direction of a session refines a first-in first-out channel of messages**: a
later state is reached from an earlier one by putting messages in and taking them
out, and what has come out is what was appended. -/
theorem refines_channel {s : Session PublicKey} (h : s.Paired) (as bs : List Action) (d : Side)
    (hfew : Few (Runs.run step s (as ++ bs))) :
    ∃ hc hc', Channel.Reaches (channel (Runs.run step s as) d hc)
        (channel (Runs.run step s (as ++ bs)) d hc') ∧
      (channel (Runs.run step s (as ++ bs)) d hc').delivered =
        ((Runs.run step s (as ++ bs)).get d).stream.inbound.appended := by
  have hg := run_grows (run_linked h as) bs
  rw [← Runs.run_append] at hg
  have hlt : ((Runs.run step s (as ++ bs)).get d.other).stream.outbound.generated.length
      < 2 ^ 32 := Nat.lt_of_lt_of_le (hfew d.other) (by omega)
  have hlt' := Nat.lt_of_le_of_lt (hg d.other).generated.length_le hlt
  obtain ⟨hc, -⟩ := (run_linked h as).appended_eq d hlt'
  obtain ⟨hc', happ⟩ := (run_linked h (as ++ bs)).appended_eq d hlt
  refine ⟨hc, hc', Channel.reaches_iff_le.mpr ⟨?_, (hg d).receivedSeq⟩, ?_⟩
  · exact (hg d.other).generated.map Prod.snd
  · rw [happ, List.map_take]
    rfl

/-! ## No message of a session replaces a stream -/

/-- Each stream knows the other's id or none. -/
def IdsAgree (s : Session PublicKey) : Prop :=
  ∀ d, (s.get d).stream.myStreamId ≠ 0 ∧ ((s.get d).stream.remoteStreamId = 0 ∨
    (s.get d).stream.remoteStreamId = (s.get d.other).stream.myStreamId)

theorem step_idsAgree (s : Session PublicKey) (a : Action) (h : s.Linked) (hi : s.IdsAgree) :
    (s.step a).IdsAgree := by
  have hmy := fun d => (step_grows s a h d).myStreamId
  intro d
  rw [hmy d, hmy d.other]
  refine ⟨(hi d).1, ?_⟩
  cases a with
  | act x a =>
    rw [step]
    rcases Side.eq_or_eq_other x d with rfl | rfl
    · rw [Pair.get_set_self, (works_handshake (Endpoint.works_act _ a)).remoteStreamId]
      exact (hi d).2
    · rw [Pair.get_set_other]; exact (hi x.other).2
  | deliver x k =>
    rw [step]
    split
    · exact (hi d).2
    · next p hp =>
      rcases Side.eq_or_eq_other x d with rfl | rfl
      · rw [Pair.get_set_self, Endpoint.receive]
        split
        · exact (hi d).2
        · next m hm =>
          have hv := (h.consistent d.other).vouches p (List.mem_of_getElem? hp)
          obtain ⟨hid, -, -⟩ := decodeMessage_vouched hv hm
          rcases convertRegistered_remoteStreamId (s.get d).stream (s.get d).localAddress
            (s.get d).now m with hr | hr
          · rw [hr]; exact (hi d).2
          · right; rw [hr]; exact hid
      · rw [Pair.get_set_other]; exact (hi x.other).2

/-- **No message of a session replaces a stream**: in every state of every session, no
payload either stream has sent makes the other's node create a new stream. -/
theorem never_superseded {s : Session PublicKey} (h : s.Paired) (as : List Action) (d : Side)
    {p : Payload} (hp : p ∈ ((Runs.run step s as).get d.other).stream.sent) {m : AppMessage}
    (hm : decodeMessage p = some m) :
    (((Runs.run step s as).get d).stream.convertRegistered
      ((Runs.run step s as).get d).localAddress ((Runs.run step s as).get d).now m).2 ≠
        .create := by
  have hi : Linked s ∧ IdsAgree s := ⟨h.linked, fun d => ⟨h.myStreamId d, h.remoteStreamId d⟩⟩
  have hstep : ∀ (s : Session PublicKey) (a : Action), Linked s ∧ IdsAgree s →
      Linked (s.step a) ∧ IdsAgree (s.step a) :=
    fun s a h => ⟨step_linked s a h.1, step_idsAgree s a h.1 h.2⟩
  obtain ⟨hl, hi⟩ := Runs.invariant hstep hi as
  obtain ⟨hid, -, -⟩ := decodeMessage_vouched ((hl.consistent d.other).vouches p hp) hm
  intro hc
  obtain ⟨-, hlt⟩ := convertRegistered_create hc
  rcases (hi d).2 with h0 | hr
  · rw [adoptRemoteStreamId, if_pos h0] at hlt
    exact Nat.lt_irrefl _ hlt
  · rw [adoptRemoteStreamId, if_neg (by rw [hr]; exact (hi d.other).1), hr, hid] at hlt
    exact Nat.lt_irrefl _ hlt

end

end Session
end VeilidTransport
