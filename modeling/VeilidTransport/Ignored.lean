import VeilidTransport.Redial

/-!
# Messages that are ignored

For each status of a stream the state machine ignores some types of messages, and it
ignores whatever comes from an earlier stream of the remote: `Ignores` is that table, on
the stream as the message finds it.

The table is consulted late.  A stream that has not heard of its remote's id takes the
id of any message before, so an ignored message leaves the node alone exactly if there
is no id to take (`ignored_unchanged_iff`).  An id taken from a message of an earlier
stream of the remote is a wrong one, and with a wrong one that is too high the genuine
answer of the remote is stale.
-/

namespace VeilidTransport

namespace VeilidStream
variable {PublicKey : Type}

/-- **The messages a stream ignores**, by its status. -/
inductive Ignores (s : VeilidStream PublicKey) (m : AppMessage) : Prop where
  | stale (h : Stale s m)
  | dial (hs : s.status = .dial)
      (hm : messageType m.data = .status ∨ messageType m.data = .data ∨ messageType m.data = .ping)
  | listen (hs : s.status = .listen)
      (hm : messageType m.data = .listen ∨ messageType m.data = .status ∨
        messageType m.data = .ping)
  | listenData (hs : s.status = .listen) (hm : messageType m.data = .data)
      (hid : m.streamId ≠ s.remoteStreamId)
  | active (hs : s.status = .active)
      (hm : messageType m.data = .listen ∨ messageType m.data = .ping)
  | activeDial (hs : s.status = .active) (hm : messageType m.data = .dial)
      (hid : m.streamId ≤ s.remoteStreamId)
  | expired (hs : s.status = .expired)

variable [KeyCodec] [Identity PublicKey]

/-- Once the id of the message is known, nothing is done about an ignored message. -/
theorem convertRegistered_ignored {s : VeilidStream PublicKey} {m : AppMessage}
    (h : s.Ignores m) (hid : s.remoteStreamId = 0 → m.streamId = 0)
    (localAddress : Option Address) (now : Instant) :
    s.convertRegistered localAddress now m = (s, .pending) ∨
    s.convertRegistered localAddress now m = (s, .readyNone) := by
  have hadopt := (adoptRemoteStreamId_eq_self_iff s m.streamId).mpr hid
  cases localAddress with
  | none =>
    rw [convertRegistered_none, hadopt]
    exact .inr rfl
  | some l =>
    refine .inl ?_
    unfold convertRegistered
    simp only [hadopt]
    split
    · rfl
    · next hfresh =>
      cases h with
      | stale h => exact absurd h hfresh
      | dial hs hm => rcases hm with hm | hm | hm <;> simp only [hs, convertDial, hm]
      | listen hs hm => rcases hm with hm | hm | hm <;> simp only [hs, convertListen, hm]
      | listenData hs hm hne =>
        simp only [hs, convertListen, hm]
        rw [if_neg fun hsame => hne hsame.1.symm]
      | active hs hm => rcases hm with hm | hm <;> simp only [hs, convertActive, hm]
      | activeDial hs hm hle =>
        simp only [hs, convertActive, hm]
        rw [if_neg (Nat.not_lt.mpr hle)]
      | expired hs => simp only [hs]

end VeilidStream

namespace Transport
open VeilidStream
variable {PublicKey : Type} [KeyCodec] [Identity PublicKey]

/-- A message that is ignored, with no id to take, changes nothing of the node. -/
theorem update_ignored {n : Transport PublicKey} {packet : Payload} {m : AppMessage}
    (hm : decodeMessage packet = some m) {h : Handle}
    (hstream : n.streams.lookup m.remoteAddress = some h) {s : VeilidStream PublicKey}
    (hs : n.heap[h]? = some s) (hignored : s.Ignores m)
    (hid : s.remoteStreamId = 0 → m.streamId = 0) : n.update packet = n := by
  have hset : n.heap.set h s = n.heap := by
    obtain ⟨hlt, rfl⟩ := List.getElem?_eq_some_iff.mp hs
    exact List.set_getElem_self hlt
  rw [update_registered hm hstream hs]
  rcases convertRegistered_ignored hignored hid n.localAddress n.now with hc | hc
  · rw [hc, hset]
    rfl
  · rw [hc, hset]
    rfl

/-- **When an ignored message changes nothing** of its stream and of the map: exactly when
the stream knows its remote's id, or the message's id is zero. -/
theorem ignored_unchanged_iff {n : Transport PublicKey} {packet : Payload} {m : AppMessage}
    (hm : decodeMessage packet = some m) {h : Handle}
    (hstream : n.streams.lookup m.remoteAddress = some h) {s : VeilidStream PublicKey}
    (hs : n.heap[h]? = some s) (hignored : s.Ignores m) :
    ((n.update packet).heap[h]? = some s ∧ (n.update packet).streams = n.streams) ↔
      (s.remoteStreamId = 0 → m.streamId = 0) := by
  constructor
  · rintro ⟨hheap, -⟩ h0
    have hadopts := convertRegistered_adopts h0 n.localAddress n.now m
    have hlt := (List.getElem?_eq_some_iff.mp hs).1
    rw [update_registered hm hstream hs, (follow_streams _ _ _ _).2.1,
      List.getElem?_set_self hlt] at hheap
    rw [Option.some.inj hheap, h0] at hadopts
    exact hadopts.symm
  · intro hid
    rw [update_ignored hm hstream hs hignored hid]
    exact ⟨hs, rfl⟩

end Transport

namespace Transport
open Sample

/-- Node 1 has dialed node 2 and waits for the answer. -/
def sampleDialed : Transport Sample.PublicKey :=
  Runs.run step (sampleNode 1) [.dial (addressOf 2), .resume 0 (some (.nodeId (keyOf 2))) 10]

/-- A packet of node 2's stream with this id. -/
def samplePacket (streamId : Nat) (data : Bytes) : Payload :=
  (sampleDialer streamId).encode 0 0 data

/-- The message of that packet. -/
def sampleMessage (streamId : Nat) (data : Bytes) : AppMessage :=
  ⟨0, 0, streamId, addressOf 2, data, (samplePacket streamId data).signature⟩

theorem ignored_unchanged_sample :
    let n := sampleEstablished
    let s := n.heap.head (by decide)
    ((n.update (samplePacket 19 [1])).heap[0]? = some s ∧
        (n.update (samplePacket 19 [1])).streams = n.streams) ↔
      (s.remoteStreamId = 0 → (sampleMessage 19 [1]).streamId = 0) := by
  intro n s
  have hm : VeilidStream.decodeMessage (samplePacket 19 [1]) = some (sampleMessage 19 [1]) := rfl
  have hstream : n.streams.lookup (sampleMessage 19 [1]).remoteAddress = some 0 := by decide
  have hs : n.heap[0]? = some s := rfl
  exact ignored_unchanged_iff hm hstream hs (.stale (by decide))

/-- **An ignored message leaves its id behind**: a `STATUS` of the remote's stream 30 to a
stream that dials.  The `LISTEN` of the remote's stream 20, which the stream waits for,
is stale from then on. -/
theorem ignored_adopted :
    let n := sampleDialed
    let n' := n.update (samplePacket 30 statusWord)
    let answer := samplePacket 20 (sampleDialer 20).listenData
    n.streams.lookup (addressOf 2) = some 0 ∧
    (∃ s, n.heap[0]? = some s ∧ s.Ignores (sampleMessage 30 statusWord) ∧
      n'.heap[0]? ≠ some s) ∧
    (n.update answer).heap[0]?.map (·.status) = some .active ∧
    (n'.update answer).heap[0]?.map (·.status) = some .dial := by
  intro n n' answer
  have hbefore : n.heap[0]?.map (fun s => (s.status, s.remoteStreamId)) = some (.dial, 0) := by
    decide
  have hafter : n'.heap[0]?.map (·.remoteStreamId) = some 30 := by decide
  obtain ⟨s, hs, heq⟩ := Option.map_eq_some_iff.mp hbefore
  obtain ⟨hstatus, hid⟩ := Prod.mk.inj heq
  refine ⟨by decide, ⟨s, hs, .dial hstatus (.inl (by decide)), fun hs' => ?_⟩, by decide, by decide⟩
  rw [hs', Option.map_some, hid] at hafter
  cases hafter

end Transport
end VeilidTransport
