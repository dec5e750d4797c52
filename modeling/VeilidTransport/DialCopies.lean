import VeilidTransport.Transport
import VeilidTransport.Sample
import VeilidTransport.Foundation.Runs

/-!
# Copies of one dial

Heartbeats re-send a dial, so its copies are handled by several futures of the node.
Each looks its address up, waits for the target of the address, and only then puts
a new stream into the map.

`dial_once` holds for the interleavings in which no copy finds the map empty while an
earlier one still waits; `dial_twice` is an interleaving without that, in which two
copies create two streams and announce both.
-/

namespace VeilidTransport
namespace Transport
variable {PublicKey : Type} [KeyCodec] [Identity PublicKey]

inductive CopyAction where
  /-- One more copy of the packet arrives. -/
  | copy
  | resume (i : Nat) (target : Option Target) (epochSecs : Nat)

def copyStep (packet : Payload) (n : Transport PublicKey) : CopyAction → Transport PublicKey
  | .copy => n.update packet
  | .resume i target epochSecs => n.resume i target epochSecs

/-- A future on its way to create a stream. -/
def creating : Task → Bool
  | .create _ _ _ _ => true
  | _ => false

/-- A copy is looked up only once the copies before it have put their stream into the
map, or have failed. -/
def NoneCreating (remoteAddress : Address) (n : Transport PublicKey) : CopyAction → Prop
  | .copy => n.streams.lookup remoteAddress = none → ∀ t ∈ n.tasks, creating t = false
  | .resume _ _ _ => True

instance (remoteAddress : Address) (n : Transport PublicKey) :
    ∀ a, Decidable (NoneCreating remoteAddress n a)
  | .copy => inferInstanceAs
      (Decidable (n.streams.lookup remoteAddress = none → ∀ t ∈ n.tasks, creating t = false))
  | .resume _ _ _ => inferInstanceAs (Decidable True)

/-- How far the copies have come since the node was `n₀`: before the one stream and its
one announcement, or after. -/
inductive Progress (remoteAddress : Address) (n₀ n : Transport PublicKey) : Prop where
  | waiting (hstream : n.streams.lookup remoteAddress = none)
      (hheap : n.heap.length = n₀.heap.length) (hincoming : n.incoming = n₀.incoming)
      (htasks : n.tasks = [] ∨
        ∃ localAddress id data, n.tasks = [.create localAddress remoteAddress id data])
  | created (s : VeilidStream PublicKey)
      (hstream : n.streams.lookup remoteAddress = some n₀.heap.length)
      (hheap : n.heap.length = n₀.heap.length + 1) (hs : n.heap[n₀.heap.length]? = some s)
      (hstatus : s.status = .listen)
      (htasks : n.tasks = [.activate n₀.heap.length] ∧ n.incoming = n₀.incoming ∨
        n.tasks = [] ∧ n.incoming = n₀.incoming ++ [n₀.heap.length])

/-- A stream that listens answers a dial and goes on listening. -/
theorem convertRegistered_relisten {s : VeilidStream PublicKey} (hs : s.status = .listen)
    {m : AppMessage} (hm : messageType m.data = .dial) (localAddress : Option Address)
    (now : Instant) :
    (s.convertRegistered localAddress now m).1.status = .listen ∧
    ((s.convertRegistered localAddress now m).2 = .pending ∨
      (s.convertRegistered localAddress now m).2 = .readyNone) := by
  obtain ⟨id, -, hadopt⟩ := VeilidStream.adoptRemoteStreamId_eq s m.streamId
  have hs' : (s.adoptRemoteStreamId m.streamId).status = .listen := by rw [hadopt]; exact hs
  cases localAddress with
  | none =>
    rw [VeilidStream.convertRegistered_none]
    exact ⟨hs', .inr rfl⟩
  | some localAddress =>
    rcases VeilidStream.convertRegistered_handled s localAddress now m with ⟨-, h⟩ | ⟨-, h⟩
    · rw [h]
      exact ⟨hs', .inl rfl⟩
    · generalize s.convertRegistered (some localAddress) now m = r at h ⊢
      obtain ⟨s', next⟩ := r
      simp only at h ⊢
      cases h with
      | ignored => exact ⟨hs', .inl rfl⟩
      | relisten => exact ⟨hs', .inl rfl⟩
      | redial hd => rw [hs'] at hd; cases hd
      | tied hd => rw [hs'] at hd; cases hd
      | switched hd => rw [hs'] at hd; cases hd
      | connected hd => rw [hs'] at hd; cases hd
      | received _ hd => rw [hm] at hd; cases hd
      | acknowledged hd => rw [hs'] at hd; cases hd
      | superseded hd => rw [hs'] at hd; cases hd

theorem Progress.copy {packet : Payload} {m : AppMessage} {n₀ n : Transport PublicKey}
    (h : Progress m.remoteAddress n₀ n) (hm : VeilidStream.decodeMessage packet = some m)
    (hdial : messageType m.data = .dial) (hok : NoneCreating m.remoteAddress n .copy) :
    Progress m.remoteAddress n₀ (n.update packet) := by
  have hu := update_updated n packet
  generalize n.update packet = n' at hu
  cases hu with
  | ignored => exact h
  | dialed m' localAddress hm' hstream' _ _ =>
    obtain rfl : m = m' := Option.some.inj (hm.symm.trans hm')
    cases h with
    | created s hstream => rw [hstream'] at hstream; cases hstream
    | waiting hstream hheap hincoming htasks =>
      rcases htasks with htasks | ⟨l, id, data, htasks⟩
      · refine .waiting hstream hheap hincoming (.inr ⟨localAddress, m.streamId, m.data, ?_⟩)
        rw [spawn, htasks]
        rfl
      · -- an earlier copy is still waiting: excluded
        have := hok hstream (.create l m.remoteAddress id data) (by rw [htasks]; simp)
        cases this
  | handled m' g s hm' hstream' hs =>
    obtain rfl : m = m' := Option.some.inj (hm.symm.trans hm')
    cases h with
    | waiting hstream => rw [hstream] at hstream'; cases hstream'
    | created s' hstream hheap hs' hstatus htasks =>
      rw [hstream] at hstream'
      obtain rfl := Option.some.inj hstream'
      rw [hs] at hs'
      obtain rfl := Option.some.inj hs'
      obtain ⟨hlisten, hnext⟩ := convertRegistered_relisten hstatus hdial n.localAddress n.now
      have hfollow : ∀ k : Transport PublicKey, k.follow n₀.heap.length m
          (s.convertRegistered n.localAddress n.now m).2 = k := by
        intro k
        rcases hnext with hnext | hnext <;> rw [hnext] <;> rfl
      rw [hfollow]
      refine .created _ hstream (by rw [List.length_set]; exact hheap) ?_ hlisten htasks
      rw [List.getElem?_set_self (by omega)]

theorem Progress.resume {remoteAddress : Address} {n₀ n : Transport PublicKey}
    (h : Progress remoteAddress n₀ n) (i : Nat) (target : Option Target) (epochSecs : Nat) :
    Progress remoteAddress n₀ (n.resume i target epochSecs) := by
  have hone : ∀ {t u : Task}, n.tasks = [t] → n.tasks[i]? = some u → u = t ∧
      n.tasks.eraseIdx i = [] := by
    intro t u ht hu
    rw [ht] at hu ⊢
    cases i with
    | zero => exact ⟨(Option.some.inj hu).symm, rfl⟩
    | succ i => cases hu
  have hr := resume_resumed n i target epochSecs
  generalize n.resume i target epochSecs = n' at hr
  cases h with
  | waiting hstream hheap hincoming htasks =>
    rcases htasks with htasks | ⟨l, id, data, htasks⟩
    · -- nothing to continue
      have hidle : ∀ t : Task, n.tasks[i]? ≠ some t := by rw [htasks]; simp
      cases hr with
      | idle => exact .waiting hstream hheap hincoming (.inl htasks)
      | failed task hi => exact absurd hi (hidle _)
      | activated g hi => exact absurd hi (hidle _)
      | dialed _ _ _ hi => exact absurd hi (hidle _)
      | created _ _ _ _ _ hi => exact absurd hi (hidle _)
    · cases hr with
      | idle => exact .waiting hstream hheap hincoming (.inr ⟨l, id, data, htasks⟩)
      | failed task hi => exact .waiting hstream hheap hincoming (.inl (hone htasks hi).2)
      | activated g hi => cases (hone htasks hi).1
      | dialed _ _ _ hi => cases (hone htasks hi).1
      | created l' a' id' data' remoteTarget hi =>
        obtain ⟨heq, hnil⟩ := hone htasks hi
        cases heq
        refine .created (n.createStream l remoteAddress remoteTarget id data epochSecs)
          ?_ ?_ ?_ rfl (.inl ⟨?_, hincoming⟩)
        · show (n.streams.insert remoteAddress n.heap.length).lookup remoteAddress = _
          rw [KeyedMap.lookup_insert, if_pos rfl, hheap]
        · show (n.heap ++ [_]).length = _
          rw [List.length_append, List.length_singleton, hheap]
        · show (n.heap ++ [_])[n₀.heap.length]? = _
          rw [← hheap, List.getElem?_concat_length]
        · show n.tasks.eraseIdx i ++ [Task.activate n.heap.length] = _
          rw [hnil, hheap]
          rfl
  | created s hstream hheap hs hstatus htasks =>
    rcases htasks with ⟨htasks, hincoming⟩ | ⟨htasks, hincoming⟩
    · cases hr with
      | idle => exact .created s hstream hheap hs hstatus (.inl ⟨htasks, hincoming⟩)
      | failed task hi htask => exact absurd (hone htasks hi).1 (htask _)
      | activated g hi =>
        obtain ⟨heq, hnil⟩ := hone htasks hi
        cases heq
        refine .created s hstream hheap hs hstatus (.inr ⟨hnil, ?_⟩)
        show n.incoming ++ [n₀.heap.length] = _
        rw [hincoming]
      | dialed _ _ _ hi => cases (hone htasks hi).1
      | created _ _ _ _ _ hi => cases (hone htasks hi).1
    · have hidle : ∀ t : Task, n.tasks[i]? ≠ some t := by rw [htasks]; simp
      cases hr with
      | idle => exact .created s hstream hheap hs hstatus (.inr ⟨htasks, hincoming⟩)
      | failed task hi => exact absurd hi (hidle _)
      | activated g hi => exact absurd hi (hidle _)
      | dialed _ _ _ hi => exact absurd hi (hidle _)
      | created _ _ _ _ _ hi => exact absurd hi (hidle _)

/-- **A dial is handled once however its copies interleave**, as long as no copy is
looked up while an earlier one waits for the target: at most one stream is created, at
most one is announced, and the one announced is registered. -/
theorem dial_once {n₀ : Transport PublicKey} {packet : Payload} {m : AppMessage}
    (hm : VeilidStream.decodeMessage packet = some m) (hdial : messageType m.data = .dial)
    (hstream : n₀.streams.lookup m.remoteAddress = none) (htasks : n₀.tasks = [])
    {as : List CopyAction}
    (hok : Runs.Along (copyStep packet) (NoneCreating m.remoteAddress) n₀ as) :
    let n := Runs.run (copyStep packet) n₀ as
    n.heap.length ≤ n₀.heap.length + 1 ∧ n.incoming.length ≤ n₀.incoming.length + 1 ∧
    ∀ h ∈ n.incoming.drop n₀.incoming.length, n.streams.lookup m.remoteAddress = some h := by
  have hstep : ∀ (n : Transport PublicKey) (a : CopyAction), NoneCreating m.remoteAddress n a →
      Progress m.remoteAddress n₀ n → Progress m.remoteAddress n₀ (copyStep packet n a) := by
    intro n a hok h
    cases a with
    | copy => exact h.copy hm hdial hok
    | resume i target epochSecs => exact h.resume i target epochSecs
  have h := Runs.invariant_along hstep (.waiting hstream rfl rfl (.inl htasks)) hok
  intro n
  have h : Progress m.remoteAddress n₀ n := h
  cases h with
  | waiting _ hheap hincoming =>
    refine ⟨by omega, by rw [hincoming]; omega, fun g hg => ?_⟩
    rw [hincoming, List.drop_length] at hg
    cases hg
  | created s hstream hheap _ _ htasks =>
    rcases htasks with ⟨-, hincoming⟩ | ⟨-, hincoming⟩
    · refine ⟨by omega, by rw [hincoming]; omega, fun g hg => ?_⟩
      rw [hincoming, List.drop_length] at hg
      cases hg
    · refine ⟨by omega, by rw [hincoming, List.length_append, List.length_singleton], ?_⟩
      intro g hg
      rw [hincoming, List.drop_left] at hg
      obtain rfl := List.mem_singleton.mp hg
      exact hstream

end Transport

namespace Transport
open Sample

/-- A node with an address and no stream. -/
def sampleNode (b : UInt8) : Transport Sample.PublicKey :=
  Transport.new (some (addressOf b)) (keypairOf b) 0

/-- The dial of node `b` to node `c`, for a stream with this id. -/
def sampleDial (b c : UInt8) (myStreamId : Nat) : Payload :=
  let s : VeilidStream Sample.PublicKey := VeilidStream.new (addressOf b) (addressOf c)
    (.nodeId (keyOf c)) 0 (keypairOf b) myStreamId 0
  s.encode 0 0 s.dialData

/-- The message of that dial. -/
def sampleDialMessage (b c : UInt8) (myStreamId : Nat) : AppMessage :=
  ⟨0, 0, myStreamId, addressOf b, (sampleDial b c myStreamId).data,
    (sampleDial b c myStreamId).signature⟩

/-- The second copy comes when the stream is there. -/
def sampleCopies : List CopyAction :=
  [.copy, .resume 0 (some (.nodeId (keyOf 2))) 10, .copy, .resume 0 none 11, .copy]

theorem dial_once_sample :
    let n := Runs.run (copyStep (sampleDial 2 1 20)) (sampleNode 1) sampleCopies
    n.heap.length ≤ (sampleNode 1).heap.length + 1 ∧
    n.incoming.length ≤ (sampleNode 1).incoming.length + 1 ∧
    ∀ h ∈ n.incoming.drop (sampleNode 1).incoming.length,
      n.streams.lookup (sampleDialMessage 2 1 20).remoteAddress = some h :=
  dial_once (m := sampleDialMessage 2 1 20) rfl (by decide) rfl rfl (by decide)

/-- **Two copies of a dial can create two streams**, and announce both, of which only
the second is registered: both are looked up before either is inserted. -/
theorem dial_twice :
    let n := Runs.run (copyStep (sampleDial 2 1 20)) (sampleNode 1)
      [.copy, .copy, .resume 0 (some (.nodeId (keyOf 2))) 10,
        .resume 0 (some (.nodeId (keyOf 2))) 11, .resume 0 none 12, .resume 0 none 12]
    (n.heap.map fun s => (s.remoteAddress, s.remoteStreamId)) =
        [(addressOf 2, 20), (addressOf 2, 20)] ∧
      n.incoming = [0, 1] ∧ n.streams.lookup (addressOf 2) = some 1 := by
  decide

end Transport
end VeilidTransport
