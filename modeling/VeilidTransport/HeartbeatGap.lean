import VeilidTransport.Beating
import VeilidTransport.Redial

/-!
# The gap in a heartbeat

Between its two passes a heartbeat has let go of the map, and what it deletes later is
whatever is registered for the addresses of its list.

A stream that is put under a listed address in the gap is deleted in place of the one
that was seen, and one whose time of the last message is set in the gap is deleted although
it has not expired any more; a call of `recv_message` that has looked at the time before is
enough for that.  `heartbeat_deletes_expired` holds for the runs without either, and
`fresh_deleted` is a run with a peer that dials again in the gap.
-/

namespace VeilidTransport
namespace Beating
open Transport
variable {PublicKey : Type} [KeyCodec] [Identity PublicKey]

/-- The step deletes the stream `h` from the map. -/
def Deletes (b : Beating PublicKey) (a : Action) (h : Handle) : Prop :=
  a = .delete ∧ ∃ r ∈ b.toDelete.head?, b.node.streams.lookup r = some h

/-- No stream is put under a listed address, and no task sets the time of the last message
of a stream under one. -/
def Undisturbed (b : Beating PublicKey) (a : Action) : Prop :=
  (∀ r ∈ b.inserts a, r ∉ b.toDelete) ∧
    ∀ h ∈ b.stamps a, ∀ r ∈ b.toDelete, b.node.streams.lookup r ≠ some h

instance (b : Beating PublicKey) (a : Action) : Decidable (Undisturbed b a) :=
  inferInstanceAs (Decidable (_ ∧ _))

/-- The stream is one that the first pass has seen, and it is expired. -/
def Doomed (b : Beating PublicKey) (h : Handle) : Prop :=
  h ∈ b.seen ∧ b.node.Expired h

/-- Whatever the run deletes from the map, the first pass has seen, and it is expired. -/
def DeletesDoomed (b : Beating PublicKey) (as : List Action) : Prop :=
  ∀ bs a, bs ++ [a] <+: as → ∀ h, (Runs.run step b bs).Deletes a h → (Runs.run step b bs).Doomed h

/-- **The invariant.** -/
structure Intact (b : Beating PublicKey) : Prop where
  registered : b.node.Registered
  tasks : b.ProperTasks
  doomed : ∀ r ∈ b.toDelete, ∀ h, b.node.streams.lookup r = some h → b.Doomed h

/-- A step in the gap leaves what is registered for a listed address as it was. -/
theorem Moves.lookup {b : Beating PublicKey} {a : Action} {n : Transport PublicKey}
    (hm : b.Moves a n) (hok : b.Undisturbed a) (ha : a ≠ .delete) {r : Address}
    (hr : r ∈ b.toDelete) : n.streams.lookup r = b.node.streams.lookup r := by
  cases hm with
  | minds _ hstreams => rw [hstreams]
  | writes _ _ _ _ _ _ hstreams => rw [hstreams]
  | inserts r' s _ _ hstreams _ hinserts =>
    have hne : r ≠ r' := by
      rintro rfl
      exact hok.1 r hinserts hr
    rw [hstreams, KeyedMap.lookup_insert, if_neg hne]
  | deletes _ _ hdelete => exact absurd hdelete ha

/-- **What the first pass lists it has seen**, and its streams are doomed. -/
theorem Intact.collect {b : Beating PublicKey} (h : b.Intact) :
    ∀ r ∈ b.collect.toDelete, ∀ g, b.collect.node.streams.lookup r = some g →
      b.collect.Doomed g := by
  unfold Beating.collect
  split
  · intro r hr g hg
    have ht := Tends.foldl (fun n h => Tends.modifyStream n h (works_heartbeatStream n.now))
      b.node.streams.values b.node
    -- the stream that was seen is the one registered for its address
    obtain ⟨k, s, hk, hks, hd⟩ := h.registered.mem_expiredAddresses hr
    have hg' := ht.streams r g hg
    rw [hk] at hg'
    obtain rfl := Option.some.inj hg'
    obtain ⟨hvisit, -, hnow⟩ := visit_getElem? b.node.streams.values hks hd
    refine ⟨List.mem_filter.mpr ⟨KeyedMap.mem_values.mpr ⟨r, hk⟩, ?_⟩, s, hvisit, ?_⟩
    · rw [hks]
      exact hd
    · show s.isExpired _ = true
      rw [hnow]
      exact (Bool.and_eq_true _ _ ▸ hd : _ ∧ _).2
  · exact h.doomed

omit [KeyCodec] [Identity PublicKey] in
/-- The rest of the list is still doomed when its first address is done with. -/
theorem Intact.delete {b : Beating PublicKey} (h : b.Intact) :
    ∀ r ∈ b.delete.toDelete, ∀ g, b.delete.node.streams.lookup r = some g →
      b.delete.Doomed g := by
  unfold Beating.delete
  split
  · exact h.doomed
  · next r rest hlist =>
    intro r' hr' g hg
    have hg' : (b.node.deleteStream r).streams.lookup r' = some g := hg
    rw [deleteStream_lookup] at hg'
    by_cases hrr : r' = r
    · rw [if_pos hrr] at hg'
      cases hg'
    · rw [if_neg hrr] at hg'
      obtain ⟨hseen, s, hs, hx⟩ :=
        h.doomed r' (by rw [hlist]; exact List.mem_cons_of_mem r hr') g hg'
      have hne : b.node.streams.lookup r ≠ some g := fun hr =>
        hrr (h.registered.eq_of_lookup hg' hr)
      refine ⟨hseen, s, ?_, ?_⟩
      · show (b.node.deleteStream r).heap[g]? = some s
        rw [deleteStream_getElem?, if_neg hne, hs]
      · show s.isExpired (b.node.deleteStream r).now = true
        rw [deleteStream_now, hx]

/-- Only a heartbeat changes its list. -/
theorem step_list (b : Beating PublicKey) {a : Action} (hc : a ≠ .collect) (hd : a ≠ .delete) :
    (b.step a).toDelete = b.toDelete ∧ (b.step a).seen = b.seen := by
  cases a with
  | collect => exact absurd rfl hc
  | delete => exact absurd rfl hd
  | receive packet =>
    rw [step, receive]
    split
    · exact ⟨rfl, rfl⟩
    · split <;> exact ⟨rfl, rfl⟩
  | advance i target epochSecs =>
    rw [step, advance]
    split <;> exact ⟨rfl, rfl⟩
  | pollRead h waker len =>
    rw [step, pollRead]
    split <;> exact ⟨rfl, rfl⟩
  | storeWaker i =>
    rw [step, storeWaker]
    split <;> exact ⟨rfl, rfl⟩
  | act a => cases a <;> exact ⟨rfl, rfl⟩

theorem step_intact (b : Beating PublicKey) (a : Action) (hok : b.Undisturbed a)
    (h : b.Intact) : (b.step a).Intact := by
  refine ⟨(step_moves b a).registered h.registered, step_properTasks b a h.tasks, ?_⟩
  by_cases hc : a = .collect
  · subst hc
    exact h.collect
  by_cases hd : a = .delete
  · subst hd
    exact h.delete
  obtain ⟨hlist, hseen⟩ := step_list b hc hd
  intro r hr g hg
  rw [hlist] at hr
  rw [(step_moves b a).lookup hok hd hr] at hg
  obtain ⟨hmem, hexpired⟩ := h.doomed r hr g hg
  refine ⟨hseen ▸ hmem, (step_moves b a).expired h.tasks (fun hst => ?_) hexpired⟩
  exact hok.2 g hst r hr hg

/-- **A heartbeat deletes only what it has found expired, and what is expired**: in every
run in which, between its two passes, no stream is put under a listed address and the time
of the last message is set for none under one. -/
theorem heartbeat_deletes_expired (localAddress : Option Address) (keypair : Keypair PublicKey)
    (now : Instant) (as : List Action)
    (hok : Runs.Along step Undisturbed (start localAddress keypair now) as) :
    (start localAddress keypair now).DeletesDoomed as := by
  rintro bs a ⟨cs, rfl⟩ h ⟨-, r, hr, hlookup⟩
  rw [List.append_assoc] at hok
  have hstart : (start localAddress keypair now).Intact :=
    ⟨start_registered localAddress keypair now, start_properTasks localAddress keypair now,
      fun _ hr => absurd hr List.not_mem_nil⟩
  have hintact := Runs.invariant_along step_intact hstart (Runs.along_append.mp hok).1
  exact hintact.doomed r (List.mem_of_head? hr) h hlookup

end Beating

namespace Beating
open Transport Sample

/-- A message arrives, and its task, the `i`-th, takes this many steps. -/
def sampleReceive (packet : Payload) (i steps : Nat) : List Action :=
  .receive packet :: List.replicate steps (.advance i (some (.nodeId (keyOf 2))) 10)

/-- Node 1 has answered a dial of node 2, and receives data; its heartbeat comes after
twenty seconds. -/
def sampleSilent (steps : Nat) : List Action :=
  sampleReceive (sampleDial 2 1 20) 0 9 ++
    sampleReceive ((sampleDialer 20).encode 0 1 [1, 0, 0, 0, 7]) 1 steps ++
    [.act (.tick (secs 20)), .collect]

theorem heartbeat_deletes_expired_sample :
    (start (some (addressOf 1)) (keypairOf 1) 0).DeletesDoomed (sampleSilent 20 ++ [.delete]) :=
  heartbeat_deletes_expired (some (addressOf 1)) (keypairOf 1) 0 _ (by decide)

/-- Node 2 dials again in the gap, and node 1 puts the new stream under the listed address. -/
def sampleGap : List Action :=
  sampleSilent 20 ++ sampleReceive (sampleDial 2 1 21) 2 8

/-- The data is received before the heartbeat comes, but for the last step of its task. -/
def sampleHeard : List Action :=
  sampleSilent 19 ++ [.advance 1 none 10]

set_option maxRecDepth 2000 in
/-- **A fresh stream can be deleted**: the heartbeat has found the first stream expired, and
deletes the second.  So can one that the heartbeat has seen and that has heard since. -/
theorem fresh_deleted :
    ¬ (start (some (addressOf 1)) (keypairOf 1) 0).DeletesDoomed (sampleGap ++ [.delete]) ∧
    ¬ (start (some (addressOf 1)) (keypairOf 1) 0).DeletesDoomed (sampleHeard ++ [.delete]) := by
  constructor
  · intro hall
    have hseen := (hall sampleGap .delete List.prefix_rfl 1
      ⟨rfl, addressOf 2, by decide, by decide⟩).1
    revert hseen
    decide
  · intro hall
    obtain ⟨s, hs, hx⟩ := (hall sampleHeard .delete List.prefix_rfl 0
      ⟨rfl, addressOf 2, by decide, by decide⟩).2
    have hfresh : ((Runs.run step (start (some (addressOf 1)) (keypairOf 1) 0)
        sampleHeard).node.heap[0]?.map fun s => s.isExpired (Runs.run step
          (start (some (addressOf 1)) (keypairOf 1) 0) sampleHeard).node.now) = some false := by
      decide
    rw [hs] at hfresh
    exact absurd hx (by simpa using hfresh)

end Beating
end VeilidTransport
