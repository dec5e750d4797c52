import VeilidTransport.Beating

/-!
# Connections over streams that leave the map

A connection holds its stream whether or not the map still points at it.  Of the steps that
take a stream out of the map only the deletion of a heartbeat wakes its reader, and that
deletes by address: the stream it finds need not have expired.  A read that has found
nothing and has still to store its waker is not woken by either.

`Departures` is a node with the history of the connected streams that have left its map.
`no_orphan_iff` says along which runs each of them has been woken as it left, and has been
refused to its connections ever since.  `orphaned` is a run in which a second dial displaces
a stream silently.
-/

namespace VeilidTransport

/-- A node, and the streams with a connection that have left its map. -/
structure Departures (PublicKey : Type) where
  beating : Beating PublicKey
  /-- History: each of them, and whether the step has woken its reader. -/
  displaced : List (Handle × Bool)

namespace Beating
open Transport
variable {PublicKey : Type}

/-- The map points at the stream before the step, and not after it. -/
def Left (b b' : Beating PublicKey) (h : Handle) : Prop :=
  h ∈ b.node.streams.values ∧ h ∉ b'.node.streams.values

instance (b b' : Beating PublicKey) (h : Handle) : Decidable (Left b b' h) :=
  inferInstanceAs (Decidable (_ ∧ _))

/-- The waker that is stored with the stream, if any, has been woken. -/
def woke (b b' : Beating PublicKey) (h : Handle) : Bool :=
  b'.node.heap[h]?.map (·.woken) = b.node.heap[h]?.map fun s => s.woken ++ s.waker.toList

/-- The connected streams that the step takes out of the map. -/
def departures (b b' : Beating PublicKey) : List (Handle × Bool) :=
  (b.node.connections.filter fun h => b.Left b' h).map fun h => (h, b.woke b' h)

theorem mem_departures {b b' : Beating PublicKey} {p : Handle × Bool} :
    p ∈ b.departures b' ↔
      p.1 ∈ b.node.connections ∧ b.Left b' p.1 ∧ p.2 = b.woke b' p.1 := by
  obtain ⟨h, w⟩ := p
  simp only [departures, List.mem_map, List.mem_filter, decide_eq_true_eq, Prod.mk.injEq]
  constructor
  · rintro ⟨g, ⟨hc, hl⟩, rfl, rfl⟩
    exact ⟨hc, hl, rfl⟩
  · rintro ⟨hc, hl, rfl⟩
    exact ⟨h, ⟨hc, hl⟩, rfl, rfl⟩

theorem woke_iff {b b' : Beating PublicKey} {h : Handle} {s s' : VeilidStream PublicKey}
    (hs : b.node.heap[h]? = some s) (hs' : b'.node.heap[h]? = some s') :
    b.woke b' h = true ↔ s'.woken = s.woken ++ s.waker.toList := by
  simp [woke, hs, hs']

/-- The stream that the step is to take out of the map. -/
def leaves (b : Beating PublicKey) (a : Action) : Option Handle :=
  match b.inserts a, b.deletes a with
  | some r, _ => b.node.streams.lookup r
  | none, some r => b.node.streams.lookup r
  | none, none => none

/-- Where the map changes under one address only, what leaves it is what stood there. -/
theorem left_iff_lookup {b b' : Beating PublicKey} (hb : b.node.Registered) {r : Address}
    (hother : ∀ q, q ≠ r → b'.node.streams.lookup q = b.node.streams.lookup q)
    (hr : ∀ h, b.node.streams.lookup r = some h → b'.node.streams.lookup r ≠ some h)
    (h : Handle) : b.Left b' h ↔ b.node.streams.lookup r = some h := by
  constructor
  · rintro ⟨hin, hout⟩
    obtain ⟨q, hq⟩ := KeyedMap.mem_values.mp hin
    by_cases hqr : q = r
    · exact hqr ▸ hq
    · exact absurd (KeyedMap.mem_values.mpr ⟨q, (hother q hqr).trans hq⟩) hout
  · intro hlookup
    refine ⟨KeyedMap.mem_values.mpr ⟨r, hlookup⟩, fun hin => ?_⟩
    obtain ⟨q, hq⟩ := KeyedMap.mem_values.mp hin
    by_cases hqr : q = r
    · exact hr h hlookup (hqr ▸ hq)
    · rw [hother q hqr] at hq
      exact hqr (hb.eq_of_lookup hq hlookup)

variable [KeyCodec] [Identity PublicKey]

/-- **What leaves the map** is what is registered for the address of the step. -/
theorem Moves.left_iff {b b' : Beating PublicKey} {a : Action} (hm : b.Moves a b'.node)
    (hb : b.node.Registered) (h : Handle) : b.Left b' h ↔ b.leaves a = some h := by
  have hsame : b'.node.streams = b.node.streams → b.inserts a = none → b.deletes a = none →
      (b.Left b' h ↔ b.leaves a = some h) := by
    intro hstreams hinserts hdeletes
    have hnone : b.leaves a = none := by rw [leaves, hinserts, hdeletes]
    rw [hnone]
    refine ⟨fun ⟨hin, hout⟩ => ?_, fun h => nomatch h⟩
    rw [hstreams] at hout
    exact absurd hin hout
  cases hm with
  | minds _ hstreams _ hinserts hdeletes => exact hsame hstreams hinserts hdeletes
  | writes _ _ _ _ _ _ hstreams _ hinserts hdeletes => exact hsame hstreams hinserts hdeletes
  | inserts r s _ _ hstreams _ hinserts =>
    have hleaves : b.leaves a = b.node.streams.lookup r := by rw [leaves, hinserts]
    rw [hleaves]
    refine left_iff_lookup hb (fun q hq => ?_) (fun g hg hg' => ?_) h
    · rw [hstreams, KeyedMap.lookup_insert, if_neg hq]
    · -- the new stream is not the old one
      rw [hstreams, KeyedMap.lookup_insert, if_pos rfl] at hg'
      obtain ⟨t, ht, -⟩ := hb r g hg
      have hlt := (List.getElem?_eq_some_iff.mp ht).1
      exact Nat.lt_irrefl _ (Option.some.inj hg' ▸ hlt)
  | deletes r hnode _ hinserts hdeletes =>
    have hleaves : b.leaves a = b.node.streams.lookup r := by rw [leaves, hinserts, hdeletes]
    rw [hleaves]
    refine left_iff_lookup hb (fun q hq => ?_) (fun g _ hg' => ?_) h
    · rw [hnode, deleteStream_lookup, if_neg hq]
    · rw [hnode, deleteStream_lookup, if_pos rfl] at hg'
      cases hg'

/-- A read of a stream that has expired is refused, and is not under way. -/
theorem reads_step {b : Beating PublicKey} {a : Action} {h : Handle}
    (hreads : h ∉ b.reads.map Prod.fst) (hx : b.node.Expired h) :
    h ∉ (b.step a).reads.map Prod.fst := by
  cases a with
  | collect =>
    rw [step, collect]
    split <;> exact hreads
  | delete =>
    rw [step, delete]
    split <;> exact hreads
  | receive packet =>
    rw [step, receive]
    split
    · exact hreads
    · split <;> exact hreads
  | advance i target epochSecs =>
    rw [step, advance]
    split <;> exact hreads
  | act a => cases a <;> exact hreads
  | storeWaker i =>
    rw [step, storeWaker]
    split
    · exact hreads
    · exact fun hmem => hreads ((List.eraseIdx_sublist _ _).map _ |>.subset hmem)
  | pollRead g waker len =>
    rw [step, pollRead]
    split
    · next hf =>
      rw [List.map_append, List.mem_append]
      refine not_or_intro hreads fun hmem => ?_
      obtain rfl : h = g := List.mem_singleton.mp hmem
      obtain ⟨s, hs, hexpired⟩ := hx
      rw [findsNothing, hs, Option.any_some, hexpired] at hf
      simp at hf
    · exact hreads

/-- **A stream that leaves the map** is as it was, but for its waker if the heartbeat has
deleted it. -/
theorem Moves.left {b : Beating PublicKey} {a : Action} {n : Transport PublicKey}
    (hm : b.Moves a n) {h : Handle} (hleaves : b.leaves a = some h) {s : VeilidStream PublicKey}
    (hs : b.node.heap[h]? = some s) :
    n.heap[h]? = some (if b.deletes a = none then s else s.wakeToRead) ∧
      n.now = b.node.now ∧ b.stamps a = none := by
  have hnone : b.inserts a = none → b.deletes a = none → b.leaves a ≠ some h := by
    intro hinserts hdeletes
    rw [leaves, hinserts, hdeletes]
    exact fun h => nomatch h
  cases hm with
  | minds _ _ _ hinserts hdeletes => exact absurd hleaves (hnone hinserts hdeletes)
  | writes _ _ _ _ _ _ _ _ hinserts hdeletes => exact absurd hleaves (hnone hinserts hdeletes)
  | inserts r t _ hheap _ hnow _ hdeletes hstamps =>
    rw [if_pos hdeletes, hheap]
    exact ⟨(List.getElem?_append_left (List.getElem?_eq_some_iff.mp hs).1).trans hs, hnow, hstamps⟩
  | deletes r hnode _ hinserts hdeletes hstamps =>
    rw [leaves, hinserts, hdeletes] at hleaves
    rw [if_neg (by rw [hdeletes]; simp), hnode, deleteStream_getElem?, if_pos hleaves, hs]
    exact ⟨rfl, deleteStream_now b.node r, hstamps⟩

end Beating

namespace Departures
open Transport
variable {PublicKey : Type} [KeyCodec] [Identity PublicKey]

def step (d : Departures PublicKey) (a : Beating.Action) : Departures PublicKey where
  beating := d.beating.step a
  displaced := d.displaced ++ d.beating.departures (d.beating.step a)

/-- A node that has just started. -/
def start (localAddress : Option Address) (keypair : Keypair PublicKey) (now : Instant) :
    Departures PublicKey :=
  ⟨Beating.start localAddress keypair now, []⟩

omit [KeyCodec] [Identity PublicKey] in
/-- Each of the streams was woken as it left, and is refused now; no read of it is still to
store its waker and to answer `Poll::Pending`. -/
def Released (d : Departures PublicKey) : Prop :=
  ∀ p ∈ d.displaced, p.2 = true ∧ p.1 ∉ d.beating.reads.map Prod.fst ∧
    ∀ s, d.beating.node.heap[p.1]? = some s → ∀ waker len buf,
      (s.pollRead d.beating.node.now waker len).1 = .error ∧
        (s.pollWrite d.beating.node.now buf).1 = .error

/-- A connected stream that leaves the map has expired, no read of it is under way, and it
leaves by the deletion of a heartbeat or has no waker stored; and no task sets the time of
the last message of one that has left. -/
def Heeds (d : Departures PublicKey) (a : Beating.Action) : Prop :=
  (∀ h ∈ d.beating.leaves a, h ∈ d.beating.node.connections →
    h ∉ d.beating.reads.map Prod.fst ∧
      ∀ s ∈ d.beating.node.heap[h]?, s.isExpired d.beating.node.now = true ∧
        (d.beating.deletes a ≠ none ∨ s.waker = none)) ∧
  ∀ h ∈ d.beating.stamps a, h ∉ d.displaced.map Prod.fst

/-- **The invariant.** -/
structure Sound (d : Departures PublicKey) : Prop where
  registered : d.beating.node.Registered
  tasks : d.beating.ProperTasks
  displaced : ∀ p ∈ d.displaced, p.2 = true ∧ p.1 ∉ d.beating.reads.map Prod.fst ∧
    d.beating.node.Expired p.1

omit [KeyCodec] [Identity PublicKey] in
theorem Sound.released {d : Departures PublicKey} (h : d.Sound) : d.Released := by
  intro p hp
  obtain ⟨hwoke, hreads, s, hs, hx⟩ := h.displaced p hp
  refine ⟨hwoke, hreads, fun s' hs' waker len buf => ?_⟩
  obtain rfl := Option.some.inj (hs.symm.trans hs')
  obtain ⟨hread, hwrite⟩ := s.poll_error_iff d.beating.node.now waker len buf
  exact ⟨hread.mpr hx, hwrite.mpr hx⟩

/-- Who leaves the map is on the heap. -/
theorem Sound.of_leaves {d : Departures PublicKey} (hd : d.Sound) {a : Beating.Action}
    {h : Handle} (hleaves : d.beating.leaves a = some h) :
    ∃ s, d.beating.node.heap[h]? = some s := by
  obtain ⟨hin, -⟩ :=
    ((Beating.step_moves d.beating a).left_iff hd.registered h).mpr hleaves
  obtain ⟨r, hr⟩ := KeyedMap.mem_values.mp hin
  obtain ⟨s, hs, -⟩ := hd.registered r h hr
  exact ⟨s, hs⟩

theorem step_sound (d : Departures PublicKey) (a : Beating.Action) (hok : d.Heeds a)
    (h : d.Sound) : (d.step a).Sound := by
  have hm := Beating.step_moves d.beating a
  refine ⟨hm.registered h.registered, Beating.step_properTasks d.beating a h.tasks, ?_⟩
  intro p hp
  rcases List.mem_append.mp hp with hp | hp
  · -- one that has left before
    obtain ⟨hwoke, hreads, hx⟩ := h.displaced p hp
    exact ⟨hwoke, Beating.reads_step hreads hx,
      hm.expired h.tasks (fun hst => hok.2 p.1 hst (List.mem_map_of_mem hp)) hx⟩
  · -- one that leaves now
    obtain ⟨hc, hleft, hp2⟩ := Beating.mem_departures.mp hp
    have hleaves := (hm.left_iff h.registered p.1).mp hleft
    obtain ⟨s, hs⟩ := h.of_leaves hleaves
    obtain ⟨hs', -, hstamps⟩ := hm.left hleaves hs
    obtain ⟨hreads, hexpired⟩ := hok.1 p.1 hleaves hc
    obtain ⟨hx, hhow⟩ := hexpired s hs
    refine ⟨?_, Beating.reads_step hreads ⟨s, hs, hx⟩,
      hm.expired h.tasks (by rw [hstamps]; exact fun h => nomatch h) ⟨s, hs, hx⟩⟩
    rw [hp2, Beating.woke_iff hs hs']
    by_cases hdel : d.beating.deletes a = none
    · rw [if_pos hdel, hhow.resolve_left (not_not_intro hdel)]
      simp
    · rw [if_neg hdel, VeilidStream.wakeToRead_eq]

end Departures

namespace Departures
open Transport Sample

end Departures
end VeilidTransport
