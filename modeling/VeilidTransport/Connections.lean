import VeilidTransport.DialCopies
import Mathlib.Data.List.Perm.Basic

/-!
# One connection for each stream

A connection is made over a stream in two places: `dial` makes one over the stream it
creates, and `activate` makes one over a stream that listens.  `connection_once` says
that no stream gets both, nor one of them twice, unless a stream that has dialed
takes the listener's role: then `activate` makes a second connection over a stream
that `dial` has already handed out (`second_connection`).
-/

namespace VeilidTransport

/-- The stream a future is about to make a connection over. -/
def Task.activation : Task → Option Handle
  | .activate h => some h
  | _ => none

namespace Transport
variable {PublicKey : Type} [KeyCodec] [Identity PublicKey]

/-- The streams connections were made over or are about to be. -/
def connected (n : Transport PublicKey) : List Handle :=
  n.connections ++ n.tasks.filterMap Task.activation

/-- **The invariant**: each of these streams is there, and once. -/
structure Once (n : Transport PublicKey) : Prop where
  nodup : n.connected.Nodup
  lt : ∀ h ∈ n.connected, h < n.heap.length

/-- No stream that has dialed takes the listener's role: no dial that is not stale
reaches it from a greater address. -/
def NoSwitch (n : Transport PublicKey) : Action → Prop
  | .update packet => ∀ m ∈ VeilidStream.decodeMessage packet,
      ∀ h ∈ n.streams.lookup m.remoteAddress, ∀ s ∈ n.heap[h]?, ∀ l ∈ n.localAddress,
        s.status = .dial → messageType m.data = .dial → m.remoteAddress.cmp l = .gt →
          VeilidStream.Stale (s.adoptRemoteStreamId m.streamId) m
  | _ => True

instance (n : Transport PublicKey) : ∀ a, Decidable (NoSwitch n a)
  | .update packet => inferInstanceAs (Decidable (∀ m ∈ VeilidStream.decodeMessage packet,
      ∀ h ∈ n.streams.lookup m.remoteAddress, ∀ s ∈ n.heap[h]?, ∀ l ∈ n.localAddress,
        s.status = .dial → messageType m.data = .dial → m.remoteAddress.cmp l = .gt →
          VeilidStream.Stale (s.adoptRemoteStreamId m.streamId) m))
  | .dial _ => inferInstanceAs (Decidable True)
  | .resume _ _ _ => inferInstanceAs (Decidable True)
  | .pump _ => inferInstanceAs (Decidable True)
  | .heartbeat => inferInstanceAs (Decidable True)
  | .pollRead _ _ _ => inferInstanceAs (Decidable True)
  | .pollWrite _ _ => inferInstanceAs (Decidable True)
  | .tick _ => inferInstanceAs (Decidable True)
  | .setLocalAddress _ => inferInstanceAs (Decidable True)

/-- Only the role switch ends a handshake for a registered stream. -/
theorem convertRegistered_activate {s : VeilidStream PublicKey} {localAddress : Option Address}
    {now : Instant} {m : AppMessage}
    (h : (s.convertRegistered localAddress now m).2 = .activate) :
    ∃ l, localAddress = some l ∧ s.status = .dial ∧ messageType m.data = .dial ∧
      m.remoteAddress.cmp l = .gt ∧ ¬ VeilidStream.Stale (s.adoptRemoteStreamId m.streamId) m := by
  obtain ⟨id, -, hadopt⟩ := VeilidStream.adoptRemoteStreamId_eq s m.streamId
  cases localAddress with
  | none => cases h
  | some l =>
    rcases VeilidStream.convertRegistered_handled s l now m with ⟨-, hs⟩ | ⟨hstale, hs⟩
    · rw [hs] at h
      cases h
    · generalize (s.convertRegistered _ _ _).1 = s' at hs
      rw [h] at hs
      cases hs with
      | switched hd hm hcmp =>
        rw [hadopt] at hd
        exact ⟨l, rfl, hd, hm, hcmp, hstale⟩

theorem Tends.connected {n n' : Transport PublicKey} (h : Tends n n') :
    n'.connected = n.connected := by
  obtain ⟨ts, hts, hdial⟩ := h.tasks
  have hnil : ts.filterMap Task.activation = [] := by
    rw [List.filterMap_eq_nil_iff]
    intro t ht
    obtain ⟨l, r, rfl⟩ := hdial t ht
    rfl
  rw [Transport.connected, h.connections, hts, List.filterMap_append, hnil, List.append_nil]
  rfl

omit [KeyCodec] [Identity PublicKey] in
/-- Ending a future can only take a stream out of the list. -/
theorem connected_eraseIdx (n : Transport PublicKey) (i : Nat) :
    (connected { n with tasks := n.tasks.eraseIdx i }).Sublist n.connected :=
  (List.Sublist.refl _).append ((List.eraseIdx_sublist n.tasks i).filterMap _)

omit [KeyCodec] [Identity PublicKey] in
theorem Once.of_sublist {n n' : Transport PublicKey} (h : n.Once)
    (hsub : n'.connected.Sublist n.connected) (hlen : n.heap.length ≤ n'.heap.length) : n'.Once :=
  ⟨h.nodup.sublist hsub, fun g hg => Nat.lt_of_lt_of_le (h.lt g (hsub.subset hg)) hlen⟩

omit [KeyCodec] [Identity PublicKey] in
/-- A new stream gets its connection. -/
theorem Once.of_new {n n' : Transport PublicKey} (h : n.Once)
    (hperm : ∃ l : List Handle, l.Sublist n.connected ∧
      n'.connected.Perm (n.heap.length :: l))
    (hlen : n'.heap.length = n.heap.length + 1) : n'.Once := by
  obtain ⟨l, hsub, hperm⟩ := hperm
  have hlt : ∀ g ∈ l, g < n.heap.length := fun g hg => h.lt g (hsub.subset hg)
  constructor
  · rw [hperm.nodup_iff, List.nodup_cons]
    exact ⟨fun hmem => Nat.lt_irrefl _ (hlt _ hmem), h.nodup.sublist hsub⟩
  · intro g hg
    rw [hlen]
    rcases List.mem_cons.mp (hperm.subset hg) with rfl | hg
    · exact Nat.lt_succ_self _
    · exact Nat.lt_succ_of_lt (hlt g hg)

theorem Once.resume {n : Transport PublicKey} (h : n.Once) (i : Nat) (target : Option Target)
    (epochSecs : Nat) : (n.resume i target epochSecs).Once := by
  have hr := resume_resumed n i target epochSecs
  generalize n.resume i target epochSecs = n' at hr
  cases hr with
  | idle => exact h
  | failed task hi htask => exact h.of_sublist (connected_eraseIdx n i) (Nat.le_refl _)
  | activated g hi =>
    -- the stream moves from the futures to the connections
    obtain ⟨hlt, heq⟩ := List.getElem?_eq_some_iff.mp hi
    have hperm : (n.connections ++ [g] ++ (n.tasks.eraseIdx i).filterMap Task.activation).Perm
        n.connected := by
      rw [List.append_assoc]
      refine List.Perm.append_left _ ?_
      have hp := (List.getElem_cons_eraseIdx_perm hlt).filterMap Task.activation
      rw [heq] at hp
      exact hp
    refine ⟨hperm.nodup_iff.mpr h.nodup, fun k hk => h.lt k (hperm.subset hk)⟩
  | dialed l r remoteTarget hi htarget =>
    refine h.of_new ⟨_, connected_eraseIdx n i, ?_⟩ (by simp [Transport.connect, insertStream])
    show (n.connections ++ [n.heap.length] ++
      (n.tasks.eraseIdx i).filterMap Task.activation).Perm _
    rw [List.append_assoc]
    exact List.perm_middle
  | created l r id data remoteTarget hi htarget =>
    refine h.of_new ⟨_, connected_eraseIdx n i, ?_⟩ (by simp [Transport.spawn, insertStream])
    show (n.connections ++ (n.tasks.eraseIdx i ++
      [Task.activate n.heap.length]).filterMap Task.activation).Perm _
    rw [List.filterMap_append, ← List.append_assoc]
    exact List.perm_append_singleton _ _

theorem Once.update {n : Transport PublicKey} (h : n.Once) (packet : Payload)
    (hok : NoSwitch n (.update packet)) : (n.update packet).Once := by
  have hspawn : ∀ (k : Transport PublicKey) (l r : Address) (id : Nat) (data : Bytes), k.Once →
      (k.spawn (.create l r id data)).Once := by
    intro k l r id data hk
    have heq : (k.spawn (.create l r id data)).connected = k.connected := by
      simp [connected, Transport.spawn, Task.activation]
    exact ⟨by rw [heq]; exact hk.nodup, by rw [heq]; exact hk.lt⟩
  have hu := update_updated n packet
  generalize n.update packet = n' at hu
  cases hu with
  | ignored => exact h
  | dialed m l hm hstream hlocal hdial => exact hspawn _ _ _ _ _ h
  | handled m g s hm hstream hs =>
    have hset : Once { n with heap := n.heap.set g (s.convertRegistered n.localAddress n.now m).1 } :=
      h.of_sublist (List.Sublist.refl _) (by simp)
    cases hnext : (s.convertRegistered n.localAddress n.now m).2 with
    | pending => exact hset
    | readyNone => exact hset
    | activate =>
      obtain ⟨l, hl, hd, hmd, hcmp, hstale⟩ := convertRegistered_activate hnext
      exact absurd (hok m hm g hstream s hs l hl hd hmd hcmp) hstale
    | create =>
      rw [follow]
      split
      · exact hset
      · exact hspawn _ _ _ _ _ hset

theorem step_once (n : Transport PublicKey) (a : Action) (hok : NoSwitch n a) (h : n.Once) :
    (n.step a).Once := by
  have htends : Tends n (n.step a) → (n.step a).Once := fun ht =>
    ⟨by rw [ht.connected]; exact h.nodup, by rw [ht.connected, ht.length_heap]; exact h.lt⟩
  cases a with
  | update packet => exact h.update packet hok
  | resume i target epochSecs => exact h.resume i target epochSecs
  | _ => exact htends (step_tends n (by simp) (by simp))

/-- **No stream gets two connections**, along every run in which no stream that has
dialed takes the listener's role. -/
theorem connection_once (localAddress : Option Address) (keypair : Keypair PublicKey)
    (now : Instant) (as : List Action)
    (hok : Runs.Along step NoSwitch (Transport.new localAddress keypair now) as) :
    (Runs.run step (Transport.new localAddress keypair now) as).connections.Nodup := by
  have h0 : (Transport.new localAddress keypair now).Once :=
    ⟨List.nodup_nil, fun _ h => absurd h List.not_mem_nil⟩
  exact (Runs.invariant_along step_once h0 hok).nodup.of_append_left

end Transport

namespace Transport
open Sample

/-- The node dials, and the other's dial comes, from a smaller address. -/
def sampleDials : List Action :=
  [.dial (addressOf 2), .resume 0 (some (.nodeId (keyOf 2))) 10, .update (sampleDial 2 3 20)]

theorem connection_once_sample :
    (Runs.run step (Transport.new (some (addressOf 3)) (keypairOf 3) 0) sampleDials
      ).connections.Nodup :=
  connection_once (some (addressOf 3)) (keypairOf 3) 0 sampleDials (by decide)

/-- **A stream can get two connections**: the node dials, then the other's dial comes from
a greater address, and the stream that dialed is activated. -/
theorem second_connection :
    (Runs.run step (Transport.new (some (addressOf 1)) (keypairOf 1) 0)
      (sampleDials.dropLast ++ [.update (sampleDial 2 1 20), .resume 0 none 0])).connections =
      [0, 0] := by
  decide

end Transport
end VeilidTransport
