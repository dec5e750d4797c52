import VeilidTransport.Transport
import VeilidTransport.Foundation.Runs
import VeilidTransport.Foundation.TwoParty

/-!
# Two nodes

Two honest nodes that dial each other, any number of times, so that each may have
made several streams for the other; only the last one is in its map, and the heap has
them all.  The network keeps every payload that any stream of either node has ever
sent, and delivers any of them to the other node, at any time, any number of times,
or never.  A node handles an update whole, up to an await: two of its updates are never in
the middle of `convert_update` at the same time.

`Proper` is what holds of the nodes whatever happens; `vouched` is what it says of a
payload that arrives.
-/

namespace VeilidTransport

/-- What a node does by itself, for the streams it has. -/
inductive Chore where
  | pump (i : Nat)
  | heartbeat
  | pollRead (h : Handle) (waker : Waker) (len : Nat)
  | pollWrite (h : Handle) (buf : Bytes)
  | tick (d : Nat)

def Chore.action : Chore → Transport.Action
  | .pump i => .pump i
  | .heartbeat => .heartbeat
  | .pollRead h waker len => .pollRead h waker len
  | .pollWrite h buf => .pollWrite h buf
  | .tick d => .tick d

/-- The local address a future has taken along. -/
def Task.localAddress : Task → Option Address
  | .dial l _ => some l
  | .create l _ _ _ => some l
  | .activate _ => none

abbrev World (PublicKey : Type) := Pair (Transport PublicKey)

namespace World
open VeilidStream
variable {PublicKey : Type} [KeyCodec] [Identity PublicKey]

inductive Action where
  /-- The `k`-th payload sent by the other node's stream `h` arrives at `d`. -/
  | deliver (d : Side) (h : Handle) (k : Nat)
  /-- `d` dials the other node, under the address it is known by. -/
  | dial (d : Side)
  | resume (d : Side) (i : Nat) (target : Option Target) (epochSecs : Nat)
  | chore (d : Side) (c : Chore)

/-- The payload, if there is such a one. -/
def payload (n : Transport PublicKey) (h : Handle) (k : Nat) : Option Payload :=
  n.heap[h]?.bind fun y => y.sent[k]?

/-- The node that takes the step, and the step it takes. -/
def move (s : World PublicKey) : Action → Option (Side × Transport.Action)
  | .deliver d h k => (payload (s.get d.other) h k).map fun p => (d, .update p)
  | .dial d => (s.get d.other).localAddress.map fun l => (d, .dial l.asParsed)
  | .resume d i target epochSecs => some (d, .resume i target epochSecs)
  | .chore d c => some (d, c.action)

def step (s : World PublicKey) (a : Action) : World PublicKey :=
  match s.move a with
  | none => s
  | some (d, a) => s.set d ((s.get d).step a)

/-- Two nodes that have just started. -/
def start (addresses : Pair Address) (keypairs : Pair (Keypair PublicKey)) (now : Instant) :
    World PublicKey :=
  ⟨Transport.new (some addresses.left) keypairs.left now,
    Transport.new (some addresses.right) keypairs.right now⟩

omit [KeyCodec] [Identity PublicKey] in
theorem get_start (addresses : Pair Address) (keypairs : Pair (Keypair PublicKey)) (now : Instant)
    (d : Side) : (start addresses keypairs now).get d =
      Transport.new (some (addresses.get d)) (keypairs.get d) now := by
  cases d <;> rfl

/-! ## What holds of a node -/

/-- A node with this address and these keys, and its streams. -/
structure ProperNode (l : Address) (keypair : Keypair PublicKey) (n : Transport PublicKey) :
    Prop where
  localAddress : n.localAddress = some l
  myKeypair : n.myKeypair = keypair
  tasks : ∀ t ∈ n.tasks, ∀ l' ∈ t.localAddress, l' = l
  consistent : ∀ s ∈ n.heap, s.Consistent
  address : ∀ s ∈ n.heap, s.localAddress = l
  keys : ∀ s ∈ n.heap, s.myKeypair = keypair

/-- Both nodes. -/
def Proper (addresses : Pair Address) (keypairs : Pair (Keypair PublicKey))
    (s : World PublicKey) : Prop :=
  ∀ d, ProperNode (addresses.get d) (keypairs.get d) (s.get d)

/-- What becomes of a stream keeps it consistent, and whose it is. -/
theorem became_proper {n : Transport PublicKey} {l : Address} {keypair : Keypair PublicKey}
    (hn : ProperNode l keypair n) {h : Handle} {a : Transport.Action}
    {s' : VeilidStream PublicKey} (hb : Transport.Became n h a s') :
    s'.Consistent ∧ s'.localAddress = l ∧ s'.myKeypair = keypair := by
  have hold : ∀ s, n.heap[h]? = some s → ∀ m, Handles m s s' →
      s'.Consistent ∧ s'.localAddress = l ∧ s'.myKeypair = keypair := by
    intro s hs m hh
    have hmem := List.mem_of_getElem? hs
    have hi := handles_identity hh
    exact ⟨(Handles.consistent hh (hn.consistent s hmem)).2,
      hi.localAddress.trans (hn.address s hmem), hi.myKeypair.trans (hn.keys s hmem)⟩
  have hnew : ∀ l' r target id epochSecs, l' = l →
      Quietly (new l' r target id n.myKeypair epochSecs n.now) s' →
      s'.Consistent ∧ s'.localAddress = l ∧ s'.myKeypair = keypair := by
    rintro l' r target id epochSecs rfl hq
    have hh := hq.handles (silent l')
    have hi := handles_identity hh
    exact ⟨(Handles.consistent hh (consistent_new _ _ _ _ _ _ _)).2, hi.localAddress,
      hi.myKeypair.trans hn.myKeypair⟩
  cases hb with
  | worked _ s _ hs hw => exact hold s hs (silent l) (hw.quietly.handles _)
  | handled packet m s hm hstream hs => exact hold s hs m (convertRegistered_handles _ _ _ _)
  | dialed i target epochSecs l' r remoteTarget hi =>
    exact hnew l' r _ _ _ (hn.tasks _ (List.mem_of_getElem? hi) l' rfl)
      (Transport.quietly_dialStream n l' r remoteTarget epochSecs)
  | created i target epochSecs l' r id data remoteTarget hi =>
    exact hnew l' r _ _ _ (hn.tasks _ (List.mem_of_getElem? hi) l' rfl)
      (Transport.quietly_createStream n l' r remoteTarget id data epochSecs)

omit [KeyCodec] [Identity PublicKey] in
theorem follow_proper (n : Transport PublicKey) (h : Handle) (m : AppMessage) (next : Next) :
    (n.follow h m next).localAddress = n.localAddress ∧
    (n.follow h m next).myKeypair = n.myKeypair ∧
    ∀ t ∈ (n.follow h m next).tasks, t ∈ n.tasks ∨
      ∀ l ∈ t.localAddress, n.localAddress = some l := by
  cases next with
  | create =>
    rw [Transport.follow]
    split
    · exact ⟨rfl, rfl, fun t ht => .inl ht⟩
    · next l hl =>
      refine ⟨rfl, rfl, fun t ht => ?_⟩
      rcases List.mem_append.mp ht with ht | ht
      · exact .inl ht
      · obtain rfl := List.mem_singleton.mp ht
        refine .inr fun l' hl' => ?_
        obtain rfl : l = l' := Option.some.inj hl'
        exact hl
  | activate =>
    refine ⟨rfl, rfl, fun t ht => ?_⟩
    rcases List.mem_append.mp ht with ht | ht
    · exact .inl ht
    · obtain rfl := List.mem_singleton.mp ht
      exact .inr fun l' hl' => by cases hl'
  | _ => exact ⟨rfl, rfl, fun t ht => .inl ht⟩

omit [KeyCodec] [Identity PublicKey] in
/-- What each pass of a loop leaves as it is, the loop does. -/
theorem foldl_same {α β : Type} {f : Transport PublicKey → α → Transport PublicKey}
    (g : Transport PublicKey → β) (hf : ∀ n a, g (f n a) = g n) (l : List α)
    (n : Transport PublicKey) : g (l.foldl f n) = g n := by
  induction l generalizing n with
  | nil => rfl
  | cons a l ih => rw [List.foldl_cons, ih, hf]

/-- A chore leaves the address and the futures alone. -/
theorem step_chore (n : Transport PublicKey) (c : Chore) :
    (n.step c.action).localAddress = n.localAddress ∧ (n.step c.action).tasks = n.tasks := by
  have hdelete : ∀ (n : Transport PublicKey) (r : Address),
      ((n.deleteStream r).localAddress, (n.deleteStream r).tasks) = (n.localAddress, n.tasks) := by
    intro n r
    unfold Transport.deleteStream
    split <;> rfl
  cases c with
  | pump i =>
    rw [Chore.action, Transport.step, Transport.pump]
    split <;> exact ⟨rfl, rfl⟩
  | heartbeat =>
    have h := foldl_same (fun n : Transport PublicKey => (n.localAddress, n.tasks)) hdelete
      n.expiredAddresses (n.streams.values.foldl (fun n h => n.modifyStream h
        (Transport.heartbeatStream n.now)) n)
    have h' := foldl_same (fun n : Transport PublicKey => (n.localAddress, n.tasks))
      (f := fun n h => n.modifyStream h (Transport.heartbeatStream n.now)) (fun _ _ => rfl)
      n.streams.values n
    exact Prod.mk.inj (h.trans h')
  | pollRead h waker len =>
    rw [Chore.action, Transport.step, Transport.pollRead]
    split <;> exact ⟨rfl, rfl⟩
  | pollWrite h buf =>
    rw [Chore.action, Transport.step, Transport.pollWrite]
    split
    · split
      · exact ⟨rfl, rfl⟩
      · simp only
        split <;> exact ⟨rfl, rfl⟩
    · exact ⟨rfl, rfl⟩
  | tick d => exact ⟨rfl, rfl⟩

/-- The steps that nodes of the world take. -/
inductive NodeStep : Transport.Action → Prop where
  | update (packet : Payload) : NodeStep (.update packet)
  | dial (r : Address) : NodeStep (.dial r)
  | resume (i : Nat) (target : Option Target) (epochSecs : Nat) :
      NodeStep (.resume i target epochSecs)
  | chore (c : Chore) : NodeStep c.action

omit [KeyCodec] [Identity PublicKey] in
theorem move_nodeStep {s : World PublicKey} {a : Action} {d : Side} {b : Transport.Action}
    (h : s.move a = some (d, b)) : NodeStep b := by
  cases a with
  | deliver d' g k =>
    obtain ⟨p, -, hp⟩ := Option.map_eq_some_iff.mp h
    cases hp
    exact .update p
  | dial d' =>
    obtain ⟨l, -, hl⟩ := Option.map_eq_some_iff.mp h
    cases hl
    exact .dial _
  | resume d' i target epochSecs =>
    cases h
    exact .resume i target epochSecs
  | chore d' c =>
    cases h
    exact .chore c

theorem step_properNode {n : Transport PublicKey} {l : Address} {keypair : Keypair PublicKey}
    (hn : ProperNode l keypair n) {a : Transport.Action} (ha : NodeStep a) :
    ProperNode l keypair (n.step a) := by
  have hheap : ∀ s' ∈ (n.step a).heap,
      s'.Consistent ∧ s'.localAddress = l ∧ s'.myKeypair = keypair := by
    intro s' hs'
    obtain ⟨h, hh⟩ := List.mem_iff_getElem?.mp hs'
    exact became_proper hn (Transport.step_became n a hh)
  have hrest : (n.step a).localAddress = n.localAddress → (n.step a).myKeypair = n.myKeypair →
      (∀ t ∈ (n.step a).tasks, t ∈ n.tasks ∨ ∀ l' ∈ t.localAddress, n.localAddress = some l') →
      ProperNode l keypair (n.step a) := by
    intro h1 h2 h3
    refine ⟨h1.trans hn.localAddress, h2.trans hn.myKeypair, fun t ht l' hl' => ?_,
      fun s hs => (hheap s hs).1, fun s hs => (hheap s hs).2.1, fun s hs => (hheap s hs).2.2⟩
    rcases h3 t ht with ht | ht
    · exact hn.tasks t ht l' hl'
    · have := ht l' hl'
      rw [hn.localAddress] at this
      exact (Option.some.inj this).symm
  have hspawn : ∀ t : Task, (∀ l' ∈ t.localAddress, n.localAddress = some l') →
      ∀ u ∈ n.tasks ++ [t], u ∈ n.tasks ∨ ∀ l' ∈ u.localAddress, n.localAddress = some l' := by
    intro t ht u hu
    rcases List.mem_append.mp hu with hu | hu
    · exact .inl hu
    · obtain rfl := List.mem_singleton.mp hu
      exact .inr ht
  cases ha with
  | update packet =>
    have hu := Transport.update_updated n packet
    have hstep : n.step (.update packet) = n.update packet := rfl
    rw [hstep] at hrest ⊢
    generalize n.update packet = n' at hu hrest
    cases hu with
    | ignored => exact hn
    | dialed m l' hm hstream hlocal hdial =>
      refine hrest rfl rfl (hspawn _ fun l'' hl'' => ?_)
      obtain rfl : l' = l'' := Option.some.inj hl''
      exact hlocal
    | handled m h s hm hstream hs =>
      obtain ⟨h1, h2, h3⟩ := follow_proper { n with
        heap := n.heap.set h (s.convertRegistered n.localAddress n.now m).1 } h m
        (s.convertRegistered n.localAddress n.now m).2
      exact hrest h1 h2 h3
  | dial r =>
    have hstep : n.step (.dial r) = n.dial r := rfl
    rw [hstep] at hrest ⊢
    rcases Transport.dial_cases n r with h | ⟨l', hl', h⟩
    · rw [h]; exact hn
    · rw [h] at hrest ⊢
      refine hrest rfl rfl (hspawn _ fun l'' hl'' => ?_)
      obtain rfl : l' = l'' := Option.some.inj hl''
      exact hl'
  | resume i target epochSecs =>
    have hr := Transport.resume_resumed n i target epochSecs
    have hstep : n.step (.resume i target epochSecs) = n.resume i target epochSecs := rfl
    rw [hstep] at hrest ⊢
    generalize n.resume i target epochSecs = n' at hr hrest
    have herase : ∀ t ∈ n.tasks.eraseIdx i, t ∈ n.tasks := fun t ht =>
      (List.eraseIdx_sublist n.tasks i).subset ht
    cases hr with
    | idle => exact hn
    | failed => exact hrest rfl rfl fun t ht => .inl (herase t ht)
    | activated => exact hrest rfl rfl fun t ht => .inl (herase t ht)
    | dialed => exact hrest rfl rfl fun t ht => .inl (herase t ht)
    | created =>
      refine hrest rfl rfl fun t ht => ?_
      rcases List.mem_append.mp ht with ht | ht
      · exact .inl (herase t ht)
      · obtain rfl := List.mem_singleton.mp ht
        exact .inr fun l' hl' => by cases hl'
  | chore c =>
    obtain ⟨h1, h2⟩ := step_chore n c
    have ht : Transport.Tends n (n.step c.action) := by
      cases c <;> exact Transport.step_tends n (by simp [Chore.action]) (by simp [Chore.action])
    exact hrest h1 ht.myKeypair fun t ht => .inl (h2 ▸ ht)

/-- What every step of a node keeps, the world keeps. -/
theorem step_forall {P : Side → Transport PublicKey → Prop}
    (h : ∀ d n a, NodeStep a → P d n → P d (n.step a)) (s : World PublicKey) (a : Action)
    (hs : ∀ d, P d (s.get d)) (d : Side) : P d ((s.step a).get d) := by
  rw [step]
  split
  · exact hs d
  · next d' b hb =>
    rcases Side.eq_or_eq_other d' d with rfl | rfl
    · rw [Pair.get_set_self]
      exact h _ _ _ (move_nodeStep hb) (hs _)
    · rw [Pair.get_set_other]
      exact hs _

theorem step_proper {addresses : Pair Address} {keypairs : Pair (Keypair PublicKey)}
    (s : World PublicKey) (a : Action) (h : Proper addresses keypairs s) :
    Proper addresses keypairs (s.step a) :=
  step_forall (P := fun d n => ProperNode (addresses.get d) (keypairs.get d) n)
    (fun _ _ _ ha hn => step_properNode hn ha) s a h

omit [Identity PublicKey] in
theorem start_proper (addresses : Pair Address) (keypairs : Pair (Keypair PublicKey))
    (now : Instant) : Proper addresses keypairs (start addresses keypairs now) := by
  intro d
  rw [get_start]
  exact ⟨rfl, rfl, fun _ h => (absurd h List.not_mem_nil), fun _ h => (absurd h List.not_mem_nil),
    fun _ h => (absurd h List.not_mem_nil), fun _ h => (absurd h List.not_mem_nil)⟩

end World
end VeilidTransport
