import VeilidTransport.Displacement
import VeilidTransport.World
import VeilidTransport.Foundation.Selected

/-!
# One peer at a time

A node keeps a stream for each of its peers, and futures, connections and calls that are on
their way for any of them.  `only` is what is left of a node when all its peers but one are
taken away, and `view` is what is left of a step.

`step_only` says that a node with many peers does for one of them what a node does that has no
other, so that nothing a peer sends, and nothing the node does for it, is seen by another; the
clock, the local address and the heartbeat are all they share (`peers_apart`).
-/

namespace VeilidTransport

attribute [ext] Transport

namespace Transport
variable {PublicKey : Type}

/-! ## What is left of a node -/

def isFor (remote : Address) (s : VeilidStream PublicKey) : Bool := s.remoteAddress = remote

/-- The handle is of a stream for this remote. -/
def about (n : Transport PublicKey) (remote : Address) (h : Handle) : Bool :=
  n.heap[h]?.any (isFor remote)

/-- The handle of a stream where there are none for other remotes. -/
def place (n : Transport PublicKey) (remote : Address) (h : Handle) : Handle :=
  n.heap.countPBefore (isFor remote) h

def handles (n : Transport PublicKey) (remote : Address) (l : List Handle) : List Handle :=
  (l.filter (n.about remote)).map (n.place remote)

/-- The future is for this remote. -/
def concerns (n : Transport PublicKey) (remote : Address) : Task → Bool
  | .dial _ remoteAddress => remoteAddress = remote
  | .create _ remoteAddress _ _ => remoteAddress = remote
  | .activate h => n.about remote h

def rename (n : Transport PublicKey) (remote : Address) : Task → Task
  | .activate h => .activate (n.place remote h)
  | task => task

/-- The node without its other peers. -/
def only (n : Transport PublicKey) (remote : Address) : Transport PublicKey where
  localAddress := n.localAddress
  myKeypair := n.myKeypair
  streams :=
    match n.streams.lookup remote with
    | some h => AList.singleton remote (n.place remote h)
    | none => ∅
  heap := n.heap.filter (isFor remote)
  tasks := (n.tasks.filter (n.concerns remote)).map (n.rename remote)
  pumps := n.handles remote n.pumps
  now := n.now
  connections := n.handles remote n.connections
  incoming := n.handles remote n.incoming

/-- What is left of a step. -/
def view [KeyCodec] (n : Transport PublicKey) (remote : Address) : Action → Option Action
  | .dial remoteAddress => if remoteAddress = remote then some (.dial remoteAddress) else none
  | .update packet =>
    match VeilidStream.decodeMessage packet with
    | some m => if m.remoteAddress = remote then some (.update packet) else none
    | none => none
  | .resume i target epochSecs =>
    match n.tasks[i]? with
    | some task =>
      if n.concerns remote task then
        some (.resume (n.tasks.countPBefore (n.concerns remote) i) target epochSecs)
      else none
    | none => none
  | .pump i =>
    match n.pumps[i]? with
    | some h =>
      if n.about remote h then some (.pump (n.pumps.countPBefore (n.about remote) i)) else none
    | none => none
  | .heartbeat => some .heartbeat
  | .pollRead h waker len =>
    if n.about remote h then some (.pollRead (n.place remote h) waker len) else none
  | .pollWrite h buf =>
    if n.about remote h then some (.pollWrite (n.place remote h) buf) else none
  | .tick d => some (.tick d)
  | .setLocalAddress localAddress => some (.setLocalAddress localAddress)

/-- What is left of a run. -/
def viewRun [KeyCodec] [Identity PublicKey] (remote : Address) :
    Transport PublicKey → List Action → List Action
  | _, [] => []
  | n, a :: as => (n.view remote a).toList ++ viewRun remote (n.step a) as

/-- **The invariant**: streams are registered for their own address, and every handle has its
stream. -/
structure Held (n : Transport PublicKey) : Prop where
  registered : n.Registered
  tasks : ∀ h, .activate h ∈ n.tasks → h < n.heap.length
  pumps : ∀ h ∈ n.pumps, h < n.heap.length
  connections : ∀ h ∈ n.connections, h < n.heap.length
  incoming : ∀ h ∈ n.incoming, h < n.heap.length

/-! ## Handles -/

variable {n n' : Transport PublicKey} {remote : Address} {h : Handle} {s : VeilidStream PublicKey}

theorem about_of_getElem? (hs : n.heap[h]? = some s) : n.about remote h = isFor remote s := by
  rw [about, hs, Option.any_some]

/-- The stream is where `place` says. -/
theorem getElem?_only (hs : n.heap[h]? = some s) (hfor : isFor remote s = true) :
    (n.only remote).heap[n.place remote h]? = some s :=
  Selected.getElem?_filter hs hfor

/-- The handles that were there mean what they meant. -/
def Alike (remote : Address) (n n' : Transport PublicKey) : Prop :=
  ∀ h < n.heap.length, n'.about remote h = n.about remote h ∧ n'.place remote h = n.place remote h

theorem Alike.handles (ha : Alike remote n n') {l : List Handle}
    (hl : ∀ h ∈ l, h < n.heap.length) : n'.handles remote l = n.handles remote l := by
  unfold Transport.handles
  rw [List.filter_congr fun h hh => (ha h (hl h hh)).1]
  refine List.map_congr_left fun h hh => ?_
  exact (ha h (hl h (List.mem_filter.mp hh).1)).2

theorem Alike.tasks (ha : Alike remote n n') {l : List Task}
    (hl : ∀ h, .activate h ∈ l → h < n.heap.length) :
    (l.filter (n'.concerns remote)).map (n'.rename remote) =
      (l.filter (n.concerns remote)).map (n.rename remote) := by
  have hconcerns : ∀ task ∈ l, n'.concerns remote task = n.concerns remote task := by
    intro task htask
    cases task with
    | activate h => exact (ha h (hl h htask)).1
    | _ => rfl
  rw [List.filter_congr hconcerns]
  refine List.map_congr_left fun task htask => ?_
  cases task with
  | activate h => exact congrArg Task.activate (ha h (hl h (List.mem_filter.mp htask).1)).2
  | _ => rfl

theorem alike_of_heap (hheap : n'.heap = n.heap) : Alike remote n n' := by
  intro h _
  rw [about, place, hheap]
  exact ⟨rfl, rfl⟩

/-- A stream is replaced by one for the same remote. -/
theorem alike_set (hs : n.heap[h]? = some s) {s' : VeilidStream PublicKey}
    (haddr : s'.remoteAddress = s.remoteAddress) (hheap : n'.heap = n.heap.set h s') :
    Alike remote n n' := by
  have hfor : isFor remote s' = isFor remote s := by rw [isFor, isFor, haddr]
  intro g _
  rw [about, place, hheap]
  refine ⟨?_, Selected.countPBefore_set hs hfor⟩
  by_cases hg : h = g
  · subst hg
    rw [List.getElem?_set_self (List.getElem?_eq_some_iff.mp hs).1, about, hs, Option.any_some,
      Option.any_some, hfor]
  · rw [List.getElem?_set_ne hg, about]

/-- A stream is added. -/
theorem alike_append {s : VeilidStream PublicKey} (hheap : n'.heap = n.heap ++ [s]) :
    Alike remote n n' := by
  intro g hg
  rw [about, place, hheap, List.getElem?_append_left hg]
  exact ⟨rfl, Selected.countPBefore_append (Nat.le_of_lt hg) _⟩

/-! ## Changes of the node -/

/-- What `only` makes of the map. -/
theorem streams_only_eq (hn : n.Registered) (ha : Alike remote n n')
    (hlookup : n'.streams.lookup remote = n.streams.lookup remote) :
    (n'.only remote).streams = (n.only remote).streams := by
  unfold only
  dsimp only
  rw [hlookup]
  cases hl : n.streams.lookup remote with
  | none => rfl
  | some h =>
    obtain ⟨s, hs, -⟩ := hn remote h hl
    dsimp only
    rw [(ha h (List.getElem?_eq_some_iff.mp hs).1).2]

/-- A stream for this remote changes. -/
theorem only_set (hn : n.Held) (hs : n.heap[h]? = some s) (hfor : isFor remote s = true)
    {s' : VeilidStream PublicKey} (haddr : s'.remoteAddress = s.remoteAddress) :
    ({ n with heap := n.heap.set h s' } : Transport PublicKey).only remote =
      { n.only remote with heap := (n.only remote).heap.set (n.place remote h) s' } := by
  have ha : Alike remote n { n with heap := n.heap.set h s' } := alike_set hs haddr rfl
  have hfor' : isFor remote s' = true := by rw [isFor, haddr]; exact hfor
  refine Transport.ext rfl rfl ?_ ?_ ?_ ?_ rfl ?_ ?_
  · exact streams_only_eq hn.registered ha rfl
  · exact Selected.filter_set hs hfor hfor'
  · exact ha.tasks hn.tasks
  · exact ha.handles hn.pumps
  · exact ha.handles hn.connections
  · exact ha.handles hn.incoming

/-- A stream for another remote changes. -/
theorem only_set_of_other (hn : n.Held) (hs : n.heap[h]? = some s) (hfor : isFor remote s = false)
    {s' : VeilidStream PublicKey} (haddr : s'.remoteAddress = s.remoteAddress) :
    ({ n with heap := n.heap.set h s' } : Transport PublicKey).only remote = n.only remote := by
  have ha : Alike remote n { n with heap := n.heap.set h s' } := alike_set hs haddr rfl
  have hfor' : isFor remote s' = false := by rw [isFor, haddr]; exact hfor
  refine Transport.ext rfl rfl ?_ ?_ ?_ ?_ rfl ?_ ?_
  · exact streams_only_eq hn.registered ha rfl
  · exact Selected.filter_set_of_neg hs hfor hfor'
  · exact ha.tasks hn.tasks
  · exact ha.handles hn.pumps
  · exact ha.handles hn.connections
  · exact ha.handles hn.incoming

/-- The node works on a stream. -/
theorem only_modifyStream (hn : n.Held) {f : VeilidStream PublicKey → VeilidStream PublicKey}
    (hf : ∀ s, (f s).remoteAddress = s.remoteAddress) : (n.modifyStream h f).only remote =
      if n.about remote h then (n.only remote).modifyStream (n.place remote h) f
      else n.only remote := by
  cases hs : n.heap[h]? with
  | none =>
    have hsame : n.modifyStream h f = n := by
      rw [modifyStream, List.modify_eq_set_getElem?, hs]
      rfl
    rw [hsame, about, hs]
    rfl
  | some s =>
    have hset : n.modifyStream h f = { n with heap := n.heap.set h (f s) } := by
      rw [modifyStream, List.modify_eq_set_getElem?, hs]
      rfl
    rw [hset, about_of_getElem? hs]
    by_cases hfor : isFor remote s = true
    · rw [if_pos hfor, only_set hn hs hfor (hf s), modifyStream, List.modify_eq_set_getElem?,
        getElem?_only hs hfor]
      rfl
    · rw [if_neg hfor]
      exact only_set_of_other hn hs (Bool.eq_false_of_not_eq_true hfor) (hf s)

theorem only_spawn (n : Transport PublicKey) (task : Task) : (n.spawn task).only remote =
    if n.concerns remote task then (n.only remote).spawn (n.rename remote task)
    else n.only remote := by
  by_cases hfor : n.concerns remote task = true
  · rw [if_pos hfor]
    refine Transport.ext rfl rfl rfl rfl ?_ rfl rfl rfl rfl
    show ((n.tasks ++ [task]).filter (n.concerns remote)).map (n.rename remote) = _
    rw [List.filter_append, List.map_append, List.filter_cons_of_pos hfor]
    rfl
  · rw [if_neg hfor]
    refine Transport.ext rfl rfl rfl rfl ?_ rfl rfl rfl rfl
    show ((n.tasks ++ [task]).filter (n.concerns remote)).map (n.rename remote) = _
    rw [List.filter_append, List.filter_cons_of_neg hfor, List.filter_nil, List.append_nil]
    rfl

theorem handles_append (n : Transport PublicKey) (remote : Address) (l : List Handle)
    (h : Handle) :
    n.handles remote (l ++ [h]) = if n.about remote h
      then n.handles remote l ++ [n.place remote h] else n.handles remote l := by
  rw [handles, List.filter_append, List.map_append]
  by_cases hfor : n.about remote h = true
  · rw [if_pos hfor, List.filter_cons_of_pos hfor]
    rfl
  · rw [if_neg hfor, List.filter_cons_of_neg hfor, List.filter_nil, List.map_nil, List.append_nil]
    rfl

theorem only_connect (n : Transport PublicKey) (h : Handle) : (n.connect h).only remote =
    if n.about remote h then (n.only remote).connect (n.place remote h) else n.only remote := by
  have hconnections := n.handles_append remote n.connections h
  by_cases hfor : n.about remote h = true
  · rw [if_pos hfor] at hconnections ⊢
    exact Transport.ext rfl rfl rfl rfl rfl rfl rfl hconnections rfl
  · rw [if_neg hfor] at hconnections ⊢
    exact Transport.ext rfl rfl rfl rfl rfl rfl rfl hconnections rfl

theorem only_activate (n : Transport PublicKey) (h : Handle) : (n.activate h).only remote =
    if n.about remote h then (n.only remote).activate (n.place remote h) else n.only remote := by
  have hconnections := n.handles_append remote n.connections h
  have hincoming := n.handles_append remote n.incoming h
  by_cases hfor : n.about remote h = true
  · rw [if_pos hfor] at hconnections hincoming ⊢
    exact Transport.ext rfl rfl rfl rfl rfl rfl rfl hconnections hincoming
  · rw [if_neg hfor] at hconnections hincoming ⊢
    exact Transport.ext rfl rfl rfl rfl rfl rfl rfl hconnections hincoming

/-- A call is on its way. -/
theorem only_push (n : Transport PublicKey) (remote : Address) (h : Handle) :
    ({ n with pumps := n.pumps ++ [h] } : Transport PublicKey).only remote =
      if n.about remote h then
        { n.only remote with pumps := (n.only remote).pumps ++ [n.place remote h] }
      else n.only remote := by
  have hpumps := n.handles_append remote n.pumps h
  by_cases hfor : n.about remote h = true
  · rw [if_pos hfor] at hpumps ⊢
    exact Transport.ext rfl rfl rfl rfl rfl hpumps rfl rfl rfl
  · rw [if_neg hfor] at hpumps ⊢
    exact Transport.ext rfl rfl rfl rfl rfl hpumps rfl rfl rfl

/-- A future for this remote is taken up. -/
theorem only_eraseTask {i : Nat} {task : Task} (hi : n.tasks[i]? = some task)
    (hfor : n.concerns remote task = true) :
    ({ n with tasks := n.tasks.eraseIdx i } : Transport PublicKey).only remote =
      { n.only remote with
        tasks := (n.only remote).tasks.eraseIdx (n.tasks.countPBefore (n.concerns remote) i) } := by
  refine Transport.ext rfl rfl rfl rfl ?_ rfl rfl rfl rfl
  show ((n.tasks.eraseIdx i).filter (n.concerns remote)).map (n.rename remote) = _
  rw [Selected.filter_eraseIdx hi hfor, ← List.eraseIdx_map]
  rfl

theorem only_eraseTask_of_other {i : Nat} {task : Task} (hi : n.tasks[i]? = some task)
    (hfor : n.concerns remote task = false) :
    ({ n with tasks := n.tasks.eraseIdx i } : Transport PublicKey).only remote =
      n.only remote := by
  refine Transport.ext rfl rfl rfl rfl ?_ rfl rfl rfl rfl
  show ((n.tasks.eraseIdx i).filter (n.concerns remote)).map (n.rename remote) = _
  rw [Selected.filter_eraseIdx_of_neg hi hfor]
  rfl

/-- A call that was on its way for this remote. -/
theorem only_erasePump {i : Nat} (hi : n.pumps[i]? = some h) (hfor : n.about remote h = true) :
    ({ n with pumps := n.pumps.eraseIdx i } : Transport PublicKey).only remote =
      { n.only remote with
        pumps := (n.only remote).pumps.eraseIdx (n.pumps.countPBefore (n.about remote) i) } := by
  refine Transport.ext rfl rfl rfl rfl rfl ?_ rfl rfl rfl
  show ((n.pumps.eraseIdx i).filter (n.about remote)).map (n.place remote) = _
  rw [Selected.filter_eraseIdx hi hfor, ← List.eraseIdx_map]
  rfl

theorem only_erasePump_of_other {i : Nat} (hi : n.pumps[i]? = some h)
    (hfor : n.about remote h = false) :
    ({ n with pumps := n.pumps.eraseIdx i } : Transport PublicKey).only remote =
      n.only remote := by
  refine Transport.ext rfl rfl rfl rfl rfl ?_ rfl rfl rfl
  show ((n.pumps.eraseIdx i).filter (n.about remote)).map (n.place remote) = _
  rw [Selected.filter_eraseIdx_of_neg hi hfor]
  rfl

/-- The stream that is added last. -/
theorem about_insertStream (n : Transport PublicKey) (remote r : Address)
    (s : VeilidStream PublicKey) :
    (n.insertStream r s).about remote n.heap.length = isFor remote s := by
  rw [about, insertStream, List.getElem?_concat_length]
  rfl

theorem place_insertStream (n : Transport PublicKey) (remote r : Address)
    (s : VeilidStream PublicKey) :
    (n.insertStream r s).place remote n.heap.length = (n.only remote).heap.length := by
  show (n.heap ++ [s]).countPBefore (isFor remote) n.heap.length = _
  rw [Selected.countPBefore_append (Nat.le_refl _), Selected.countPBefore_length]
  rfl

theorem only_insertStream (hn : n.Held) (hfor : s.remoteAddress = remote) :
    (n.insertStream remote s).only remote = (n.only remote).insertStream remote s := by
  have ha : Alike remote n (n.insertStream remote s) := alike_append rfl
  have hfor' : isFor remote s = true := decide_eq_true hfor
  refine Transport.ext rfl rfl ?_ ?_ ?_ ?_ rfl ?_ ?_
  · have hplace := n.place_insertStream remote remote s
    show (match (n.streams.insert remote n.heap.length).lookup remote with
      | some h => AList.singleton remote ((n.insertStream remote s).place remote h)
      | none => ∅) = (n.only remote).streams.insert remote (n.only remote).heap.length
    rw [AList.lookup_insert]
    dsimp only
    rw [hplace]
    unfold only
    dsimp only
    cases n.streams.lookup remote with
    | none => rfl
    | some h => exact AList.insert_singleton_eq.symm
  · show (n.heap ++ [s]).filter (isFor remote) = n.heap.filter (isFor remote) ++ [s]
    rw [List.filter_append, List.filter_cons_of_pos hfor']
    rfl
  · exact ha.tasks hn.tasks
  · exact ha.handles hn.pumps
  · exact ha.handles hn.connections
  · exact ha.handles hn.incoming

theorem only_insertStream_of_other (hn : n.Held) {r : Address} (hr : s.remoteAddress = r)
    (hfor : r ≠ remote) : (n.insertStream r s).only remote = n.only remote := by
  have ha : Alike remote n (n.insertStream r s) := alike_append rfl
  have hfor' : ¬ isFor remote s = true := by
    rw [isFor, hr, decide_eq_true_eq]
    exact hfor
  refine Transport.ext rfl rfl ?_ ?_ ?_ ?_ rfl ?_ ?_
  · exact streams_only_eq hn.registered ha (AList.lookup_insert_ne (Ne.symm hfor))
  · show (n.heap ++ [s]).filter (isFor remote) = n.heap.filter (isFor remote)
    rw [List.filter_append, List.filter_cons_of_neg hfor', List.filter_nil, List.append_nil]
  · exact ha.tasks hn.tasks
  · exact ha.handles hn.pumps
  · exact ha.handles hn.connections
  · exact ha.handles hn.incoming

/-! ## What the node finds -/

theorem lookup_only (n : Transport PublicKey) (remote : Address) :
    (n.only remote).streams.lookup remote = (n.streams.lookup remote).map (n.place remote) := by
  unfold only
  dsimp only
  cases n.streams.lookup remote with
  | none => rfl
  | some h =>
    dsimp only
    rw [← AList.insert_empty]
    exact AList.lookup_insert ∅

/-- The stream that is registered for a remote. -/
theorem registered_only (hn : n.Registered) :
    (n.only remote).registered remote = n.registered remote := by
  rw [Transport.registered, Transport.registered, lookup_only]
  cases hl : n.streams.lookup remote with
  | none => rfl
  | some h =>
    obtain ⟨s, hs, haddr⟩ := hn remote h hl
    show (n.only remote).heap[n.place remote h]? = n.heap[h]?
    rw [getElem?_only hs (decide_eq_true haddr), hs]

theorem mem_handles {l : List Handle} (hfor : n.about remote h = true) :
    n.place remote h ∈ n.handles remote l ↔ h ∈ l := by
  constructor
  · intro hmem
    obtain ⟨g, hg, heq⟩ := List.mem_map.mp hmem
    obtain ⟨hgl, hgfor⟩ := List.mem_filter.mp hg
    obtain ⟨s, hs, hsfor⟩ := (Option.any_eq_true _ _).mp hfor
    obtain ⟨t, ht, htfor⟩ := (Option.any_eq_true _ _).mp hgfor
    rwa [← Selected.countPBefore_inj ht htfor hs hsfor heq]
  · intro hmem
    exact List.mem_map.mpr ⟨h, List.mem_filter.mpr ⟨hmem, hfor⟩, rfl⟩

/-! ## Steps -/

theorem only_dial (hn : n.Held) : (n.dial remote).only remote = (n.only remote).dial remote := by
  have hlocal : (n.only remote).localAddress = n.localAddress := rfl
  unfold Transport.dial
  rw [registered_only hn.registered, hlocal]
  cases n.localAddress with
  | none => rfl
  | some localAddress =>
    have hspawn : (n.spawn (.dial localAddress remote)).only remote =
        (n.only remote).spawn (.dial localAddress remote) :=
      (only_spawn n _).trans (if_pos (decide_eq_true rfl))
    dsimp only
    cases n.registered remote with
    | none => exact hspawn
    | some s =>
      dsimp only
      split
      · rfl
      · exact hspawn

theorem only_dial_of_other {r : Address} (hr : r ≠ remote) :
    (n.dial r).only remote = n.only remote := by
  rcases dial_cases n r with heq | ⟨l, -, heq⟩
  · rw [heq]
  · rw [heq, only_spawn, if_neg]
    exact fun h => hr (of_decide_eq_true h)

/-- What remains to be done after a message from this remote. -/
theorem only_follow (hfor : n.about remote h = true) {m : AppMessage}
    (hm : m.remoteAddress = remote) (next : Next) :
    (n.follow h m next).only remote = (n.only remote).follow (n.place remote h) m next := by
  cases next with
  | pending => rfl
  | readyNone => rfl
  | activate =>
    show (n.spawn (.activate h)).only remote = (n.only remote).spawn (.activate (n.place remote h))
    exact (only_spawn n _).trans (if_pos hfor)
  | create =>
    have hlocal : (n.only remote).localAddress = n.localAddress := rfl
    unfold follow
    rw [hlocal]
    cases n.localAddress with
    | none => rfl
    | some localAddress => exact (only_spawn n _).trans (if_pos (decide_eq_true hm))

theorem only_follow_of_other (hfor : n.about remote h = false) {m : AppMessage}
    (hm : m.remoteAddress ≠ remote) (next : Next) :
    (n.follow h m next).only remote = n.only remote := by
  cases next with
  | pending => rfl
  | readyNone => rfl
  | activate =>
    refine (only_spawn n _).trans (if_neg ?_)
    show ¬ n.about remote h = true
    rw [hfor]
    exact Bool.false_ne_true
  | create =>
    unfold follow
    cases n.localAddress with
    | none => rfl
    | some localAddress =>
      exact (only_spawn n _).trans (if_neg fun h => hm (of_decide_eq_true h))

section
variable [KeyCodec] [Identity PublicKey]

theorem only_update (hn : n.Held) {packet : Payload} {m : AppMessage}
    (hm : VeilidStream.decodeMessage packet = some m) (hfor : m.remoteAddress = remote) :
    (n.update packet).only remote = (n.only remote).update packet := by
  subst hfor
  have hlocal : (n.only m.remoteAddress).localAddress = n.localAddress := rfl
  unfold Transport.update
  simp only [hm]
  rw [lookup_only]
  cases hl : n.streams.lookup m.remoteAddress with
  | none =>
    dsimp only [Option.map_none]
    rw [hlocal]
    cases n.localAddress with
    | none => rfl
    | some localAddress =>
      dsimp only
      by_cases hdial : messageType m.data = .dial
      · rw [if_pos hdial, if_pos hdial]
        exact (only_spawn n _).trans (if_pos (decide_eq_true rfl))
      · rw [if_neg hdial, if_neg hdial]
  | some h =>
    obtain ⟨s, hs, haddr⟩ := hn.registered _ h hl
    have hsfor : isFor m.remoteAddress s = true := decide_eq_true haddr
    have haddr' : (s.convertRegistered n.localAddress n.now m).1.remoteAddress = s.remoteAddress :=
      (VeilidStream.handles_identity (VeilidStream.convertRegistered_handles _ _ _ _)).remoteAddress
    simp only [Option.map_some, hs, getElem?_only hs hsfor]
    have halike : Alike m.remoteAddress n { n with
        heap := n.heap.set h (s.convertRegistered n.localAddress n.now m).1 } :=
      alike_set hs haddr' rfl
    have ha := halike h (List.getElem?_eq_some_iff.mp hs).1
    rw [only_follow (ha.1.trans ((about_of_getElem? hs).trans hsfor)) rfl, ha.2,
      only_set hn hs hsfor haddr']
    rfl

theorem only_update_of_other (hn : n.Held) {packet : Payload}
    (hfor : ∀ m, VeilidStream.decodeMessage packet = some m → m.remoteAddress ≠ remote) :
    (n.update packet).only remote = n.only remote := by
  have hu := update_updated n packet
  generalize n.update packet = n' at hu
  cases hu with
  | ignored => rfl
  | dialed m localAddress hm =>
    exact (only_spawn n _).trans (if_neg fun h => hfor m hm (of_decide_eq_true h))
  | handled m h s hm hstream hs =>
    obtain ⟨t, ht, haddr⟩ := hn.registered _ h hstream
    obtain rfl := Option.some.inj (hs.symm.trans ht)
    have hsfor : isFor remote s = false := by
      rw [isFor, haddr]
      exact decide_eq_false (hfor m hm)
    have haddr' : (s.convertRegistered n.localAddress n.now m).1.remoteAddress = s.remoteAddress :=
      (VeilidStream.handles_identity (VeilidStream.convertRegistered_handles _ _ _ _)).remoteAddress
    have halike : Alike remote n { n with
        heap := n.heap.set h (s.convertRegistered n.localAddress n.now m).1 } :=
      alike_set hs haddr' rfl
    have ha := halike h (List.getElem?_eq_some_iff.mp hs).1
    rw [only_follow_of_other (ha.1.trans ((about_of_getElem? hs).trans hsfor)) (hfor m hm),
      only_set_of_other hn hs hsfor haddr']

/-- A future for this remote continues. -/
theorem only_resume (hn : n.Held) {i : Nat} {task : Task} (hi : n.tasks[i]? = some task)
    (hfor : n.concerns remote task = true) (target : Option Target) (epochSecs : Nat) :
    (n.resume i target epochSecs).only remote = (n.only remote).resume
      (n.tasks.countPBefore (n.concerns remote) i) target epochSecs := by
  have hi' : (n.only remote).tasks[n.tasks.countPBefore (n.concerns remote) i]? =
      some (n.rename remote task) := by
    show ((n.tasks.filter (n.concerns remote)).map (n.rename remote))[_]? = _
    rw [List.getElem?_map, Selected.getElem?_filter hi hfor]
    rfl
  have herased := only_eraseTask hi hfor
  have hheld : Held { n with tasks := n.tasks.eraseIdx i } :=
    ⟨hn.registered, fun h hh => hn.tasks h ((List.eraseIdx_sublist n.tasks i).subset hh), hn.pumps,
      hn.connections, hn.incoming⟩
  have hsame : ∀ g, ({ n with tasks := n.tasks.eraseIdx i } : Transport PublicKey).about remote g =
      n.about remote g ∧
      ({ n with tasks := n.tasks.eraseIdx i } : Transport PublicKey).place remote g =
      n.place remote g := fun _ => ⟨rfl, rfl⟩
  unfold Transport.resume
  rw [hi, hi']
  dsimp only
  rw [← herased]
  generalize ({ n with tasks := n.tasks.eraseIdx i } : Transport PublicKey) = n' at *
  cases task with
  | activate h =>
    show (n'.activate h).only remote = (n'.only remote).activate (n.place remote h)
    rw [only_activate, (hsame h).1, (hsame h).2]
    exact if_pos hfor
  | dial l r =>
    obtain rfl : r = remote := of_decide_eq_true hfor
    cases target with
    | none => rfl
    | some target =>
      have hins : (n'.insertStream r (n'.dialStream l r target epochSecs)).only r =
          (n'.only r).insertStream r (n'.dialStream l r target epochSecs) :=
        only_insertStream hheld rfl
      have habout : (n'.insertStream r (n'.dialStream l r target epochSecs)).about r
          n'.heap.length = true := (n'.about_insertStream r r _).trans (decide_eq_true rfl)
      show ((n'.insertStream r (n'.dialStream l r target epochSecs)).connect
        n'.heap.length).only r = _
      rw [only_connect, if_pos habout, hins, place_insertStream]
      rfl
  | create l r id data =>
    obtain rfl : r = remote := of_decide_eq_true hfor
    cases target with
    | none => rfl
    | some target =>
      have haddr := createStream_remoteAddress n' l r target id data epochSecs
      have hins := only_insertStream hheld haddr
      have habout : (n'.insertStream r (n'.createStream l r target id data epochSecs)).about r
          n'.heap.length = true := (n'.about_insertStream r r _).trans (decide_eq_true haddr)
      have hplace := n'.place_insertStream r r (n'.createStream l r target id data epochSecs)
      show ((n'.insertStream r (n'.createStream l r target id data epochSecs)).spawn
        (.activate n'.heap.length)).only r = _
      rw [only_spawn, hins]
      refine (if_pos habout).trans ?_
      show _ = ((n'.only r).insertStream r _).spawn (.activate (n'.only r).heap.length)
      rw [← hplace]
      rfl

theorem only_resume_of_other (hn : n.Held) {i : Nat} {task : Task}
    (hi : n.tasks[i]? = some task) (hfor : n.concerns remote task = false)
    (target : Option Target) (epochSecs : Nat) :
    (n.resume i target epochSecs).only remote = n.only remote := by
  have herased := only_eraseTask_of_other hi hfor
  have hheld : Held { n with tasks := n.tasks.eraseIdx i } :=
    ⟨hn.registered, fun h hh => hn.tasks h ((List.eraseIdx_sublist n.tasks i).subset hh), hn.pumps,
      hn.connections, hn.incoming⟩
  have hsame : ∀ g, ({ n with tasks := n.tasks.eraseIdx i } : Transport PublicKey).about remote g =
      n.about remote g := fun _ => rfl
  unfold Transport.resume
  rw [hi]
  dsimp only
  rw [← herased]
  generalize ({ n with tasks := n.tasks.eraseIdx i } : Transport PublicKey) = n' at *
  cases task with
  | activate h =>
    refine (only_activate n' h).trans (if_neg ?_)
    rw [hsame, show n.about remote h = false from hfor]
    exact Bool.false_ne_true
  | dial l r =>
    have hr : r ≠ remote := of_decide_eq_false hfor
    cases target with
    | none => rfl
    | some target =>
      have hins : (n'.insertStream r (n'.dialStream l r target epochSecs)).only remote =
          n'.only remote := only_insertStream_of_other hheld rfl hr
      have habout : (n'.insertStream r (n'.dialStream l r target epochSecs)).about remote
          n'.heap.length = false := (n'.about_insertStream remote r _).trans (decide_eq_false hr)
      show ((n'.insertStream r (n'.dialStream l r target epochSecs)).connect
        n'.heap.length).only remote = _
      rw [only_connect, hins, habout]
      rfl
  | create l r id data =>
    have hr : r ≠ remote := of_decide_eq_false hfor
    cases target with
    | none => rfl
    | some target =>
      have haddr := createStream_remoteAddress n' l r target id data epochSecs
      have hins := only_insertStream_of_other hheld haddr hr
      have habout : (n'.insertStream r (n'.createStream l r target id data epochSecs)).about remote
          n'.heap.length = false :=
        (n'.about_insertStream remote r _).trans (decide_eq_false (by rw [haddr]; exact hr))
      show ((n'.insertStream r (n'.createStream l r target id data epochSecs)).spawn
        (.activate n'.heap.length)).only remote = _
      rw [only_spawn, hins]
      exact if_neg (Bool.eq_false_iff.mp habout)

/-- A call that was on its way runs. -/
theorem only_pump (hn : n.Held) (remote : Address) {i : Nat} (hi : n.pumps[i]? = some h) :
    (n.pump i).only remote =
    if n.about remote h then (n.only remote).pump (n.pumps.countPBefore (n.about remote) i)
    else n.only remote := by
  have hheld : Held { n with pumps := n.pumps.eraseIdx i } :=
    ⟨hn.registered, hn.tasks, fun g hg => hn.pumps g ((List.eraseIdx_sublist n.pumps i).subset hg),
      hn.connections, hn.incoming⟩
  have hworks : ∀ s : VeilidStream PublicKey,
      (s.generateMessages.sendMessages n.now).remoteAddress = s.remoteAddress := fun s =>
    (VeilidStream.works_identity (.trans (.single (.generate s))
      (VeilidStream.works_sendMessages _ n.now))).remoteAddress
  have hpump : n.pump i = { n with pumps := n.pumps.eraseIdx i }.modifyStream h fun s =>
      s.generateMessages.sendMessages n.now := by
    rw [Transport.pump, hi]
  rw [hpump, only_modifyStream hheld hworks]
  show (if n.about remote h then _ else _) = _
  by_cases hfor : n.about remote h = true
  · rw [if_pos hfor, if_pos hfor, only_erasePump hi hfor]
    have hi' : (n.only remote).pumps[n.pumps.countPBefore (n.about remote) i]? =
        some (n.place remote h) := by
      show ((n.pumps.filter (n.about remote)).map (n.place remote))[_]? = _
      rw [List.getElem?_map, Selected.getElem?_filter hi hfor]
      rfl
    rw [Transport.pump, hi']
    rfl
  · rw [if_neg hfor, if_neg hfor]
    exact only_erasePump_of_other hi (Bool.eq_false_of_not_eq_true hfor)

theorem only_pollRead (hn : n.Held) (remote : Address) (h : Handle) (waker : Waker) (len : Nat) :
    (n.pollRead h waker len).only remote =
      if n.about remote h then (n.only remote).pollRead (n.place remote h) waker len
      else n.only remote := by
  have hworks : ∀ s : VeilidStream PublicKey,
      (s.pollRead n.now waker len).2.remoteAddress = s.remoteAddress := fun s =>
    (VeilidStream.works_identity (VeilidStream.works_pollRead s n.now waker len)).remoteAddress
  unfold Transport.pollRead
  by_cases hfor : n.about remote h = true
  · rw [if_pos hfor]
    have hiff : n.place remote h ∈ (n.only remote).connections ↔ h ∈ n.connections :=
      mem_handles hfor
    by_cases hmem : h ∈ n.connections
    · rw [if_pos hmem, if_pos (hiff.mpr hmem), only_modifyStream hn hworks, if_pos hfor]
      rfl
    · rw [if_neg hmem, if_neg fun hm => hmem (hiff.mp hm)]
  · rw [if_neg hfor]
    split
    · rw [only_modifyStream hn hworks, if_neg hfor]
    · rfl

theorem only_pollWrite (hn : n.Held) (remote : Address) (h : Handle) (buf : Bytes) :
    (n.pollWrite h buf).only remote =
      if n.about remote h then (n.only remote).pollWrite (n.place remote h) buf
      else n.only remote := by
  have hworks : ∀ s : VeilidStream PublicKey,
      (s.pollWrite n.now buf).2.remoteAddress = s.remoteAddress := fun s =>
    (VeilidStream.works_identity (VeilidStream.works_pollWrite s n.now buf)).remoteAddress
  unfold Transport.pollWrite
  by_cases hmem : h ∈ n.connections
  · rw [if_pos hmem]
    cases hs : n.heap[h]? with
    | none =>
      rw [about, hs]
      rfl
    | some s =>
      have hnow : (n.only remote).now = n.now := rfl
      have haddr := hworks s
      dsimp only
      rw [about_of_getElem? hs]
      by_cases hfor : isFor remote s = true
      · have hiff : n.place remote h ∈ (n.only remote).connections ↔ h ∈ n.connections :=
          mem_handles ((about_of_getElem? hs).trans hfor)
        rw [if_pos hfor, if_pos (hiff.mpr hmem), getElem?_only hs hfor]
        dsimp only
        rw [hnow]
        generalize s.pollWrite n.now buf = r at haddr
        have hset := only_set hn hs hfor haddr
        have hpush := only_push { n with heap := n.heap.set h r.2 } remote h
        have halike : Alike remote n { n with heap := n.heap.set h r.2 } := alike_set hs haddr rfl
        obtain ⟨habout, hplace⟩ := halike h (List.getElem?_eq_some_iff.mp hs).1
        rw [habout, about_of_getElem? hs, if_pos hfor, hplace, hset] at hpush
        obtain ⟨p, s'⟩ := r
        cases p with
        | ready x =>
          obtain ⟨k, b⟩ := x
          cases b with
          | true => exact hpush
          | false => exact hset
        | _ => exact hset
      · rw [if_neg hfor]
        generalize s.pollWrite n.now buf = r at haddr
        have hset := only_set_of_other hn hs (Bool.eq_false_of_not_eq_true hfor) haddr
        have hpush := only_push { n with heap := n.heap.set h r.2 } remote h
        have halike : Alike remote n { n with heap := n.heap.set h r.2 } := alike_set hs haddr rfl
        obtain ⟨habout, -⟩ := halike h (List.getElem?_eq_some_iff.mp hs).1
        rw [habout, about_of_getElem? hs, if_neg hfor, hset] at hpush
        obtain ⟨p, s'⟩ := r
        cases p with
        | ready x =>
          obtain ⟨k, b⟩ := x
          cases b with
          | true => exact hpush
          | false => exact hset
        | _ => exact hset
  · rw [if_neg hmem]
    by_cases hfor : n.about remote h = true
    · have hiff : n.place remote h ∈ (n.only remote).connections ↔ h ∈ n.connections :=
        mem_handles hfor
      rw [if_pos hfor, if_neg fun hm => hmem (hiff.mp hm)]
    · rw [if_neg hfor]

/-! ## The heartbeat -/

/-- What minds its streams keeps the invariant. -/
theorem Held.tends (hn : n.Held) (ht : Tends n n') (hpumps : ∀ h ∈ n'.pumps, h < n.heap.length) :
    n'.Held := by
  have hlen := ht.length_heap
  obtain ⟨ts, hts, hdial⟩ := ht.tasks
  refine ⟨ht.registered hn.registered, fun h hh => ?_, fun h hh => ?_, fun h hh => ?_,
    fun h hh => ?_⟩
  · rw [hlen]
    rw [hts] at hh
    rcases List.mem_append.mp hh with hh | hh
    · exact hn.tasks h hh
    · obtain ⟨l, r, heq⟩ := hdial _ hh
      cases heq
  · rw [hlen]
    exact hpumps h hh
  · rw [hlen]
    rw [ht.connections] at hh
    exact hn.connections h hh
  · rw [hlen]
    rw [ht.incoming] at hh
    exact hn.incoming h hh

omit [KeyCodec] [Identity PublicKey] in
/-- The streams of the map that are for this remote. -/
theorem values_only (hn : n.Registered) :
    (n.only remote).streams.values = n.handles remote n.streams.values := by
  have habout : ∀ e ∈ n.streams.entries,
      (n.about remote ∘ Sigma.snd) e = decide (e.1 = remote) := by
    rintro ⟨a, h⟩ he
    obtain ⟨s, hs, haddr⟩ := hn a h (AList.mem_lookup_iff.mpr he)
    rw [Function.comp, about_of_getElem? hs, isFor, haddr]
  rw [handles, KeyedMap.values, KeyedMap.values, List.filter_map, List.filter_congr habout,
    KeyedMap.filter_entries]
  unfold only
  dsimp only
  cases n.streams.lookup remote <;> rfl

/-- The heartbeat visits some streams. -/
theorem only_visit (l : List Handle) (hn : n.Held) (hl : ∀ h ∈ l, h < n.heap.length) :
    (l.foldl (fun n h => n.modifyStream h (heartbeatStream n.now)) n).only remote =
      (n.handles remote l).foldl (fun n h => n.modifyStream h (heartbeatStream n.now))
        (n.only remote) := by
  induction l generalizing n with
  | nil => rfl
  | cons h l ih =>
    have hworks : ∀ s : VeilidStream PublicKey,
        (heartbeatStream n.now s).remoteAddress = s.remoteAddress := fun s =>
      (VeilidStream.works_identity (works_heartbeatStream n.now s)).remoteAddress
    have ht : Tends n (n.modifyStream h (heartbeatStream n.now)) :=
      .modifyStream n h (works_heartbeatStream n.now)
    have hrest : ∀ g ∈ l, g < n.heap.length := fun g hg => hl g (List.mem_cons_of_mem _ hg)
    have halike : Alike remote n (n.modifyStream h (heartbeatStream n.now)) := by
      have hs := List.getElem?_eq_getElem (hl h List.mem_cons_self)
      refine alike_set hs (hworks _) ?_
      rw [modifyStream, List.modify_eq_set_getElem?, hs]
      rfl
    rw [List.foldl_cons, ih (hn.tends ht hn.pumps) fun g hg => ht.length_heap ▸ hrest g hg,
      halike.handles hrest, only_modifyStream hn hworks]
    by_cases hfor : n.about remote h = true
    · rw [if_pos hfor, handles, handles, List.filter_cons_of_pos hfor, List.map_cons,
        List.foldl_cons]
      rfl
    · rw [if_neg hfor, handles, handles, List.filter_cons_of_neg hfor]

omit [KeyCodec] [Identity PublicKey] in
/-- The streams that the heartbeat finds expired. -/
theorem expiredAddresses_only (hn : n.Registered) :
    (n.only remote).expiredAddresses = n.expiredAddresses.filter fun a => decide (a = remote) := by
  have hheap : ∀ l : List Handle,
      (n.handles remote l).filterMap (fun h => (n.only remote).heap[h]?) =
      (l.filterMap fun h => n.heap[h]?).filter (isFor remote) := by
    intro l
    induction l with
    | nil => rfl
    | cons h l ih =>
      cases hs : n.heap[h]? with
      | none =>
        have habout : ¬ n.about remote h = true := by rw [about, hs]; exact Bool.false_ne_true
        rw [handles, List.filter_cons_of_neg habout, List.filterMap_cons_none hs]
        exact ih
      | some s =>
        rw [List.filterMap_cons_some hs]
        by_cases hfor : isFor remote s = true
        · rw [handles, List.filter_cons_of_pos ((about_of_getElem? hs).trans hfor), List.map_cons,
            List.filterMap_cons_some (getElem?_only hs hfor), List.filter_cons_of_pos hfor]
          exact congrArg _ ih
        · rw [handles, List.filter_cons_of_neg (by rw [about_of_getElem? hs]; exact hfor),
            List.filter_cons_of_neg hfor]
          exact ih
  unfold expiredAddresses
  rw [values_only hn, hheap, List.filter_map, List.filter_filter, List.filter_filter]
  congr 2
  funext s
  rw [Function.comp, Bool.and_comm]
  rfl

/-- An expired stream is removed. -/
theorem only_deleteStream (hn : n.Held) (a : Address) : (n.deleteStream a).only remote =
    if a = remote then (n.only remote).deleteStream a else n.only remote := by
  unfold deleteStream
  cases hl : n.streams.lookup a with
  | none =>
    dsimp only
    by_cases heq : a = remote
    · subst heq
      rw [if_pos rfl, lookup_only, hl]
      rfl
    · rw [if_neg heq]
  | some h =>
    obtain ⟨s, hs, haddr⟩ := hn.registered a h hl
    have hheld : Held { n with streams := n.streams.erase a } := by
      refine ⟨fun b g hg => ?_, hn.tasks, hn.pumps, hn.connections, hn.incoming⟩
      have hg' : (n.streams.erase a).lookup b = some g := hg
      rw [KeyedMap.lookup_erase] at hg'
      split at hg'
      · cases hg'
      · exact hn.registered b g hg'
    have hworks : ∀ s : VeilidStream PublicKey, s.wakeToRead.remoteAddress = s.remoteAddress :=
      fun s => (VeilidStream.works_identity (VeilidStream.works_wakeToRead s)).remoteAddress
    have habout : n.about remote h = decide (a = remote) := by
      rw [about_of_getElem? hs, isFor, haddr]
    dsimp only
    rw [only_modifyStream hheld hworks]
    show (if n.about remote h then _ else _) = _
    rw [habout]
    by_cases heq : a = remote
    · subst heq
      have herased : ({ n with streams := n.streams.erase a } : Transport PublicKey).only a =
          { n.only a with streams := (n.only a).streams.erase a } := by
        refine Transport.ext rfl rfl ?_ rfl rfl rfl rfl rfl rfl
        unfold only
        dsimp only
        rw [AList.lookup_erase, hl]
        exact (KeyedMap.erase_singleton a (n.place a h)).symm
      rw [if_pos rfl, if_pos (decide_eq_true rfl), lookup_only, hl, herased]
      rfl
    · rw [if_neg heq, if_neg (by simpa using heq)]
      refine Transport.ext rfl rfl ?_ rfl rfl rfl rfl rfl rfl
      exact streams_only_eq hn.registered (alike_of_heap rfl) (AList.lookup_erase_ne (Ne.symm heq))

theorem only_deletes (l : List Address) (hn : n.Held) : (l.foldl deleteStream n).only remote =
    (l.filter fun a => decide (a = remote)).foldl deleteStream (n.only remote) := by
  induction l generalizing n with
  | nil => rfl
  | cons a l ih =>
    have ht := tends_deleteStream n a
    have hpumps : (n.deleteStream a).pumps = n.pumps := by
      unfold deleteStream
      split <;> rfl
    rw [List.foldl_cons, ih (hn.tends ht (hpumps ▸ hn.pumps)), only_deleteStream hn]
    by_cases heq : a = remote
    · rw [if_pos heq, List.filter_cons, if_pos (decide_eq_true heq), List.foldl_cons]
    · rw [if_neg heq, List.filter_cons, if_neg (by simpa using heq)]

theorem visit_pumps (l : List Handle) (n : Transport PublicKey) :
    (l.foldl (fun n h => n.modifyStream h (heartbeatStream n.now)) n).pumps = n.pumps := by
  induction l generalizing n with
  | nil => rfl
  | cons h l ih => exact ih _

/-- **The heartbeat treats every stream by itself.** -/
theorem only_heartbeat (hn : n.Held) : n.heartbeat.only remote = (n.only remote).heartbeat := by
  have hvalid : ∀ h ∈ n.streams.values, h < n.heap.length := by
    intro h hh
    obtain ⟨a, ha⟩ := KeyedMap.mem_values.mp hh
    obtain ⟨s, hs, -⟩ := hn.registered a h ha
    exact (List.getElem?_eq_some_iff.mp hs).1
  have hvisit : Tends n
      (n.streams.values.foldl (fun n h => n.modifyStream h (heartbeatStream n.now)) n) :=
    .foldl (fun n h => .modifyStream n h (works_heartbeatStream n.now)) _ n
  have hpumps := visit_pumps n.streams.values n
  unfold heartbeat
  dsimp only
  rw [only_deletes _ (hn.tends hvisit (hpumps ▸ hn.pumps)), only_visit _ hn hvalid,
    expiredAddresses_only hn.registered, values_only hn.registered]

/-! ## Runs -/

omit [KeyCodec] [Identity PublicKey] in
theorem held_new (localAddress : Option Address) (keypair : Keypair PublicKey) (now : Instant) :
    (Transport.new localAddress keypair now).Held :=
  ⟨fun _ _ h => (by cases h), fun _ h => absurd h List.not_mem_nil,
    fun _ h => absurd h List.not_mem_nil, fun _ h => absurd h List.not_mem_nil,
    fun _ h => absurd h List.not_mem_nil⟩

/-- The heartbeat starts no calls. -/
theorem heartbeat_pumps (n : Transport PublicKey) : n.heartbeat.pumps = n.pumps := by
  have hdelete : ∀ (n : Transport PublicKey) (a : Address), (n.deleteStream a).pumps = n.pumps := by
    intro n a
    unfold deleteStream
    split <;> rfl
  exact (World.foldl_same (fun n : Transport PublicKey => n.pumps) hdelete _ _).trans
    (visit_pumps _ n)

/-- A step that minds the streams starts calls for connections only. -/
theorem pumps_of_tends {a : Action} (hu : ∀ packet, a ≠ .update packet)
    (hr : ∀ i target epochSecs, a ≠ .resume i target epochSecs) :
    ∀ h ∈ (n.step a).pumps, h ∈ n.pumps ∨ h ∈ n.connections := by
  intro h hh
  cases a with
  | update packet => exact absurd rfl (hu packet)
  | resume i target epochSecs => exact absurd rfl (hr i target epochSecs)
  | dial r =>
    rw [step] at hh
    rcases dial_cases n r with heq | ⟨l, -, heq⟩
    · rw [heq] at hh
      exact .inl hh
    · rw [heq] at hh
      exact .inl hh
  | pump i =>
    rw [step, pump] at hh
    split at hh
    · exact .inl hh
    · exact .inl ((List.eraseIdx_sublist n.pumps i).subset hh)
  | heartbeat =>
    rw [step, heartbeat_pumps] at hh
    exact .inl hh
  | pollRead g waker len =>
    rw [step, pollRead] at hh
    split at hh <;> exact .inl hh
  | pollWrite g buf =>
    rw [step, pollWrite] at hh
    split at hh
    · next hg =>
      split at hh
      · exact .inl hh
      · dsimp only at hh
        split at hh
        · rcases List.mem_append.mp hh with hh | hh
          · exact .inl hh
          · rw [List.mem_singleton.mp hh]
            exact .inr hg
        · exact .inl hh
    · exact .inl hh
  | tick d => exact .inl hh
  | setLocalAddress localAddress => exact .inl hh

omit [KeyCodec] [Identity PublicKey] in
/-- A future is started. -/
theorem Held.spawn (hn : n.Held) {task : Task}
    (htask : ∀ h, task = .activate h → h < n.heap.length) : (n.spawn task).Held := by
  refine ⟨hn.registered, fun h hh => ?_, hn.pumps, hn.connections, hn.incoming⟩
  rcases List.mem_append.mp hh with hh | hh
  · exact hn.tasks h hh
  · exact htask h (List.mem_singleton.mp hh).symm

omit [KeyCodec] [Identity PublicKey] in
/-- A stream is added. -/
theorem Held.insertStream (hn : n.Held) (s : VeilidStream PublicKey) :
    (n.insertStream s.remoteAddress s).Held := by
  have hlt : ∀ {h : Handle}, h < n.heap.length → h < (n.heap ++ [s]).length := by
    intro h hh
    rw [List.length_append]
    exact Nat.lt_add_right _ hh
  exact ⟨hn.registered.insertStream s, fun h hh => hlt (hn.tasks h hh),
    fun h hh => hlt (hn.pumps h hh), fun h hh => hlt (hn.connections h hh),
    fun h hh => hlt (hn.incoming h hh)⟩

omit [KeyCodec] [Identity PublicKey] in
theorem last_lt (l : List (VeilidStream PublicKey)) (s : VeilidStream PublicKey) :
    l.length < (l ++ [s]).length := by
  rw [List.length_append]
  exact Nat.lt_succ_self _

theorem step_held (n : Transport PublicKey) (a : Action) (hn : n.Held) : (n.step a).Held := by
  have hcalls : ∀ h, h ∈ n.pumps ∨ h ∈ n.connections → h < n.heap.length := fun h hh =>
    hh.elim (hn.pumps h) (hn.connections h)
  cases a with
  | update packet =>
    have hreg := step_registered n (.update packet) hn.registered
    show (n.update packet).Held
    have hu := update_updated n packet
    generalize hn' : n.update packet = n' at hu
    rw [step, hn'] at hreg
    cases hu with
    | ignored => exact hn
    | dialed =>
      refine hn.spawn fun h heq => ?_
      cases heq
    | handled m g s hm hstream hs =>
      have hlen : (n.heap.set g (s.convertRegistered n.localAddress n.now m).1).length =
          n.heap.length := List.length_set
      have hset : Held { n with
          heap := n.heap.set g (s.convertRegistered n.localAddress n.now m).1 } := by
        refine ⟨?_, fun h hh => hlen ▸ hn.tasks h hh, fun h hh => hlen ▸ hn.pumps h hh,
          fun h hh => hlen ▸ hn.connections h hh, fun h hh => hlen ▸ hn.incoming h hh⟩
        obtain ⟨hst, hheap, -⟩ := follow_streams { n with
          heap := n.heap.set g (s.convertRegistered n.localAddress n.now m).1 } g m
          (s.convertRegistered n.localAddress n.now m).2
        intro b h hb
        rw [← hst] at hb
        rw [← hheap]
        exact hreg b h hb
      have hg : g < (n.heap.set g (s.convertRegistered n.localAddress n.now m).1).length :=
        hlen ▸ (List.getElem?_eq_some_iff.mp hs).1
      cases (s.convertRegistered n.localAddress n.now m).2 with
      | pending => exact hset
      | readyNone => exact hset
      | activate => exact hset.spawn fun h heq => by cases heq; exact hg
      | create =>
        rw [follow]
        split
        · exact hset
        · refine hset.spawn fun h heq => ?_
          cases heq
  | resume i target epochSecs =>
    show (n.resume i target epochSecs).Held
    have hr := resume_resumed n i target epochSecs
    generalize n.resume i target epochSecs = n' at hr
    have herased : Held { n with tasks := n.tasks.eraseIdx i } :=
      ⟨hn.registered, fun h hh => hn.tasks h ((List.eraseIdx_sublist n.tasks i).subset hh),
        hn.pumps, hn.connections, hn.incoming⟩
    cases hr with
    | idle => exact hn
    | failed => exact herased
    | activated h hi =>
      have hlt := hn.tasks h (List.mem_of_getElem? hi)
      refine ⟨herased.registered, herased.tasks, herased.pumps, fun g hg => ?_, fun g hg => ?_⟩
      · rcases List.mem_append.mp hg with hg | hg
        · exact hn.connections g hg
        · exact List.mem_singleton.mp hg ▸ hlt
      · rcases List.mem_append.mp hg with hg | hg
        · exact hn.incoming g hg
        · exact List.mem_singleton.mp hg ▸ hlt
    | dialed l r remoteTarget =>
      have hins := herased.insertStream (n.dialStream l r remoteTarget epochSecs)
      refine ⟨hins.registered, hins.tasks, hins.pumps, fun g hg => ?_, hins.incoming⟩
      rcases List.mem_append.mp hg with hg | hg
      · exact hins.connections g hg
      · rw [List.mem_singleton.mp hg]
        exact last_lt n.heap _
    | created l r id data remoteTarget =>
      have hins := herased.insertStream (n.createStream l r remoteTarget id data epochSecs)
      rw [createStream_remoteAddress] at hins
      exact hins.spawn fun h heq => by
        cases heq
        exact last_lt n.heap _
  | _ =>
    exact hn.tends (step_tends n (by simp) (by simp)) fun h hh =>
      hcalls h (pumps_of_tends (by simp) (by simp) h hh)

/-- **One step**: for one of its peers a node does what it does that has no other. -/
theorem step_only (hn : n.Held) (remote : Address) (a : Action) : (n.step a).only remote =
    Runs.run step (n.only remote) (n.view remote a).toList := by
  cases a with
  | dial r =>
    rw [view]
    by_cases hr : r = remote
    · subst hr
      rw [if_pos rfl]
      exact only_dial hn
    · rw [if_neg hr]
      exact only_dial_of_other hr
  | update packet =>
    rw [view]
    cases hm : VeilidStream.decodeMessage packet with
    | none => exact only_update_of_other hn fun m h => by rw [hm] at h; cases h
    | some m =>
      dsimp only
      by_cases hfor : m.remoteAddress = remote
      · rw [if_pos hfor]
        exact only_update hn hm hfor
      · rw [if_neg hfor]
        exact only_update_of_other hn fun m' h => by
          rw [hm] at h
          obtain rfl := Option.some.inj h
          exact hfor
  | resume i target epochSecs =>
    rw [view]
    cases hi : n.tasks[i]? with
    | none =>
      have hsame : n.resume i target epochSecs = n := by rw [resume, hi]
      rw [step, hsame]
      rfl
    | some task =>
      dsimp only
      by_cases hfor : n.concerns remote task = true
      · rw [if_pos hfor]
        exact only_resume hn hi hfor target epochSecs
      · rw [if_neg hfor]
        exact only_resume_of_other hn hi (Bool.eq_false_of_not_eq_true hfor) target epochSecs
  | pump i =>
    rw [view]
    cases hi : n.pumps[i]? with
    | none =>
      have hsame : n.pump i = n := by rw [pump, hi]
      rw [step, hsame]
      rfl
    | some h =>
      have hpump := only_pump hn remote hi
      dsimp only
      by_cases hfor : n.about remote h = true
      · rw [if_pos hfor] at hpump ⊢
        exact hpump
      · rw [if_neg hfor] at hpump ⊢
        exact hpump
  | heartbeat => exact only_heartbeat hn
  | pollRead h waker len =>
    have hread := only_pollRead hn remote h waker len
    rw [view]
    by_cases hfor : n.about remote h = true
    · rw [if_pos hfor] at hread ⊢
      exact hread
    · rw [if_neg hfor] at hread ⊢
      exact hread
  | pollWrite h buf =>
    have hwrite := only_pollWrite hn remote h buf
    rw [view]
    by_cases hfor : n.about remote h = true
    · rw [if_pos hfor] at hwrite ⊢
      exact hwrite
    · rw [if_neg hfor] at hwrite ⊢
      exact hwrite
  | tick d => rfl
  | setLocalAddress localAddress => rfl

theorem run_only (hn : n.Held) (remote : Address) (as : List Action) :
    (Runs.run step n as).only remote = Runs.run step (n.only remote) (viewRun remote n as) := by
  induction as generalizing n with
  | nil => rfl
  | cons a as ih =>
    rw [Runs.run_cons, ih (step_held n a hn), step_only hn, viewRun, Runs.run_append]

/-- A dial, or a message, of this remote, or no dial and no message. -/
def OfRemote (remote : Address) : Action → Prop
  | .dial remoteAddress => remoteAddress = remote
  | .update packet => ∃ m, VeilidStream.decodeMessage packet = some m ∧ m.remoteAddress = remote
  | _ => True

omit [Identity PublicKey] in
theorem view_ofRemote (n : Transport PublicKey) (remote : Address) (a : Action) :
    ∀ b ∈ n.view remote a, OfRemote remote b := by
  intro b hb
  cases a with
  | dial r =>
    rw [view] at hb
    split at hb
    · next hr =>
      obtain rfl := Option.some.inj hb
      exact hr
    · cases hb
  | update packet =>
    rw [view] at hb
    split at hb
    · next m hm =>
      split at hb
      · next hr =>
        obtain rfl := Option.some.inj hb
        exact ⟨m, hm, hr⟩
      · cases hb
    · cases hb
  | resume i target epochSecs =>
    rw [view] at hb
    split at hb
    · split at hb
      · obtain rfl := Option.some.inj hb
        exact trivial
      · cases hb
    · cases hb
  | pump i =>
    rw [view] at hb
    split at hb
    · split at hb
      · obtain rfl := Option.some.inj hb
        exact trivial
      · cases hb
    · cases hb
  | pollRead h waker len =>
    rw [view] at hb
    split at hb
    · obtain rfl := Option.some.inj hb
      exact trivial
    · cases hb
  | pollWrite h buf =>
    rw [view] at hb
    split at hb
    · obtain rfl := Option.some.inj hb
      exact trivial
    · cases hb
  | _ =>
    obtain rfl := Option.some.inj hb
    exact trivial

theorem viewRun_ofRemote (remote : Address) (n : Transport PublicKey) (as : List Action) :
    ∀ b ∈ viewRun remote n as, OfRemote remote b := by
  induction as generalizing n with
  | nil => exact fun _ hb => absurd hb List.not_mem_nil
  | cons a as ih =>
    intro b hb
    rcases List.mem_append.mp hb with hb | hb
    · exact view_ofRemote n remote a b (Option.mem_toList.mp hb)
    · exact ih _ b hb

/-- **Peers do not disturb each other**: in every run, what a node has for one of its peers is
what a node has that is dialed by, hears from and dials no other, in the view of the run. -/
theorem peers_apart (remote : Address) (localAddress : Option Address)
    (keypair : Keypair PublicKey) (now : Instant) (as : List Action) :
    let n := Runs.run step (new localAddress keypair now) as
    let bs := viewRun remote (new localAddress keypair now) as
    (∀ b ∈ bs, OfRemote remote b) ∧
      Runs.run step (new localAddress keypair now) bs = n.only remote ∧
      (Runs.run step (new localAddress keypair now) bs).registered remote =
        n.registered remote := by
  intro n bs
  have hn : n.Held := Runs.invariant step_held (held_new localAddress keypair now) as
  have hrun : Runs.run step (new localAddress keypair now) bs = n.only remote :=
    (run_only (held_new localAddress keypair now) remote as).symm
  refine ⟨viewRun_ofRemote remote _ as, hrun, ?_⟩
  rw [hrun, registered_only hn.registered]

end

end Transport
end VeilidTransport
