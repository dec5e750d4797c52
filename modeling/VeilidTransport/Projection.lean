import VeilidTransport.Incarnations
import VeilidTransport.Fidelity
import VeilidTransport.KeepAlive

/-!
# The sessions of two nodes

A session is two streams and a network between them; two nodes make stream after stream,
and have maps, futures, heartbeats and the payloads of all their streams.  Here one stream of
each node is watched, with what its connections have accepted and returned.

`session_of_run` says that as long as the two handle nothing but each other's messages, and
no heartbeat removes one of them, all that the nodes do comes down to a run of a paired
session: what holds of every session holds of the two streams.  `reads_of_writes` is this
for the bytes that come out of a connection.
-/

namespace VeilidTransport

namespace Endpoint
variable {PublicKey : Type} [KeyCodec] [Identity PublicKey]

/-- An endpoint whose stream was just made. -/
structure Fresh (e : Endpoint PublicKey) : Prop where
  inbound : ∃ t, e.stream.inbound = Inbound.new t
  outbound : ∃ t, e.stream.outbound = Outbound.new t
  sent : e.stream.sent = []
  accepted : e.accepted = []
  returned : e.returned = []

/-- What a side does by itself, one thing after another. -/
def acts (e : Endpoint PublicKey) (es : List Event) : Endpoint PublicKey := es.foldl act e

theorem works_acts (e : Endpoint PublicKey) (es : List Event) :
    VeilidStream.Works e.stream (e.acts es).stream := by
  induction es generalizing e with
  | nil => exact .refl
  | cons a es ih => exact (works_act e a).trans (ih (e.act a))

/-- A buffer that is written is shorter than `2 ^ 32` bytes. -/
def Event.Short : Event → Prop
  | .write buf => buf.length < 2 ^ 32
  | _ => True

end Endpoint

/-! ## One stream of a node -/

namespace Transport
open VeilidStream
variable {PublicKey : Type} [KeyCodec] [Identity PublicKey]

/-- No message changes the stream in the step, and no heartbeat removes it. -/
def Apart (n : Transport PublicKey) (h : Handle) : Action → Prop
  | .update packet => (n.update packet).heap[h]? = n.heap[h]?
  | .heartbeat => ∀ r, n.streams.lookup r = some h → n.heartbeat.streams.lookup r = some h
  | .setLocalAddress _ => False
  | _ => True

/-- The buffer that a connection over the stream accepts in the step, if it does. -/
def acceptedIn (n : Transport PublicKey) (h : Handle) : Action → List Bytes
  | .pollWrite g buf =>
    if g = h ∧ g ∈ n.connections then
      match n.heap[g]? with
      | none => []
      | some s =>
        match (s.pollWrite n.now buf).1 with
        | .ready _ => [buf]
        | _ => []
    else []
  | _ => []

/-- The bytes that a connection over the stream returns in the step. -/
def returnedIn (n : Transport PublicKey) (h : Handle) : Action → Bytes
  | .pollRead g waker len =>
    if g = h ∧ g ∈ n.connections then
      match n.heap[g]? with
      | none => []
      | some s =>
        match (s.pollRead n.now waker len).1 with
        | .ready data => data
        | _ => []
    else []
  | _ => []

/-- The endpoint is the stream as the node has it, with its history. -/
structure Shows (n : Transport PublicKey) (h : Handle) (accepted : List Bytes) (returned : Bytes)
    (e : Endpoint PublicKey) : Prop where
  stream : n.heap[h]? = some e.stream
  localAddress : e.localAddress = n.localAddress
  now : e.now = n.now
  accepted : e.accepted = accepted
  returned : e.returned = returned

variable {n n' : Transport PublicKey} {h : Handle} {accepted : List Bytes} {returned : Bytes}
  {e : Endpoint PublicKey}

omit [KeyCodec] [Identity PublicKey] in
/-- The step is no concern of the stream. -/
theorem Shows.same (hs : Shows n h accepted returned e) (hheap : n'.heap[h]? = n.heap[h]?)
    (hlocal : n'.localAddress = n.localAddress) (hnow : n'.now = n.now) :
    Shows n' h accepted returned e :=
  ⟨hheap.trans hs.stream, hs.localAddress.trans hlocal.symm, hs.now.trans hnow.symm, hs.accepted,
    hs.returned⟩

omit [KeyCodec] [Identity PublicKey] in
/-- The node works on a stream, and the stream is worked on at the endpoint. -/
theorem Shows.modifyStream (hs : Shows n h accepted returned e)
    (f : VeilidStream PublicKey → VeilidStream PublicKey) :
    Shows (n.modifyStream h f) h accepted returned { e with stream := f e.stream } := by
  refine ⟨?_, hs.localAddress, hs.now, hs.accepted, hs.returned⟩
  rw [Transport.modifyStream, List.getElem?_modify, hs.stream]
  simp

omit [KeyCodec] [Identity PublicKey] in
theorem Shows.modifyStream_of_ne (hs : Shows n h accepted returned e) {g : Handle} (hg : g ≠ h)
    (f : VeilidStream PublicKey → VeilidStream PublicKey) :
    Shows (n.modifyStream g f) h accepted returned e := by
  refine hs.same ?_ rfl rfl
  simp [Transport.modifyStream, hg]

/-- The heartbeat visits its streams. -/
theorem Shows.visit (l : List Handle) (hs : Shows n h accepted returned e) :
    ∃ k, Shows (l.foldl (fun n g => n.modifyStream g (heartbeatStream n.now)) n) h accepted
      returned (e.acts (List.replicate k .heartbeat)) := by
  induction l generalizing n e with
  | nil => exact ⟨0, hs⟩
  | cons g l ih =>
    by_cases hg : g = h
    · subst hg
      obtain ⟨k, hk⟩ := ih (hs.modifyStream (heartbeatStream n.now))
      have hacts : e.acts (List.replicate (k + 1) .heartbeat) =
          Endpoint.acts { e with stream := heartbeatStream n.now e.stream }
            (List.replicate k .heartbeat) := by
        rw [List.replicate_succ, Endpoint.acts, List.foldl_cons, Endpoint.act, hs.now]
        rfl
      refine ⟨k + 1, ?_⟩
      rw [hacts]
      exact hk
    · exact ih (hs.modifyStream_of_ne hg _)

omit [KeyCodec] [Identity PublicKey] in
/-- Streams are removed, this one not. -/
theorem Shows.deletes (l : List Address) (hs : Shows n h accepted returned e)
    (hkept : ∀ r ∈ l, n.streams.lookup r ≠ some h) :
    Shows (l.foldl deleteStream n) h accepted returned e := by
  induction l generalizing n with
  | nil => exact hs
  | cons r l ih =>
    have hr := hkept r List.mem_cons_self
    refine ih ?_ fun a ha => ?_
    · refine hs.same ?_ ?_ (deleteStream_now n r)
      · rw [deleteStream_getElem?, if_neg hr]
      · unfold deleteStream
        split <;> rfl
    · rw [deleteStream_lookup]
      split
      · simp
      · exact hkept a (List.mem_cons_of_mem _ ha)

/-- **The heartbeat of a node is one of the endpoint**, or none. -/
theorem Shows.heartbeat (hs : Shows n h accepted returned e) (happart : n.Apart h .heartbeat) :
    ∃ k, Shows n.heartbeat h accepted returned (e.acts (List.replicate k .heartbeat)) := by
  obtain ⟨k, hk⟩ := hs.visit n.streams.values
  refine ⟨k, hk.deletes n.expiredAddresses fun r hr hlookup => ?_⟩
  rw [visit_streams] at hlookup
  have hkept := happart r hlookup
  rw [heartbeat_lookup, if_pos hr] at hkept
  cases hkept

/-- A message leaves the address and the clock alone. -/
theorem update_localAddress (n : Transport PublicKey) (packet : Payload) :
    (n.update packet).localAddress = n.localAddress := by
  have hu := update_updated n packet
  generalize n.update packet = n' at hu
  cases hu with
  | ignored => rfl
  | dialed => rfl
  | handled m g s => exact (World.follow_proper _ _ _ _).1

/-- What a connection over the stream is asked to read, the endpoint reads. -/
theorem Shows.pollRead (hs : Shows n h accepted returned e) (hc : h ∈ n.connections)
    (waker : Waker) (len : Nat) :
    Shows (n.step (.pollRead h waker len)) h accepted
      (returned ++ n.returnedIn h (.pollRead h waker len)) (e.act (.read waker len)) := by
  have hread : n.step (.pollRead h waker len) =
      n.modifyStream h fun s => (s.pollRead n.now waker len).2 := by
    rw [step, Transport.pollRead, if_pos hc]
  have hm := hs.modifyStream fun s => (s.pollRead n.now waker len).2
  rw [hread, returnedIn, if_pos ⟨rfl, hc⟩, hs.stream, Endpoint.act, Endpoint.read, hs.now]
  dsimp only
  have hstream := hm.stream
  rcases pollRead_cases e.stream n.now waker len with ⟨-, hr⟩ | ⟨-, -, hr⟩ | ⟨-, -, hr⟩
  · rw [hr] at hstream ⊢
    exact ⟨hstream, hs.localAddress, rfl, hs.accepted, hs.returned.trans (List.append_nil _).symm⟩
  · rw [hr] at hstream ⊢
    exact ⟨hstream, hs.localAddress, rfl, hs.accepted, congrArg (· ++ _) hs.returned⟩
  · rw [hr] at hstream ⊢
    exact ⟨hstream, hs.localAddress, rfl, hs.accepted, hs.returned.trans (List.append_nil _).symm⟩

/-- What is written to a connection over the stream is written at the endpoint. -/
theorem Shows.pollWrite (hs : Shows n h accepted returned e) (hc : h ∈ n.connections)
    (buf : Bytes) :
    Shows (n.step (.pollWrite h buf)) h (accepted ++ n.acceptedIn h (.pollWrite h buf)) returned
      (e.act (.write buf)) := by
  have hset : ∀ s : VeilidStream PublicKey, (n.heap.set h s)[h]? = some s := fun s =>
    List.getElem?_set_self (List.getElem?_eq_some_iff.mp hs.stream).1
  rw [step, Transport.pollWrite, if_pos hc, acceptedIn, if_pos ⟨rfl, hc⟩, hs.stream, Endpoint.act,
    Endpoint.write, hs.now]
  dsimp only
  rcases pollWrite_cases e.stream n.now buf with ⟨-, hw⟩ | ⟨-, hw⟩
  · rw [hw]
    exact ⟨hset _, hs.localAddress, rfl, hs.accepted.trans (List.append_nil _).symm, hs.returned⟩
  · rw [hw]
    have haccepted : e.accepted ++ [buf] = accepted ++ [buf] := congrArg (· ++ _) hs.accepted
    cases e.stream.isActive n.now with
    | true => exact ⟨hset _, hs.localAddress, rfl, haccepted, hs.returned⟩
    | false => exact ⟨hset _, hs.localAddress, rfl, haccepted, hs.returned⟩

/-- **A step of the node that does not concern the stream, or only by the node's own work on
it**, is what the endpoint does by itself. -/
theorem Shows.own (hs : Shows n h accepted returned e) {a : Action} (happart : n.Apart h a) :
    ∃ es, Shows (n.step a) h (accepted ++ n.acceptedIn h a) (returned ++ n.returnedIn h a)
      (e.acts es) ∧ ∀ buf, .write buf ∈ es → a = .pollWrite h buf := by
  have hquiet : ∀ {n' : Transport PublicKey} (es : List Endpoint.Event),
      Shows n' h accepted returned (e.acts es) → (∀ buf, .write buf ∉ es) →
      ∃ es, Shows n' h (accepted ++ []) (returned ++ []) (e.acts es) ∧
        ∀ buf, .write buf ∈ es → a = .pollWrite h buf := by
    intro n' es hs' hes
    rw [List.append_nil, List.append_nil]
    exact ⟨es, hs', fun buf hbuf => absurd hbuf (hes buf)⟩
  have hsame : ∀ {n' : Transport PublicKey}, n'.heap[h]? = n.heap[h]? →
      n'.localAddress = n.localAddress → n'.now = n.now →
      ∃ es, Shows n' h (accepted ++ []) (returned ++ []) (e.acts es) ∧
        ∀ buf, .write buf ∈ es → a = .pollWrite h buf := fun hheap hlocal hnow =>
    hquiet [] (hs.same hheap hlocal hnow) fun _ => List.not_mem_nil
  cases a with
  | dial r =>
    rcases dial_cases n r with hd | ⟨l, -, hd⟩
    · exact hsame (by rw [step, hd]) (by rw [step, hd]) (by rw [step, hd])
    · exact hsame (by rw [step, hd]; rfl) (by rw [step, hd]; rfl) (by rw [step, hd]; rfl)
  | update packet =>
    exact hsame happart (update_localAddress n packet) (step_now n (by simp))
  | resume i target epochSecs =>
    have hheap : ∀ s : VeilidStream PublicKey, (n.heap ++ [s])[h]? = n.heap[h]? := fun s =>
      List.getElem?_append_left (List.getElem?_eq_some_iff.mp hs.stream).1
    have hr := resume_resumed n i target epochSecs
    have hstep : n.step (.resume i target epochSecs) = n.resume i target epochSecs := rfl
    rw [hstep]
    generalize n.resume i target epochSecs = n' at hr
    cases hr with
    | idle => exact hsame rfl rfl rfl
    | failed => exact hsame rfl rfl rfl
    | activated => exact hsame rfl rfl rfl
    | dialed => exact hsame (hheap _) rfl rfl
    | created => exact hsame (hheap _) rfl rfl
  | pump i =>
    rw [step, pump]
    split
    · exact hsame rfl rfl rfl
    · next g hi =>
      have hs' : Shows { n with pumps := n.pumps.eraseIdx i } h accepted returned e :=
        hs.same rfl rfl rfl
      by_cases hg : g = h
      · subst hg
        have hacts : e.acts [.generate, .send] =
            { e with stream := e.stream.generateMessages.sendMessages n.now } := by
          rw [← hs.now]
          rfl
        refine hquiet [.generate, .send] ?_ (by simp)
        rw [hacts]
        exact hs'.modifyStream fun s => s.generateMessages.sendMessages n.now
      · exact hquiet [] (hs'.modifyStream_of_ne hg _) (by simp)
  | heartbeat =>
    obtain ⟨k, hk⟩ := hs.heartbeat happart
    exact hquiet _ hk (by simp)
  | pollRead g waker len =>
    by_cases hg : g = h ∧ g ∈ n.connections
    · obtain ⟨rfl, hc⟩ := hg
      refine ⟨[.read waker len], ?_, by simp⟩
      have hr := hs.pollRead hc waker len
      rw [← List.append_nil accepted] at hr
      exact hr
    · have hret : n.returnedIn h (.pollRead g waker len) = [] := if_neg hg
      rw [hret, step, Transport.pollRead]
      split
      · next hc =>
        exact hquiet [] (hs.modifyStream_of_ne (fun heq => hg ⟨heq, hc⟩) _) (by simp)
      · exact hsame rfl rfl rfl
  | pollWrite g buf =>
    by_cases hg : g = h ∧ g ∈ n.connections
    · obtain ⟨rfl, hc⟩ := hg
      refine ⟨[.write buf], ?_, by simp⟩
      have hw := hs.pollWrite hc buf
      rw [← List.append_nil returned] at hw
      exact hw
    · have hacc : n.acceptedIn h (.pollWrite g buf) = [] := if_neg hg
      rw [hacc, step, Transport.pollWrite]
      split
      · next hc =>
        have hne : g ≠ h := fun heq => hg ⟨heq, hc⟩
        split
        · exact hsame rfl rfl rfl
        · next s _ =>
          have hset : (n.heap.set g (s.pollWrite n.now buf).2)[h]? = n.heap[h]? :=
            List.getElem?_set_ne hne
          simp only
          split
          · exact hsame hset rfl rfl
          · exact hsame hset rfl rfl
      · exact hsame rfl rfl rfl
  | tick d =>
    refine hquiet [.tick d] ⟨hs.stream, hs.localAddress, ?_, hs.accepted, hs.returned⟩
      (by simp)
    exact congrArg (· + d) hs.now
  | setLocalAddress l => exact happart.elim

theorem resume_localAddress (n : Transport PublicKey) (i : Nat) (target : Option Target)
    (epochSecs : Nat) : (n.resume i target epochSecs).localAddress = n.localAddress := by
  have hr := resume_resumed n i target epochSecs
  generalize n.resume i target epochSecs = n' at hr
  cases hr <;> rfl

/-- The first heartbeat of a stream that dials sends its `DIAL`. -/
theorem heartbeatStream_dial {s : VeilidStream PublicKey} (hs : s.status = .dial)
    (hrecent : s.isRecent n.now = true) : heartbeatStream n.now s = s.sendDial := by
  simp [heartbeatStream, isActive, isExpired, getStatus, hs, hrecent]

theorem heartbeatStream_listen {s : VeilidStream PublicKey} (hs : s.status = .listen)
    (hrecent : s.isRecent n.now = true) : heartbeatStream n.now s = s.sendListen := by
  simp [heartbeatStream, isActive, isExpired, getStatus, hs, hrecent]

omit [KeyCodec] [Identity PublicKey] in
/-- Over a stream that is not there nothing is written or read. -/
theorem history_of_none (hnone : n.heap[h]? = none) (a : Action) :
    n.acceptedIn h a = [] ∧ n.returnedIn h a = [] := by
  cases a with
  | pollWrite g buf =>
    refine ⟨?_, rfl⟩
    rw [acceptedIn]
    split
    · next hg => rw [hg.1, hnone]
    · rfl
  | pollRead g waker len =>
    refine ⟨rfl, ?_⟩
    rw [returnedIn]
    split
    · next hg => rw [hg.1, hnone]
    · rfl
  | _ => exact ⟨rfl, rfl⟩

/-- **A stream is made** as a fresh endpoint that sends its greeting. -/
theorem shows_new (hnone : n.heap[h]? = none) {a : Action} {x : VeilidStream PublicKey}
    (hx : (n.step a).heap[h]? = some x) :
    (∃ i target epochSecs, a = .resume i target epochSecs) ∧
      ∃ e : Endpoint PublicKey, e.Fresh ∧
        Shows (n.step a) h (n.acceptedIn h a) (n.returnedIn h a) (e.act .heartbeat) := by
  have hrecent : ∀ s : VeilidStream PublicKey, s.inbound = Inbound.new n.now →
      s.isRecent n.now = true := by
    intro s hs
    rw [isRecent, hs]
    simp [Inbound.new, secs, settings]
  have hmade : ∀ {i target epochSecs} {s : VeilidStream PublicKey},
      ((n.step (.resume i target epochSecs)).heap[h]? = some (heartbeatStream n.now s)) →
      s.inbound = Inbound.new n.now → s.outbound = Outbound.new n.now → s.sent = [] →
      (∃ i' target' epochSecs', Action.resume i target epochSecs = .resume i' target' epochSecs') ∧
        ∃ e : Endpoint PublicKey, e.Fresh ∧
          Shows (n.step (.resume i target epochSecs)) h [] [] (e.act .heartbeat) := by
    intro i target epochSecs s hheap hin hout hsent
    refine ⟨⟨i, target, epochSecs, rfl⟩, ⟨s, n.localAddress, n.now, [], []⟩, ⟨⟨_, hin⟩, ⟨_, hout⟩, hsent, rfl, rfl⟩,
      hheap, ?_, ?_, rfl, rfl⟩
    · exact (resume_localAddress n i target epochSecs).symm
    · exact (step_now n (by simp)).symm
  cases step_became n a hx with
  | worked _ s _ hs => rw [hnone] at hs; cases hs
  | handled packet m s hm hstream hs => rw [hnone] at hs; cases hs
  | dialed i target epochSecs l r remoteTarget hi =>
    refine hmade (s := .new l r remoteTarget 0 n.myKeypair epochSecs n.now) ?_ rfl rfl rfl
    rw [hx, heartbeatStream_dial rfl (hrecent _ rfl)]
    rfl
  | created i target epochSecs l r id data remoteTarget hi =>
    obtain ⟨key, hk⟩ := extractKey_eq (.new l r remoteTarget id n.myKeypair epochSecs n.now)
      dialWord data
    rw [createStream, hk] at hx
    refine hmade (s := updateStatus (updateRemoteStreamId { VeilidStream.new l r remoteTarget id
      n.myKeypair epochSecs n.now with remotePublicKey := key } id) .listen) ?_ rfl rfl rfl
    rw [hx, heartbeatStream_listen rfl (hrecent _ rfl)]

end Transport

/-! ## A stream of each node -/

/-- Two nodes, with one stream of each: what its connections have accepted and returned. -/
structure Watched (PublicKey : Type) where
  world : World PublicKey
  accepted : Pair (List Bytes)
  returned : Pair Bytes

namespace World
open VeilidStream
variable {PublicKey : Type} [KeyCodec] [Identity PublicKey]

/-- Each of the two streams has an id, and knows the other's or none. -/
def Acquainted (handles : Pair Handle) (w : World PublicKey) : Prop :=
  ∀ d, ∀ x ∈ (w.get d).heap[handles.get d]?, x.myStreamId ≠ 0 ∧
    ∀ y ∈ (w.get d.other).heap[handles.get d.other]?,
      x.remoteStreamId = 0 ∨ x.remoteStreamId = y.myStreamId

/-- **The two streams are alone**: a message that changes one of them was sent by the other, no
heartbeat removes them, and they are acquainted when they are made. -/
def Alone (handles : Pair Handle) (w : World PublicKey) : Action → Prop
  | .deliver d h k => h = handles.get d.other ∨
      ∀ p ∈ payload (w.get d.other) h k, (w.get d).Apart (handles.get d) (.update p)
  | .dial _ => True
  | .resume d i target epochSecs => Acquainted handles (w.step (.resume d i target epochSecs))
  | .chore d c => (w.get d).Apart (handles.get d) c.action

/-- A buffer written to one of the streams is shorter than `2 ^ 32` bytes, and a message one of
them takes leaves no complete slices with part of a length behind them. -/
def Whole (handles : Pair Handle) (w : World PublicKey) : Action → Prop
  | .deliver d h k => h = handles.get d.other → ∀ p ∈ payload (w.get d.other) h k,
      ∀ m ∈ decodeMessage p, (w.get d).streams.lookup m.remoteAddress = some (handles.get d) →
        ∀ x ∈ (w.get d).heap[handles.get d]?,
          Accepts x (w.get d).localAddress (w.get d).now m →
          ¬ Inbound.Straddles (x.inbound.bufferAfter m.seq m.data)
  | .chore d (.pollWrite h buf) => h = handles.get d → buf.length < 2 ^ 32
  | _ => True

instance (handles : Pair Handle) (w : World PublicKey) : Decidable (Acquainted handles w) :=
  decidable_of_iff
    ((∀ x ∈ (w.get .left).heap[handles.get .left]?, x.myStreamId ≠ 0 ∧
        ∀ y ∈ (w.get .right).heap[handles.get .right]?,
          x.remoteStreamId = 0 ∨ x.remoteStreamId = y.myStreamId) ∧
      ∀ x ∈ (w.get .right).heap[handles.get .right]?, x.myStreamId ≠ 0 ∧
        ∀ y ∈ (w.get .left).heap[handles.get .left]?,
          x.remoteStreamId = 0 ∨ x.remoteStreamId = y.myStreamId)
    ⟨fun ⟨hl, hr⟩ d => by cases d; exacts [hl, hr], fun h => ⟨h .left, h .right⟩⟩

instance (handles : Pair Handle) (w : World PublicKey) : ∀ a, Decidable (Whole handles w a)
  | .deliver d h k => inferInstanceAs (Decidable (h = handles.get d.other →
      ∀ p ∈ payload (w.get d.other) h k, ∀ m ∈ decodeMessage p,
        (w.get d).streams.lookup m.remoteAddress = some (handles.get d) →
        ∀ x ∈ (w.get d).heap[handles.get d]?,
          Accepts x (w.get d).localAddress (w.get d).now m →
          ¬ Inbound.Straddles (x.inbound.bufferAfter m.seq m.data)))
  | .chore d (.pollWrite h buf) =>
    inferInstanceAs (Decidable (h = handles.get d → buf.length < 2 ^ 32))
  | .chore _ (.pump _) => inferInstanceAs (Decidable True)
  | .chore _ .heartbeat => inferInstanceAs (Decidable True)
  | .chore _ (.pollRead _ _ _) => inferInstanceAs (Decidable True)
  | .chore _ (.tick _) => inferInstanceAs (Decidable True)
  | .resume _ _ _ _ => inferInstanceAs (Decidable True)
  | .dial _ => inferInstanceAs (Decidable True)

end World

namespace Session
variable {PublicKey : Type} [KeyCodec] [Identity PublicKey]

/-- The same of a session. -/
def Whole (s : Session PublicKey) (a : Action) : Prop :=
  s.NoStraddle a ∧ ∀ d buf, a = .act d (.write buf) → buf.length < 2 ^ 32

theorem run_acts (s : Session PublicKey) (d : Side) (es : List Endpoint.Event) :
    Runs.run step s (es.map (.act d)) = s.set d ((s.get d).acts es) := by
  induction es generalizing s with
  | nil => exact (Pair.set_get s d).symm
  | cons e es ih =>
    rw [List.map_cons, Runs.run_cons, ih, step, Pair.get_set_self, Pair.set_set]
    rfl

theorem along_acts (s : Session PublicKey) (d : Side) (es : List Endpoint.Event)
    (hshort : ∀ buf, .write buf ∈ es → buf.length < 2 ^ 32) :
    Runs.Along step Whole s (es.map (.act d)) := by
  induction es generalizing s with
  | nil => exact trivial
  | cons e es ih =>
    refine ⟨⟨trivial, fun d' buf ha => hshort buf ?_⟩, ih _ fun buf hb =>
      hshort buf (List.mem_cons_of_mem _ hb)⟩
    cases ha
    exact List.mem_cons_self

end Session

namespace Watched
open VeilidStream
variable {PublicKey : Type} [KeyCodec] [Identity PublicKey]

/-- Two nodes that have just started. -/
def start (addresses : Pair Address) (keypairs : Pair (Keypair PublicKey)) (now : Instant) :
    Watched PublicKey :=
  ⟨World.start addresses keypairs now, ⟨[], []⟩, ⟨[], []⟩⟩

def step (handles : Pair Handle) (o : Watched PublicKey) (a : World.Action) :
    Watched PublicKey :=
  match o.world.move a with
  | none => o
  | some (d, b) =>
    { world := o.world.step a
      accepted := o.accepted.set d
        (o.accepted.get d ++ (o.world.get d).acceptedIn (handles.get d) b)
      returned := o.returned.set d
        (o.returned.get d ++ (o.world.get d).returnedIn (handles.get d) b) }

/-- The session is the two streams as the nodes have them. -/
def Shows (handles : Pair Handle) (o : Watched PublicKey) (s : Session PublicKey) : Prop :=
  ∀ d, (o.world.get d).Shows (handles.get d) (o.accepted.get d) (o.returned.get d) (s.get d)

variable {handles : Pair Handle} {o : Watched PublicKey} {s : Session PublicKey}
  {a : World.Action} {d : Side} {b : Transport.Action}

theorem step_world (handles : Pair Handle) (o : Watched PublicKey) (a : World.Action) :
    (o.step handles a).world = o.world.step a := by
  rw [step]
  split
  · next hm => rw [World.step, hm]
  · rfl

theorem step_move (hm : o.world.move a = some (d, b)) : o.step handles a =
    ⟨o.world.set d ((o.world.get d).step b),
      o.accepted.set d (o.accepted.get d ++ (o.world.get d).acceptedIn (handles.get d) b),
      o.returned.set d (o.returned.get d ++ (o.world.get d).returnedIn (handles.get d) b)⟩ := by
  rw [step, World.step, hm]

/-- A step of one node, and what it is at its endpoint. -/
theorem Shows.set (hs : o.Shows handles s) (hm : o.world.move a = some (d, b))
    {e : Endpoint PublicKey}
    (he : ((o.world.get d).step b).Shows (handles.get d)
      (o.accepted.get d ++ (o.world.get d).acceptedIn (handles.get d) b)
      (o.returned.get d ++ (o.world.get d).returnedIn (handles.get d) b) e) :
    (o.step handles a).Shows handles (s.set d e) := by
  intro d'
  rw [step_move hm]
  rcases Side.eq_or_eq_other d d' with rfl | rfl
  · rw [Pair.get_set_self, Pair.get_set_self, Pair.get_set_self, Pair.get_set_self]
    exact he
  · rw [Pair.get_set_other, Pair.get_set_other, Pair.get_set_other, Pair.get_set_other]
    exact hs d.other

/-- **A payload of the other stream**: it arrives in the session as well, unless the node
does not hand it to the stream. -/
theorem Shows.deliver (hs : o.Shows handles s) {k : Nat} {p : Payload}
    (hp : World.payload (o.world.get d.other) (handles.get d.other) k = some p)
    (hchanged : ¬ (o.world.get d).Apart (handles.get d) (.update p)) :
    ((o.world.get d).step (.update p)).Shows (handles.get d) (o.accepted.get d) (o.returned.get d)
        ((s.get d).receive p) ∧
      s.step (.deliver d k) = s.set d ((s.get d).receive p) ∧
      ∀ m ∈ decodeMessage p,
        (o.world.get d).streams.lookup m.remoteAddress = some (handles.get d) := by
  have hsent : (s.get d.other).stream.sent[k]? = some p := by
    rw [World.payload, (hs d.other).stream] at hp
    exact hp
  suffices hkey : _ ∧ _ from ⟨hkey.1, Session.step_deliver hsent, hkey.2⟩
  have hshows := hs d
  have hlocal := Transport.update_localAddress (o.world.get d) p
  have hnow := Transport.step_now (o.world.get d) (a := .update p) (by simp)
  have hu := Transport.update_updated (o.world.get d) p
  have hstep : (o.world.get d).step (.update p) = (o.world.get d).update p := rfl
  rw [hstep] at hnow ⊢
  rw [Transport.Apart] at hchanged
  generalize (o.world.get d).update p = n' at hu hlocal hnow hchanged
  cases hu with
  | ignored => exact absurd rfl hchanged
  | dialed => exact absurd rfl hchanged
  | handled m g x hdecode hstream hx =>
    rw [(Transport.follow_streams _ _ _ _).2.1] at hchanged
    have hg : g = handles.get d := by
      by_contra hne
      exact hchanged (List.getElem?_set_ne hne)
    subst hg
    obtain rfl := Option.some.inj (hx.symm.trans hshows.stream)
    refine ⟨?_, fun m' hm' => ?_⟩
    · rw [Endpoint.receive, hdecode]
      refine ⟨?_, hshows.localAddress.trans hlocal.symm, hshows.now.trans hnow.symm,
        hshows.accepted, hshows.returned⟩
      rw [(Transport.follow_streams _ _ _ _).2.1, hshows.localAddress, hshows.now]
      exact List.getElem?_set_self (List.getElem?_eq_some_iff.mp hx).1
    · obtain rfl := Option.some.inj (hdecode.symm.trans hm')
      exact hstream

omit [KeyCodec] [Identity PublicKey] in
/-- A write to a connection is a chore. -/
theorem move_pollWrite {h : Handle} {buf : Bytes}
    (hm : o.world.move a = some (d, .pollWrite h buf)) : a = .chore d (.pollWrite h buf) := by
  cases a with
  | deliver d' g k =>
    obtain ⟨p, -, hp⟩ := Option.map_eq_some_iff.mp hm
    cases hp
  | dial d' =>
    obtain ⟨l, -, hl⟩ := Option.map_eq_some_iff.mp hm
    cases hl
  | resume d' i target epochSecs => cases hm
  | chore d' c =>
    cases c with
    | pollWrite g buf' =>
      cases hm
      rfl
    | _ => cases hm

/-- **A step of the nodes comes down to steps of the session.** -/
theorem Shows.step (hs : o.Shows handles s) (halone : World.Alone handles o.world a) :
    ∃ bs, (o.step handles a).Shows handles (Runs.run Session.step s bs) ∧
      (World.Whole handles o.world a → Runs.Along Session.step Session.Whole s bs) := by
  cases hm : o.world.move a with
  | none =>
    refine ⟨[], ?_, fun _ => trivial⟩
    rw [Watched.step, hm]
    exact hs
  | some move =>
    obtain ⟨d, b⟩ := move
    by_cases happart : (o.world.get d).Apart (handles.get d) b
    · obtain ⟨es, hes, hwrites⟩ := (hs d).own happart
      refine ⟨es.map (.act d), ?_, fun hwhole => Session.along_acts s d es fun buf hbuf => ?_⟩
      · rw [Session.run_acts]
        exact hs.set hm hes
      · obtain rfl := hwrites buf hbuf
        obtain rfl := move_pollWrite hm
        exact hwhole rfl
    · -- the stream is changed by a message
      cases a with
      | deliver d' h k =>
        obtain ⟨p, hp, hpair⟩ := Option.map_eq_some_iff.mp hm
        cases hpair
        obtain rfl : h = handles.get d.other :=
          halone.resolve_right fun hall => happart (hall p hp)
        obtain ⟨hshows, hstep, hstream⟩ := hs.deliver hp happart
        refine ⟨[.deliver d k], ?_, fun hwhole => ⟨⟨fun p' hp' m hdecode haccepts => ?_,
          fun _ _ ha => by cases ha⟩, trivial⟩⟩
        · rw [Runs.run_cons, Runs.run_nil, hstep]
          have haccepted : (o.world.get d).acceptedIn (handles.get d) (.update p) = [] := rfl
          have hreturned : (o.world.get d).returnedIn (handles.get d) (.update p) = [] := rfl
          refine hs.set hm ?_
          rw [haccepted, hreturned, List.append_nil, List.append_nil]
          exact hshows
        · have hp'' : World.payload (o.world.get d.other) (handles.get d.other) k = some p' := by
            rw [World.payload, (hs d.other).stream]
            exact hp'
          obtain rfl := Option.some.inj (hp.symm.trans hp'')
          rw [(hs d).localAddress, (hs d).now] at haccepts
          exact hwhole rfl p hp m hdecode (hstream m hdecode) _ (hs d).stream haccepts
      | dial d' =>
        obtain ⟨l, -, hl⟩ := Option.map_eq_some_iff.mp hm
        cases hl
        exact absurd trivial happart
      | resume d' i target epochSecs =>
        cases hm
        exact absurd trivial happart
      | chore d' c =>
        cases hm
        exact absurd halone happart

/-- What is made of the first stream while the other is not there is its node's own work. -/
theorem apart_of_absent (hm : o.world.move a = some (d, b))
    (hnone : (o.world.get d.other).heap[handles.get d.other]? = none)
    (halone : World.Alone handles o.world a) : (o.world.get d).Apart (handles.get d) b := by
  cases a with
  | deliver d' h k =>
    obtain ⟨p, hp, hpair⟩ := Option.map_eq_some_iff.mp hm
    cases hpair
    refine halone.elim (fun hh => ?_) fun hall => hall p hp
    rw [hh, World.payload, hnone] at hp
    cases hp
  | dial d' =>
    obtain ⟨l, -, hl⟩ := Option.map_eq_some_iff.mp hm
    cases hl
    exact trivial
  | resume d' i target epochSecs =>
    cases hm
    exact trivial
  | chore d' c =>
    cases hm
    exact halone

omit [KeyCodec] [Identity PublicKey] in
/-- Two fresh endpoints that are acquainted begin a session. -/
theorem paired_of_fresh {e : Endpoint PublicKey} {f : Endpoint PublicKey} (he : e.Fresh)
    (hf : f.Fresh) (hid : e.stream.myStreamId ≠ 0) (hid' : f.stream.myStreamId ≠ 0)
    (hknown : e.stream.remoteStreamId = 0 ∨ e.stream.remoteStreamId = f.stream.myStreamId)
    (hknown' : f.stream.remoteStreamId = 0 ∨ f.stream.remoteStreamId = e.stream.myStreamId)
    (d : Side) : Session.Paired (Pair.of d e f) := by
  have hall : ∀ P : Endpoint PublicKey → Prop, P e → P f → ∀ d', P ((Pair.of d e f).get d') := by
    intro P hd ho d'
    rcases Side.eq_or_eq_other d d' with rfl | rfl
    · rw [Pair.get_of]
      exact hd
    · rw [Pair.get_of_other]
      exact ho
  refine ⟨hall (fun e => ∃ t, e.stream.inbound = Inbound.new t) he.inbound hf.inbound,
    hall (fun e => ∃ t, e.stream.outbound = Outbound.new t) he.outbound hf.outbound,
    hall (fun e => e.stream.sent = []) he.sent hf.sent,
    hall (fun e => e.stream.myStreamId ≠ 0) hid hid', fun d' => ?_,
    hall (fun e => e.accepted = []) he.accepted hf.accepted,
    hall (fun e => e.returned = []) he.returned hf.returned⟩
  rcases Side.eq_or_eq_other d d' with rfl | rfl
  · rw [Pair.get_of, Pair.get_of_other]
    exact hknown
  · rw [Side.other_other, Pair.get_of, Pair.get_of_other]
    exact hknown'

/-- The other node is left alone. -/
theorem step_other (handles : Pair Handle) (hm : o.world.move a = some (d, b)) :
    (o.step handles a).world.get d.other = o.world.get d.other ∧
    (o.step handles a).accepted.get d.other = o.accepted.get d.other ∧
    (o.step handles a).returned.get d.other = o.returned.get d.other := by
  rw [step_move hm]
  exact ⟨Pair.get_set_other _ _ _, Pair.get_set_other _ _ _, Pair.get_set_other _ _ _⟩

theorem step_self (handles : Pair Handle) (hm : o.world.move a = some (d, b)) :
    (o.step handles a).world.get d = (o.world.get d).step b ∧
    (o.step handles a).accepted.get d =
      o.accepted.get d ++ (o.world.get d).acceptedIn (handles.get d) b ∧
    (o.step handles a).returned.get d =
      o.returned.get d ++ (o.world.get d).returnedIn (handles.get d) b := by
  rw [step_move hm]
  exact ⟨Pair.get_set_self _ _ _, Pair.get_set_self _ _ _, Pair.get_set_self _ _ _⟩

/-- The stream of the side is not made, and there is nothing of it. -/
structure Absent (handles : Pair Handle) (o : Watched PublicKey) (d : Side) : Prop where
  heap : (o.world.get d).heap[handles.get d]? = none
  accepted : o.accepted.get d = []
  returned : o.returned.get d = []

/-- The side is an endpoint. -/
abbrev ShowsAt (handles : Pair Handle) (o : Watched PublicKey) (d : Side)
    (e : Endpoint PublicKey) : Prop :=
  (o.world.get d).Shows (handles.get d) (o.accepted.get d) (o.returned.get d) e

theorem Absent.other (h : o.Absent handles d.other) (hm : o.world.move a = some (d, b)) :
    (o.step handles a).Absent handles d.other := by
  obtain ⟨h1, h2, h3⟩ := step_other handles hm
  exact ⟨h1 ▸ h.heap, h2.trans h.accepted, h3.trans h.returned⟩

/-- **A stream that is not made** is made by the step, if not later. -/
theorem Absent.step (h : o.Absent handles d) (hm : o.world.move a = some (d, b)) :
    (o.step handles a).Absent handles d ∨
    (∃ i target epochSecs, b = .resume i target epochSecs) ∧
      ∃ e : Endpoint PublicKey, e.Fresh ∧
        (o.step handles a).ShowsAt handles d (e.act .heartbeat) := by
  obtain ⟨h1, h2, h3⟩ := step_self handles hm
  obtain ⟨ha, hr⟩ := Transport.history_of_none h.heap b
  unfold ShowsAt
  rw [h1, h2, h3, h.accepted, h.returned, List.nil_append, List.nil_append]
  cases hx : ((o.world.get d).step b).heap[handles.get d]? with
  | none =>
    rw [h.accepted, List.nil_append] at h2
    rw [h.returned, List.nil_append] at h3
    exact .inl ⟨h1 ▸ hx, h2.trans ha, h3.trans hr⟩
  | some x => exact .inr (Transport.shows_new h.heap hx)

/-! ## From the beginning -/

/-- **How far a session has begun**: neither stream is made, or one, or both. -/
inductive Begun (whole : Prop) (handles : Pair Handle) (o : Watched PublicKey) : Prop where
  | none (habsent : ∀ d, o.Absent handles d)
  | one (d : Side) (e : Endpoint PublicKey) (es : List Endpoint.Event) (hfresh : e.Fresh)
      (hshort : whole → ∀ buf, .write buf ∈ es → buf.length < 2 ^ 32)
      (hshows : o.ShowsAt handles d (e.acts es)) (habsent : o.Absent handles d.other)
  | both (s : Session PublicKey) (bs : List Session.Action) (hpaired : s.Paired)
      (hwhole : whole → Runs.Along Session.step Session.Whole s bs)
      (hshows : o.Shows handles (Runs.run Session.step s bs))

/-- The second stream is made. -/
theorem Begun.second {whole : Prop} {e f : Endpoint PublicKey} {es : List Endpoint.Event}
    (he : e.Fresh) (hf : f.Fresh)
    (hshort : whole → ∀ buf, .write buf ∈ es → buf.length < 2 ^ 32)
    (hshows : o.ShowsAt handles d (e.acts es))
    (hshows' : o.ShowsAt handles d.other (f.act .heartbeat))
    (hknown : World.Acquainted handles o.world) : o.Begun whole handles := by
  have hid := VeilidStream.works_identity (Endpoint.works_acts e es)
  have hid' := VeilidStream.works_identity (Endpoint.works_act f .heartbeat)
  have hhand := VeilidStream.works_handshake (Endpoint.works_acts e es)
  have hhand' := VeilidStream.works_handshake (Endpoint.works_act f .heartbeat)
  obtain ⟨hne, hk⟩ := hknown d _ hshows.stream
  obtain ⟨hne', hk'⟩ := hknown d.other _ hshows'.stream
  have hk := hk _ hshows'.stream
  rw [Side.other_other] at hk'
  have hk' := hk' _ hshows.stream
  rw [hid.myStreamId] at hne hk'
  rw [hid'.myStreamId] at hne' hk
  rw [hhand.remoteStreamId] at hk
  rw [hhand'.remoteStreamId] at hk'
  refine .both _ (es.map (.act d) ++ [.act d.other .heartbeat])
    (paired_of_fresh he hf hne hne' hk hk' d) (fun hw => ?_) fun d' => ?_
  · refine Runs.along_append.mpr ⟨Session.along_acts _ d es (hshort hw), ?_⟩
    exact Session.along_acts _ d.other [.heartbeat] (by simp)
  · have hrun : Runs.run Session.step (Pair.of d e f)
        (es.map (.act d) ++ [.act d.other .heartbeat]) =
          Pair.of d (e.acts es) (f.act .heartbeat) := by
      rw [Runs.run_append, Session.run_acts, Pair.get_of, Pair.set_of, Runs.run_cons, Runs.run_nil,
        Session.step, Pair.get_of_other, ← Pair.of_other, Pair.set_of, Pair.of_other]
    rw [hrun]
    rcases Side.eq_or_eq_other d d' with rfl | rfl
    · rw [Pair.get_of]
      exact hshows
    · rw [Pair.get_of_other]
      exact hshows'

/-- **Every step keeps the session begun.** -/
theorem Begun.step {whole : Prop} (hb : o.Begun whole handles)
    (halone : World.Alone handles o.world a) (hwhole : whole → World.Whole handles o.world a) :
    (o.step handles a).Begun whole handles := by
  cases hm : o.world.move a with
  | none =>
    rw [Watched.step, hm]
    exact hb
  | some move =>
    obtain ⟨d, b⟩ := move
    cases hb with
    | both s bs hpaired hbs hshows =>
      obtain ⟨bs', hshows', hbs'⟩ := hshows.step halone
      refine .both s (bs ++ bs') hpaired (fun hw => ?_) (by rw [Runs.run_append]; exact hshows')
      exact Runs.along_append.mpr ⟨hbs hw, hbs' (hwhole hw)⟩
    | none habsent =>
      rcases (habsent d).step hm with h | ⟨-, e, hfresh, hshows⟩
      · refine .none fun d' => ?_
        rcases Side.eq_or_eq_other d d' with rfl | rfl
        · exact h
        · exact (habsent d.other).other hm
      · exact .one d e [.heartbeat] hfresh (by simp) hshows ((habsent d.other).other hm)
    | one d' e es hfresh hshort hshows habsent =>
      rcases Side.eq_or_eq_other d' d with rfl | rfl
      · -- the first stream's node
        obtain ⟨es', hes, hwrites⟩ := hshows.own (apart_of_absent hm habsent.heap halone)
        obtain ⟨h1, h2, h3⟩ := step_self handles hm
        refine .one d e (es ++ es') hfresh (fun hw buf hbuf => ?_) ?_ (habsent.other hm)
        · rcases List.mem_append.mp hbuf with hbuf | hbuf
          · exact hshort hw buf hbuf
          · obtain rfl := hwrites buf hbuf
            obtain rfl := move_pollWrite hm
            exact hwhole hw rfl
        · rw [ShowsAt, h1, h2, h3, Endpoint.acts, List.foldl_append]
          exact hes
      · -- the other node
        obtain ⟨h1, h2, h3⟩ := step_other handles hm
        rw [Side.other_other] at h1 h2 h3
        have hshows' : (o.step handles a).ShowsAt handles d' (e.acts es) := by
          rw [ShowsAt, h1, h2, h3]
          exact hshows
        rcases habsent.step hm with h | ⟨⟨i, target, epochSecs, rfl⟩, f, hfresh', hf⟩
        · exact .one d' e es hfresh hshort hshows' h
        · obtain rfl := World.move_resume hm
          refine Begun.second hfresh hfresh' hshort hshows' hf ?_
          rw [step_world]
          exact halone

/-- Once both streams are made, a run of a session shows them. -/
theorem Begun.paired {whole : Prop} (hb : o.Begun whole handles)
    (hmade : ∀ d, handles.get d < (o.world.get d).heap.length) :
    ∃ s bs, Session.Paired s ∧ (whole → Runs.Along Session.step Session.Whole s bs) ∧
      o.Shows handles (Runs.run Session.step s bs) := by
  have hthere : ∀ d, ¬ o.Absent handles d := fun d h =>
    absurd (hmade d) (Nat.not_lt.mpr (List.getElem?_eq_none_iff.mp h.heap))
  cases hb with
  | none habsent => exact absurd (habsent .left) (hthere .left)
  | one d e es hfresh hshort hshows habsent => exact absurd habsent (hthere d.other)
  | both s bs hpaired hwhole hshows => exact ⟨s, bs, hpaired, hwhole, hshows⟩

/-- Every run in which the two streams are alone leads to a session that has begun. -/
theorem run_begun (whole : Prop) (addresses : Pair Address) (keypairs : Pair (Keypair PublicKey))
    (now : Instant) (handles : Pair Handle) {as : List World.Action}
    (halone : Runs.Along World.step (World.Alone handles) (World.start addresses keypairs now) as)
    (hwhole : whole → Runs.Along World.step (World.Whole handles)
      (World.start addresses keypairs now) as) :
    (Runs.run (step handles) (start addresses keypairs now) as).Begun whole handles := by
  have hbegun : (start addresses keypairs now).Begun whole handles := by
    refine .none fun d => ⟨?_, ?_, ?_⟩
    · have hget := World.get_start addresses keypairs now d
      show ((World.start addresses keypairs now).get d).heap[_]? = none
      rw [hget]
      rfl
    · cases d <;> rfl
    · cases d <;> rfl
  have hstart : (start addresses keypairs now).world = World.start addresses keypairs now := rfl
  rw [← hstart] at halone hwhole
  clear hstart
  generalize start addresses keypairs now = o at *
  induction as generalizing o with
  | nil => exact hbegun
  | cons a as ih =>
    rw [Runs.run_cons]
    have hworld := step_world handles o a
    refine ih _ ?_ ?_ (hbegun.step halone.1 fun hw => (hwhole hw).1)
    · rw [hworld]
      exact halone.2
    · rw [hworld]
      exact fun hw => (hwhole hw).2

/-- **The two streams are a session.** In every run of two nodes in which the two handle nothing
but each other's messages and no heartbeat removes them, they are in a state, with what their
connections have accepted and returned, to which a run of a paired session leads. -/
theorem session_of_run (addresses : Pair Address) (keypairs : Pair (Keypair PublicKey))
    (now : Instant) (handles : Pair Handle) {as : List World.Action}
    (halone : Runs.Along World.step (World.Alone handles) (World.start addresses keypairs now) as)
    (hmade : ∀ d, handles.get d <
      ((Runs.run (step handles) (start addresses keypairs now) as).world.get d).heap.length) :
    ∃ s bs, Session.Paired s ∧
      (Runs.run (step handles) (start addresses keypairs now) as).Shows handles
        (Runs.run Session.step s bs) := by
  obtain ⟨s, bs, hpaired, -, hshows⟩ :=
    (run_begun False addresses keypairs now handles halone False.elim).paired hmade
  exact ⟨s, bs, hpaired, hshows⟩

end Watched

namespace Watched
open Sample

/-- The left node dials and writes seven, the right one reads it; the left one writes more. -/
def sampleRead : List World.Action :=
  World.sampleFirst ++ [.chore .right (.pollRead 0 5 9), .chore .left (.pollWrite 0 [8, 9])]

theorem sampleRead_alone :
    Runs.Along World.step (World.Alone ⟨0, 0⟩) World.sampleStart sampleRead :=
  ⟨trivial, by change World.Acquainted _ _; decide, .inl rfl,
    by change World.Acquainted _ _; decide, .inl rfl, trivial, trivial, .inl rfl, trivial, trivial,
    trivial⟩

theorem session_of_run_sample : ∃ s bs, Session.Paired s ∧
    (Runs.run (step ⟨0, 0⟩) (start ⟨addressOf 1, addressOf 2⟩ ⟨keypairOf 1, keypairOf 2⟩ 0)
      sampleRead).Shows ⟨0, 0⟩ (Runs.run Session.step s bs) :=
  session_of_run ⟨addressOf 1, addressOf 2⟩ ⟨keypairOf 1, keypairOf 2⟩ 0 ⟨0, 0⟩ sampleRead_alone
    (by intro d; cases d <;> decide)

end Watched
end VeilidTransport
