import VeilidTransport.World
import VeilidTransport.Displacement
import VeilidTransport.Redial
import VeilidTransport.Handshake
import VeilidTransport.Draining
import VeilidTransport.Sample

/-!
# Meeting again

Two nodes may lose each other in many ways: their streams expire at one side and not at the
other, a dial displaces a stream, an answer is lost or comes too late.  `meet_again` says that
none of this is final: whatever has happened, there is a way on to a stream at each node, both
active and each knowing the other's id and key, and no payload sent before is needed for it.

The way is the one the source has in mind.  The nodes wait until their streams have expired
and the heartbeat has removed them; then one of them dials, the other answers, and the first
one writes.
-/

namespace VeilidTransport
namespace VeilidStream
variable {PublicKey : Type} [KeyCodec] [Identity PublicKey]

/-! ## What the streams do -/

/-- No message gives a stream the status `Expired`. -/
theorem convertRegistered_unexpired {s : VeilidStream PublicKey} (hs : s.status ≠ .expired)
    (localAddress : Option Address) (now : Instant) (m : AppMessage) :
    (s.convertRegistered localAddress now m).1.status ≠ .expired := by
  obtain ⟨id, -, hadopt⟩ := adoptRemoteStreamId_eq s m.streamId
  have hs' : (s.adoptRemoteStreamId m.streamId).status ≠ .expired := by rw [hadopt]; exact hs
  cases localAddress with
  | none => exact hs'
  | some l =>
    rcases convertRegistered_handled s l now m with ⟨-, h⟩ | ⟨-, h⟩
    · rw [h]
      exact hs'
    · generalize (s.convertRegistered (some l) now m).1 = s' at h ⊢
      generalize (s.convertRegistered (some l) now m).2 = next at h
      cases h with
      | ignored => exact hs'
      | redial => simp [sendDial, sendMessageToRemote, updateStatus]
      | tied =>
        obtain ⟨key, hk⟩ := extractKey_eq (s.adoptRemoteStreamId m.streamId) dialWord m.data
        rw [hk]
        exact hs'
      | switched => simp [sendListen, sendMessageToRemote, updateStatus,
          updateInboundLastTimestampToNow]
      | connected =>
        rw [(works_handshake (works_sendMessages _ now)).status]
        simp [generateMessages, updateStatus]
      | relisten => exact hs'
      | received =>
        rw [(recvMessage_handshake _ _ _ _ _).1]
        simp [updateStatus]
      | acknowledged => exact hs'
      | superseded => exact hs'

/-- **The answer of a dialed stream**: it is active from now on. -/
theorem convertRegistered_listen [LawfulIdentity PublicKey] (l r : Address) (target : Target)
    (keypair : Keypair PublicKey) (epochSecs : Nat) (now : Instant) (y : VeilidStream PublicKey)
    {m : AppMessage} (hm : m.data = y.listenData) :
    (new l r target 0 keypair epochSecs now).sendDial.convertRegistered (some l) now m =
      ({ (new l r target 0 keypair epochSecs now).sendDial with
          remotePublicKey := some y.myKeypair.publicKey
          remoteStreamId := m.streamId
          status := .active }, .pending) := by
  have hstale : ¬ (m.streamId ≠ 0 ∧ m.streamId < m.streamId) := fun h => Nat.lt_irrefl _ h.2
  have hlisten : messageType m.data = .listen := by rw [hm]; exact messageType_listen _
  unfold convertRegistered
  rw [adoptRemoteStreamId_heard (.inl rfl)]
  simp only [if_neg hstale]
  have hstatus : (new l r target 0 keypair epochSecs now).sendDial.status = .dial := rfl
  simp only [hstatus, convertDial, hlisten]
  rw [hm, extractKey_listenData]
  rfl

omit [KeyCodec] [Identity PublicKey] in
/-- The first write makes one message. -/
theorem messagesToSend_first (now now' : Instant) :
    (((Outbound.new now).insertToOutboundStream [0]).generateMessages).messagesToSend now' =
      [⟨1, [1, 0, 0, 0, 0], none⟩] := rfl

omit [Identity PublicKey] in
/-- What is written first is sent at once. -/
theorem sendMessages_first {s : VeilidStream PublicKey} {t : Instant}
    (h : s.outbound = Outbound.new t) (now : Instant) :
    ∃ o, sendMessages
        (generateMessages { s with outbound := s.outbound.insertToOutboundStream [0] }) now =
      { s with
        outbound := o
        sent := s.sent ++ [s.encode s.inbound.receivedSeq 1 [1, 0, 0, 0, 0]] } := by
  have hsmall : ¬ settings.veilidNetworkMessageLimitBytes < ([1, 0, 0, 0, 0] : Bytes).length := by
    decide
  rw [sendMessages, generateMessages, h, messagesToSend_first, sendEach, if_neg hsmall, sendEach]
  exact ⟨_, rfl⟩

/-- **The first data for a stream that listens**: it is active from now on. -/
theorem convertRegistered_first {s : VeilidStream PublicKey} (hs : s.status = .listen)
    {m : AppMessage} (hid : s.remoteStreamId = m.streamId) (hm : messageType m.data = .data)
    (hsigned : s.isSigned m = true) (l : Address) (now : Instant) :
    s.convertRegistered (some l) now m =
      ((s.updateStatus .active).recvMessage now m.deliveredSeq m.seq m.data, .pending) := by
  have hadopt : s.adoptRemoteStreamId m.streamId = s :=
    (adoptRemoteStreamId_eq_self_iff s _).mpr fun h => hid ▸ h
  have hstale : ¬ (m.streamId ≠ 0 ∧ m.streamId < m.streamId) := fun h => Nat.lt_irrefl _ h.2
  unfold convertRegistered
  simp only [hadopt, hid, if_neg hstale, hs, convertListen, hm, hsigned, and_self, if_true]

omit [KeyCodec] [Identity PublicKey] in
/-- An active stream that receives stays active. -/
theorem isActive_recvMessage {s : VeilidStream PublicKey} {now : Instant}
    (h : s.isActive now = true) (deliveredSeq seq : Nat) (data : Bytes) :
    (s.recvMessage now deliveredSeq seq data).isActive now = true ∧
      (s.recvMessage now deliveredSeq seq data).myStreamId = s.myStreamId := by
  rcases recvMessage_cases s now deliveredSeq seq data with hr | ⟨-, hr⟩ | ⟨-, -, -, woken, hr⟩
  · rw [hr]
    exact ⟨h, rfl⟩
  · rw [hr]
    exact ⟨h, rfl⟩
  · rw [hr]
    refine ⟨isActive_iff.mpr ⟨(isActive_iff.mp h).1, ?_⟩, rfl⟩
    exact decide_eq_true (Nat.lt_add_of_pos_right (by decide))

end VeilidStream

namespace Transport
open VeilidStream
variable {PublicKey : Type} [KeyCodec] [Identity PublicKey]

/-! ## The map can be cleared -/

/-- No stream has the status `Expired`: nothing sets it. -/
def Unexpired (n : Transport PublicKey) : Prop := ∀ s ∈ n.heap, s.status ≠ .expired

theorem step_unexpired (n : Transport PublicKey) (a : Action) (hn : n.Unexpired) :
    (n.step a).Unexpired := by
  intro s' hs'
  obtain ⟨h, hh⟩ := List.mem_iff_getElem?.mp hs'
  cases step_became n a hh with
  | worked _ s _ hs hw =>
    rw [(works_handshake hw).status]
    exact hn s (List.mem_of_getElem? hs)
  | handled packet m s hm hstream hs =>
    exact convertRegistered_unexpired (hn s (List.mem_of_getElem? hs)) _ _ _
  | dialed => simp [dialStream, VeilidStream.new, sendDial, sendMessageToRemote]
  | created => simp [createStream, sendListen, sendMessageToRemote, updateStatus]

omit [KeyCodec] [Identity PublicKey] in
/-- A stream of the map that has expired is on the list. -/
theorem mem_expired {n : Transport PublicKey} {r : Address} {h : Handle}
    (hlookup : n.streams.lookup r = some h) {s : VeilidStream PublicKey} (hs : n.heap[h]? = some s)
    (hr : s.remoteAddress = r) (hdelete : toDelete n.now s = true) : r ∈ n.expiredAddresses := by
  refine List.mem_map.mpr ⟨s, List.mem_filter.mpr ⟨?_, hdelete⟩, hr⟩
  exact List.mem_filterMap.mpr ⟨h, KeyedMap.mem_values.mpr ⟨r, hlookup⟩, hs⟩

omit [KeyCodec] [Identity PublicKey] in
/-- A stream that has not heard of its remote for the timeout is deleted. -/
theorem toDelete_of_le {s : VeilidStream PublicKey} {now : Instant} (hs : s.status ≠ .expired)
    (hle : s.inbound.lastTimestamp + secs settings.streamTimeoutSecs ≤ now) :
    toDelete now s = true := by
  have hexpired : s.isExpired now = true := isExpired_iff.mpr ⟨hs, hle⟩
  have hactive : s.isActive now = false := by
    refine Bool.eq_false_iff.mpr fun h => ?_
    have hlt := of_decide_eq_true (isActive_iff.mp h).2
    exact absurd hle (Nat.not_le.mpr hlt)
  rw [toDelete, hactive, hexpired]
  rfl

/-- The latest time a stream of the heap has heard from its remote. -/
def lastHeard (n : Transport PublicKey) : Instant :=
  (n.heap.map (·.inbound.lastTimestamp)).max?.getD 0

/-- **After long enough a heartbeat removes every stream.** -/
theorem clears {n : Transport PublicKey} (hn : n.Registered) (hu : n.Unexpired) {d : Nat}
    (hd : n.lastHeard + secs settings.streamTimeoutSecs ≤ d) (r : Address) :
    ((n.step (.tick d)).step .heartbeat).streams.lookup r = none := by
  have hstep : (n.step (.tick d)).step .heartbeat =
      heartbeat { n with now := n.now + d } := rfl
  rw [hstep, heartbeat_lookup]
  by_cases hr : r ∈ expiredAddresses { n with now := n.now + d }
  · rw [if_pos hr]
  · rw [if_neg hr]
    cases hlookup : n.streams.lookup r with
    | none => rfl
    | some h =>
      -- a stream that is left would have expired
      obtain ⟨s, hs, haddr⟩ := hn r h hlookup
      have hmem := List.mem_of_getElem? hs
      have hle : s.inbound.lastTimestamp ≤ n.lastHeard :=
        List.le_max?_getD_of_mem (List.mem_map_of_mem hmem)
      have hpassed := Nat.le_trans (Nat.le_trans (Nat.add_le_add_right hle _) hd)
        (Nat.le_add_left d n.now)
      exact absurd (mem_expired (n := { n with now := n.now + d }) hlookup hs haddr
        (toDelete_of_le (hu s hmem) hpassed)) hr

/-! ## What the nodes do -/

/-- The node has the stream `s` for the address, with a connection over it. -/
structure Holds (n : Transport PublicKey) (l r : Address) (h : Handle)
    (s : VeilidStream PublicKey) : Prop where
  localAddress : n.localAddress = some l
  lookup : n.streams.lookup r = some h
  heap : n.heap[h]? = some s
  connected : h ∈ n.connections

omit [KeyCodec] [Identity PublicKey] in
theorem Holds.set {n : Transport PublicKey} {l r : Address} {h : Handle}
    {s : VeilidStream PublicKey} (hn : n.Holds l r h s) (s' : VeilidStream PublicKey) :
    Holds { n with heap := n.heap.set h s' } l r h s' :=
  ⟨hn.localAddress, hn.lookup, List.getElem?_set_self (List.getElem?_eq_some_iff.mp hn.heap).1,
    hn.connected⟩

theorem resume_last (n : Transport PublicKey) (task : Task) (target : Option Target)
    (epochSecs : Nat) :
    (n.spawn task).resume n.tasks.length target epochSecs = n.resumeTask task target epochSecs := by
  rw [resume, spawn]
  simp only [List.getElem?_concat_length, List.eraseIdx_append_of_length_le (Nat.le_refl _),
    Nat.sub_self, List.eraseIdx_zero, List.tail_cons, List.append_nil]

/-- A dial to an address without a stream, to the end of its future. -/
theorem dial_resumed {n : Transport PublicKey} {l r : Address} (hl : n.localAddress = some l)
    (hr : n.streams.lookup r = none) (target : Target) (epochSecs : Nat) :
    (n.dial r).resume n.tasks.length (some target) epochSecs =
      (n.insertStream r (n.dialStream l r target epochSecs)).connect n.heap.length := by
  have hregistered : n.registered r = none := by rw [registered, hr]; rfl
  rw [dial, hl, hregistered]
  exact resume_last n _ _ _

omit [Identity PublicKey] in
/-- **The first write on a connection**, and the call of `send_messages` it spawns. -/
theorem pollWrite_pumped {n : Transport PublicKey} {h : Handle} (hc : h ∈ n.connections)
    {s : VeilidStream PublicKey} (hs : n.heap[h]? = some s) (hactive : s.isActive n.now = true)
    {t : Instant} (hout : s.outbound = Outbound.new t) :
    ∃ o, (n.pollWrite h [0]).pump n.pumps.length = { n with
      heap := n.heap.set h { s with
        outbound := o
        sent := s.sent ++ [s.encode s.inbound.receivedSeq 1 [1, 0, 0, 0, 0]] } } := by
  have hexpired : s.isExpired n.now = false := by
    obtain ⟨hst, hrecent⟩ := isActive_iff.mp hactive
    rw [isExpired, hrecent]
    simp [hst]
  have hwrite : n.pollWrite h [0] = { n with
      heap := n.heap.set h { s with outbound := s.outbound.insertToOutboundStream [0] }
      pumps := n.pumps ++ [h] } := by
    rw [pollWrite, if_pos hc, hs]
    simp only [VeilidStream.pollWrite, hexpired, insertToOutboundStream, hactive,
      Bool.false_eq_true, if_false]
  obtain ⟨o, ho⟩ := sendMessages_first hout n.now
  refine ⟨o, ?_⟩
  rw [hwrite, pump]
  simp only [List.getElem?_concat_length, List.eraseIdx_append_of_length_le (Nat.le_refl _),
    Nat.sub_self, List.eraseIdx_zero, List.tail_cons, List.append_nil, modifyStream]
  rw [List.modify_eq_set_getElem?, List.getElem?_set_self (List.getElem?_eq_some_iff.mp hs).1]
  simp only [Option.map_eq_map, Option.map_some, Option.getD_some, List.set_set]
  rw [ho]

/-- A message that changes no more than the stream. -/
theorem update_pending {n : Transport PublicKey} {l : Address} (hl : n.localAddress = some l)
    {packet : Payload} {m : AppMessage} (hm : decodeMessage packet = some m) {h : Handle}
    (hstream : n.streams.lookup m.remoteAddress = some h) {s s' : VeilidStream PublicKey}
    (hs : n.heap[h]? = some s) (hc : s.convertRegistered (some l) n.now m = (s', .pending)) :
    n.update packet = { n with heap := n.heap.set h s' } := by
  rw [update_registered hm hstream hs, hl, hc]
  rfl

/-- The stream made for a dial of `x`. -/
theorem createStream_dialData [LawfulIdentity PublicKey] (n : Transport PublicKey) (l r : Address)
    (target : Target) (id : Nat) (x : VeilidStream PublicKey) (epochSecs : Nat) :
    n.createStream l r target id x.dialData epochSecs =
      sendListen { VeilidStream.new l r target id n.myKeypair epochSecs n.now with
        remotePublicKey := some x.myKeypair.publicKey
        status := .listen } := by
  rw [createStream, extractKey_dialData]
  rfl

/-- A dial from an address without a stream, to the end of its futures. -/
theorem update_resumed {n : Transport PublicKey} {l : Address} (hl : n.localAddress = some l)
    {packet : Payload} {m : AppMessage} (hm : decodeMessage packet = some m)
    (hdial : messageType m.data = .dial) (hr : n.streams.lookup m.remoteAddress = none)
    (target : Target) (epochSecs epochSecs' : Nat) :
    ((n.update packet).resume n.tasks.length (some target) epochSecs).resume n.tasks.length none
        epochSecs' =
      (n.insertStream m.remoteAddress (n.createStream l m.remoteAddress target m.streamId m.data
        epochSecs)).activate n.heap.length := by
  have hspawn : n.update packet = n.spawn (.create l m.remoteAddress m.streamId m.data) := by
    rw [update, hm]
    simp only [hr, hl, if_pos hdial]
  rw [hspawn, resume_last]
  exact resume_last (n.insertStream m.remoteAddress _) _ _ _

end Transport

namespace World
open VeilidStream
variable {PublicKey : Type} [KeyCodec] [Identity PublicKey]

/-! ## What the world does -/

/-- What every step of a node keeps, every run of the world keeps. -/
theorem run_forall {P : Side → Transport PublicKey → Prop}
    (h : ∀ d n a, NodeStep a → P d n → P d (n.step a)) {s : World PublicKey}
    (hs : ∀ d, P d (s.get d)) (as : List Action) (d : Side) :
    P d ((Runs.run step s as).get d) := by
  induction as generalizing s with
  | nil => exact hs d
  | cons a as ih => exact ih (step_forall h s a hs)

/-- No payload arrives but those of streams that are made from now on. -/
def Since (made : Side → Nat) : Action → Prop
  | .deliver d h _ => made d.other ≤ h
  | _ => True

/-- A step of the node at `d`. -/
theorem reaches_move (made : Side → Nat) {d : Side} {A B : Transport PublicKey} {a : Action}
    {b : Transport.Action} (ha : Since made a) (h : move (Pair.of d A B) a = some (d, b)) :
    Runs.Reaches step (Since made) (Pair.of d A B) (Pair.of d (A.step b) B) := by
  have hstep : step (Pair.of d A B) a = Pair.of d (A.step b) B := by
    rw [step, h]
    simp only [Pair.get_of, Pair.set_of]
  rw [← hstep]
  exact .single _ ha

/-- A payload of the other node's stream arrives at `d`. -/
theorem reaches_deliver (made : Side → Nat) {d : Side} {A B : Transport PublicKey} {h : Handle}
    {y : VeilidStream PublicKey} (hy : B.heap[h]? = some y) (hmade : made d.other ≤ h) {k : Nat}
    {p : Payload} (hp : y.sent[k]? = some p) :
    Runs.Reaches step (Since made) (Pair.of d A B) (Pair.of d (A.update p) B) := by
  refine reaches_move made (a := .deliver d h k) (b := .update p) hmade ?_
  have hpayload : payload B h k = some p := by
    rw [payload, hy]
    exact hp
  rw [move, Pair.get_of_other, hpayload]
  rfl

/-- A node without streams in its map. -/
structure Clear (l : Address) (keypair : Keypair PublicKey) (made : Nat)
    (n : Transport PublicKey) : Prop where
  localAddress : n.localAddress = some l
  myKeypair : n.myKeypair = keypair
  streams : ∀ r, n.streams.lookup r = none
  heap : made ≤ n.heap.length

/-- **A node can clear its map.** -/
theorem reaches_clear (made : Side → Nat) {d : Side} {A : Transport PublicKey}
    {l : Address} {keypair : Keypair PublicKey} (hA : ProperNode l keypair A)
    (hregistered : A.Registered) (hunexpired : A.Unexpired) (hmade : made d = A.heap.length)
    (B : Transport PublicKey) :
    ∃ A', Clear l keypair (made d) A' ∧
      Runs.Reaches step (Since made) (Pair.of d A B) (Pair.of d A' B) := by
  obtain ⟨t, ht⟩ : ∃ t, A.lastHeard + secs settings.streamTimeoutSecs ≤ t := ⟨_, Nat.le_refl _⟩
  have hA' := step_properNode (step_properNode hA (.chore (.tick t))) (.chore .heartbeat)
  have hlength : ((A.step (.tick t)).step .heartbeat).heap.length = A.heap.length :=
    ((Transport.step_tends A (a := .tick t) (by simp) (by simp)).trans
      (Transport.step_tends _ (a := .heartbeat) (by simp) (by simp))).length_heap
  refine ⟨(A.step (.tick t)).step .heartbeat, ⟨hA'.localAddress, hA'.myKeypair,
    Transport.clears hregistered hunexpired ht, Nat.le_of_eq (hmade.trans hlength.symm)⟩, ?_⟩
  exact (reaches_move made (a := .chore d (.tick t)) trivial rfl).trans
    (reaches_move made (a := .chore d .heartbeat) trivial rfl)

/-- What the keys sign verifies. -/
def Signs (keypair : Keypair PublicKey) : Prop :=
  ∀ data, (keypair.sign data).map (Identity.verify keypair.publicKey data) = some true

/-- A message that changes no more than the stream arrives at `d`. -/
theorem reaches_handled (made : Side → Nat) {d : Side} {A B : Transport PublicKey} {l r : Address}
    {h g : Handle} {s s' y : VeilidStream PublicKey} (hA : A.Holds l r h s)
    (hy : B.heap[g]? = some y) (hmade : made d.other ≤ g) {k : Nat} {p : Payload}
    (hp : y.sent[k]? = some p) {m : AppMessage} (hm : decodeMessage p = some m)
    (hr : m.remoteAddress = r) (hc : s.convertRegistered (some l) A.now m = (s', .pending)) :
    Runs.Reaches step (Since made) (Pair.of d A B)
      (Pair.of d { A with heap := A.heap.set h s' } B) := by
  rw [← Transport.update_pending hA.localAddress hm (hr ▸ hA.lookup) hA.heap hc]
  exact reaches_deliver made hy hmade hp

/-- `d` dials. -/
theorem reaches_dialed (made : Side → Nat) {d : Side} {A B : Transport PublicKey} {l r : Address}
    {k : Keypair PublicKey} {i : Nat} (hA : Clear l k i A) (hr : B.localAddress = some r)
    (target : Target) (id : Nat) :
    ∃ A', Runs.Reaches step (Since made) (Pair.of d A B) (Pair.of d A' B) ∧
      A'.Holds l r.asParsed A.heap.length (A.dialStream l r.asParsed target id) ∧
      A'.now = A.now := by
  have hmove : move (Pair.of d A B) (.dial d) = some (d, .dial r.asParsed) := by
    rw [move, Pair.get_of_other, hr]
    rfl
  have hreached : Runs.Reaches step (Since made) (Pair.of d A B)
      (Pair.of d ((A.dial r.asParsed).resume A.tasks.length (some target) id) B) :=
    (reaches_move made (a := .dial d) trivial hmove).trans
      (reaches_move made (a := .resume d A.tasks.length (some target) id) trivial rfl)
  rw [Transport.dial_resumed hA.localAddress (hA.streams r.asParsed) target id] at hreached
  exact ⟨_, hreached, ⟨hA.localAddress, AList.lookup_insert _, List.getElem?_concat_length,
    List.mem_append_right _ (List.mem_singleton_self _)⟩, rfl⟩

/-- `d` answers the dial of a stream of the other node. -/
theorem reaches_answered [LawfulKeyCodec] (made : Side → Nat) {d : Side}
    {A B : Transport PublicKey} {l r : Address} {k : Keypair PublicKey} {i : Nat}
    (hA : Clear l k i A) {g : Handle} {x : VeilidStream PublicKey} (hx : B.heap[g]? = some x)
    (hmade : made d.other ≤ g) (hsent : x.sent[0]? = some (x.encode 0 0 x.dialData))
    (hr : x.localAddress = r) (hsign : Signs x.myKeypair) (target : Target) (id : Nat) :
    ∃ A', Runs.Reaches step (Since made) (Pair.of d A B) (Pair.of d A' B) ∧
      A'.Holds l r.asParsed A.heap.length
        (A.createStream l r.asParsed target x.myStreamId x.dialData id) ∧
      A'.now = A.now := by
  obtain ⟨m, hm, -, -, hid, hdata, haddress, -⟩ := decodeMessage_encode x (hsign x.dialData) 0 0
  rw [hr] at haddress
  have hanswered := Transport.update_resumed hA.localAddress hm
    (by rw [hdata]; exact messageType_dial _) (hA.streams _) target id 0
  rw [haddress, hid, hdata] at hanswered
  have hreached : Runs.Reaches step (Since made) (Pair.of d A B)
      (Pair.of d (((A.update (x.encode 0 0 x.dialData)).resume A.tasks.length (some target)
        id).resume A.tasks.length none 0) B) :=
    ((reaches_deliver made hx hmade hsent).trans
      (reaches_move made (a := .resume d A.tasks.length (some target) id) trivial rfl)).trans
      (reaches_move made (a := .resume d A.tasks.length none 0) trivial rfl)
  rw [hanswered] at hreached
  exact ⟨_, hreached, ⟨hA.localAddress, AList.lookup_insert _, List.getElem?_concat_length,
    List.mem_append_right _ (List.mem_singleton_self _)⟩, rfl⟩

/-- `d` writes for the first time. -/
theorem reaches_written (made : Side → Nat) {d : Side} {A : Transport PublicKey} {l r : Address}
    {h : Handle} {s : VeilidStream PublicKey} (hA : A.Holds l r h s)
    (hactive : s.isActive A.now = true) {t : Instant} (hout : s.outbound = Outbound.new t)
    (B : Transport PublicKey) :
    ∃ A' o, Runs.Reaches step (Since made) (Pair.of d A B) (Pair.of d A' B) ∧
      A'.Holds l r h { s with
        outbound := o
        sent := s.sent ++ [s.encode s.inbound.receivedSeq 1 [1, 0, 0, 0, 0]] } ∧
      A'.now = A.now := by
  obtain ⟨o, ho⟩ := Transport.pollWrite_pumped hA.connected hA.heap hactive hout
  refine ⟨_, o, ?_, hA.set _, rfl⟩
  rw [← ho]
  exact (reaches_move made (a := .chore d (.pollWrite h [0])) trivial rfl).trans
    (reaches_move made (a := .chore d (.pump A.pumps.length)) trivial rfl)

/-- The node has an active stream for the address, with a connection over it, and knows the
remote's id and key. -/
def Meets (r : Address) (key : PublicKey) (myStreamId remoteStreamId : Nat)
    (n : Transport PublicKey) : Prop :=
  ∃ h s, n.streams.lookup r = some h ∧ n.heap[h]? = some s ∧ h ∈ n.connections ∧
    s.isActive n.now = true ∧ s.myStreamId = myStreamId ∧ s.remoteStreamId = remoteStreamId ∧
    s.remotePublicKey = some key

/-- **Two nodes with clear maps meet**: `d` dials and the other answers, and the first data
tells the other that its answer has arrived. -/
theorem reaches_meets [LawfulKeyCodec] [LawfulIdentity PublicKey] (made : Side → Nat) {d : Side}
    {A B : Transport PublicKey} {l r : Address} {k k' : Keypair PublicKey}
    (hA : Clear l k (made d) A) (hB : Clear r k' (made d.other) B) (hk : Signs k) (hk' : Signs k')
    (target target' : Target) (id id' : Nat) :
    ∃ A' B', Runs.Reaches step (Since made) (Pair.of d A B) (Pair.of d A' B') ∧
      Meets r.asParsed k'.publicKey id id' A' ∧ Meets l.asParsed k.publicKey id' id B' := by
  have hmade : made d.other.other ≤ A.heap.length := by rw [Side.other_other]; exact hA.heap
  obtain ⟨A₁, hdialed, hA₁, hnow₁⟩ :=
    reaches_dialed made (d := d) hA hB.localAddress target id
  obtain ⟨x, hx⟩ : ∃ x, x = A.dialStream l r.asParsed target id := ⟨_, rfl⟩
  rw [← hx] at hA₁
  have hxkey : x.myKeypair = k := by rw [hx]; exact hA.myKeypair
  obtain ⟨B₁, hanswered, hB₁, hnow₁'⟩ := reaches_answered made (d := d.other) hB
    hA₁.heap hmade (by rw [hx]; rfl) (r := l) (by rw [hx]; rfl) (by rw [hxkey]; exact hk) target'
    id'
  rw [Pair.of_other, Pair.of_other] at hanswered
  obtain ⟨y, hy⟩ : ∃ y, y = B.createStream r l.asParsed target' x.myStreamId x.dialData id' :=
    ⟨_, rfl⟩
  rw [← hy] at hB₁
  rw [Transport.createStream_dialData] at hy
  -- the answer arrives
  have hysigns : Signs y.myKeypair := by rw [hy]; exact hB.myKeypair ▸ hk'
  obtain ⟨m, hm, -, -, hid, hdata, haddress, -⟩ :=
    decodeMessage_encode y (hysigns y.listenData) 0 0
  have hlistened := convertRegistered_listen l r.asParsed target A.myKeypair id A.now y hdata
  have hxdial : (new l r.asParsed target 0 A.myKeypair id A.now).sendDial = x := hx.symm
  rw [hxdial, ← hnow₁] at hlistened
  obtain ⟨x', hx'⟩ : ∃ x', x' = { x with
      remotePublicKey := some y.myKeypair.publicKey
      remoteStreamId := m.streamId
      status := .active } := ⟨_, rfl⟩
  rw [← hx'] at hlistened
  have hconnected := reaches_handled made (d := d) (k := 0) hA₁ hB₁.heap hB.heap
    (by rw [hy]; rfl) hm (by rw [haddress, hy]; rfl) hlistened
  -- the first data is written
  have hactive : x'.isActive A₁.now = true := by
    rw [hx', hx, hnow₁]
    exact isActive_iff.mpr ⟨rfl, decide_eq_true (Nat.lt_add_of_pos_right (by decide))⟩
  obtain ⟨A₂, o, hwritten, hA₂, hnow₂⟩ := reaches_written made (d := d) (hA₁.set x')
    hactive (t := A.now) (by rw [hx', hx]; rfl) B₁
  -- and arrives
  have hxsigns : Signs x'.myKeypair := by rw [hx', hxkey]; exact hk
  obtain ⟨m', hm', -, -, hid', hdata', haddress', hverify⟩ :=
    decodeMessage_encode x' (hxsigns [1, 0, 0, 0, 0]) x'.inbound.receivedSeq 1
  have hfirst := convertRegistered_first (s := y) (m := m') (by rw [hy]; rfl)
    (by rw [hid', hx', hy]; rfl) (by rw [hdata']; decide)
    (by rw [isSigned, hy]; rw [hx'] at hverify; exact hverify) r B₁.now
  have hreceived := reaches_handled made (d := d.other) (k := x'.sent.length) hB₁
    hA₂.heap hmade List.getElem?_concat_length hm' (by rw [haddress', hx', hx]; rfl) hfirst
  rw [Pair.of_other, Pair.of_other] at hreceived
  have hactive' : (y.updateStatus .active).isActive B₁.now = true := by
    rw [hy, hnow₁']
    exact isActive_iff.mpr ⟨rfl, decide_eq_true (Nat.lt_add_of_pos_right (by decide))⟩
  obtain ⟨hy', hid''⟩ := isActive_recvMessage hactive' m'.deliveredSeq m'.seq m'.data
  obtain ⟨-, hremote, hkey⟩ := recvMessage_handshake (y.updateStatus .active) B₁.now
    m'.deliveredSeq m'.seq m'.data
  refine ⟨_, _, hdialed.trans (hanswered.trans (hconnected.trans (hwritten.trans hreceived))),
    ⟨A.heap.length, _, hA₂.lookup, hA₂.heap, hA₂.connected, ?_, ?_, ?_, ?_⟩,
    ⟨B.heap.length, _, (hB₁.set _).lookup, (hB₁.set _).heap, hB₁.connected, hy', ?_, ?_, ?_⟩⟩
  · exact hnow₂ ▸ hactive
  · rw [hx', hx]
    rfl
  · rw [hx']
    exact hid.trans (by rw [hy]; rfl)
  · rw [hx', hy]
    exact congrArg (fun k => some k.publicKey) hB.myKeypair
  · rw [hid'', hy]
    rfl
  · rw [hremote, hy, hx]
    rfl
  · rw [hkey, hy]
    exact congrArg (fun k => some k.publicKey) hxkey

/-- **The nodes can always meet again**: whatever has happened, and whatever clocks and targets
there will be, some run without any payload sent before leads to a stream at each node, both
active and each knowing the other's id and key. -/
theorem meet_again [LawfulKeyCodec] [LawfulIdentity PublicKey] (addresses : Pair Address)
    (keypairs : Pair (Keypair PublicKey)) (hsign : ∀ d, Signs (keypairs.get d)) (now : Instant)
    (as : List Action) (d : Side) (targets : Pair Target) (ids : Pair Nat) :
    ∃ w, Runs.Reaches step
        (Since fun e => ((Runs.run step (start addresses keypairs now) as).get e).heap.length)
        (Runs.run step (start addresses keypairs now) as) w ∧
      ∀ e, Meets (addresses.get e.other).asParsed (keypairs.get e.other).publicKey (ids.get e)
        (ids.get e.other) (w.get e) := by
  generalize hs : Runs.run step (start addresses keypairs now) as = s
  have hproper : Proper addresses keypairs s :=
    hs ▸ Runs.invariant step_proper (start_proper addresses keypairs now) as
  have hkept : ∀ e, (s.get e).Registered ∧ (s.get e).Unexpired := by
    rw [← hs]
    refine run_forall (P := fun _ n => n.Registered ∧ n.Unexpired) (fun _ n a _ h =>
      ⟨Transport.step_registered n a h.1, Transport.step_unexpired n a h.2⟩) (fun e => ?_) as
    rw [get_start]
    refine ⟨fun _ _ h => ?_, fun _ h => absurd h List.not_mem_nil⟩
    exact nomatch h
  obtain ⟨made, hmade⟩ : ∃ made : Side → Nat, made = fun e => (s.get e).heap.length := ⟨_, rfl⟩
  rw [← hmade]
  -- both nodes clear their maps
  obtain ⟨A, hA, hcleared⟩ := reaches_clear made (hproper d) (hkept d).1 (hkept d).2
    (by rw [hmade]) (s.get d.other)
  obtain ⟨B, hB, hcleared'⟩ := reaches_clear made (hproper d.other) (hkept d.other).1
    (hkept d.other).2 (by rw [hmade]) A
  rw [Pair.of_get] at hcleared
  rw [Pair.of_other, Pair.of_other] at hcleared'
  obtain ⟨A', B', hreached, hmeets, hmeets'⟩ := reaches_meets made (d := d) hA hB
    (hsign d) (hsign d.other) (targets.get d) (targets.get d.other) (ids.get d) (ids.get d.other)
  refine ⟨_, hcleared.trans (hcleared'.trans hreached), fun e => ?_⟩
  rcases Side.eq_or_eq_other d e with rfl | rfl
  · rw [Pair.get_of]
    exact hmeets
  · rw [Side.other_other, Pair.get_of_other]
    exact hmeets'

end World

namespace World
open Sample

/-- The left node has dialed, and its dial has been lost. -/
def sampleUnmet : World Sample.PublicKey :=
  Runs.run step (start ⟨addressOf 1, addressOf 2⟩ ⟨keypairOf 1, keypairOf 2⟩ 0)
    [.dial .left, .resume .left 0 (some (.nodeId (keyOf 2))) 5]

theorem meet_again_sample : ∃ w,
    Runs.Reaches step (Since fun e => (sampleUnmet.get e).heap.length) sampleUnmet w ∧
    ∀ e, Meets ((⟨addressOf 1, addressOf 2⟩ : Pair Address).get e.other).asParsed
      ((⟨keypairOf 1, keypairOf 2⟩ : Pair (Keypair Sample.PublicKey)).get e.other).publicKey
      ((⟨3, 4⟩ : Pair Nat).get e) ((⟨3, 4⟩ : Pair Nat).get e.other) (w.get e) :=
  meet_again ⟨addressOf 1, addressOf 2⟩ ⟨keypairOf 1, keypairOf 2⟩
    (fun e => by cases e <;> exact verify_sign _) 0 _ .right
    ⟨.nodeId (keyOf 2), .nodeId (keyOf 1)⟩ ⟨3, 4⟩

end World
end VeilidTransport
