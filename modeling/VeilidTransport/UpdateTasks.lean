import VeilidTransport.Listener
import VeilidTransport.ReceiveTasks
import VeilidTransport.DialCopies

/-!
# Updates of one stream that overlap

The tasks that `get_next_event` spawns for the messages of one stream overlap.  Each reads
what it needs of the stream, clones the status, and then does what the clone asks for:
`UpdateTask.next` is `convert_update` as the atomic steps between its locks and awaits,
and `run_alone` says that a task that no other interrupts is `convertRegistered`.

The clone may be out of date when the task stores the next status.
`status_never_regresses` holds for the interleavings in which a task stores `Dial` or
`Listen` only over `Dial`; `status_regressed` is an interleaving without that.
-/

namespace VeilidTransport

/-- A step of a branch of `convert_update`. -/
inductive ConvertStep (PublicKey : Type) where
  | updateRemotePublicKey (key : PublicKey)
  | updateInboundLastTimestampToNow
  | updateRemoteStreamId (id : Nat)
  | updateStatus (status : StreamStatus)
  | sendDial
  | sendListen
  | generateMessages
  | sendMessages
  | updateOutboundDeliveredSeq (deliveredSeq : Nat)
  | removeSentMessagesFromQueue
  /-- `activate`, which announces an incoming connection. -/
  | activate

/-- A task of `convert_update` for a registered stream, at its next step. -/
inductive UpdateTask (PublicKey : Type) where
  /-- `verify_signature`. -/
  | verifySignature (m : AppMessage)
  /-- `get_remote_stream_id() == 0`. -/
  | checkRemoteStreamId (m : AppMessage) (isSigned : Bool)
  /-- `update_remote_stream_id`, for a stream that has dialed. -/
  | adoptRemoteStreamId (m : AppMessage) (isSigned : Bool)
  /-- The listener's address. -/
  | readLocalAddress (m : AppMessage) (isSigned : Bool)
  /-- `get_remote_stream_id() != 0`. -/
  | checkPrevious (m : AppMessage) (isSigned : Bool) (localAddress : Address)
  /-- `stream_id < get_remote_stream_id()`. -/
  | comparePrevious (m : AppMessage) (isSigned : Bool) (localAddress : Address)
  /-- The clone of the status. -/
  | cloneStatus (m : AppMessage) (isSigned : Bool) (localAddress : Address)
  /-- `get_remote_stream_id() == stream_id`, for a stream that listens. -/
  | compareStreamId (m : AppMessage) (isSigned : Bool)
  /-- A branch, or what is left of it. -/
  | branch (steps : List (ConvertStep PublicKey))
  /-- `update_status(Active)` before `recv_message`. -/
  | activeThenReceive (m : AppMessage)
  | receive (call : RecvCall)

/-- What the tasks of one stream share. -/
structure Converter (PublicKey : Type) where
  stream : VeilidStream PublicKey
  now : Instant
  localAddress : Option Address
  /-- History: the incoming connections announced for the stream. -/
  incoming : Nat

/-- What a task has come to when it ends: the stream, and whether it has announced it. -/
def Converter.after {PublicKey : Type} (c : Converter PublicKey)
    (r : VeilidStream PublicKey × Next) : Converter PublicKey :=
  { c with
    stream := r.1
    incoming := if r.2 = .activate then c.incoming + 1 else c.incoming }

abbrev UpdateTasks (PublicKey : Type) := Pool (Converter PublicKey) (UpdateTask PublicKey)

namespace ConvertStep
variable {PublicKey : Type} [KeyCodec] [Identity PublicKey]

def apply (c : Converter PublicKey) : ConvertStep PublicKey → Converter PublicKey
  | updateRemotePublicKey key => { c with stream := c.stream.updateRemotePublicKey key }
  | updateInboundLastTimestampToNow =>
    { c with stream := c.stream.updateInboundLastTimestampToNow c.now }
  | updateRemoteStreamId id => { c with stream := c.stream.updateRemoteStreamId id }
  | updateStatus status => { c with stream := c.stream.updateStatus status }
  | sendDial => { c with stream := c.stream.sendDial }
  | sendListen => { c with stream := c.stream.sendListen }
  | generateMessages => { c with stream := c.stream.generateMessages }
  | sendMessages => { c with stream := c.stream.sendMessages c.now }
  | updateOutboundDeliveredSeq deliveredSeq =>
    { c with stream := c.stream.updateOutboundDeliveredSeq deliveredSeq }
  | removeSentMessagesFromQueue => { c with stream := c.stream.removeSentMessagesFromQueue }
  | activate => { c with incoming := c.incoming + 1 }

omit [KeyCodec] in
/-- The remote's key, if it decodes. -/
def extractKey (word data : Bytes) : List (ConvertStep PublicKey) :=
  if data.take word.length = word then
    (Identity.tryDecodeProtobuf (data.drop word.length)).toList.map updateRemotePublicKey
  else []

end ConvertStep

namespace UpdateTask
open ConvertStep
variable {PublicKey : Type} [KeyCodec] [Identity PublicKey]

omit [KeyCodec] [Identity PublicKey] in
def done : UpdateTask PublicKey := branch []

/-- The branch for a clone that is `Dial`. -/
def convertDial (m : AppMessage) (localAddress : Address) : UpdateTask PublicKey :=
  match messageType m.data with
  | .dial =>
    match m.remoteAddress.cmp localAddress with
    | .lt => branch (ConvertStep.extractKey dialWord m.data ++
        [updateInboundLastTimestampToNow, updateStatus .dial, sendDial])
    | .eq => branch (ConvertStep.extractKey dialWord m.data)
    | .gt => branch (ConvertStep.extractKey dialWord m.data ++
        [updateRemoteStreamId m.streamId, updateStatus .listen, updateInboundLastTimestampToNow,
          sendListen, activate])
  | .listen => branch (ConvertStep.extractKey listenWord m.data ++
      [updateInboundLastTimestampToNow, updateRemoteStreamId m.streamId, updateStatus .active,
        generateMessages, sendMessages])
  | _ => done

omit [KeyCodec] [Identity PublicKey] in
/-- The branch for a clone that is `Listen`. -/
def convertListen (m : AppMessage) (isSigned : Bool) : UpdateTask PublicKey :=
  match messageType m.data with
  | .dial => branch [updateRemoteStreamId m.streamId, sendListen]
  | .data => compareStreamId m isSigned
  | _ => done

omit [KeyCodec] [Identity PublicKey] in
/-- The branch for a clone that is `Active`; the stream that a `DIAL` may create is
another one. -/
def convertActive (m : AppMessage) (isSigned : Bool) : UpdateTask PublicKey :=
  match messageType m.data with
  | .status => branch [updateOutboundDeliveredSeq m.deliveredSeq, removeSentMessagesFromQueue]
  | .data => if isSigned then activeThenReceive m else done
  | _ => done

/-- **One atomic step of a task.** -/
def next (task : UpdateTask PublicKey) (c : Converter PublicKey) :
    UpdateTask PublicKey × Converter PublicKey :=
  match task with
  | verifySignature m => (checkRemoteStreamId m (c.stream.isSigned m), c)
  | checkRemoteStreamId m isSigned =>
    if c.stream.remoteStreamId = 0 then (adoptRemoteStreamId m isSigned, c)
    else (readLocalAddress m isSigned, c)
  | adoptRemoteStreamId m isSigned =>
    (readLocalAddress m isSigned, { c with stream := c.stream.updateRemoteStreamId m.streamId })
  | readLocalAddress m isSigned =>
    match c.localAddress with
    | none => (done, c)
    | some localAddress => (checkPrevious m isSigned localAddress, c)
  | checkPrevious m isSigned localAddress =>
    if c.stream.remoteStreamId ≠ 0 then (comparePrevious m isSigned localAddress, c)
    else (cloneStatus m isSigned localAddress, c)
  | comparePrevious m isSigned localAddress =>
    if m.streamId < c.stream.remoteStreamId then (done, c)
    else (cloneStatus m isSigned localAddress, c)
  | cloneStatus m isSigned localAddress =>
    match c.stream.status with
    | .dial => (convertDial m localAddress, c)
    | .listen => (convertListen m isSigned, c)
    | .active => (convertActive m isSigned, c)
    | .expired => (done, c)
  | compareStreamId m isSigned =>
    if c.stream.remoteStreamId = m.streamId ∧ isSigned then (activeThenReceive m, c) else (done, c)
  | branch [] => (done, c)
  | branch (s :: steps) => (branch steps, s.apply c)
  | activeThenReceive m =>
    (receive (.load m.deliveredSeq m.seq m.data), { c with stream := c.stream.updateStatus .active })
  | receive call =>
    (receive (call.next ⟨c.stream, c.now⟩).1,
      { c with stream := (call.next ⟨c.stream, c.now⟩).2.stream })

/-- What `convert_update` does to the stream it has created for a first dial. -/
def created (m : AppMessage) : UpdateTask PublicKey :=
  branch (ConvertStep.extractKey dialWord m.data ++
    [updateRemoteStreamId m.streamId, updateStatus .listen, updateInboundLastTimestampToNow,
      sendListen, activate])

/-- What it does to the stream it has created to replace an active one. -/
def recreated (m : AppMessage) : UpdateTask PublicKey :=
  branch (ConvertStep.extractKey dialWord m.data ++
    [updateRemoteStreamId m.streamId, updateStatus .listen, sendListen, activate])

end UpdateTask

namespace UpdateTasks
open UpdateTask ConvertStep
variable {PublicKey : Type} [KeyCodec] [Identity PublicKey]

/-- Where a stream comes from. -/
inductive Origin where
  /-- The future of `dial`, which leaves the status alone. -/
  | dial
  | created (m : AppMessage)
  | recreated (m : AppMessage)

/-- The task that has just put the stream into the map. -/
def Origin.tasks : Origin → List (UpdateTask PublicKey)
  | dial => []
  | created m => [UpdateTask.created m]
  | recreated m => [UpdateTask.recreated m]

/-- The stream as it is put into the map. -/
def start (s : VeilidStream PublicKey) (now : Instant) (localAddress : Option Address)
    (origin : Origin) : UpdateTasks PublicKey :=
  ⟨⟨s, now, localAddress, 0⟩, origin.tasks⟩

inductive Action where
  /-- A message for the stream arrives, and its task is spawned. -/
  | update (m : AppMessage)
  /-- The `i`-th task takes a step. -/
  | advance (i : Nat)
  | tick (d : Nat)
  | setLocalAddress (localAddress : Address)

def step (p : UpdateTasks PublicKey) : Action → UpdateTasks PublicKey
  | .update m => p.spawn (verifySignature m)
  | .advance i => p.advance next i
  | .tick d => { p with shared := { p.shared with now := p.shared.now + d } }
  | .setLocalAddress localAddress =>
    { p with shared := { p.shared with localAddress := some localAddress } }

/-! ## A task alone -/

omit [KeyCodec] [Identity PublicKey] in
/-- A step of a call of `recv_message` leaves the status and the clock alone. -/
theorem recvCall_next (call : RecvCall) (r : Receiver PublicKey) :
    (call.next r).2.stream.status = r.stream.status ∧ (call.next r).2.now = r.now := by
  cases call with
  | load deliveredSeq seq data =>
    unfold RecvCall.next
    simp only
    repeat' split
    all_goals exact ⟨rfl, rfl⟩
  | check deliveredSeq finalSeq data =>
    unfold RecvCall.next
    simp only
    split <;> exact ⟨rfl, rfl⟩
  | wake =>
    refine ⟨?_, rfl⟩
    show r.stream.wakeToRead.status = r.stream.status
    rw [VeilidStream.wakeToRead_eq]
  | _ => exact ⟨rfl, rfl⟩

theorem solo_branch (steps : List (ConvertStep PublicKey)) (c : Converter PublicKey) :
    Pool.Solo next (branch steps, c) (done, steps.foldl ConvertStep.apply c) := by
  induction steps generalizing c with
  | nil => exact .refl
  | cons s steps ih => exact .step rfl (ih _)

theorem solo_receive (c : Converter PublicKey) (deliveredSeq seq : Nat) (data : Bytes) :
    Pool.Solo next (receive (.load deliveredSeq seq data), c)
      (receive .done, { c with stream := c.stream.recvMessage c.now deliveredSeq seq data }) := by
  have hcall := Pool.Solo.of_advance 12
    (ReceiveTasks.run_alone c.stream c.now deliveredSeq seq data)
  refine Relation.ReflTransGen.lift (fun a : RecvCall × Receiver PublicKey =>
    (receive a.1, { c with stream := a.2.stream, now := a.2.now })) ?_ _ _ hcall
  rintro ⟨call, r⟩ b rfl
  show (receive (call.next r).1, { c with stream := (call.next r).2.stream, now := r.now }) =
    (receive (call.next r).1,
      { c with stream := (call.next r).2.stream, now := (call.next r).2.now })
  rw [(recvCall_next call r).2]

theorem foldl_extractKey (word data : Bytes) (steps : List (ConvertStep PublicKey))
    (c : Converter PublicKey) :
    (ConvertStep.extractKey word data ++ steps).foldl ConvertStep.apply c =
      steps.foldl ConvertStep.apply { c with stream := c.stream.extractKey word data } := by
  rw [List.foldl_append, ConvertStep.extractKey, VeilidStream.extractKey]
  split
  · cases (Identity.tryDecodeProtobuf (data.drop word.length) : Option PublicKey) <;> rfl
  · rfl

theorem solo_adopt (m : AppMessage) (isSigned : Bool) (c : Converter PublicKey) :
    Pool.Solo next (checkRemoteStreamId m isSigned, c)
      (readLocalAddress m isSigned,
        { c with stream := c.stream.adoptRemoteStreamId m.streamId }) := by
  have hcheck : next (checkRemoteStreamId m isSigned) c =
      if c.stream.remoteStreamId = 0 then (adoptRemoteStreamId m isSigned, c)
      else (readLocalAddress m isSigned, c) := rfl
  unfold VeilidStream.adoptRemoteStreamId
  by_cases h0 : c.stream.remoteStreamId = 0
  · rw [if_pos h0] at hcheck ⊢
    exact .step hcheck (.single rfl)
  · rw [if_neg h0] at hcheck ⊢
    exact .single hcheck

theorem solo_previous (m : AppMessage) (isSigned : Bool) (localAddress : Address)
    (c : Converter PublicKey) :
    Pool.Solo next (checkPrevious m isSigned localAddress, c)
      (if c.stream.Stale m then done else cloneStatus m isSigned localAddress, c) := by
  have hcheck : next (checkPrevious m isSigned localAddress) c =
      if c.stream.remoteStreamId ≠ 0 then (comparePrevious m isSigned localAddress, c)
      else (cloneStatus m isSigned localAddress, c) := rfl
  have hcompare : next (comparePrevious m isSigned localAddress) c =
      if m.streamId < c.stream.remoteStreamId then (done, c)
      else (cloneStatus m isSigned localAddress, c) := rfl
  by_cases h0 : c.stream.remoteStreamId ≠ 0
  · rw [if_pos h0] at hcheck
    refine .step hcheck (.single ?_)
    show next (comparePrevious m isSigned localAddress) c = _
    by_cases hlt : m.streamId < c.stream.remoteStreamId
    · rw [hcompare, if_pos hlt, if_pos ⟨h0, hlt⟩]
    · rw [hcompare, if_neg hlt, if_neg fun h => hlt h.2]
  · rw [if_neg h0] at hcheck
    rw [if_neg fun h : c.stream.Stale m => h0 h.1]
    exact .single hcheck

theorem solo_convertDial (m : AppMessage) (localAddress : Address) (c : Converter PublicKey) :
    ∃ task, Pool.Solo next (UpdateTask.convertDial m localAddress, c)
      (task, c.after (c.stream.convertDial localAddress c.now m)) := by
  unfold UpdateTask.convertDial VeilidStream.convertDial
  cases messageType m.data with
  | dial =>
    simp only
    cases m.remoteAddress.cmp localAddress with
    | lt =>
      have h := solo_branch (ConvertStep.extractKey dialWord m.data ++
        [updateInboundLastTimestampToNow, updateStatus .dial, sendDial]) c
      rw [foldl_extractKey] at h
      exact ⟨_, h⟩
    | eq =>
      have h := solo_branch (ConvertStep.extractKey dialWord m.data ++ []) c
      rw [foldl_extractKey, List.append_nil] at h
      exact ⟨_, h⟩
    | gt =>
      have h := solo_branch (ConvertStep.extractKey dialWord m.data ++
        [updateRemoteStreamId m.streamId, updateStatus .listen, updateInboundLastTimestampToNow,
          sendListen, activate]) c
      rw [foldl_extractKey] at h
      exact ⟨_, h⟩
  | listen =>
    have h := solo_branch (ConvertStep.extractKey listenWord m.data ++
      [updateInboundLastTimestampToNow, updateRemoteStreamId m.streamId, updateStatus .active,
        generateMessages, sendMessages]) c
    rw [foldl_extractKey] at h
    exact ⟨_, h⟩
  | _ => exact ⟨_, .refl⟩

theorem solo_activeThenReceive (m : AppMessage) (c : Converter PublicKey) :
    Pool.Solo next (activeThenReceive m, c) (receive .done, { c with
      stream := (c.stream.updateStatus .active).recvMessage c.now m.deliveredSeq m.seq m.data }) :=
  .step rfl (solo_receive { c with stream := c.stream.updateStatus .active } m.deliveredSeq m.seq
    m.data)

theorem solo_convertListen (m : AppMessage) (isSigned : Bool) (c : Converter PublicKey) :
    ∃ task, Pool.Solo next (UpdateTask.convertListen m isSigned, c)
      (task, c.after (c.stream.convertListen c.now m isSigned)) := by
  unfold UpdateTask.convertListen VeilidStream.convertListen
  cases messageType m.data with
  | dial => exact ⟨_, solo_branch [updateRemoteStreamId m.streamId, sendListen] c⟩
  | data =>
    simp only
    have hcompare : next (compareStreamId m isSigned) c =
        if c.stream.remoteStreamId = m.streamId ∧ isSigned then (activeThenReceive m, c)
        else (done, c) := rfl
    by_cases hid : c.stream.remoteStreamId = m.streamId ∧ isSigned
    · rw [if_pos hid] at hcompare ⊢
      exact ⟨_, .step hcompare (solo_activeThenReceive m c)⟩
    · rw [if_neg hid] at hcompare ⊢
      exact ⟨_, .single hcompare⟩
  | _ => exact ⟨_, .refl⟩

theorem solo_convertActive (m : AppMessage) (isSigned : Bool) (c : Converter PublicKey) :
    ∃ task, Pool.Solo next (UpdateTask.convertActive m isSigned, c)
      (task, c.after (c.stream.convertActive c.now m isSigned)) := by
  unfold UpdateTask.convertActive VeilidStream.convertActive
  cases messageType m.data with
  | dial =>
    simp only
    split <;> exact ⟨_, .refl⟩
  | status =>
    exact ⟨_, solo_branch
      [updateOutboundDeliveredSeq m.deliveredSeq, removeSentMessagesFromQueue] c⟩
  | data =>
    simp only
    by_cases hsigned : isSigned = true
    · rw [if_pos hsigned, if_pos hsigned]
      exact ⟨_, solo_activeThenReceive m c⟩
    · rw [if_neg hsigned, if_neg hsigned]
      exact ⟨_, .refl⟩
  | _ => exact ⟨_, .refl⟩

/-- **A task that no other interrupts is `convertRegistered`.** -/
theorem run_alone (m : AppMessage) (c : Converter PublicKey) :
    ∃ task, Pool.Solo next (verifySignature m, c)
      (task, c.after (c.stream.convertRegistered c.localAddress c.now m)) := by
  have hadopt : Pool.Solo next (verifySignature m, c) (readLocalAddress m (c.stream.isSigned m),
      { c with stream := c.stream.adoptRemoteStreamId m.streamId }) :=
    .step rfl (solo_adopt m _ c)
  unfold VeilidStream.convertRegistered
  generalize c.stream.isSigned m = isSigned at hadopt ⊢
  generalize hs : c.stream.adoptRemoteStreamId m.streamId = s at hadopt ⊢
  simp only
  cases hl : c.localAddress with
  | none =>
    have hread : next (readLocalAddress m isSigned) { c with stream := s } =
        (done, { c with stream := s }) := by
      simp only [next, hl]
    exact ⟨done, hadopt.trans (.single hread)⟩
  | some localAddress =>
    have hread : Pool.Solo next (readLocalAddress m isSigned, { c with stream := s })
        (checkPrevious m isSigned localAddress, { c with stream := s }) := by
      refine .single ?_
      simp only [next, hl]
    have hprev := (hadopt.trans hread).trans (solo_previous m isSigned localAddress _)
    simp only at hprev ⊢
    by_cases hstale : s.Stale m
    · rw [if_pos hstale] at hprev
      rw [if_pos (show s.remoteStreamId ≠ 0 ∧ m.streamId < s.remoteStreamId from hstale)]
      exact ⟨_, hprev⟩
    · rw [if_neg hstale] at hprev
      rw [if_neg (show ¬ (s.remoteStreamId ≠ 0 ∧ m.streamId < s.remoteStreamId) from hstale)]
      have hclone : ∀ {t : UpdateTask PublicKey} {r : VeilidStream PublicKey × Next},
          next (cloneStatus m isSigned localAddress) { c with stream := s } =
            (t, { c with stream := s }) →
          (∃ task, Pool.Solo next (t, { c with stream := s }) (task, c.after r)) →
          ∃ task, Pool.Solo next (verifySignature m, c) (task, c.after r) := by
        rintro t r ht ⟨task, h⟩
        exact ⟨task, hprev.trans (Pool.Solo.step ht h)⟩
      have hnext : next (cloneStatus m isSigned localAddress) { c with stream := s } =
        match s.status with
        | .dial => (UpdateTask.convertDial m localAddress, { c with stream := s })
        | .listen => (UpdateTask.convertListen m isSigned, { c with stream := s })
        | .active => (UpdateTask.convertActive m isSigned, { c with stream := s })
        | .expired => (done, { c with stream := s }) := rfl
      cases hst : s.status with
      | dial =>
        rw [hst] at hnext
        exact hclone hnext (solo_convertDial m localAddress { c with stream := s })
      | listen =>
        rw [hst] at hnext
        exact hclone hnext (solo_convertListen m isSigned { c with stream := s })
      | active =>
        rw [hst] at hnext
        exact hclone hnext (solo_convertActive m isSigned { c with stream := s })
      | expired =>
        rw [hst] at hnext
        exact hclone hnext ⟨_, .refl⟩

/-! ## Where the status goes -/

/-- How the status of a stream may move. -/
inductive Advances : StreamStatus → StreamStatus → Prop where
  | stays (status : StreamStatus) : Advances status status
  | listens : Advances .dial .listen
  | connects : Advances .dial .active
  | receives : Advances .listen .active

omit [KeyCodec] in
/-- A status that is stored over `Dial`, or is `Active`, is an advance. -/
theorem Advances.of_fresh {status : StreamStatus} {stored : Option StreamStatus}
    (h : status ≠ .expired) (hstored : stored ≠ some .expired)
    (hfresh : ∀ s ∈ stored, s = .active ∨ status = .dial) :
    Advances status (stored.getD status) := by
  cases stored with
  | none => exact .stays status
  | some s =>
    rcases hfresh s rfl with rfl | rfl
    · show Advances status .active
      cases status with
      | dial => exact .connects
      | listen => exact .receives
      | active => exact .stays _
      | expired => exact absurd rfl h
    · show Advances .dial s
      cases s with
      | dial => exact .stays _
      | listen => exact .listens
      | active => exact .connects
      | expired => exact absurd rfl hstored

end UpdateTasks

/-- The status that a step stores. -/
def ConvertStep.writes {PublicKey : Type} : ConvertStep PublicKey → Option StreamStatus
  | updateStatus status => some status
  | _ => none

def ConvertStep.announces {PublicKey : Type} : ConvertStep PublicKey → Bool
  | activate => true
  | _ => false

namespace UpdateTask
open ConvertStep
variable {PublicKey : Type}

/-- The status that a task is about to store. -/
def writes : UpdateTask PublicKey → Option StreamStatus
  | branch (s :: _) => s.writes
  | activeThenReceive _ => some .active
  | _ => none

/-- A task that is about to announce the stream. -/
def announces : UpdateTask PublicKey → Bool
  | branch (s :: _) => s.announces
  | _ => false

/-- A task that will announce the stream, and has stored `Listen`. -/
def Announcing : UpdateTask PublicKey → Prop
  | branch steps =>
    (∃ s ∈ steps, s.announces = true) ∧ ∀ s ∈ steps, s.writes ≠ some .listen
  | _ => False

/-- A branch announces the stream once, with no `Listen` to store after that, and never
stores `Expired`. -/
def Proper : UpdateTask PublicKey → Prop
  | branch steps =>
    steps.Pairwise (fun s s' => s.announces = true →
      s'.announces = false ∧ s'.writes ≠ some .listen) ∧
    ∀ s ∈ steps, s.writes ≠ some .expired
  | _ => True

theorem announcing_of_announces {t : UpdateTask PublicKey} (h : t.Proper)
    (ha : t.announces = true) : t.Announcing ∧ t.writes = none := by
  cases t with
  | branch steps =>
    cases steps with
    | nil => cases ha
    | cons s steps =>
      have hs : s = activate := by
        cases s <;> first | rfl | cases ha
      subst hs
      obtain ⟨hpair, -⟩ := h
      refine ⟨⟨⟨activate, List.mem_cons_self, rfl⟩, fun s' hs' => ?_⟩, rfl⟩
      rcases List.mem_cons.mp hs' with rfl | hs'
      · simp [ConvertStep.writes]
      · exact ((List.pairwise_cons.mp hpair).1 s' hs' rfl).2
  | _ => cases ha

theorem not_announcing_done : ¬ (done : UpdateTask PublicKey).Announcing := by
  rintro ⟨⟨s, hs, -⟩, -⟩
  exact absurd hs List.not_mem_nil

variable [KeyCodec] [Identity PublicKey]

omit [KeyCodec] in
theorem mem_extractKey {word data : Bytes} {s : ConvertStep PublicKey}
    (h : s ∈ ConvertStep.extractKey word data) : s.announces = false ∧ s.writes = none := by
  unfold ConvertStep.extractKey at h
  split at h
  · obtain ⟨key, -, rfl⟩ := List.mem_map.mp h
    exact ⟨rfl, rfl⟩
  · exact absurd h List.not_mem_nil

omit [KeyCodec] in
/-- The steps that set the remote's key are neither here nor there. -/
theorem proper_extractKey {steps : List (ConvertStep PublicKey)} (word data : Bytes)
    (h : Proper (branch steps)) : Proper (branch (ConvertStep.extractKey word data ++ steps)) := by
  obtain ⟨hpair, hexp⟩ := h
  refine ⟨List.pairwise_append.mpr ⟨?_, hpair, ?_⟩, fun s hs => ?_⟩
  · refine List.pairwise_of_forall_mem_list fun s hs s' _ ha => ?_
    rw [(mem_extractKey hs).1] at ha
    cases ha
  · intro s hs s' _ ha
    rw [(mem_extractKey hs).1] at ha
    cases ha
  · rcases List.mem_append.mp hs with hs | hs
    · rw [(mem_extractKey hs).2]
      simp
    · exact hexp s hs

omit [KeyCodec] in
theorem announcing_extractKey {steps : List (ConvertStep PublicKey)} {word data : Bytes}
    (h : Announcing (branch (ConvertStep.extractKey word data ++ steps))) :
    Announcing (branch steps) := by
  obtain ⟨⟨s, hs, ha⟩, hw⟩ := h
  refine ⟨⟨s, ?_, ha⟩, fun s' hs' => hw s' (List.mem_append_right _ hs')⟩
  rcases List.mem_append.mp hs with hs | hs
  · rw [(mem_extractKey hs).1] at ha
    cases ha
  · exact hs

omit [KeyCodec] in
/-- Nor do they stand between the beginning of a branch and its announcement. -/
theorem begins_extractKey {steps : List (ConvertStep PublicKey)} (word data : Bytes)
    (h : Proper (branch steps) ∧ ¬ Announcing (branch steps)) :
    Proper (branch (ConvertStep.extractKey word data ++ steps)) ∧
      ¬ Announcing (branch (ConvertStep.extractKey word data ++ steps)) :=
  ⟨proper_extractKey word data h.1, fun ha => h.2 (announcing_extractKey ha)⟩

/-- Each of the branches is proper, and begins before it has stored anything. -/
theorem convertDial_proper (m : AppMessage) (localAddress : Address) :
    (convertDial m localAddress : UpdateTask PublicKey).Proper ∧
      ¬ (convertDial m localAddress : UpdateTask PublicKey).Announcing := by
  unfold convertDial
  cases messageType m.data with
  | dial =>
    simp only
    cases m.remoteAddress.cmp localAddress with
    | lt =>
      apply begins_extractKey
      simp [Proper, Announcing, ConvertStep.announces, ConvertStep.writes]
    | eq =>
      have hnil : Proper (branch ([] : List (ConvertStep PublicKey))) ∧
          ¬ Announcing (branch ([] : List (ConvertStep PublicKey))) := by
        simp [Proper, Announcing]
      have h := begins_extractKey dialWord m.data hnil
      rw [List.append_nil] at h
      exact h
    | gt =>
      apply begins_extractKey
      simp [Proper, Announcing, ConvertStep.announces, ConvertStep.writes]
  | listen =>
    apply begins_extractKey
    simp [Proper, Announcing, ConvertStep.announces, ConvertStep.writes]
  | _ => exact ⟨by simp [done, Proper], not_announcing_done⟩

omit [KeyCodec] [Identity PublicKey] in
theorem convertListen_proper (m : AppMessage) (isSigned : Bool) :
    (convertListen m isSigned : UpdateTask PublicKey).Proper ∧
      ¬ (convertListen m isSigned : UpdateTask PublicKey).Announcing := by
  unfold convertListen
  cases messageType m.data with
  | dial =>
    constructor
    · simp [Proper, ConvertStep.announces, ConvertStep.writes]
    · simp [Announcing, ConvertStep.announces]
  | data => exact ⟨trivial, fun h => h⟩
  | _ => exact ⟨by simp [done, Proper], not_announcing_done⟩

omit [KeyCodec] [Identity PublicKey] in
theorem convertActive_proper (m : AppMessage) (isSigned : Bool) :
    (convertActive m isSigned : UpdateTask PublicKey).Proper ∧
      ¬ (convertActive m isSigned : UpdateTask PublicKey).Announcing := by
  have hdone : (done : UpdateTask PublicKey).Proper := by simp [done, Proper]
  unfold convertActive
  cases messageType m.data with
  | status =>
    constructor
    · simp [Proper, ConvertStep.announces, ConvertStep.writes]
    · simp [Announcing, ConvertStep.announces]
  | data =>
    simp only
    split
    · exact ⟨trivial, fun h => h⟩
    · exact ⟨hdone, not_announcing_done⟩
  | _ => exact ⟨hdone, not_announcing_done⟩

/-- A step of a branch stores the status it says, and announces the stream if it is to. -/
theorem apply_effect (s : ConvertStep PublicKey) (c : Converter PublicKey) :
    (s.apply c).stream.status = s.writes.getD c.stream.status ∧
      (s.apply c).incoming = if s.announces then c.incoming + 1 else c.incoming := by
  cases s with
  | sendMessages =>
    exact ⟨(VeilidStream.works_handshake (VeilidStream.works_sendMessages _ _)).status, rfl⟩
  | _ => exact ⟨rfl, rfl⟩

/-- **What one step of a task does** to the status and to the announcements. -/
theorem next_effect (t : UpdateTask PublicKey) (c : Converter PublicKey) :
    (t.next c).2.stream.status = t.writes.getD c.stream.status ∧
      (t.next c).2.incoming = if t.announces then c.incoming + 1 else c.incoming := by
  cases t with
  | branch steps =>
    cases steps with
    | nil => exact ⟨rfl, rfl⟩
    | cons s steps => exact apply_effect s c
  | receive call => exact ⟨(UpdateTasks.recvCall_next call ⟨c.stream, c.now⟩).1, rfl⟩
  | verifySignature m => exact ⟨rfl, rfl⟩
  | adoptRemoteStreamId m isSigned => exact ⟨rfl, rfl⟩
  | activeThenReceive m => exact ⟨rfl, rfl⟩
  | _ =>
    unfold next
    simp only
    split <;> exact ⟨rfl, rfl⟩

/-- **What becomes of a task**: it stays proper; and it comes to announcing the stream only
by storing `Listen`, and not by announcing it. -/
theorem next_proper {t : UpdateTask PublicKey} (h : t.Proper) (c : Converter PublicKey) :
    (t.next c).1.Proper ∧ ((t.next c).1.Announcing →
      t.announces = false ∧ (t.Announcing ∨ t.writes = some .listen)) := by
  have hdone : (done : UpdateTask PublicKey).Proper := by simp [done, Proper]
  have hnone : ∀ {u : UpdateTask PublicKey}, u.Proper ∧ ¬ u.Announcing → u.Proper ∧
      (u.Announcing → t.announces = false ∧ (t.Announcing ∨ t.writes = some .listen)) :=
    fun hu => ⟨hu.1, fun ha => absurd ha hu.2⟩
  cases t with
  | branch steps =>
    cases steps with
    | nil => exact hnone ⟨hdone, not_announcing_done⟩
    | cons s steps =>
      obtain ⟨hpair, hexp⟩ := h
      obtain ⟨hhead, htail⟩ := List.pairwise_cons.mp hpair
      refine ⟨⟨htail, fun s' hs' => hexp s' (List.mem_cons_of_mem s hs')⟩, ?_⟩
      rintro ⟨⟨s', hs', ha'⟩, hw⟩
      have ha : s.announces = false := by
        by_cases ha : s.announces = true
        · rw [(hhead s' hs' ha).1] at ha'
          cases ha'
        · exact Bool.eq_false_iff.mpr ha
      refine ⟨ha, ?_⟩
      by_cases hl : s.writes = some .listen
      · exact .inr hl
      · refine .inl ⟨⟨s', List.mem_cons_of_mem s hs', ha'⟩, fun u hu => ?_⟩
        rcases List.mem_cons.mp hu with rfl | hu
        · exact hl
        · exact hw u hu
  | cloneStatus m isSigned localAddress =>
    unfold next
    simp only
    split
    · exact hnone (convertDial_proper m localAddress)
    · exact hnone (convertListen_proper m isSigned)
    · exact hnone (convertActive_proper m isSigned)
    · exact hnone ⟨hdone, not_announcing_done⟩
  | verifySignature m => exact hnone ⟨trivial, fun h => h⟩
  | adoptRemoteStreamId m isSigned => exact hnone ⟨trivial, fun h => h⟩
  | activeThenReceive m => exact hnone ⟨trivial, fun h => h⟩
  | receive call => exact hnone ⟨trivial, fun h => h⟩
  | _ =>
    unfold next
    simp only
    split
    all_goals first
      | exact hnone ⟨trivial, fun h => h⟩
      | exact hnone ⟨hdone, not_announcing_done⟩

end UpdateTask

namespace UpdateTasks
open UpdateTask
variable {PublicKey : Type} [KeyCodec] [Identity PublicKey]

/-- Announcing the stream is a critical section. -/
def announcing (PublicKey : Type) : Pool.Section (Converter PublicKey) (UpdateTask PublicKey) where
  inside t := t.Announcing
  idle c := c.incoming ≤ 1 ∧ (c.stream.status = .dial → c.incoming = 0)
  busy _ c := c.incoming = 0 ∧ c.stream.status ≠ .dial

/-- **The invariant.** -/
structure Orderly (p : UpdateTasks PublicKey) : Prop where
  proper : ∀ t ∈ p.tasks, t.Proper
  guarded : p.Guarded (announcing PublicKey)
  unexpired : p.shared.stream.status ≠ .expired

/-- A task stores `Dial` or `Listen` only while the status still is `Dial`. -/
def Fresh (p : UpdateTasks PublicKey) : Action → Prop
  | .advance i => ∀ t ∈ p.tasks[i]?, ∀ status ∈ t.writes,
      status = .active ∨ p.shared.stream.status = .dial
  | _ => True

instance (p : UpdateTasks PublicKey) : ∀ a, Decidable (Fresh p a)
  | .update _ => inferInstanceAs (Decidable True)
  | .tick _ => inferInstanceAs (Decidable True)
  | .setLocalAddress _ => inferInstanceAs (Decidable True)
  | .advance i => inferInstanceAs (Decidable (∀ t ∈ p.tasks[i]?, ∀ status ∈ t.writes,
      status = .active ∨ p.shared.stream.status = .dial))

omit [KeyCodec] [Identity PublicKey] in
theorem writes_ne_expired {t : UpdateTask PublicKey} (h : t.Proper) :
    t.writes ≠ some .expired := by
  cases t with
  | branch steps =>
    cases steps with
    | nil => simp [writes]
    | cons s steps => exact h.2 s List.mem_cons_self
  | _ => simp [writes]

/-- **The step lemma**, for the task that takes a step. -/
theorem Orderly.advance {p : UpdateTasks PublicKey} {i : Nat} {t : UpdateTask PublicKey}
    (h : p.Orderly) (hi : p.tasks[i]? = some t)
    (hfresh : ∀ status ∈ t.writes, status = .active ∨ p.shared.stream.status = .dial) :
    Advances p.shared.stream.status (t.next p.shared).2.stream.status ∧
      Pool.Guarded (announcing PublicKey)
        ⟨(t.next p.shared).2, p.tasks.set i (t.next p.shared).1⟩ := by
  have hmem := List.mem_of_getElem? hi
  obtain ⟨hstatus, hincoming⟩ := next_effect t p.shared
  obtain ⟨-, hann⟩ := next_proper (h.proper t hmem) p.shared
  have hbusy : ∀ u ∈ p.tasks, u.Announcing →
      p.shared.incoming = 0 ∧ p.shared.stream.status ≠ .dial := h.guarded.busy
  generalize t.next p.shared = r at *
  refine ⟨?_, ?_⟩
  · rw [hstatus]
    exact .of_fresh h.unexpired (writes_ne_expired (h.proper t hmem)) hfresh
  by_cases ha : t.announces = true
  · -- the one task that may announce the stream does
    obtain ⟨hin, hw⟩ := announcing_of_announces (h.proper t hmem) ha
    obtain ⟨hzero, hne⟩ := hbusy t hmem hin
    rw [hw] at hstatus
    rw [if_pos ha, hzero] at hincoming
    have hout : ¬ r.1.Announcing := fun hr => by
      rw [(hann hr).1] at ha
      cases ha
    refine h.guarded.advance_alone hi (.inl hin) (fun hr => absurd hr hout) fun _ =>
      ⟨Nat.le_of_eq hincoming, fun hd => ?_⟩
    exact absurd (hstatus.symm.trans hd) hne
  · rw [if_neg ha] at hincoming
    by_cases hd : p.shared.stream.status = .dial
    · -- nobody has stored `Listen` yet
      have hnone : ∀ u ∈ p.tasks, ¬ u.Announcing := fun u hu hin => (hbusy u hu hin).2 hd
      have hzero : p.shared.incoming = 0 := (h.guarded.idle hnone).2 hd
      rw [hzero] at hincoming
      refine h.guarded.advance_alone hi (.inr hnone) (fun hr => ⟨hincoming, ?_⟩)
        fun _ => ⟨by omega, fun _ => hincoming⟩
      obtain ⟨-, hin | hw⟩ := hann hr
      · exact absurd hin (hnone t hmem)
      · rw [hstatus, hw]
        simp
    · -- the status that is stored can only be `Active`
      have hactive : ∀ status ∈ t.writes, status = .active := fun status hs =>
        (hfresh status hs).resolve_right hd
      have hne : r.2.stream.status ≠ .dial := by
        rw [hstatus]
        cases hw : t.writes with
        | none => exact hd
        | some status =>
          rw [hactive status hw]
          simp
      by_cases hin : t.Announcing
      · have hzero := (hbusy t hmem hin).1
        rw [hzero] at hincoming
        exact h.guarded.advance_alone hi (.inl hin) (fun _ => ⟨hincoming, hne⟩)
          fun _ => ⟨by omega, fun _ => hincoming⟩
      · have hout : ¬ r.1.Announcing := by
          intro hr
          obtain ⟨-, hin' | hw⟩ := hann hr
          · exact hin hin'
          · cases hactive _ hw
        refine h.guarded.advance_outside hi hin hout ?_ ?_
        · rintro ⟨hle, -⟩
          exact ⟨by omega, fun hd' => absurd hd' hne⟩
        · rintro u - ⟨hzero, -⟩
          exact ⟨hincoming.trans hzero, hne⟩

theorem step_orderly (p : UpdateTasks PublicKey) (a : Action) (hok : Fresh p a)
    (h : p.Orderly) :
    Advances p.shared.stream.status (p.step a).shared.stream.status ∧ (p.step a).Orderly := by
  cases a with
  | update m =>
    refine ⟨.stays _, fun t ht => ?_, h.guarded.spawn fun hin => hin, h.unexpired⟩
    rcases List.mem_append.mp ht with ht | ht
    · exact h.proper t ht
    · obtain rfl := List.mem_singleton.mp ht
      exact trivial
  | tick d =>
    exact ⟨.stays _, h.proper, ⟨h.guarded.lone, h.guarded.idle, h.guarded.busy⟩, h.unexpired⟩
  | setLocalAddress localAddress =>
    exact ⟨.stays _, h.proper, ⟨h.guarded.lone, h.guarded.idle, h.guarded.busy⟩, h.unexpired⟩
  | advance i =>
    rw [step, Pool.advance]
    split
    · exact ⟨.stays _, h⟩
    · next t hi =>
      obtain ⟨hadv, hg⟩ := h.advance hi (hok t hi)
      refine ⟨hadv, fun u hu => ?_, hg, ?_⟩
      · rcases List.mem_or_eq_of_mem_set hu with hu | rfl
        · exact h.proper u hu
        · exact (next_proper (h.proper t (List.mem_of_getElem? hi)) p.shared).1
      · have hne := h.unexpired
        show (t.next p.shared).2.stream.status ≠ .expired
        generalize (t.next p.shared).2.stream.status = status at hadv
        intro he
        subst he
        generalize p.shared.stream.status = status at hadv hne
        cases hadv
        exact hne rfl

omit [KeyCodec] in
theorem orderly_start {s : VeilidStream PublicKey} (hs : s.status = .dial) (now : Instant)
    (localAddress : Option Address) (origin : Origin) :
    (start s now localAddress origin).Orderly := by
  have htasks : ∀ t ∈ origin.tasks, t.Proper ∧ ¬ (t : UpdateTask PublicKey).Announcing := by
    intro t ht
    cases origin with
    | dial => exact absurd ht List.not_mem_nil
    | created m =>
      obtain rfl := List.mem_singleton.mp ht
      apply begins_extractKey
      simp [Proper, Announcing, ConvertStep.announces, ConvertStep.writes]
    | recreated m =>
      obtain rfl := List.mem_singleton.mp ht
      apply begins_extractKey
      simp [Proper, Announcing, ConvertStep.announces, ConvertStep.writes]
  refine ⟨fun t ht => (htasks t ht).1, ⟨?_, ?_, ?_⟩, ?_⟩
  · intro i j t u hi _ hin
    exact absurd hin (htasks t (List.mem_of_getElem? hi)).2
  · exact fun _ => ⟨Nat.zero_le 1, fun _ => rfl⟩
  · exact fun t ht hin => absurd hin (htasks t ht).2
  · show s.status ≠ .expired
    rw [hs]
    simp

/-- **Along the runs in which no task stores over what another has stored, the status only
advances**: from `Dial` to `Listen` or `Active`, from `Listen` to `Active`; and the stream is
announced as incoming at most once. -/
theorem status_never_regresses {s : VeilidStream PublicKey} (hs : s.status = .dial)
    (now : Instant) (localAddress : Option Address) (origin : Origin) (as : List Action)
    (hok : Runs.Along step Fresh (start s now localAddress origin) as) :
    (∀ bs a, bs ++ [a] <+: as →
      Advances (Runs.run step (start s now localAddress origin) bs).shared.stream.status
        (Runs.run step (start s now localAddress origin) (bs ++ [a])).shared.stream.status) ∧
    (Runs.run step (start s now localAddress origin) as).shared.incoming ≤ 1 := by
  have horderly : ∀ bs, bs <+: as →
      (Runs.run step (start s now localAddress origin) bs).Orderly := by
    rintro bs ⟨cs, rfl⟩
    exact Runs.invariant_along (fun p a hok h => (step_orderly p a hok h).2)
      (orderly_start hs now localAddress origin) (Runs.along_append.mp hok).1
  constructor
  · intro bs a hpre
    have hp := horderly bs ((List.prefix_append bs [a]).trans hpre)
    obtain ⟨cs, rfl⟩ := hpre
    rw [List.append_assoc] at hok
    rw [Runs.run_append]
    exact (step_orderly _ a (Runs.along_append.mp hok).2.1 hp).1
  · have hp := horderly as List.prefix_rfl
    generalize Runs.run step (start s now localAddress origin) as = p at hp
    by_cases hin : ∃ t ∈ p.tasks, t.Announcing
    · obtain ⟨t, ht, hin⟩ := hin
      have hzero : p.shared.incoming = 0 := (hp.guarded.busy t ht hin).1
      omega
    · exact (hp.guarded.idle fun t ht h => hin ⟨t, ht, h⟩).1

end UpdateTasks

namespace UpdateTasks
open Sample Transport

/-- Node 1 has dialed node 2. -/
def sampleDialed : VeilidStream Sample.PublicKey :=
  VeilidStream.new (addressOf 1) (addressOf 2) (.nodeId (keyOf 2)) 0 (keypairOf 1) 10 0

/-- Node 2 has dialed too, and answers the dial of node 1. -/
def sampleListenMessage : AppMessage :=
  { sampleDialMessage 2 1 20 with
    data := listenWord ++ Identity.encodeProtobuf (keypairOf 2).publicKey }

/-- The tasks of two messages take their steps in turns. -/
def sampleInTurns (m m' : AppMessage) : List Action :=
  [.update m, .update m'] ++ (List.range 16).flatMap fun _ => [.advance 0, .advance 1]

theorem status_never_regresses_sample :
    let p := start sampleDialed 0 (some (addressOf 1)) .dial
    let as := sampleInTurns (sampleDialMessage 2 1 20) sampleListenMessage
    (∀ bs a, bs ++ [a] <+: as → Advances (Runs.run step p bs).shared.stream.status
      (Runs.run step p (bs ++ [a])).shared.stream.status) ∧
    (Runs.run step p as).shared.incoming ≤ 1 :=
  status_never_regresses rfl 0 (some (addressOf 1)) .dial _ (by decide)

/-- The first task clones the status, then the second runs, and then the first goes on. -/
def sampleOvertaken (m m' : AppMessage) (n : Nat) : List Action :=
  [.update m, .update m'] ++ List.replicate 7 (.advance 0) ++ List.replicate 16 (.advance 1) ++
    List.replicate n (.advance 0)

/-- **A task can undo what another has done**: a `DIAL` that was checked before a `LISTEN`
takes the status back from `Active`, and two dials that were checked together announce the
stream twice. -/
theorem status_regressed :
    let p := start sampleDialed 0 (some (addressOf 1)) .dial
    ¬ (∀ bs a, bs ++ [a] <+: sampleOvertaken (sampleDialMessage 2 1 20) sampleListenMessage 3 →
      Advances (Runs.run step p bs).shared.stream.status
        (Runs.run step p (bs ++ [a])).shared.stream.status) ∧
    (Runs.run step p (sampleOvertaken (sampleDialMessage 2 1 20) (sampleDialMessage 2 1 20)
      6)).shared.incoming = 2 := by
  refine ⟨fun h => ?_, by decide⟩
  have hlast := h (sampleOvertaken (sampleDialMessage 2 1 20) sampleListenMessage 2) (.advance 0)
    ⟨[], by simp [sampleOvertaken]⟩
  have hbefore : (Runs.run step (start sampleDialed 0 (some (addressOf 1)) .dial)
      (sampleOvertaken (sampleDialMessage 2 1 20) sampleListenMessage 2)).shared.stream.status =
      .active := by
    decide
  have hafter : (Runs.run step (start sampleDialed 0 (some (addressOf 1)) .dial)
      (sampleOvertaken (sampleDialMessage 2 1 20) sampleListenMessage 2 ++
        [.advance 0])).shared.stream.status = .listen := by
    decide
  rw [hbefore, hafter] at hlast
  cases hlast

end UpdateTasks
end VeilidTransport
