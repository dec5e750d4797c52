import VeilidTransport.Republish
import VeilidTransport.Transport
import VeilidTransport.Sample

/-!
# The ping to oneself

A listener tests its private route: `heartbeat` sends a `PING` along it, signed by the node's
own key, and when it comes back `convert_update` marks the target as active, which puts off
the next republish.  The mark is made for any `PING` whose address no stream is registered
for; its address and its signature are not looked at.  `only_self_ping_iff` says which
messages of others are taken for the node's own.
-/

namespace VeilidTransport

/-- A listener: what `convert_update` and `should_update_target` read and write. -/
structure Listener (PublicKey : Type) where
  transport : Transport PublicKey
  transportType : TransportType
  localTarget : Option Target × TargetStatus
  /-- The clock that statuses are stamped with. -/
  utcNow : Instant

namespace Listener
variable {PublicKey : Type} [KeyCodec] [Identity PublicKey]

/-- The message `send_ping` sends to this node, and the target it is sent to. -/
def sendPing (l : Listener PublicKey) : Option (Target × Payload) :=
  match l.transport.localAddress, l.localTarget.1 with
  | some localAddress, some localTarget =>
    let keypair := l.transport.myKeypair
    some (localTarget, VeilidStream.encodeMessage 0 0 0 localAddress
      (pingWord ++ Identity.encodeProtobuf keypair.publicKey) keypair)
  | _, _ => none

/-- The target after a message. -/
def refreshTarget (l : Listener PublicKey) (m : AppMessage) : Option Target × TargetStatus :=
  match l.transport.localAddress, l.transport.streams.lookup m.remoteAddress with
  | some _, none =>
    if messageType m.data = .ping then (l.localTarget.1, .active l.utcNow) else l.localTarget
  | _, _ => l.localTarget

/-- `convert_update` with an `AppMessage`. -/
def convertUpdate (l : Listener PublicKey) (packet : Payload) : Listener PublicKey :=
  match VeilidStream.decodeMessage packet with
  | none => l
  | some m => { l with
      transport := l.transport.update packet
      localTarget := l.refreshTarget m }

def shouldUpdateTarget (l : Listener PublicKey) (now : Instant) : Bool :=
  VeilidTransport.shouldUpdateTarget l.transportType l.transport.localAddress l.localTarget now

/-- A message from the node's own address, signed with its key. -/
def SelfSigned (l : Listener PublicKey) (m : AppMessage) : Prop :=
  (∃ localAddress, l.transport.localAddress = some localAddress ∧
    m.remoteAddress = localAddress.asParsed) ∧
    Identity.verify l.transport.myKeypair.publicKey m.data m.signature = true

/-- A message with another address, or data that this node has not signed. -/
def Forged (l : Listener PublicKey) (packet : Payload) : Prop :=
  ∀ m, VeilidStream.decodeMessage packet = some m → ¬ l.SelfSigned m

/-- The target and its status stay, and with them the time of the next republish. -/
def Kept (l l' : Listener PublicKey) : Prop :=
  l'.localTarget = l.localTarget ∧ ∀ now, l'.shouldUpdateTarget now = l.shouldUpdateTarget now

/-- A `PING` with an address that no stream is registered for comes to a listener that has an
address, and whose target is not marked as active at this very time. -/
def Vouches (l : Listener PublicKey) (packet : Payload) : Prop :=
  ∃ m, VeilidStream.decodeMessage packet = some m ∧
    l.transport.streams.lookup m.remoteAddress = none ∧ l.transport.localAddress ≠ none ∧
    messageType m.data = .ping ∧ l.localTarget.2 ≠ .active l.utcNow

omit [KeyCodec] [Identity PublicKey] in
theorem messageType_ping (x : Bytes) : messageType (pingWord ++ x) = .ping := by
  have hword : pingWord <+: pingWord ++ x := List.prefix_append _ _
  have hd : ¬ startsWith (pingWord ++ x) dialWord = true := by
    rw [startsWith_iff dialWord_ascii]
    simp [dialWord, pingWord]
  have hl : ¬ startsWith (pingWord ++ x) listenWord = true := by
    rw [startsWith_iff listenWord_ascii]
    simp [listenWord, pingWord]
  have hs : ¬ startsWith (pingWord ++ x) statusWord = true := by
    rw [startsWith_iff statusWord_ascii]
    simp [statusWord, pingWord]
  rw [messageType, if_neg hd, if_neg hl, if_neg hs,
    if_pos ((startsWith_iff pingWord_ascii _).mpr hword)]

/-- **The node's own ping is signed by itself.** -/
theorem selfSigned_sendPing [LawfulKeyCodec] {l : Listener PublicKey} {target : Target}
    {packet : Payload} (h : l.sendPing = some (target, packet))
    (hsign : ∀ data, (l.transport.myKeypair.sign data).map
      (Identity.verify l.transport.myKeypair.publicKey data) = some true) :
    ∃ m, VeilidStream.decodeMessage packet = some m ∧ l.SelfSigned m ∧
      messageType m.data = .ping := by
  unfold sendPing at h
  split at h
  · next localAddress _ haddress _ =>
    obtain ⟨signature, hs, hverify⟩ := Option.map_eq_some_iff.mp
      (hsign (pingWord ++ Identity.encodeProtobuf l.transport.myKeypair.publicKey))
    simp only [Option.some.injEq, Prod.mk.injEq, VeilidStream.encodeMessage, hs] at h
    obtain ⟨-, rfl⟩ := h
    rw [VeilidStream.decodeMessage, Address.tryFrom_toMultiaddr]
    exact ⟨_, rfl, ⟨⟨localAddress, haddress, rfl⟩, hverify⟩, messageType_ping _⟩
  · cases h

/-- A message does not change the listener's address. -/
theorem localAddress_update (n : Transport PublicKey) (packet : Payload) :
    (n.update packet).localAddress = n.localAddress := by
  have hupdated := n.update_updated packet
  generalize n.update packet = n' at hupdated ⊢
  cases hupdated with
  | ignored => rfl
  | dialed m localAddress hm hstream hlocal hdial => rfl
  | handled m h s hm hstream hs =>
    unfold Transport.follow
    split
    · rfl
    · rfl
    · rfl
    · split <;> rfl

/-- After a message the decision depends on what the message has made of the target. -/
theorem shouldUpdateTarget_convertUpdate (l : Listener PublicKey) (packet : Payload)
    (now : Instant) :
    (l.convertUpdate packet).shouldUpdateTarget now =
      VeilidTransport.shouldUpdateTarget l.transportType l.transport.localAddress
        (l.convertUpdate packet).localTarget now := by
  have haddress : (l.convertUpdate packet).transport.localAddress = l.transport.localAddress ∧
      (l.convertUpdate packet).transportType = l.transportType := by
    unfold convertUpdate
    split
    · exact ⟨rfl, rfl⟩
    · exact ⟨localAddress_update _ _, rfl⟩
  rw [shouldUpdateTarget, haddress.1, haddress.2]

/-- **What a message does to the target.** -/
theorem kept_convertUpdate_iff (l : Listener PublicKey) (packet : Payload) :
    l.Kept (l.convertUpdate packet) ↔ ¬ l.Vouches packet := by
  constructor
  · rintro ⟨hkept, -⟩ ⟨m, hm, hstream, haddress, hping, hne⟩
    obtain ⟨localAddress, ha⟩ := Option.ne_none_iff_exists'.mp haddress
    have hmarked : (l.convertUpdate packet).localTarget = (l.localTarget.1, .active l.utcNow) := by
      simp only [convertUpdate, hm, refreshTarget, ha, hstream, hping, if_true]
    rw [hmarked] at hkept
    exact hne (by rw [← hkept])
  · intro hnot
    have htarget : (l.convertUpdate packet).localTarget = l.localTarget := by
      unfold convertUpdate
      split
      · rfl
      · next m hm =>
        show l.refreshTarget m = l.localTarget
        unfold refreshTarget
        split
        · next localAddress ha hstream =>
          split
          · next hping =>
            by_cases hactive : l.localTarget.2 = .active l.utcNow
            · rw [← hactive]
            · exact absurd ⟨m, hm, hstream, by rw [ha]; simp, hping, hactive⟩ hnot
          · rfl
        · rfl
    refine ⟨htarget, fun now => ?_⟩
    rw [shouldUpdateTarget_convertUpdate, htarget]
    rfl

/-- **Which messages of others leave the target alone**: all but a `PING` that no stream is
registered for. -/
theorem only_self_ping_iff (l : Listener PublicKey) (packet : Payload) :
    (l.Forged packet → l.Kept (l.convertUpdate packet)) ↔
      ¬ (l.Forged packet ∧ l.Vouches packet) := by
  rw [kept_convertUpdate_iff]
  exact not_and.symm

end Listener

open Sample

namespace Listener

/-- A listener whose route was seen forty seconds ago, and its DHT record twenty. -/
def sampleListener : Listener PublicKey where
  transport := .new (some ((AttachmentTasks.sampleSafe 1).withStatus (.active (secs 20))))
    (keypairOf 1) 0
  transportType := .safeType
  localTarget := (some (.privateRoute (keyOf 1)), .active 0)
  utcNow := secs 40

/-- Its own ping goes out, and is signed by itself. -/
example : ∃ target packet m, sampleListener.sendPing = some (target, packet) ∧
    VeilidStream.decodeMessage packet = some m ∧ sampleListener.SelfSigned m := by
  obtain ⟨m, hm, hself, -⟩ := selfSigned_sendPing (l := sampleListener) rfl (verify_sign _)
  exact ⟨_, _, m, rfl, hm, hself⟩

/-- A `PING` of another node, with no signature at all. -/
def strangersPing : Payload :=
  { Payload.empty with address := (AttachmentTasks.sampleSafe 2).toMultiaddr, data := pingWord }

/-- **A stranger postpones the republish** with an unsigned `PING`. -/
theorem stranger_vouches :
    sampleListener.Forged strangersPing ∧
      (sampleListener.convertUpdate strangersPing).localTarget =
        (some (.privateRoute (keyOf 1)), .active (secs 40)) ∧
      sampleListener.shouldUpdateTarget (secs 40) = true ∧
      (sampleListener.convertUpdate strangersPing).shouldUpdateTarget (secs 40) = false ∧
      ¬ sampleListener.Kept (sampleListener.convertUpdate strangersPing) := by
  have hm : VeilidStream.decodeMessage strangersPing =
      some ⟨0, 0, 0, (AttachmentTasks.sampleSafe 2).asParsed, pingWord, []⟩ := by
    rw [VeilidStream.decodeMessage, strangersPing, Address.tryFrom_toMultiaddr]
    rfl
  have hforged : sampleListener.Forged strangersPing := by
    rintro m hm' ⟨⟨localAddress, ha, heq⟩, -⟩
    rw [hm] at hm'
    cases hm'
    cases ha
    revert heq
    decide
  have hvouched : (sampleListener.convertUpdate strangersPing).localTarget =
      (some (.privateRoute (keyOf 1)), .active (secs 40)) := by
    rw [convertUpdate, hm]
    rfl
  refine ⟨hforged, hvouched, by decide, ?_, fun h => ?_⟩
  · rw [shouldUpdateTarget_convertUpdate, hvouched]
    decide
  · have hkept := h.1
    rw [hvouched] at hkept
    revert hkept
    decide

end Listener
end VeilidTransport
