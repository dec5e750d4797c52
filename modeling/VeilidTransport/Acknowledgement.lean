import VeilidTransport.KeepAlive
import VeilidTransport.Session
import Mathlib.Order.Bounds.Basic
import Mathlib.Data.List.Induction

/-!
# The acknowledgement cursor

`deliveredSeq` is the last acknowledgement the stream has processed: the `received_seq`
of a `STATUS` on an active stream, or of data that was taken in as the next message
(`Processes`).  It is stored as it comes, and packets come in any order: one that was
encoded before another, but comes after it, sets the cursor back.

So the cursor is the greatest acknowledgement processed so far exactly along the steps
that process none below it (`delivered_greatest_iff`).
-/

namespace VeilidTransport

namespace VeilidStream
variable {PublicKey : Type} [Identity PublicKey]

/-- **The stream processes the acknowledgement of the message**: a `STATUS` while it is
active, or signed data that it takes in as the next message. -/
def Processes (s : VeilidStream PublicKey) (localAddress : Option Address) (now : Instant)
    (m : AppMessage) : Prop :=
  localAddress ≠ none ∧
    (s.status = .active ∧ ¬ s.Stale m ∧ messageType m.data = .status ∨
      (s.status = .active ∨
          s.status = .listen ∧ (s.remoteStreamId = 0 ∨ s.remoteStreamId = m.streamId)) ∧
        s.isRecent now = true ∧ s.IsNext m)

instance (s : VeilidStream PublicKey) (localAddress : Option Address) (now : Instant)
    (m : AppMessage) : Decidable (s.Processes localAddress now m) :=
  inferInstanceAs (Decidable (_ ∧ _))

omit [Identity PublicKey] in
/-- The next message, on an active stream, sets the cursor to its acknowledgement. -/
theorem recvMessage_next_delivered {s : VeilidStream PublicKey} {now : Instant}
    (hactive : s.isActive now = true) (hlt : s.inbound.receivedSeq + 1 < 2 ^ 32)
    (deliveredSeq : Nat) (data : Bytes) :
    (s.recvMessage now deliveredSeq (s.inbound.receivedSeq + 1)
      data).outbound.deliveredSeq = deliveredSeq := by
  have hdup : ¬ s.inbound.receivedSeq + 1 ≤ s.inbound.receivedSeq := by omega
  have hnext : ¬ addU32 s.inbound.receivedSeq 1 < s.inbound.receivedSeq + 1 := by
    rw [addU32_of_lt hlt]
    omega
  obtain ⟨woken, hw⟩ := updateInboundStream_eq
    (removeSentMessagesFromQueue (updateOutboundDeliveredSeq
      { s with inbound := s.inbound.acceptMessage data } deliveredSeq))
  simp only [recvMessage, if_neg hdup, if_neg hnext, if_pos hactive]
  rw [hw]
  rfl

variable [KeyCodec]

/-- The node's own work leaves the cursor alone. -/
theorem works_delivered {s s' : VeilidStream PublicKey} (h : Works s s') :
    s'.outbound.deliveredSeq = s.outbound.deliveredSeq := by
  induction h with
  | refl => rfl
  | tail _ hs ih =>
    rw [← ih]
    cases hs with
    | generate => exact Outbound.generateMessages_deliveredSeq _
    | reader => rfl
    | write => rfl
    | send => rfl
    | emit => rfl

/-- A message that is processed. -/
theorem Processes.delivered {s : VeilidStream PublicKey} {localAddress : Option Address}
    {now : Instant} {m : AppMessage} (h : s.Processes localAddress now m) :
    (s.convertRegistered localAddress now m).1.outbound.deliveredSeq = m.deliveredSeq := by
  obtain ⟨hl, h⟩ := h
  obtain ⟨l, rfl⟩ := Option.ne_none_iff_exists'.mp hl
  obtain ⟨id, hid, hadopt⟩ := adoptRemoteStreamId_eq s m.streamId
  have hstale : ∀ (_ : ¬ s.Stale m), ¬ ((s.adoptRemoteStreamId m.streamId).remoteStreamId ≠ 0 ∧
      m.streamId < (s.adoptRemoteStreamId m.streamId).remoteStreamId) := fun hn hs =>
    hn ((stale_adopt_iff s m).mp hs)
  have hstatus : (s.adoptRemoteStreamId m.streamId).status = s.status := by rw [hadopt]
  obtain ⟨hst, hcurrent, hm⟩ | ⟨hst, hrecent, hnext⟩ := h
  · unfold convertRegistered
    simp only [if_neg (hstale hcurrent), hstatus, hst, convertActive, hm]
    rfl
  · -- whatever its status, the stream receives the data as an active one
    have heq : (s.convertRegistered (some l) now m).1 =
        ((s.adoptRemoteStreamId m.streamId).updateStatus .active).recvMessage now m.deliveredSeq
          m.seq m.data := by
      unfold convertRegistered
      rcases hst with hst | ⟨hst, hsame⟩
      · simp only [if_neg (hstale hnext.current), hstatus, hst, convertActive, hnext.data,
          hnext.signed, if_true]
      · have hremote : (s.adoptRemoteStreamId m.streamId).remoteStreamId = m.streamId := by
          rw [adoptRemoteStreamId_heard hsame]
        have hboth : (s.adoptRemoteStreamId m.streamId).remoteStreamId = m.streamId ∧
            s.isSigned m = true := ⟨hremote, hnext.signed⟩
        simp only [if_neg (hstale hnext.current), hstatus, hst, convertListen, hnext.data,
          if_pos hboth]
    have hactive :
        ((s.adoptRemoteStreamId m.streamId).updateStatus .active).isActive now = true := by
      rw [hadopt]
      exact isActive_iff.mpr ⟨rfl, hrecent⟩
    have hin : ((s.adoptRemoteStreamId m.streamId).updateStatus .active).inbound = s.inbound := by
      rw [hadopt]
      rfl
    rw [heq, hnext.seq, ← hin]
    exact recvMessage_next_delivered hactive (by rw [hin]; exact hnext.bound) _ _

/-- **What a message does to the cursor.** -/
theorem convertRegistered_delivered (s : VeilidStream PublicKey) (localAddress : Option Address)
    (now : Instant) (m : AppMessage) :
    (s.convertRegistered localAddress now m).1.outbound.deliveredSeq =
      if s.Processes localAddress now m then m.deliveredSeq else s.outbound.deliveredSeq := by
  by_cases h : s.Processes localAddress now m
  · rw [if_pos h, h.delivered]
  · rw [if_neg h]
    obtain ⟨id, hid, hadopt⟩ := adoptRemoteStreamId_eq s m.streamId
    have hout : (s.adoptRemoteStreamId m.streamId).outbound = s.outbound := by rw [hadopt]
    have hin : (s.adoptRemoteStreamId m.streamId).inbound = s.inbound := by rw [hadopt]
    have hst : (s.adoptRemoteStreamId m.streamId).status = s.status := by rw [hadopt]
    cases localAddress with
    | none => rw [convertRegistered_none, hout]
    | some l =>
      rcases convertRegistered_handled s l now m with ⟨-, hc⟩ | ⟨hcurrent, hc⟩
      · rw [hc, hout]
      · rw [stale_adopt_iff] at hcurrent
        have hremote : (s.adoptRemoteStreamId m.streamId).remoteStreamId = m.streamId →
            s.remoteStreamId = 0 ∨ s.remoteStreamId = m.streamId := by
          intro heq
          by_cases h0 : s.remoteStreamId = 0
          · exact .inl h0
          · rw [adoptRemoteStreamId, if_neg h0] at heq
            exact .inr heq
        generalize s.adoptRemoteStreamId m.streamId = t at *
        rw [← hout]
        generalize hsigned : s.isSigned m = isSigned at hc
        generalize (s.convertRegistered (some l) now m).1 = s' at hc
        generalize (s.convertRegistered (some l) now m).2 = next at hc
        cases hc with
        | ignored => rfl
        | superseded => rfl
        | tied =>
          obtain ⟨key, hk⟩ := extractKey_eq t dialWord m.data
          rw [hk]
        | redial =>
          obtain ⟨key, hk⟩ := extractKey_eq t dialWord m.data
          rw [hk]
          rfl
        | switched =>
          obtain ⟨key, hk⟩ := extractKey_eq t dialWord m.data
          rw [hk]
          rfl
        | connected =>
          rw [works_delivered (works_sendMessages _ now)]
          obtain ⟨key, hk⟩ := extractKey_eq t listenWord m.data
          rw [hk]
          exact Outbound.generateMessages_deliveredSeq t.outbound
        | relisten => rfl
        | received hs hm hsig =>
          rcases recvMessage_cases (t.updateStatus .active) now m.deliveredSeq m.seq m.data with
            hr | ⟨-, hr⟩ | ⟨hactive, hseq, hlt, -⟩
          · rw [hr]
            rfl
          · rw [hr]
            rfl
          · -- it is taken in as the next message, so it is processed
            have hin' : (t.updateStatus .active).inbound = s.inbound := hin
            rw [hin'] at hseq hlt
            have hrecent : s.isRecent now = true := by
              have hx := (isActive_iff.mp hactive).2
              rw [isRecent, hin'] at hx
              exact hx
            refine absurd ⟨by simp, .inr
              ⟨?_, hrecent, hcurrent, hm, hsigned.trans hsig, hseq, hlt⟩⟩ h
            rcases hs with ⟨hl, heq⟩ | ha
            · exact .inr ⟨hst.symm.trans hl, hremote heq⟩
            · exact .inl (hst.symm.trans ha)
        | acknowledged hs hm =>
          exact absurd ⟨by simp, .inl ⟨hst.symm.trans hs, hcurrent, hm⟩⟩ h

end VeilidStream

namespace Session
open VeilidStream

section
variable {PublicKey : Type} [KeyCodec] [Identity PublicKey]

/-- The acknowledgement that the side `d` processes in the step, if it does. -/
def acknowledged (d : Side) (s : Session PublicKey) : Action → Option Nat
  | .act _ _ => none
  | .deliver x k =>
    if x = d then
      ((s.get d.other).stream.sent[k]?.bind decodeMessage).bind fun m =>
        if (s.get d).stream.Processes (s.get d).localAddress (s.get d).now m
        then some m.deliveredSeq else none
    else none

/-- The acknowledgements that the side `d` processes in a run. -/
def acknowledgements (d : Side) : Session PublicKey → List Action → List Nat
  | _, [] => []
  | s, a :: as => (acknowledged d s a).toList ++ acknowledgements d (s.step a) as

/-- The cursor of the side `d`. -/
def delivered (d : Side) (s : Session PublicKey) : Nat := (s.get d).stream.outbound.deliveredSeq

/-- **The cursor is the acknowledgement processed last.** -/
theorem step_delivered (d : Side) (s : Session PublicKey) (a : Action) :
    (s.step a).delivered d = (acknowledged d s a).getD (s.delivered d) := by
  cases a with
  | act x e =>
    rw [step, delivered]
    rcases Side.eq_or_eq_other x d with rfl | rfl
    · rw [Pair.get_set_self, works_delivered (Endpoint.works_act _ e)]
      rfl
    · rw [Pair.get_set_other]
      rfl
  | deliver x k =>
    rcases Side.eq_or_eq_other x d with rfl | rfl
    · rw [acknowledged, if_pos rfl]
      cases hp : (s.get d.other).stream.sent[k]? with
      | none =>
        rw [step, hp]
        rfl
      | some p =>
        rw [step_deliver hp, delivered, Pair.get_set_self, Endpoint.receive, Option.bind_some]
        cases decodeMessage p with
        | none => rfl
        | some m =>
          simp only [Option.bind_some]
          rw [convertRegistered_delivered]
          split
          · rfl
          · rfl
    · rw [acknowledged, if_neg (Side.ne_other x), Option.getD_none]
      cases hp : (s.get x.other).stream.sent[k]? with
      | none =>
        rw [step, hp]
      | some p =>
        rw [step_deliver hp, delivered, Pair.get_set_other]
        rfl

/-- The step processes no acknowledgement below the cursor. -/
def Rises (d : Side) (s : Session PublicKey) (a : Action) : Prop :=
  ∀ ack ∈ acknowledged d s a, s.delivered d ≤ ack

/-- The cursor has never been above what it is now, and it is the greatest acknowledgement
processed, or zero. -/
structure Greatest (d : Side) (s : Session PublicKey) (as : List Action) : Prop where
  monotone : ∀ bs, bs <+: as → (Runs.run step s bs).delivered d ≤ (Runs.run step s as).delivered d
  greatest : IsGreatest {ack | ack = 0 ∨ ack ∈ acknowledgements d s as}
    ((Runs.run step s as).delivered d)

instance (d : Side) (s : Session PublicKey) (a : Action) : Decidable (Rises d s a) :=
  inferInstanceAs (Decidable (∀ ack ∈ acknowledged d s a, _))

theorem acknowledgements_append (d : Side) (s : Session PublicKey) (as bs : List Action) :
    acknowledgements d s (as ++ bs) =
      acknowledgements d s as ++ acknowledgements d (Runs.run step s as) bs := by
  induction as generalizing s with
  | nil => rfl
  | cons a as ih => rw [List.cons_append, acknowledgements, ih, acknowledgements, List.append_assoc,
      Runs.run_cons]

/-- In every state of the run the cursor is the greatest so far. -/
def AlwaysGreatest (d : Side) (s : Session PublicKey) (as : List Action) : Prop :=
  ∀ bs, bs <+: as → Greatest d s bs

/-- Nothing has been acknowledged at the start. -/
theorem Paired.greatest {s : Session PublicKey} (h : s.Paired) (d : Side) : Greatest d s [] := by
  have hzero : s.delivered d = 0 := by
    obtain ⟨t, ht⟩ := h.outbound d
    rw [delivered, ht]
    rfl
  refine ⟨fun bs hbs => ?_, ?_⟩
  · rw [List.prefix_nil.mp hbs]
  · rw [Runs.run_nil, hzero]
    refine ⟨.inl rfl, ?_⟩
    rintro ack (rfl | hack)
    · exact Nat.le_refl 0
    · exact absurd hack List.not_mem_nil

/-- One step more: the cursor is the greatest again exactly if the step does not lower it. -/
theorem Greatest.append_iff {d : Side} {s : Session PublicKey} {as : List Action}
    (h : Greatest d s as) (a : Action) :
    Greatest d s (as ++ [a]) ↔ Rises d (Runs.run step s as) a := by
  have hstep : (Runs.run step s (as ++ [a])).delivered d =
      (acknowledged d (Runs.run step s as) a).getD ((Runs.run step s as).delivered d) := by
    rw [Runs.run_append]
    exact step_delivered d _ a
  have hacks : acknowledgements d s (as ++ [a]) =
      acknowledgements d s as ++ (acknowledged d (Runs.run step s as) a).toList := by
    rw [acknowledgements_append, acknowledgements, acknowledgements, List.append_nil]
  constructor
  · intro hg ack hack
    have hle := hg.monotone as (List.prefix_append _ _)
    rw [hstep, Option.mem_def.mp hack] at hle
    exact hle
  · intro hrise
    have hle : (Runs.run step s as).delivered d ≤ (Runs.run step s (as ++ [a])).delivered d := by
      rw [hstep]
      cases hack : acknowledged d (Runs.run step s as) a with
      | none => exact Nat.le_refl _
      | some ack => exact hrise ack hack
    refine ⟨fun bs hbs => ?_, ?_, ?_⟩
    · rcases List.prefix_concat_iff.mp hbs with rfl | hbs
      · exact Nat.le_refl _
      · exact Nat.le_trans (h.monotone bs hbs) hle
    · rw [hacks]
      cases hack : acknowledged d (Runs.run step s as) a with
      | none =>
        rw [hstep, hack, Option.getD_none, Option.toList_none, List.append_nil]
        exact h.greatest.1
      | some ack =>
        rw [hstep, hack]
        exact .inr (List.mem_append_right _ List.mem_cons_self)
    · rw [hacks]
      rintro x (rfl | hx)
      · exact Nat.zero_le _
      · rcases List.mem_append.mp hx with hx | hx
        · exact Nat.le_trans (h.greatest.2 (.inr hx)) hle
        · rw [hstep, Option.mem_toList.mp hx]
          exact Nat.le_refl x

/-- **When the acknowledgement cursor is monotone** in a session: in every state of a run the
cursor is the greatest acknowledgement processed so far, exactly if no step processes one
below it. -/
theorem delivered_greatest_iff {s : Session PublicKey} (h : s.Paired) (d : Side)
    (as : List Action) : AlwaysGreatest d s as ↔ Runs.Along step (Rises d) s as := by
  induction as using List.reverseRecOn with
  | nil =>
    refine ⟨fun _ => trivial, fun _ bs hbs => ?_⟩
    rw [List.prefix_nil.mp hbs]
    exact h.greatest d
  | append_singleton as a ih =>
    rw [Runs.along_append, Runs.along_cons, ← ih]
    constructor
    · intro hall
      have hbefore := fun bs (hbs : bs <+: as) => hall bs (hbs.trans (List.prefix_append _ _))
      exact ⟨hbefore, ((hbefore as List.prefix_rfl).append_iff a).mp (hall _ List.prefix_rfl),
        trivial⟩
    · rintro ⟨hbefore, hrise, -⟩ bs hbs
      rcases List.prefix_concat_iff.mp hbs with rfl | hbs
      · exact ((hbefore as List.prefix_rfl).append_iff a).mpr hrise
      · exact hbefore bs hbs

end

section
open Sample

/-- Two messages of the left side arrive, and the right side sends a `STATUS` after each. -/
def sampleStatuses : List Action :=
  [.act .left (.write [7]), .act .left .generate, .act .left (.write [8]), .act .left .generate,
    .act .left .send, .act .right (.tick (secs 5)), .deliver .right 1, .act .right .heartbeat,
    .deliver .right 0, .act .right .heartbeat]

theorem delivered_greatest_sample :
    AlwaysGreatest .left sample
      (sampleStatuses ++ [.deliver .left 0, .deliver .left 1, .deliver .left 1]) :=
  (delivered_greatest_iff sample_paired .left _).mpr (by decide)

/-- **The cursor can fall**: the second `STATUS` arrives before the first. -/
theorem cursor_falls :
    Paired sample ∧
    (Runs.run step sample (sampleStatuses ++ [.deliver .left 1])).delivered .left = 2 ∧
    (Runs.run step sample (sampleStatuses ++ [.deliver .left 1, .deliver .left 0])).delivered
      .left = 1 :=
  ⟨sample_paired, by decide, by decide⟩

end

end Session
end VeilidTransport
