import VeilidTransport.ReceiveTasks
import VeilidTransport.Connection

/-!
# A reader and the calls that wake it

`poll_read` looks for data under the lock of `inbound_stream`; when there is none it
stores its waker, under a lock of its own.  `update_inbound_stream` extends
`inbound_stream`, and then wakes the waker that is stored.  So a `Reading` has one
reader, whose `pollRead` may stand between its two steps, next to calls of
`recv_message` that stand anywhere between theirs.

Data that comes between the two steps of a read is announced to the waker of an earlier
read, or to none.  `no_lost_wake_iff` says exactly which interleavings lose a wake-up
that way, and `wake_lost` is one that does.
-/

namespace VeilidTransport

/-- The last `poll_read` of the reader. -/
inductive ReadCall where
  | none
  /-- It found nothing to read after `start` wake-ups, and will store its waker. -/
  | storing (waker : Waker) (start : Nat)
  /-- `Poll::Pending`. -/
  | pending (waker : Waker) (start : Nat)
  | ready (data : Bytes)
  | error
  deriving DecidableEq

/-- A reader, and the calls on the stream it reads. -/
structure Reading (PublicKey : Type) where
  calls : ReceiveTasks PublicKey
  lastRead : ReadCall

namespace RecvCall
variable {PublicKey : Type}

/-- A call of `update_inbound_stream` that has slices for the reader and has not woken
it. -/
def updating : RecvCall → Bool
  | pushSlices _ => true
  | wake => true
  | _ => false

/-- **What a step of a call is to the reader**: nothing, or the stream is extended and
the wake-up is next, or it is the wake-up. -/
inductive Notices (r : Receiver PublicKey) (call : RecvCall) :
    RecvCall × Receiver PublicKey → Prop where
  | nothing (p : RecvCall × Receiver PublicKey) (hcall : call.updating = false)
      (hstream : p.2.stream.inbound.stream = r.stream.inbound.stream)
      (hwaker : p.2.stream.waker = r.stream.waker) (hwoken : p.2.stream.woken = r.stream.woken) :
      Notices r call p
  | extended (completeSlices : List Bytes) (hcall : call = pushSlices completeSlices) :
      Notices r call (wake.andInbound r (r.stream.inbound.pushSlices completeSlices))
  | woke (hcall : call = wake) : Notices r call (stamp, { r with stream := r.stream.wakeToRead })

theorem next_notices (r : Receiver PublicKey) (call : RecvCall) : Notices r call (call.next r) := by
  cases call with
  | load deliveredSeq seq data =>
    refine .nothing _ rfl ?_ ?_ ?_ <;>
    · unfold next
      simp only
      repeat' split
      all_goals rfl
  | check deliveredSeq finalSeq data =>
    refine .nothing _ rfl ?_ ?_ ?_ <;>
    · unfold next
      simp only
      split <;> rfl
  | drain deliveredSeq finalSeq =>
    exact .nothing _ rfl (Inbound.drainMessageQueue_stream _ finalSeq) rfl rfl
  | pushSlices completeSlices => exact .extended completeSlices rfl
  | wake => exact .woke rfl
  | _ => exact .nothing _ rfl rfl rfl rfl

end RecvCall

namespace Reading
open RecvCall
variable {PublicKey : Type}

inductive Action where
  /-- A call of `recv_message` is spawned. -/
  | recvMessage (deliveredSeq seq : Nat) (data : Bytes)
  /-- A call of `update_inbound_stream` is spawned. -/
  | updateInboundStream
  /-- The `i`-th call takes a step. -/
  | advance (i : Nat)
  /-- `poll_read`, up to the end of `read_inbound_stream`. -/
  | pollRead (waker : Waker) (len : Nat)
  /-- `poll_read`, the rest. -/
  | storeWaker
  | tick (d : Nat)

/-- The stream between the calls. -/
def stream (r : Reading PublicKey) : VeilidStream PublicKey := r.calls.shared.stream

/-- The stream is changed by the reader. -/
def setStream (r : Reading PublicKey) (s : VeilidStream PublicKey) : Reading PublicKey :=
  { r with calls := ⟨⟨s, r.calls.shared.now⟩, r.calls.tasks⟩ }

/-- The first step of `poll_read`; the reader has one poll at a time. -/
def pollRead (r : Reading PublicKey) (waker : Waker) (len : Nat) : Reading PublicKey :=
  match r.lastRead with
  | .storing _ _ => r
  | _ =>
    if r.stream.isExpired r.calls.shared.now then { r with lastRead := .error }
    else
      match r.stream.readInboundStream len with
      | (some data, s) => { r.setStream s with lastRead := .ready data }
      | (none, s) => { r.setStream s with lastRead := .storing waker r.stream.woken.length }

/-- The second step of `poll_read`. -/
def storeWaker (r : Reading PublicKey) : Reading PublicKey :=
  match r.lastRead with
  | .storing waker start =>
    { r.setStream { r.stream with waker := some waker } with lastRead := .pending waker start }
  | _ => r

def step (r : Reading PublicKey) : Action → Reading PublicKey
  | .recvMessage deliveredSeq seq data =>
    { r with calls := r.calls.spawn (load deliveredSeq seq data) }
  | .updateInboundStream => { r with calls := r.calls.spawn takeSlices }
  | .advance i => { r with calls := r.calls.advance next i }
  | .pollRead waker len => r.pollRead waker len
  | .storeWaker => r.storeWaker
  | .tick d =>
    { r with calls := { r.calls with shared :=
      { r.calls.shared with now := r.calls.shared.now + d } } }

/-- Before any call. -/
def start (s : VeilidStream PublicKey) (now : Instant) : Reading PublicKey :=
  ⟨ReceiveTasks.start s now, .none⟩

/-- **What the first step of a read does**: nothing while a read is under way, or refuse,
or hand out bytes, or leave the waker to be stored. -/
theorem pollRead_cases (r : Reading PublicKey) (waker : Waker) (len : Nat) :
    ((∃ w k, r.lastRead = .storing w k) ∧ r.pollRead waker len = r) ∨
    (∀ w k, r.lastRead ≠ .storing w k) ∧
      ((r.stream.isExpired r.calls.shared.now = true ∧
        r.pollRead waker len = { r with lastRead := .error }) ∨
      (r.stream.isExpired r.calls.shared.now = false ∧ r.stream.inbound.stream ≠ [] ∧
        ∃ data, r.pollRead waker len = { r.setStream (r.stream.pollRead r.calls.shared.now waker
          len).2 with lastRead := .ready data }) ∨
      (r.stream.isExpired r.calls.shared.now = false ∧ r.stream.inbound.stream = [] ∧
        r.pollRead waker len = { r with lastRead := .storing waker r.stream.woken.length })) := by
  by_cases hidle : ∃ w k, r.lastRead = .storing w k
  · refine .inl ⟨hidle, ?_⟩
    obtain ⟨w, k, hk⟩ := hidle
    rw [pollRead, hk]
  · have hne : ∀ w k, r.lastRead ≠ .storing w k := fun w k hk => hidle ⟨w, k, hk⟩
    refine .inr ⟨hne, ?_⟩
    have hpoll : r.pollRead waker len =
        if r.stream.isExpired r.calls.shared.now then { r with lastRead := .error }
        else
          match r.stream.readInboundStream len with
          | (some data, s) => { r.setStream s with lastRead := .ready data }
          | (none, s) => { r.setStream s with lastRead := .storing waker r.stream.woken.length } := by
      unfold pollRead
      split
      · next hk => exact absurd hk (hne _ _)
      · rfl
    cases hx : r.stream.isExpired r.calls.shared.now with
    | true => exact .inl ⟨rfl, by rw [hpoll, hx]; rfl⟩
    | false =>
      rw [hx] at hpoll
      by_cases hs : r.stream.inbound.stream = []
      · refine .inr (.inr ⟨rfl, hs, ?_⟩)
        rw [hpoll, VeilidStream.readInboundStream, Inbound.readInboundStream, if_pos hs]
        rfl
      · refine .inr (.inl ⟨rfl, hs, ?_⟩)
        rw [hpoll, VeilidStream.pollRead, hx, VeilidStream.readInboundStream,
          Inbound.readInboundStream, if_neg hs]
        exact ⟨_, rfl⟩

/-- **A read that nothing interrupts is `poll_read`.** -/
theorem run_pollRead (s : VeilidStream PublicKey) (now : Instant) (waker : Waker) (len : Nat) :
    (Runs.run step (start s now) [.pollRead waker len, .storeWaker]).stream =
      (s.pollRead now waker len).2 := by
  rw [Runs.run_cons, step]
  rcases pollRead_cases (start s now) waker len with
    ⟨⟨w, k, hk⟩, -⟩ | ⟨-, ⟨hx, h⟩ | ⟨hx, hs, data, h⟩ | ⟨hx, hs, h⟩⟩
  · cases hk
  · have hx' : s.isExpired now = true := hx
    rw [h, VeilidStream.pollRead, if_pos hx']
    rfl
  · rw [h]
    rfl
  · obtain ⟨hx', -⟩ | ⟨-, hs', -⟩ | ⟨-, -, hpoll⟩ := VeilidStream.pollRead_cases s now waker len
    · rw [show s.isExpired now = false from hx] at hx'
      cases hx'
    · exact absurd hs hs'
    · rw [h, hpoll]
      rfl

/-! ## Wake-ups -/

/-- The law: a read that has returned `Pending` while there is data for it, and while no
call is about to wake it, has been woken since it started. -/
def NoLostWake (r : Reading PublicKey) : Prop :=
  ∀ waker start, r.lastRead = .pending waker start → r.stream.inbound.stream ≠ [] →
    (∀ call ∈ r.calls.tasks, call.updating = false) → waker ∈ r.stream.woken.drop start

/-- Whoever has put data in the stream wakes the reader, or has woken it. -/
def Announced (r : Reading PublicKey) (waker : Waker) (start : Nat) : Prop :=
  r.stream.inbound.stream = [] ∨ (∃ call ∈ r.calls.tasks, call.updating = true) ∨
    waker ∈ r.stream.woken.drop start

/-- The waker is stored only while what is in the stream is announced. -/
def Timely (r : Reading PublicKey) : Action → Prop
  | .storeWaker => ∀ waker start, r.lastRead = .storing waker start → r.Announced waker start
  | _ => True

/-- **The invariant.** -/
def Awaited (r : Reading PublicKey) : Prop :=
  match r.lastRead with
  | .storing _ start => start ≤ r.stream.woken.length
  | .pending waker start =>
    start ≤ r.stream.woken.length ∧ r.stream.waker = some waker ∧ r.Announced waker start
  | _ => True

theorem Awaited.noLostWake {r : Reading PublicKey} (h : r.Awaited) : r.NoLostWake := by
  intro waker start hlast hne hquiet
  rw [Awaited, hlast] at h
  obtain ⟨-, -, hnil | ⟨call, hcall, hup⟩ | hwoken⟩ := h
  · exact absurd hnil hne
  · rw [hquiet call hcall] at hup
    cases hup
  · exact hwoken

/-- More calls, and a later clock, do no harm. -/
theorem Awaited.mono {r r' : Reading PublicKey} (h : r.Awaited) (hlast : r'.lastRead = r.lastRead)
    (hstream : r'.stream = r.stream) (htasks : ∀ call ∈ r.calls.tasks, call ∈ r'.calls.tasks) :
    r'.Awaited := by
  unfold Awaited at h ⊢
  rw [hlast, hstream]
  split at h
  · exact h
  · obtain ⟨hle, hwaker, hnil | ⟨call, hcall, hup⟩ | hwoken⟩ := h
    · exact ⟨hle, hwaker, .inl (by rw [hstream]; exact hnil)⟩
    · exact ⟨hle, hwaker, .inr (.inl ⟨call, htasks call hcall, hup⟩)⟩
    · exact ⟨hle, hwaker, .inr (.inr (by rw [hstream]; exact hwoken))⟩
  · exact trivial

/-- **The step lemma**, for a call that takes a step. -/
theorem Awaited.advance {r : Reading PublicKey} (h : r.Awaited) (i : Nat) :
    Awaited { r with calls := r.calls.advance next i } := by
  unfold Pool.advance
  cases hi : r.calls.tasks[i]? with
  | none => exact h
  | some call =>
    have hself : ∀ c, c ∈ r.calls.tasks.set i c := fun c => List.mem_iff_getElem?.mpr
      ⟨i, List.getElem?_set_self (List.getElem?_eq_some_iff.mp hi).1⟩
    -- the other calls stand where they stood
    have hother : ∀ c c', c ∈ r.calls.tasks → c ≠ call → c ∈ r.calls.tasks.set i c' := by
      intro c c' hc hne
      obtain ⟨j, hj⟩ := List.mem_iff_getElem?.mp hc
      refine List.mem_iff_getElem?.mpr ⟨j, ?_⟩
      rw [List.getElem?_set_ne, hj]
      rintro rfl
      rw [hi] at hj
      exact hne (Option.some.inj hj).symm
    have hview := next_notices r.calls.shared call
    simp only
    generalize call.next r.calls.shared = p at hview
    unfold Awaited Announced stream at h ⊢
    simp only
    split at h
    · cases hview with
      | nothing _ _ _ _ hwoken => rw [hwoken]; exact h
      | extended => exact h
      | woke =>
        simp only [VeilidStream.wakeToRead_eq, List.length_append]
        omega
    · next waker start hlast =>
      obtain ⟨hle, hwaker, hann⟩ := h
      cases hview with
      | nothing _ hcall hs hw hwoken =>
        rw [hs, hw, hwoken]
        refine ⟨hle, hwaker, ?_⟩
        obtain hnil | ⟨c, hc, hup⟩ | hdrop := hann
        · exact .inl hnil
        · refine .inr (.inl ⟨c, hother c _ hc ?_, hup⟩)
          rintro rfl
          rw [hcall] at hup
          cases hup
        · exact .inr (.inr hdrop)
      | extended => exact ⟨hle, hwaker, .inr (.inl ⟨wake, hself _, rfl⟩)⟩
      | woke =>
        have hlist : r.calls.shared.stream.waker.toList = [waker] := by
          rw [hwaker]
          rfl
        rw [VeilidStream.wakeToRead_eq, hlist]
        refine ⟨?_, hwaker, .inr (.inr ?_)⟩
        · rw [List.length_append]
          omega
        · rw [List.drop_append_of_le_length hle]
          exact List.mem_append_right _ List.mem_cons_self
    · exact trivial

theorem step_awaited (r : Reading PublicKey) (a : Action) (hok : r.Timely a) (h : r.Awaited) :
    (r.step a).Awaited := by
  cases a with
  | recvMessage => exact h.mono rfl rfl fun _ hc => List.mem_append_left _ hc
  | updateInboundStream => exact h.mono rfl rfl fun _ hc => List.mem_append_left _ hc
  | advance i => exact h.advance i
  | tick d => exact h.mono rfl rfl fun _ hc => hc
  | pollRead waker len =>
    rw [step]
    obtain ⟨-, hr⟩ | ⟨-, ⟨-, hr⟩ | ⟨-, -, data, hr⟩ | ⟨-, -, hr⟩⟩ := r.pollRead_cases waker len
    · rw [hr]
      exact h
    · rw [hr]
      exact trivial
    · rw [hr]
      exact trivial
    · rw [hr]
      exact Nat.le_refl _
  | storeWaker =>
    rw [step, storeWaker]
    unfold Awaited at h
    split
    · next waker start hlast =>
      rw [hlast] at h
      exact ⟨h, rfl, hok waker start hlast⟩
    · exact h

/-- A waker that is stored too late is not woken. -/
theorem timely_of_noLostWake (r : Reading PublicKey) (a : Action)
    (h : (r.step a).NoLostWake) : r.Timely a := by
  cases a with
  | storeWaker =>
    intro waker start hlast
    rw [step, storeWaker, hlast] at h
    by_cases hnil : r.stream.inbound.stream = []
    · exact .inl hnil
    · by_cases hup : ∃ call ∈ r.calls.tasks, call.updating = true
      · exact .inr (.inl hup)
      · refine .inr (.inr (h waker start rfl hnil fun call hcall => ?_))
        by_cases hc : call.updating = true
        · exact absurd ⟨call, hcall, hc⟩ hup
        · exact Bool.eq_false_iff.mpr hc
  | _ => exact trivial

/-- **When no wake-up is lost**: in exactly the interleavings where, whenever the reader
stores its waker, the stream is still empty, or a call that has put data there is about to
wake the reader, or the waker has been woken since the read began. -/
theorem no_lost_wake_iff (s : VeilidStream PublicKey) (now : Instant) (as : List Action) :
    (∀ bs, bs <+: as → (Runs.run step (start s now) bs).NoLostWake) ↔
      Runs.Along step Timely (start s now) as := by
  have hstart : (start s now).Awaited := trivial
  exact Runs.prefixes_iff_along (fun _ h => Awaited.noLostWake h) step_awaited
    (fun r a _ h => timely_of_noLostWake r a h) hstart as

end Reading

namespace Reading
open RecvCall Sample

/-- The first read finds nothing, and stores its waker after the first message has come
and woken nobody. -/
def sampleLost : List Action :=
  [.pollRead 5 8, .recvMessage 0 1 [1, 0, 0, 0, 7]] ++ List.replicate 12 (.advance 0) ++
    [.storeWaker]

/-- **A wake-up can be lost**: the read has returned `Pending`, its data is there, no call
is under way, and nobody has been woken. -/
theorem wake_lost :
    ¬ ∀ bs, bs <+: sampleLost →
      (Runs.run step (start ReceiveTasks.sampleStream 0) bs).NoLostWake := by
  intro h
  have hlost := h sampleLost List.prefix_rfl 5 0 (by decide) (by decide) (by decide)
  revert hlost
  decide

end Reading
end VeilidTransport
