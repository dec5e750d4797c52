import VeilidTransport.Handshake
import VeilidTransport.Sample

/-!
# Agreement of a handshake

Two nodes start with no stream for each other, each dials only while it has none, and
no stream expires (`Orderly`).  Then each has one stream at most (`Lone`), and the two
nodes refine the handshake as it is meant (`run_agreeing`): at most one side ever
listens, and an active stream knows the other's id and key (`agreement`).

A node that dials while an update of its own waits has no stream when it looks, and two a
moment later; `both_listen` is a run in which this ends with both sides listening.
-/

namespace VeilidTransport

/-! ## A node with one stream at most -/

namespace Transport
open VeilidStream
variable {PublicKey : Type}

/-- The node has the stream `o` for `peer`, if any, and no other; and it has been asked to
send only if the stream is active. -/
structure Lone (peer : Address) (o : Option (VeilidStream PublicKey)) (n : Transport PublicKey) :
    Prop where
  heap : n.heap = o.toList
  registered : n.streams.lookup peer = o.map fun _ => 0
  pumps : n.pumps ≠ [] → ∃ s, o = some s ∧ s.status = .active

theorem Lone.eq_of_getElem? {peer : Address} {o : Option (VeilidStream PublicKey)}
    {n : Transport PublicKey} (hn : Lone peer o n) {h : Handle} {s : VeilidStream PublicKey}
    (hs : n.heap[h]? = some s) : o = some s ∧ h = 0 := by
  rw [hn.heap] at hs
  cases o with
  | none => cases hs
  | some x =>
    cases h with
    | zero => exact ⟨hs, rfl⟩
    | succ h => cases hs

variable [KeyCodec] [Identity PublicKey]

/-- The node works on a stream. -/
theorem Lone.modifyStream {peer : Address} {o : Option (VeilidStream PublicKey)}
    {n : Transport PublicKey} (hn : Lone peer o n) (h : Handle)
    {f : VeilidStream PublicKey → VeilidStream PublicKey} (hf : ∀ s, o = some s → Minds s (f s)) :
    ∃ o', Option.Rel Minds o o' ∧ Lone peer o' (n.modifyStream h f) := by
  cases o with
  | none =>
    refine ⟨none, .none, ?_, hn.registered, hn.pumps⟩
    simp [Transport.modifyStream, hn.heap]
  | some s =>
    cases h with
    | zero =>
      refine ⟨some (f s), .some (hf s rfl), ?_, hn.registered, fun hp => ?_⟩
      · rw [Transport.modifyStream, hn.heap]
        rfl
      · obtain ⟨s', hs', ha⟩ := hn.pumps hp
        obtain rfl := Option.some.inj hs'
        exact ⟨f s, rfl, (works_handshake (hf s rfl).works).status.trans ha⟩
    | succ h =>
      refine ⟨some s, .some (.refl s), ?_, hn.registered, hn.pumps⟩
      simp [Transport.modifyStream, hn.heap]

/-- The node visits its streams. -/
theorem Lone.visit {peer : Address} (l : List Handle) {o : Option (VeilidStream PublicKey)}
    {n : Transport PublicKey} (hn : Lone peer o n) :
    ∃ o', Option.Rel Minds o o' ∧
      Lone peer o' (l.foldl (fun n h => n.modifyStream h (heartbeatStream n.now)) n) := by
  induction l generalizing o n with
  | nil => exact ⟨o, rel_refl Minds.refl o, hn⟩
  | cons h l ih =>
    obtain ⟨o₁, h₁, hn₁⟩ := hn.modifyStream h fun s _ => minds_heartbeatStream n.now s
    obtain ⟨o₂, h₂, hn₂⟩ := ih hn₁
    refine ⟨o₂, ?_, hn₂⟩
    cases h₁ with
    | none => exact h₂
    | some h₁ =>
      cases h₂ with
      | some h₂ => exact .some (h₁.trans h₂)

/-- **A chore, when no stream has expired.** -/
theorem Lone.chore {peer : Address} {o : Option (VeilidStream PublicKey)}
    {n : Transport PublicKey} (hn : Lone peer o n)
    (hexpired : ∀ s ∈ n.heap, s.isExpired n.now = false) (c : Chore) :
    ∃ o', Option.Rel Minds o o' ∧ Lone peer o' (n.step c.action) := by
  have hsame : ∃ o', Option.Rel Minds o o' ∧ Lone peer o' n := ⟨o, rel_refl Minds.refl o, hn⟩
  cases c with
  | pump i =>
    rw [Chore.action, step, pump]
    split
    · exact hsame
    · next h hi =>
      have hne : n.pumps ≠ [] := by
        intro h0
        rw [h0] at hi
        cases hi
      obtain ⟨s, hs, ha⟩ := hn.pumps hne
      have hn' : Lone peer o { n with pumps := n.pumps.eraseIdx i } :=
        ⟨hn.heap, hn.registered, fun _ => ⟨s, hs, ha⟩⟩
      refine hn'.modifyStream h fun s' hs' => ?_
      obtain rfl := Option.some.inj (hs.symm.trans hs')
      exact .of_active (.trans (.single (.generate s)) (works_sendMessages _ n.now)) ha
  | heartbeat =>
    -- nothing is on the list to delete
    have hnone : n.expiredAddresses = [] := by
      rw [expiredAddresses, List.map_eq_nil_iff, List.filter_eq_nil_iff]
      intro s hs
      obtain ⟨h, -, hs⟩ := List.mem_filterMap.mp hs
      have hs := hexpired s (List.mem_of_getElem? hs)
      simp [toDelete, hs]
    rw [Chore.action, step, heartbeat, hnone, List.foldl_nil]
    exact hn.visit n.streams.values
  | pollRead h waker len =>
    rw [Chore.action, step, pollRead]
    split
    · refine hn.modifyStream h fun s _ => .of_sent (works_pollRead s n.now waker len) ?_
      rcases pollRead_cases s n.now waker len with ⟨-, h⟩ | ⟨-, -, h⟩ | ⟨-, -, h⟩
      · rw [h]
      · rw [h]
      · rw [h]
    · exact hsame
  | pollWrite h buf =>
    rw [Chore.action, step, pollWrite]
    split
    · split
      · exact hsame
      · next s hs =>
        obtain ⟨rfl, rfl⟩ := hn.eq_of_getElem? hs
        have hm : Minds s (s.pollWrite n.now buf).2 := by
          refine .of_sent (works_pollWrite s n.now buf) ?_
          rcases pollWrite_cases s n.now buf with ⟨-, h⟩ | ⟨-, h⟩
          · rw [h]
          · rw [h]
        have hst := (works_handshake hm.works).status
        have hset : n.heap.set 0 (s.pollWrite n.now buf).2 = [(s.pollWrite n.now buf).2] := by
          rw [hn.heap]
          rfl
        refine ⟨some (s.pollWrite n.now buf).2, .some hm, ?_⟩
        simp only [hset]
        split
        · next hr =>
          refine ⟨rfl, hn.registered, fun _ => ⟨_, rfl, hst.trans ?_⟩⟩
          rcases pollWrite_cases s n.now buf with ⟨-, h⟩ | ⟨-, h⟩
          · rw [h] at hr
            cases hr
          · rw [h] at hr
            obtain ⟨-, hr⟩ := Prod.mk.inj (Poll.ready.inj hr)
            exact (isActive_iff.mp hr).1
        · refine ⟨rfl, hn.registered, fun hp => ?_⟩
          obtain ⟨s', hs', ha⟩ := hn.pumps hp
          obtain rfl := Option.some.inj hs'
          exact ⟨_, rfl, hst.trans ha⟩
    · exact hsame
  | tick d => exact ⟨o, rel_refl Minds.refl o, hn.heap, hn.registered, hn.pumps⟩

omit [KeyCodec] [Identity PublicKey] in
/-- The node gets its stream. -/
theorem Lone.insertStream {peer : Address} {n : Transport PublicKey} (hn : Lone peer none n)
    (s : VeilidStream PublicKey) : Lone peer (some s) (n.insertStream peer s) := by
  have hheap : n.heap = [] := hn.heap
  refine ⟨?_, ?_, fun hp => ?_⟩
  · rw [Transport.insertStream, hheap]
    rfl
  · have hlen : n.heap.length = 0 := by rw [hheap]; rfl
    show (n.streams.insert peer n.heap.length).lookup peer = some 0
    rw [AList.lookup_insert, hlen]
  · obtain ⟨s', hs', -⟩ := hn.pumps hp
    cases hs'

omit [KeyCodec] [Identity PublicKey] in
/-- The stream the node has handles a message. -/
theorem Lone.handle {peer : Address} {n : Transport PublicKey} {s s' : VeilidStream PublicKey}
    (hn : Lone peer (some s) n) (ha : s.status = .active → s'.status = .active) :
    Lone peer (some s') { n with heap := n.heap.set 0 s' } := by
  refine ⟨?_, hn.registered, fun hp => ?_⟩
  · show n.heap.set 0 s' = [s']
    rw [hn.heap]
    rfl
  · obtain ⟨s₁, hs₁, hst⟩ := hn.pumps hp
    obtain rfl := Option.some.inj hs₁
    exact ⟨s', rfl, ha hst⟩


/-- The future the node waits for, if any: one that brings it its first stream, or, when it
has that, the end of a handshake. -/
inductive Waiting (peer : Address) (other : Option (VeilidStream PublicKey)) :
    Option (VeilidStream PublicKey) → List Task → Prop where
  | idle (o : Option (VeilidStream PublicKey)) : Waiting peer other o []
  | dial (l : Address) : Waiting peer other none [.dial l peer]
  | create (l : Address) (y : VeilidStream PublicKey) (hy : other = some y) :
      Waiting peer other none [.create l peer y.myStreamId y.dialData]
  | activate (x : VeilidStream PublicKey) (h : Handle) : Waiting peer other (some x) [.activate h]

omit [KeyCodec] in
/-- There is one future at most. -/
theorem Waiting.eq_of_getElem? {peer : Address} {other o : Option (VeilidStream PublicKey)}
    {tasks : List Task} (h : Waiting peer other o tasks) {i : Nat} {t : Task}
    (hi : tasks[i]? = some t) : tasks = [t] ∧ tasks.eraseIdx i = [] := by
  have hone : ∀ u : Task, [u][i]? = some t → [u] = [t] ∧ [u].eraseIdx i = [] := by
    intro u hu
    cases i with
    | zero =>
      obtain rfl := Option.some.inj hu
      exact ⟨rfl, rfl⟩
    | succ i => cases hu
  cases h with
  | idle => cases hi
  | dial => exact hone _ hi
  | create => exact hone _ hi
  | activate => exact hone _ hi

omit [KeyCodec] in
/-- What a future waits for does not depend on what the streams do. -/
theorem Waiting.moves {peer : Address} {other other' o o' : Option (VeilidStream PublicKey)}
    {tasks : List Task} (h : Waiting peer other o tasks) (ho : Option.Rel SameIdentity o o')
    (hother : ∀ y, other = some y → ∃ y', other' = some y' ∧ SameIdentity y y') :
    Waiting peer other' o' tasks := by
  cases h with
  | idle => exact .idle o'
  | dial l => cases ho with | none => exact .dial l
  | create l y hy =>
    cases ho with
    | none =>
      obtain ⟨y', hy', hi⟩ := hother y hy
      have hdata : y'.dialData = y.dialData := by rw [dialData, dialData, hi.myKeypair]
      rw [← hdata, ← hi.myStreamId]
      exact .create l y' hy'
  | activate x h => cases ho with | some => exact .activate _ h

end Transport

namespace World
open VeilidStream Transport
variable {PublicKey : Type} [KeyCodec] [Identity PublicKey]

/-! ## The run of a handshake -/

/-- **In order**: an update begins when the one before it is done, a node dials only while
it has no stream for the other, with nothing between that check and the insertion, ids
are not zero, and no stream has expired. -/
def Orderly (s : World PublicKey) : Action → Prop
  | .deliver d _ _ => (s.get d).tasks = []
  | .dial d => (s.get d).tasks = [] ∧
      ∀ l ∈ (s.get d.other).localAddress, (s.get d).streams.lookup l.asParsed = none
  | .resume _ _ _ epochSecs => epochSecs ≠ 0
  | .chore d _ => ∀ x ∈ (s.get d).heap, x.isExpired (s.get d).now = false

instance (s : World PublicKey) : ∀ a, Decidable (Orderly s a)
  | .deliver d _ _ => inferInstanceAs (Decidable ((s.get d).tasks = []))
  | .dial _ => inferInstanceAs (Decidable (_ ∧ _))
  | .resume _ _ _ epochSecs => inferInstanceAs (Decidable (epochSecs ≠ 0))
  | .chore d _ => inferInstanceAs (Decidable (∀ x ∈ (s.get d).heap, _))

/-- **The nodes stand where the handshake does.** -/
structure Agreeing (addresses : Pair Address) (keypairs : Pair (Keypair PublicKey)) (φ : Phase)
    (f : Pair (Option (VeilidStream PublicKey))) (s : World PublicKey) : Prop where
  proper : Proper addresses keypairs s
  lone : ∀ d, Lone (addresses.get d.other).asParsed (f.get d) (s.get d)
  waiting : ∀ d,
    Waiting (addresses.get d.other).asParsed (f.get d.other) (f.get d) (s.get d).tasks
  tidy : ∀ d, ∀ x ∈ f.get d, x.Tidy
  ids : ∀ d, ∀ x ∈ f.get d, x.myStreamId ≠ 0
  phase : φ.Holds f

variable {addresses : Pair Address} {keypairs : Pair (Keypair PublicKey)} {φ φ' : Phase}
  {f : Pair (Option (VeilidStream PublicKey))} {s : World PublicKey} {d : Side}

/-- The stream a side has is its own. -/
theorem Agreeing.stream (h : Agreeing addresses keypairs φ f s) {x : VeilidStream PublicKey}
    (hx : f.get d = some x) :
    x.Consistent ∧ x.localAddress = addresses.get d ∧ x.myKeypair = keypairs.get d := by
  have hmem : x ∈ (s.get d).heap := by rw [(h.lone d).heap, hx]; simp
  exact ⟨(h.proper d).consistent x hmem, (h.proper d).address x hmem, (h.proper d).keys x hmem⟩

/-- One side moves to where the handshake does. -/
theorem Agreeing.set (h : Agreeing addresses keypairs φ f s) {n : Transport PublicKey}
    {o : Option (VeilidStream PublicKey)}
    (hproper : ProperNode (addresses.get d) (keypairs.get d) n)
    (hlone : Lone (addresses.get d.other).asParsed o n)
    (hwaiting : Waiting (addresses.get d.other).asParsed (f.get d.other) o n.tasks)
    (hmoves : ∀ x, f.get d = some x → ∃ x', o = some x' ∧ SameIdentity x x')
    (htidy : ∀ x ∈ o, x.Tidy) (hids : ∀ x ∈ o, x.myStreamId ≠ 0)
    (hphase : φ'.Holds (f.set d o)) :
    Agreeing addresses keypairs φ' (f.set d o) (s.set d n) := by
  refine ⟨?_, fun e => ?_, fun e => ?_, ?_, ?_, hphase⟩
  · exact Pair.set_forall (P := fun e n => ProperNode (addresses.get e) (keypairs.get e) n)
      hproper (h.proper d.other)
  · rcases Side.eq_or_eq_other d e with rfl | rfl
    · rw [Pair.get_set_self, Pair.get_set_self]; exact hlone
    · rw [Pair.get_set_other, Pair.get_set_other]; exact h.lone d.other
  · rcases Side.eq_or_eq_other d e with rfl | rfl
    · rw [Pair.get_set_self, Pair.get_set_self, Pair.get_set_other]; exact hwaiting
    · have hw := h.waiting d.other
      rw [Side.other_other] at hw
      rw [Pair.get_set_other, Pair.get_set_other, Side.other_other, Pair.get_set_self]
      exact hw.moves (rel_refl (fun _ => ⟨rfl, rfl, rfl, rfl⟩) _) hmoves
  · exact Pair.set_forall (P := fun _ (o : Option (VeilidStream PublicKey)) => ∀ x ∈ o, x.Tidy)
      htidy (h.tidy d.other)
  · exact Pair.set_forall
      (P := fun _ (o : Option (VeilidStream PublicKey)) => ∀ x ∈ o, x.myStreamId ≠ 0)
      hids (h.ids d.other)

/-- One side moves, and its stream does not. -/
theorem Agreeing.set_same (h : Agreeing addresses keypairs φ f s) {n : Transport PublicKey}
    (hproper : ProperNode (addresses.get d) (keypairs.get d) n)
    (hlone : Lone (addresses.get d.other).asParsed (f.get d) n)
    (hwaiting : Waiting (addresses.get d.other).asParsed (f.get d.other) (f.get d) n.tasks) :
    Agreeing addresses keypairs φ f (s.set d n) := by
  have hphase : φ.Holds (f.set d (f.get d)) := by
    rw [Pair.set_get]
    exact h.phase
  have hs := h.set hproper hlone hwaiting (fun x hx => ⟨x, hx, rfl, rfl, rfl, rfl⟩) (h.tidy d)
    (h.ids d) hphase
  rw [Pair.set_get] at hs
  exact hs

/-- A side that has no stream gets one. -/
theorem Agreeing.register (h : Agreeing addresses keypairs φ f s) (ho : f.get d = none)
    {x : VeilidStream PublicKey} {n : Transport PublicKey}
    (hproper : ProperNode (addresses.get d) (keypairs.get d) n)
    (hlone : Lone (addresses.get d.other).asParsed (some x) n)
    (hwaiting : Waiting (addresses.get d.other).asParsed (f.get d.other) (some x) n.tasks)
    (htidy : x.Tidy) (hid : x.myStreamId ≠ 0) (hphase : φ'.Holds (f.set d (some x))) :
    Agreeing addresses keypairs φ' (f.set d (some x)) (s.set d n) := by
  refine h.set hproper hlone hwaiting (fun y hy => ?_) (fun y hy => ?_) (fun y hy => ?_) hphase
  · rw [ho] at hy
    cases hy
  · obtain rfl := Option.some.inj hy
    exact htidy
  · obtain rfl := Option.some.inj hy
    exact hid

/-- **A chore.** -/
theorem Agreeing.chore (h : Agreeing addresses keypairs φ f s) (c : Chore)
    (hexpired : ∀ x ∈ (s.get d).heap, x.isExpired (s.get d).now = false) :
    ∃ f', Agreeing addresses keypairs φ f' (s.set d ((s.get d).step c.action)) := by
  obtain ⟨o, hr, hlone⟩ := (h.lone d).chore hexpired c
  have hmoves : ∀ x, f.get d = some x → ∃ x', o = some x' ∧ Minds x x' := by
    intro x hx
    rw [hx] at hr
    cases hr with
    | some hm => exact ⟨_, rfl, hm⟩
  have hback : ∀ x' ∈ o, ∃ x, f.get d = some x ∧ Minds x x' := by
    intro x' hx'
    rw [Option.mem_def.mp hx'] at hr
    generalize f.get d = o' at hr
    cases hr with
    | some hm => exact ⟨_, rfl, hm⟩
  refine ⟨f.set d o, h.set (step_properNode (h.proper d) (.chore c)) hlone ?_
    (fun x hx => ?_) (fun x' hx' => ?_) (fun x' hx' => ?_) (h.phase.minds ?_)⟩
  · rw [(step_chore _ _).2]
    refine (h.waiting d).moves ?_ fun y hy => ⟨y, hy, rfl, rfl, rfl, rfl⟩
    generalize f.get d = o' at hr
    cases hr with
    | none => exact .none
    | some hm => exact .some (works_identity hm.works)
  · obtain ⟨x', hx', hm⟩ := hmoves x hx
    exact ⟨x', hx', works_identity hm.works⟩
  · obtain ⟨x, hx, hm⟩ := hback x' hx'
    exact hm.tidy (h.tidy d x hx)
  · obtain ⟨x, hx, hm⟩ := hback x' hx'
    rw [(works_identity hm.works).myStreamId]
    exact h.ids d x hx
  · intro e
    rcases Side.eq_or_eq_other d e with rfl | rfl
    · rw [Pair.get_set_self]; exact hr
    · rw [Pair.get_set_other]; exact rel_refl Minds.refl _

/-- **A dial**, up to its first `await`. -/
theorem Agreeing.dial (h : Agreeing addresses keypairs φ f s) (htasks : (s.get d).tasks = [])
    (hnone : (s.get d).streams.lookup (addresses.get d.other).asParsed = none) :
    Agreeing addresses keypairs φ f
      (s.set d ((s.get d).step (.dial (addresses.get d.other).asParsed))) := by
  have hproper := step_properNode (h.proper d) (.dial (addresses.get d.other).asParsed)
  have hlone := h.lone d
  have ho : f.get d = none := Option.map_eq_none_iff.mp (hlone.registered.symm.trans hnone)
  have hstep : (s.get d).step (.dial (addresses.get d.other).asParsed) =
      (s.get d).spawn (.dial (addresses.get d) (addresses.get d.other).asParsed) := by
    rw [Transport.step, Transport.dial, (h.proper d).localAddress]
    simp [Transport.registered, hnone]
  rw [hstep] at hproper ⊢
  refine h.set_same hproper ⟨hlone.heap, hlone.registered, hlone.pumps⟩ ?_
  rw [Transport.spawn, htasks, ho]
  exact .dial _

/-- **A future continues.** -/
theorem Agreeing.resume [LawfulIdentity PublicKey] (h : Agreeing addresses keypairs φ f s)
    (i : Nat) (target : Option Target) {epochSecs : Nat} (hid : epochSecs ≠ 0) :
    ∃ φ' f', Phase.Leads φ φ' ∧ Agreeing addresses keypairs φ' f'
      (s.set d ((s.get d).step (.resume i target epochSecs))) := by
  have hproper := step_properNode (h.proper d) (.resume i target epochSecs)
  have hlone := h.lone d
  have hwaiting := h.waiting d
  have hr := resume_resumed (s.get d) i target epochSecs
  have hstep : (s.get d).step (.resume i target epochSecs) =
      (s.get d).resume i target epochSecs := rfl
  rw [hstep] at hproper ⊢
  generalize (s.get d).resume i target epochSecs = n' at hr hproper
  cases hr with
  | idle => exact ⟨φ, f, .refl, h.set_same hproper hlone hwaiting⟩
  | failed task hi =>
    refine ⟨φ, f, .refl, h.set_same hproper ⟨hlone.heap, hlone.registered, hlone.pumps⟩ ?_⟩
    show Waiting _ _ _ ((s.get d).tasks.eraseIdx i)
    rw [(hwaiting.eq_of_getElem? hi).2]
    exact .idle _
  | activated g hi =>
    refine ⟨φ, f, .refl, h.set_same hproper ⟨hlone.heap, hlone.registered, hlone.pumps⟩ ?_⟩
    show Waiting _ _ _ ((s.get d).tasks.eraseIdx i)
    rw [(hwaiting.eq_of_getElem? hi).2]
    exact .idle _
  | dialed l r remoteTarget hi =>
    obtain ⟨ht, herase⟩ := hwaiting.eq_of_getElem? hi
    generalize hx : (s.get d).dialStream l r remoteTarget epochSecs = x at hproper ⊢
    generalize ho : f.get d = o at hlone hwaiting
    rw [ht] at hwaiting
    cases hwaiting with
    | dial =>
      have hst : x.status = .dial := by rw [← hx]; rfl
      obtain ⟨φ', hlead, hphase⟩ := h.phase.dial ho hst (by rw [← hx]; rfl)
      have hlone' : Lone (addresses.get d.other).asParsed none
          { s.get d with tasks := (s.get d).tasks.eraseIdx i } :=
        ⟨hlone.heap, hlone.registered, hlone.pumps⟩
      have hins := hlone'.insertStream x
      refine ⟨φ', _, hlead, h.register ho hproper ⟨hins.heap, hins.registered, hins.pumps⟩
        ?_ ?_ ?_ hphase⟩
      · show Waiting _ _ _ ((s.get d).tasks.eraseIdx i)
        rw [herase]
        exact .idle _
      · intro _ p hp
        rw [← hx] at hp ⊢
        obtain rfl := List.mem_singleton.mp hp
        exact (greeting_dial rfl).greets
      · rw [← hx]
        exact hid
  | created l r id data remoteTarget hi =>
    obtain ⟨ht, herase⟩ := hwaiting.eq_of_getElem? hi
    generalize hx : (s.get d).createStream l r remoteTarget id data epochSecs = x at hproper ⊢
    generalize ho : f.get d = o at hlone hwaiting
    rw [ht] at hwaiting
    cases hwaiting with
    | create _ y hy =>
      rw [createStream, extractKey_dialData] at hx
      have hsent : ∀ p ∈ x.sent, x.Greeting p := by
        intro p hp
        rw [← hx] at hp ⊢
        obtain rfl := List.mem_singleton.mp hp
        exact greeting_listen rfl
      have hst : x.status = .listen := by rw [← hx]; rfl
      obtain ⟨φ', hlead, hphase⟩ := h.phase.listen ho hy hst (by rw [← hx]; rfl)
        (by rw [← hx]; rfl) fun p hp => by
          rcases hsent p hp with rfl | ⟨hd, -⟩ | ⟨-, hdata⟩
          · decide
          · rw [hst] at hd; cases hd
          · rw [hdata, listenData, messageType_listen]; simp
      have hlone' : Lone (addresses.get d.other).asParsed none
          { s.get d with tasks := (s.get d).tasks.eraseIdx i } :=
        ⟨hlone.heap, hlone.registered, hlone.pumps⟩
      have hins := hlone'.insertStream x
      refine ⟨φ', _, hlead, h.register ho hproper ⟨hins.heap, hins.registered, hins.pumps⟩
        ?_ ?_ ?_ hphase⟩
      · show Waiting _ _ _ ((s.get d).tasks.eraseIdx i ++ [.activate (s.get d).heap.length])
        rw [herase]
        exact .activate _ _
      · exact fun _ p hp => (hsent p hp).greets
      · rw [← hx]
        exact hid

/-- **An update**, when the one before it is done. -/
theorem Agreeing.deliver [LawfulKeyCodec] [LawfulIdentity PublicKey]
    (hkind : ∀ d, (addresses.get d).key.kind = Address.vld0)
    (h : Agreeing addresses keypairs φ f s) (htasks : (s.get d).tasks = []) {g : Handle} {k : Nat}
    {p : Payload} (hp : payload (s.get d.other) g k = some p) :
    ∃ φ' f', Phase.Leads φ φ' ∧
      Agreeing addresses keypairs φ' f' (s.set d ((s.get d).step (.update p))) := by
  have hproper := step_properNode (h.proper d) (.update p)
  have hlone := h.lone d
  -- the payload is of the stream the other side has
  obtain ⟨y, hy, hpy⟩ := Option.bind_eq_some_iff.mp hp
  obtain ⟨hy, -⟩ := (h.lone d.other).eq_of_getElem? hy
  obtain ⟨hyc, hyl, hyk⟩ := h.stream hy
  have hpmem := List.mem_of_getElem? hpy
  have hu := update_updated (s.get d) p
  have hstep : (s.get d).step (.update p) = (s.get d).update p := rfl
  rw [hstep] at hproper ⊢
  generalize (s.get d).update p = n' at hu hproper
  cases hu with
  | ignored => exact ⟨φ, f, .refl, h.set_same hproper hlone (h.waiting d)⟩
  | dialed m l hm hstream hlocal hdial =>
    have hmeant := says_of_sent hyc (h.tidy _ y hy) hpmem hm
    have hpeer : m.remoteAddress = (addresses.get d.other).asParsed := by
      rw [hmeant.remoteAddress, hyl]
    rw [hpeer] at hstream hproper ⊢
    have ho : f.get d = none := Option.map_eq_none_iff.mp (hlone.registered.symm.trans hstream)
    -- the other side has dialed, and no more
    have hdata : m.data = y.dialData := by
      rcases h.phase.of_none ho with rfl | rfl
      · have hnone := h.phase d.other
        rw [hy] at hnone
        cases hnone
      · obtain ⟨-, y', hy', hst, -⟩ := h.phase
        obtain rfl := Option.some.inj (hy.symm.trans hy')
        exact (hmeant.messageType_of_dial hst).1
    refine ⟨φ, f, .refl, h.set_same hproper ⟨hlone.heap, hlone.registered, hlone.pumps⟩ ?_⟩
    rw [Transport.spawn, htasks, ho, hdata, hmeant.streamId]
    exact .create _ y hy
  | handled m g' x hm hstream hx =>
    have hmeant := says_of_sent hyc (h.tidy _ y hy) hpmem hm
    obtain ⟨ho, rfl⟩ := hlone.eq_of_getElem? hx
    obtain ⟨-, hxl, hxk⟩ := h.stream ho
    have hlocal : (s.get d).localAddress = some x.localAddress := by
      rw [(h.proper d).localAddress, hxl]
    rw [hlocal] at hproper ⊢
    obtain ⟨hcreate, φ', hlead, hphase⟩ := h.phase.hears ho hy hmeant (by rw [hxl]; exact hkind d)
      (by rw [hyl]; exact hkind d.other) (s.get d).now
    obtain ⟨htidy, hactive⟩ :=
      convertRegistered_tidy (h.tidy d x ho) x.localAddress (s.get d).now m
    have hi := handles_identity
      (convertRegistered_handles x (some x.localAddress) (s.get d).now m)
    rw [ho] at hlone
    have hlone' := hlone.handle hactive
    generalize x.convertRegistered (some x.localAddress) (s.get d).now m = r at *
    refine ⟨φ', f.set d (some r.1), hlead, h.set hproper ?_ ?_ (fun z hz => ?_) (fun z hz => ?_)
      (fun z hz => ?_) hphase⟩
    · cases hnext : r.2 with
      | create => exact absurd hnext hcreate
      | pending => exact ⟨hlone'.heap, hlone'.registered, hlone'.pumps⟩
      | readyNone => exact ⟨hlone'.heap, hlone'.registered, hlone'.pumps⟩
      | activate => exact ⟨hlone'.heap, hlone'.registered, hlone'.pumps⟩
    · cases hnext : r.2 with
      | create => exact absurd hnext hcreate
      | pending =>
        show Waiting _ _ _ (s.get d).tasks
        rw [htasks]
        exact .idle _
      | readyNone =>
        show Waiting _ _ _ (s.get d).tasks
        rw [htasks]
        exact .idle _
      | activate =>
        show Waiting _ _ _ ((s.get d).tasks ++ [.activate 0])
        rw [htasks]
        exact .activate _ _
    · obtain rfl := Option.some.inj (ho.symm.trans hz)
      exact ⟨r.1, rfl, hi⟩
    · obtain rfl := Option.some.inj hz
      exact htidy
    · obtain rfl := Option.some.inj hz
      rw [hi.myStreamId]
      exact h.ids d x ho

/-- **A step in order takes the handshake a step further, or leaves it.** -/
theorem step_agreeing [LawfulKeyCodec] [LawfulIdentity PublicKey]
    (hkind : ∀ d, (addresses.get d).key.kind = Address.vld0) (a : Action) (ha : Orderly s a)
    (h : Agreeing addresses keypairs φ f s) :
    ∃ φ' f', Phase.Leads φ φ' ∧ Agreeing addresses keypairs φ' f' (s.step a) := by
  cases a with
  | deliver d g k =>
    rw [step, move]
    cases hp : payload (s.get d.other) g k with
    | none => exact ⟨φ, f, .refl, h⟩
    | some p => exact h.deliver hkind ha hp
  | dial d =>
    have hlocal := (h.proper d.other).localAddress
    rw [step, move, hlocal]
    exact ⟨φ, f, .refl, h.dial ha.1 (ha.2 _ hlocal)⟩
  | resume d i target epochSecs => exact h.resume i target ha
  | chore d c =>
    obtain ⟨f', h'⟩ := h.chore c ha
    exact ⟨φ, f', .refl, h'⟩

/-- **A run in order refines the handshake.** -/
theorem run_agreeing [LawfulKeyCodec] [LawfulIdentity PublicKey]
    (hkind : ∀ d, (addresses.get d).key.kind = Address.vld0) {as : List Action}
    (has : Runs.Along step Orderly s as) (h : Agreeing addresses keypairs φ f s) :
    ∃ φ' f', Phase.Leads φ φ' ∧ Agreeing addresses keypairs φ' f' (Runs.run step s as) := by
  induction as generalizing s φ f with
  | nil => exact ⟨φ, f, .refl, h⟩
  | cons a as ih =>
    obtain ⟨φ₁, f₁, h₁, ha⟩ := step_agreeing hkind a has.1 h
    obtain ⟨φ₂, f₂, h₂, hb⟩ := ih has.2 ha
    exact ⟨φ₂, f₂, h₁.trans h₂, hb⟩

theorem start_agreeing (addresses : Pair Address) (keypairs : Pair (Keypair PublicKey))
    (now : Instant) :
    Agreeing addresses keypairs .apart ⟨none, none⟩ (start addresses keypairs now) := by
  have hnone : ∀ d, (⟨none, none⟩ : Pair (Option (VeilidStream PublicKey))).get d = none := by
    intro d
    cases d <;> rfl
  refine ⟨start_proper addresses keypairs now, fun d => ?_, fun d => ?_, fun d x hx => ?_,
    fun d x hx => ?_, hnone⟩
  · rw [hnone, get_start]
    exact ⟨rfl, rfl, fun hp => absurd rfl hp⟩
  · rw [hnone, get_start]
    exact .idle _
  · rw [hnone] at hx; cases hx
  · rw [hnone] at hx; cases hx

/-- A stream that is no longer dialing is one of two whose roles are settled. -/
theorem Agreeing.led (h : Agreeing addresses keypairs φ f s) {x : VeilidStream PublicKey}
    (hx : x ∈ (s.get d).heap) (hst : x.status ≠ .dial) :
    f.get d = some x ∧ ∃ y, f.get d.other = some y ∧
      (φ = .led d ∧ Led x y ∨ φ = .led d.other ∧ Led y x) := by
  have hx : f.get d = some x := by
    rw [(h.lone d).heap] at hx
    exact Option.mem_toList.mp hx
  refine ⟨hx, ?_⟩
  have hphase := h.phase
  cases φ with
  | apart => rw [hphase d] at hx; cases hx
  | dialed e =>
    obtain ⟨hnone, y, hy, hyst, -⟩ := hphase
    rcases Side.eq_or_eq_other d e with rfl | rfl
    · obtain rfl := Option.some.inj (hx.symm.trans hy)
      exact absurd hyst hst
    · rw [Side.other_other, hx] at hnone; cases hnone
  | crossed =>
    obtain ⟨z, hz⟩ := hphase
    obtain ⟨hzd, hdial⟩ := hz d
    obtain rfl := Option.some.inj (hx.symm.trans hzd)
    exact absurd hdial.status hst
  | led e =>
    obtain ⟨u, v, hu, hv, hl⟩ := hphase
    rcases Side.eq_or_eq_other d e with rfl | rfl
    · obtain rfl := Option.some.inj (hx.symm.trans hu)
      exact ⟨v, hv, .inl ⟨rfl, hl⟩⟩
    · rw [Side.other_other] at hv
      obtain rfl := Option.some.inj (hx.symm.trans hv)
      exact ⟨u, hu, .inr ⟨rfl, hl⟩⟩

/-- A side that has listened has the role for good. -/
theorem Agreeing.led_of_listen (h : Agreeing addresses keypairs φ f s)
    {x : VeilidStream PublicKey} (hx : x ∈ (s.get d).heap) (hst : x.status = .listen) :
    φ = .led d := by
  obtain ⟨-, y, -, ⟨hφ, -⟩ | ⟨-, hl⟩⟩ := h.led hx (by rw [hst]; simp)
  · exact hφ
  · have hd := hl.dialer
    rw [hst] at hd
    simp at hd

/-- An active stream knows the other side's. -/
theorem Agreeing.agreed (h : Agreeing addresses keypairs φ f s) {x : VeilidStream PublicKey}
    (hx : x ∈ (s.get d).heap) (hst : x.status = .active) :
    ∃ y, (s.get d.other).registered (addresses.get d).asParsed = some y ∧
      x.remoteStreamId = y.myStreamId ∧
      x.remotePublicKey = some (keypairs.get d.other).publicKey := by
  obtain ⟨-, y, hy, hrole⟩ := h.led hx (by rw [hst]; simp)
  have hlone := h.lone d.other
  rw [Side.other_other] at hlone
  have hreg : (s.get d.other).registered (addresses.get d).asParsed = some y := by
    rw [Transport.registered, hlone.registered, hlone.heap, hy]
    rfl
  rw [← (h.stream hy).2.2]
  rcases hrole with ⟨-, hl⟩ | ⟨-, hl⟩
  · exact ⟨y, hreg, hl.remoteStreamId, hl.remotePublicKey⟩
  · exact ⟨y, hreg, hl.answered hst⟩

/-- **Agreement**: in every state of every run in order, if a side listens then the other
does not, nor ever will; and an active stream has the id and the key of the stream the
other side has registered. -/
theorem agreement [LawfulKeyCodec] [LawfulIdentity PublicKey] (addresses : Pair Address)
    (keypairs : Pair (Keypair PublicKey)) (now : Instant)
    (hkind : ∀ d, (addresses.get d).key.kind = Address.vld0) (as bs : List Action)
    (has : Runs.Along step Orderly (start addresses keypairs now) (as ++ bs)) (d : Side)
    {x : VeilidStream PublicKey}
    (hx : x ∈ ((Runs.run step (start addresses keypairs now) as).get d).heap) :
    (x.status = .listen →
      ∀ y ∈ ((Runs.run step (start addresses keypairs now) (as ++ bs)).get d.other).heap,
        y.status ≠ .listen) ∧
    (x.status = .active →
      ∃ y, ((Runs.run step (start addresses keypairs now) as).get d.other).registered
          (addresses.get d).asParsed = some y ∧
        x.remoteStreamId = y.myStreamId ∧
        x.remotePublicKey = some (keypairs.get d.other).publicKey) := by
  obtain ⟨has, hbs⟩ := Runs.along_append.mp has
  obtain ⟨φ, f, -, ha⟩ := run_agreeing hkind has (start_agreeing addresses keypairs now)
  refine ⟨fun hst y hy hyst => ?_, ha.agreed hx⟩
  obtain rfl := ha.led_of_listen hx hst
  obtain ⟨φ', f', hlead, hb⟩ := run_agreeing hkind hbs ha
  rw [← Runs.run_append] at hb
  obtain rfl := Phase.eq_of_leads hlead
  -- the role is the first side's
  have hled := hb.led_of_listen hy hyst
  exact Side.ne_other d (Phase.led.inj hled)

end World

namespace World
open Sample

/-- Both nodes dial; the one with the smaller address listens, and gets data. -/
def sampleHandshake : List Action :=
  [.dial .left, .dial .right, .resume .left 0 (some (.nodeId (keyOf 2))) 10,
    .resume .right 0 (some (.nodeId (keyOf 1))) 20, .deliver .right 0 0, .deliver .left 0 0,
    .resume .left 0 none 10, .deliver .right 0 1, .chore .right (.pollWrite 0 [7]),
    .chore .right (.pump 0), .deliver .left 0 2]

/-- Two nodes and their keys. -/
def sampleStart : World Sample.PublicKey :=
  start ⟨addressOf 1, addressOf 2⟩ ⟨keypairOf 1, keypairOf 2⟩ 0

theorem agreement_sample :
    let s := Runs.run step sampleStart sampleHandshake
    let x := (s.get .left).heap.head (by decide)
    (x.status = .listen →
      ∀ y ∈ ((Runs.run step sampleStart (sampleHandshake ++ [])).get (Side.other .left)).heap,
        y.status ≠ .listen) ∧
    (x.status = .active →
      ∃ y, (s.get (Side.other .left)).registered (addressOf 1).asParsed = some y ∧
        x.remoteStreamId = y.myStreamId ∧
        x.remotePublicKey = some (keypairOf 2).publicKey) :=
  agreement ⟨addressOf 1, addressOf 2⟩ ⟨keypairOf 1, keypairOf 2⟩ 0
    (by intro d; cases d <;> rfl) sampleHandshake [] (by decide) .left (List.head_mem _)

/-- A future of `dial`, between its check and its insertion. -/
def dialing : Task → Bool
  | .dial _ _ => true
  | _ => false

/-- As `Orderly`, but a node may dial while an update of its own waits: the check of `dial`
and its insertion are still one after the other, and updates are still handled one at a
time. -/
def DialsAnyTime (s : World PublicKey) : Action → Prop
  | .deliver d _ _ => (s.get d).tasks = []
  | .dial d => (∀ t ∈ (s.get d).tasks, dialing t = false) ∧
      ∀ l ∈ (s.get d.other).localAddress, (s.get d).streams.lookup l.asParsed = none
  | .resume d i _ epochSecs => epochSecs ≠ 0 ∧
      ∀ j < (s.get d).tasks.length, (s.get d).tasks[j]?.any dialing = true → j = i
  | .chore d _ => ∀ x ∈ (s.get d).heap, x.isExpired (s.get d).now = false

instance (s : World PublicKey) : ∀ a, Decidable (DialsAnyTime s a)
  | .deliver d _ _ => inferInstanceAs (Decidable ((s.get d).tasks = []))
  | .dial _ => inferInstanceAs (Decidable (_ ∧ _))
  | .resume _ _ _ _ => inferInstanceAs (Decidable (_ ∧ _))
  | .chore d _ => inferInstanceAs (Decidable (∀ x ∈ (s.get d).heap, _))

def dials (d : Side) : Action → Bool
  | .dial e => e = d
  | _ => false

/-- The right node has the dial of the left one, and waits in `create_stream`; it dials
itself, and then `create_stream` inserts its stream over the one that has dialed. -/
def sampleBothDial : List Action :=
  [.dial .left, .resume .left 0 (some (.nodeId (keyOf 2))) 10, .deliver .right 0 0, .dial .right,
    .resume .right 1 (some (.nodeId (keyOf 1))) 20, .resume .right 0 (some (.nodeId (keyOf 1))) 30,
    .deliver .left 0 0]

/-- **Both sides can listen**, if a node dials while an update of its own waits: each side
has dialed once, and only without a stream for the other. -/
theorem both_listen :
    Runs.Along step DialsAnyTime sampleStart sampleBothDial ∧
    (∀ d, sampleBothDial.countP (dials d) = 1) ∧
    let s := Runs.run step sampleStart sampleBothDial
    (s.left.registered (addressOf 2).asParsed).map (·.status) = some .listen ∧
    (s.right.registered (addressOf 1).asParsed).map (·.status) = some .listen := by
  refine ⟨by decide, fun d => ?_, by decide, by decide⟩
  cases d <;> decide

end World
end VeilidTransport
