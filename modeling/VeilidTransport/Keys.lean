import VeilidTransport.Displacement
import VeilidTransport.Ignored
import Mathlib.Data.List.Induction

/-!
# The keys of established streams

The key of a remote comes with its `DIAL` or its `LISTEN`, behind the word, and the same
few lines take it out wherever one of them is handled.  A key that does not decode is
skipped there, and the status changes all the same: the stream listens, or is active,
without a key, and whatever its remote signs is discarded.

Where a key is known, it has come in a message for the stream (`Told`), in every run.
That it is known wherever the handshake is over holds exactly along the steps that end a
handshake with a key (`established_keyed_iff`).
-/

namespace VeilidTransport

namespace VeilidStream
variable {PublicKey : Type} [Identity PublicKey]

/-- The key behind the word, if there is one. -/
def keyIn (word data : Bytes) : Option PublicKey :=
  if data.take word.length = word then Identity.tryDecodeProtobuf (data.drop word.length)
  else none

/-- The key that a message announces: a `DIAL` or a `LISTEN`. -/
def announcedKey (m : AppMessage) : Option PublicKey :=
  match messageType m.data with
  | .dial => keyIn dialWord m.data
  | .listen => keyIn listenWord m.data
  | _ => none

theorem extractKey_remotePublicKey (s : VeilidStream PublicKey) (word data : Bytes) :
    (s.extractKey word data).remotePublicKey = (keyIn word data).or s.remotePublicKey := by
  unfold extractKey keyIn
  split
  · cases (Identity.tryDecodeProtobuf (data.drop word.length) : Option PublicKey) with
    | none => rfl
    | some key => rfl
  · rfl

/-- A stream whose handshake is over knows the key of its remote. -/
def Keyed (s : VeilidStream PublicKey) : Prop :=
  s.status = .listen ∨ s.status = .active → s.remotePublicKey ≠ none

variable [KeyCodec]

/-- The message takes a stream that dials to `Listen` or to `Active`. -/
def Enters (s : VeilidStream PublicKey) (localAddress : Option Address) (m : AppMessage) : Prop :=
  s.status = .dial ∧ ¬ Stale s m ∧ ∃ l ∈ localAddress, messageType m.data = .listen ∨
    messageType m.data = .dial ∧ m.remoteAddress.cmp l = .gt

/-- Such a message ends the handshake, with the key it announces or the one the stream has. -/
theorem Enters.convertRegistered {s : VeilidStream PublicKey} {localAddress : Option Address}
    {m : AppMessage} (h : s.Enters localAddress m) (now : Instant) :
    ((s.convertRegistered localAddress now m).1.status = .listen ∨
      (s.convertRegistered localAddress now m).1.status = .active) ∧
    (s.convertRegistered localAddress now m).1.remotePublicKey =
      (announcedKey m).or s.remotePublicKey := by
  obtain ⟨hs, hstale, l, hl, hm⟩ := h
  obtain rfl := Option.mem_def.mp hl
  obtain ⟨id, -, hadopt⟩ := adoptRemoteStreamId_eq s m.streamId
  have hs' : (s.adoptRemoteStreamId m.streamId).status = .dial := by rw [hadopt]; exact hs
  have hkey : (s.adoptRemoteStreamId m.streamId).remotePublicKey = s.remotePublicKey := by
    rw [hadopt]
  have hstale' : ¬ ((s.adoptRemoteStreamId m.streamId).remoteStreamId ≠ 0 ∧
      m.streamId < (s.adoptRemoteStreamId m.streamId).remoteStreamId) :=
    fun hx => hstale ((stale_adopt_iff s m).mp hx)
  unfold VeilidStream.convertRegistered announcedKey
  simp only [if_neg hstale', hs']
  rw [← hkey]
  generalize s.adoptRemoteStreamId m.streamId = t
  rcases hm with hm | ⟨hm, hcmp⟩
  · have hextract := extractKey_remotePublicKey t listenWord m.data
    simp only [convertDial, hm]
    generalize t.extractKey listenWord m.data = e at hextract ⊢
    have hh := works_handshake (works_sendMessages ((((e.updateInboundLastTimestampToNow
      now).updateRemoteStreamId m.streamId).updateStatus .active).generateMessages) now)
    exact ⟨.inr hh.status, hh.remotePublicKey.trans hextract⟩
  · have hextract := extractKey_remotePublicKey t dialWord m.data
    simp only [convertDial, hm, hcmp]
    generalize t.extractKey dialWord m.data = e at hextract ⊢
    exact ⟨.inl rfl, hextract⟩

/-- Any other message leaves a keyed stream keyed. -/
theorem Keyed.convertRegistered {s : VeilidStream PublicKey} (h : s.Keyed)
    {localAddress : Option Address} {m : AppMessage} (hnot : ¬ s.Enters localAddress m)
    (now : Instant) : (s.convertRegistered localAddress now m).1.Keyed := by
  obtain ⟨id, -, hadopt⟩ := adoptRemoteStreamId_eq s m.streamId
  have h' : (s.adoptRemoteStreamId m.streamId).Keyed := by rw [hadopt]; exact h
  cases localAddress with
  | none => exact h'
  | some l =>
    rcases convertRegistered_handled s l now m with ⟨-, hc⟩ | ⟨hstale, hc⟩
    · rw [hc]
      exact h'
    · have hst : (s.adoptRemoteStreamId m.streamId).status = s.status := by rw [hadopt]
      have henter : (s.adoptRemoteStreamId m.streamId).status = .dial →
          ¬ (messageType m.data = .listen ∨
            messageType m.data = .dial ∧ m.remoteAddress.cmp l = .gt) := fun hd hm =>
        hnot ⟨hst.symm.trans hd, fun hx => hstale ((stale_adopt_iff s m).mpr hx), l, rfl, hm⟩
      generalize hsigned : s.isSigned m = isSigned at hc
      have hkey : isSigned = true → (s.adoptRemoteStreamId m.streamId).remotePublicKey ≠ none := by
        rintro rfl hnone
        rw [hadopt] at hnone
        have hnone' : s.remotePublicKey = none := hnone
        rw [isSigned, hnone'] at hsigned
        cases hsigned
      generalize s.adoptRemoteStreamId m.streamId = t at *
      generalize (s.convertRegistered (some l) now m).1 = s' at hc
      generalize (s.convertRegistered (some l) now m).2 = next at hc
      cases hc with
      | ignored => exact h'
      | superseded => exact h'
      | tied hs hm hcmp =>
        obtain ⟨key, hk⟩ := extractKey_eq t dialWord m.data
        rw [hk]
        exact fun hx => absurd hs (StreamStatus.ne_dial hx)
      | redial hs hm hcmp => exact fun hx => absurd rfl (StreamStatus.ne_dial hx)
      | switched hs hm hcmp => exact absurd (.inr ⟨hm, hcmp⟩) (henter hs)
      | connected hs hm => exact absurd (.inl hm) (henter hs)
      | relisten hs hm => exact h'
      | received hs hm hsig =>
        -- what is signed is signed under the key the stream knows
        obtain ⟨-, -, hk⟩ := recvMessage_handshake (t.updateStatus .active) now m.deliveredSeq m.seq
          m.data
        exact fun _ => by rw [hk]; exact hkey hsig
      | acknowledged hs hm => exact h'

/-- **A message leaves a stream keyed** exactly if one that ends its handshake announces a
key, or the stream has one already. -/
theorem keyed_convertRegistered_iff {s : VeilidStream PublicKey} (h : s.Keyed)
    (localAddress : Option Address) (now : Instant) (m : AppMessage) :
    (s.convertRegistered localAddress now m).1.Keyed ↔
      (s.Enters localAddress m →
        (announcedKey m : Option PublicKey) ≠ none ∨ s.remotePublicKey ≠ none) := by
  by_cases hent : s.Enters localAddress m
  · obtain ⟨hst, hkey⟩ := hent.convertRegistered now
    have hor : (announcedKey m).or s.remotePublicKey ≠ none ↔
        (announcedKey m : Option PublicKey) ≠ none ∨ s.remotePublicKey ≠ none := by
      cases (announcedKey m : Option PublicKey) <;> simp
    rw [Keyed, hkey, hor]
    exact ⟨fun hx _ => hx hst, fun hx _ => hx hent⟩
  · exact ⟨fun _ hx => absurd hx hent, fun _ => h.convertRegistered hent now⟩

/-- A key that a stream knows after a message is the one it knew, or the one announced. -/
theorem convertRegistered_key {s : VeilidStream PublicKey} {localAddress : Option Address}
    {now : Instant} {m : AppMessage} {key : PublicKey}
    (h : (s.convertRegistered localAddress now m).1.remotePublicKey = some key) :
    s.remotePublicKey = some key ∨ announcedKey m = some key := by
  obtain ⟨id, -, hadopt⟩ := adoptRemoteStreamId_eq s m.streamId
  have hkey : (s.adoptRemoteStreamId m.streamId).remotePublicKey = s.remotePublicKey := by
    rw [hadopt]
  have hextract : ∀ (t : VeilidStream PublicKey) (word : Bytes),
      (t.extractKey word m.data).remotePublicKey = some key →
        t.remotePublicKey = some key ∨ keyIn word m.data = some key := by
    intro t word hx
    rw [extractKey_remotePublicKey] at hx
    cases hk : (keyIn word m.data : Option PublicKey) with
    | none => rw [hk] at hx; exact .inl hx
    | some k => rw [hk] at hx; exact .inr hx
  cases localAddress with
  | none =>
    rw [convertRegistered_none, hkey] at h
    exact .inl h
  | some l =>
    rcases convertRegistered_handled s l now m with ⟨-, hc⟩ | ⟨-, hc⟩
    · rw [hc, hkey] at h
      exact .inl h
    · rw [← hkey]
      generalize s.adoptRemoteStreamId m.streamId = t at *
      generalize (s.convertRegistered (some l) now m).1 = s' at hc h
      generalize (s.convertRegistered (some l) now m).2 = next at hc
      cases hc with
      | ignored => exact .inl h
      | superseded => exact .inl h
      | tied hs hm => rw [announcedKey, hm]; exact hextract t dialWord h
      | redial hs hm =>
        have hdial := hextract t dialWord
        generalize t.extractKey dialWord m.data = e at h hdial
        rw [announcedKey, hm]
        exact hdial h
      | switched hs hm =>
        have hdial := hextract t dialWord
        generalize t.extractKey dialWord m.data = e at h hdial
        rw [announcedKey, hm]
        exact hdial h
      | connected hs hm =>
        rw [(works_handshake (works_sendMessages _ now)).remotePublicKey] at h
        have hlisten := hextract t listenWord
        generalize t.extractKey listenWord m.data = e at h hlisten
        rw [announcedKey, hm]
        exact hlisten h
      | relisten => exact .inl h
      | received =>
        rw [(recvMessage_handshake _ _ _ _ _).2.2] at h
        exact .inl h
      | acknowledged => exact .inl h

end VeilidStream

namespace Transport
open VeilidStream
variable {PublicKey : Type} [KeyCodec] [Identity PublicKey]

/-! ## Where keys come from -/

/-- The message that the step decodes. -/
def heard : Action → Option AppMessage
  | .update packet => decodeMessage packet
  | _ => none

/-- Every key known, and every dial being answered, comes from a message for the stream. -/
structure Told (ms : List AppMessage) (n : Transport PublicKey) : Prop where
  keys : ∀ s ∈ n.heap, ∀ key, s.remotePublicKey = some key →
    ∃ m ∈ ms, m.remoteAddress = s.remoteAddress ∧ announcedKey m = some key
  tasks : ∀ l r id data, Task.create l r id data ∈ n.tasks →
    ∃ m ∈ ms, m.remoteAddress = r ∧ m.data = data ∧ messageType m.data = .dial

omit [KeyCodec] in
theorem told_new (localAddress : Option Address) (keypair : Keypair PublicKey) (now : Instant) :
    Told [] (new localAddress keypair now) :=
  ⟨fun _ hs => absurd hs List.not_mem_nil, fun _ _ _ _ ht => absurd ht List.not_mem_nil⟩

/-- The futures that answer a dial are old, or answer the dial that has come. -/
theorem step_create {n : Transport PublicKey} {a : Action} {l r : Address} {id : Nat} {data : Bytes}
    (ht : Task.create l r id data ∈ (n.step a).tasks) :
    Task.create l r id data ∈ n.tasks ∨
    ∃ m, heard a = some m ∧ m.remoteAddress = r ∧ m.data = data ∧ messageType m.data = .dial := by
  have htends : Tends n (n.step a) → Task.create l r id data ∈ n.tasks := by
    intro h
    obtain ⟨ts, hts, hdial⟩ := h.tasks
    rw [hts] at ht
    rcases List.mem_append.mp ht with ht | ht
    · exact ht
    · obtain ⟨l', r', hd⟩ := hdial _ ht
      cases hd
  cases a with
  | update packet =>
    have hu := update_updated n packet
    have hstep : n.step (.update packet) = n.update packet := rfl
    rw [hstep] at ht
    generalize n.update packet = n' at hu ht
    cases hu with
    | ignored => exact .inl ht
    | dialed m l' hm hstream hlocal hdial =>
      rcases List.mem_append.mp ht with ht | ht
      · exact .inl ht
      · obtain ⟨-, rfl, -, rfl⟩ := Task.create.inj (List.mem_singleton.mp ht)
        exact .inr ⟨m, hm, rfl, rfl, hdial⟩
    | handled m h s hm hstream hs =>
      generalize hnext : (s.convertRegistered n.localAddress n.now m).2 = next at ht
      cases next with
      | pending => exact .inl ht
      | readyNone => exact .inl ht
      | activate =>
        rcases List.mem_append.mp ht with ht | ht
        · exact .inl ht
        · cases List.mem_singleton.mp ht
      | create =>
        rw [follow] at ht
        split at ht
        · exact .inl ht
        · rcases List.mem_append.mp ht with ht | ht
          · exact .inl ht
          · obtain ⟨-, rfl, -, rfl⟩ := Task.create.inj (List.mem_singleton.mp ht)
            exact .inr ⟨m, hm, rfl, rfl, (convertRegistered_create hnext).1⟩
  | resume i target epochSecs =>
    have hr := resume_resumed n i target epochSecs
    have hstep : n.step (.resume i target epochSecs) = n.resume i target epochSecs := rfl
    rw [hstep] at ht
    generalize n.resume i target epochSecs = n' at hr ht
    cases hr with
    | idle => exact .inl ht
    | failed => exact .inl (List.mem_of_mem_eraseIdx ht)
    | activated => exact .inl (List.mem_of_mem_eraseIdx ht)
    | dialed => exact .inl (List.mem_of_mem_eraseIdx ht)
    | created =>
      rcases List.mem_append.mp ht with ht | ht
      · exact .inl (List.mem_of_mem_eraseIdx ht)
      · cases List.mem_singleton.mp ht
  | _ => exact .inl (htends (step_tends n (by simp) (by simp)))

/-- **Keys come from messages**, in every step. -/
theorem step_told {ms : List AppMessage} {n : Transport PublicKey} (hn : n.Registered)
    (h : Told ms n) (a : Action) : Told (ms ++ (heard a).toList) (n.step a) := by
  have hold : ∀ m ∈ ms, m ∈ ms ++ (heard a).toList := fun m hm => List.mem_append_left _ hm
  have hnew : ∀ m, heard a = some m → m ∈ ms ++ (heard a).toList := fun m hm =>
    List.mem_append_right _ (Option.mem_toList.mpr hm)
  constructor
  · intro s' hs' key hkey
    obtain ⟨g, hg⟩ := List.mem_iff_getElem?.mp hs'
    have hb := step_became n a hg
    cases hb with
    | worked _ s _ hs hw =>
      rw [(works_handshake hw).remotePublicKey] at hkey
      obtain ⟨m, hm, haddr, hk⟩ := h.keys s (List.mem_of_getElem? hs) key hkey
      exact ⟨m, hold m hm, haddr.trans (works_identity hw).remoteAddress.symm, hk⟩
    | handled packet m s hm hstream hs =>
      have haddr := (handles_identity (convertRegistered_handles s n.localAddress n.now
        m)).remoteAddress
      rcases convertRegistered_key hkey with hk | hk
      · obtain ⟨m', hm', haddr', hk'⟩ := h.keys s (List.mem_of_getElem? hs) key hk
        exact ⟨m', hold m' hm', haddr'.trans haddr.symm, hk'⟩
      · obtain ⟨t, ht, hta⟩ := hn _ _ hstream
        obtain rfl := Option.some.inj (hs.symm.trans ht)
        exact ⟨m, hnew m hm, hta.symm.trans haddr.symm, hk⟩
    | dialed => cases hkey
    | created i target epochSecs l r id data remoteTarget hi =>
      obtain ⟨m, hm, rfl, rfl, htype⟩ := h.tasks l r id data (List.mem_of_getElem? hi)
      refine ⟨m, hold m hm, (createStream_remoteAddress _ _ _ _ _ _ _).symm, ?_⟩
      have hx := extractKey_remotePublicKey (VeilidStream.new l m.remoteAddress remoteTarget id
        n.myKeypair epochSecs n.now) dialWord m.data
      have hkey' := hx.symm.trans hkey
      rw [announcedKey, htype]
      cases hk : (keyIn dialWord m.data : Option PublicKey) with
      | none => rw [hk] at hkey'; cases hkey'
      | some k => rw [hk] at hkey'; exact hkey'
  · intro l r id data ht
    rcases step_create ht with ht | ⟨m, hm, haddr, hdata, htype⟩
    · obtain ⟨m, hm, hrest⟩ := h.tasks l r id data ht
      exact ⟨m, hold m hm, hrest⟩
    · exact ⟨m, hnew m hm, haddr, hdata, htype⟩

/-- In every run, keys come from the messages of the run. -/
theorem run_told (localAddress : Option Address) (keypair : Keypair PublicKey) (now : Instant)
    (as : List Action) :
    Told (as.filterMap heard) (Runs.run step (new localAddress keypair now) as) := by
  induction as using List.reverseRecOn with
  | nil => exact told_new localAddress keypair now
  | append_singleton as a ih =>
    have hreg : (Runs.run step (new localAddress keypair now) as).Registered :=
      Runs.invariant step_registered (fun _ _ h => by cases h) as
    have h := step_told hreg ih a
    rw [Runs.run_append, Runs.run_cons, Runs.run_nil, List.filterMap_append]
    cases ha : heard a with
    | none =>
      rw [ha] at h
      rw [List.filterMap_cons_none ha]
      exact h
    | some m =>
      rw [ha] at h
      rw [List.filterMap_cons_some ha]
      exact h

/-! ## Where keys are known -/

/-- The step ends no handshake without a key. -/
def KeepsKeyed (n : Transport PublicKey) : Action → Prop
  | .update packet => ∀ m h s, decodeMessage packet = some m →
      n.streams.lookup m.remoteAddress = some h → n.heap[h]? = some s →
      s.Enters n.localAddress m →
      (announcedKey m : Option PublicKey) ≠ none ∨ s.remotePublicKey ≠ none
  | .resume i target _ => ∀ l r id data, n.tasks[i]? = some (.create l r id data) →
      target ≠ none → (keyIn dialWord data : Option PublicKey) ≠ none
  | _ => True

/-- Every stream whose handshake is over knows its remote's key. -/
def AllKeyed (n : Transport PublicKey) : Prop := ∀ s ∈ n.heap, s.Keyed

theorem createStream_remotePublicKey (n : Transport PublicKey) (l r : Address) (target : Target)
    (id : Nat) (data : Bytes) (epochSecs : Nat) :
    (n.createStream l r target id data epochSecs).remotePublicKey = keyIn dialWord data := by
  have h := extractKey_remotePublicKey (VeilidStream.new l r target id n.myKeypair epochSecs n.now)
    dialWord data
  exact h.trans Option.or_none

/-- A future that finds no target makes no stream. -/
theorem resume_none_heap (n : Transport PublicKey) (i epochSecs : Nat) :
    (n.step (.resume i none epochSecs)).heap = n.heap := by
  have hr := resume_resumed n i none epochSecs
  have hstep : n.step (.resume i none epochSecs) = n.resume i none epochSecs := rfl
  rw [hstep]
  generalize n.resume i none epochSecs = n' at hr
  cases hr with
  | idle => rfl
  | failed => rfl
  | activated => rfl
  | dialed _ _ _ _ htarget => cases htarget
  | created _ _ _ _ _ _ htarget => cases htarget

theorem step_allKeyed (n : Transport PublicKey) (a : Action) (hok : n.KeepsKeyed a)
    (hn : n.AllKeyed) : (n.step a).AllKeyed := by
  intro s' hs'
  obtain ⟨g, hg⟩ := List.mem_iff_getElem?.mp hs'
  have hb := step_became n a hg
  cases hb with
  | worked _ s _ hs hw =>
    have hh := works_handshake hw
    have hkeyed := hn s (List.mem_of_getElem? hs)
    rw [Keyed, hh.status, hh.remotePublicKey]
    exact hkeyed
  | handled packet m s hm hstream hs =>
    rw [keyed_convertRegistered_iff (hn s (List.mem_of_getElem? hs))]
    exact hok m g s hm hstream hs
  | dialed => exact fun hx => absurd rfl (StreamStatus.ne_dial hx)
  | created i target epochSecs l r id data remoteTarget hi =>
    cases target with
    | none =>
      rw [resume_none_heap] at hs'
      exact hn _ hs'
    | some target =>
      intro _
      rw [createStream_remotePublicKey]
      exact hok l r id data hi (by simp)

/-- A step that leaves every stream keyed ends no handshake without a key. -/
theorem keepsKeyed_of_allKeyed (n : Transport PublicKey) (a : Action) (hn : n.AllKeyed)
    (h : (n.step a).AllKeyed) : n.KeepsKeyed a := by
  cases a with
  | update packet =>
    intro m g s hm hstream hs
    rw [← keyed_convertRegistered_iff (hn s (List.mem_of_getElem? hs)) n.localAddress n.now m]
    have hlt := (List.getElem?_eq_some_iff.mp hs).1
    have hstep : n.step (.update packet) = n.update packet := rfl
    apply h
    rw [hstep, update_registered hm hstream hs, (follow_streams _ _ _ _).2.1]
    exact List.mem_of_getElem? (List.getElem?_set_self hlt)
  | resume i target epochSecs =>
    intro l r id data hi htarget
    obtain ⟨remoteTarget, rfl⟩ := Option.ne_none_iff_exists'.mp htarget
    have hheap : (n.step (.resume i (some remoteTarget) epochSecs)).heap =
        n.heap ++ [n.createStream l r remoteTarget id data epochSecs] := by
      simp only [step, resume, hi]
      rfl
    rw [← createStream_remotePublicKey n l r remoteTarget id data epochSecs]
    exact h _ (by rw [hheap]; simp) (.inl rfl)
  | _ => exact trivial

/-- **When established streams can authenticate their remote**: in every state of a run, each
stream in `Listen` or `Active` knows a key that a `DIAL` or `LISTEN` for it has announced,
exactly if no step of the run ends a handshake without a key. -/
theorem established_keyed_iff (localAddress : Option Address) (keypair : Keypair PublicKey)
    (now : Instant) (as : List Action) :
    (∀ bs, bs <+: as → ∀ s ∈ (Runs.run step (new localAddress keypair now) bs).heap,
      s.status = .listen ∨ s.status = .active → ∃ key, s.remotePublicKey = some key ∧
        ∃ m ∈ bs.filterMap heard, m.remoteAddress = s.remoteAddress ∧ announcedKey m = some key) ↔
      Runs.Along step KeepsKeyed (new localAddress keypair now) as := by
  have hnew : (new localAddress keypair now : Transport PublicKey).AllKeyed := fun _ hs =>
    absurd hs List.not_mem_nil
  rw [← Runs.prefixes_iff_along (fun _ hn => hn) step_allKeyed keepsKeyed_of_allKeyed hnew as]
  constructor
  · intro h bs hbs s hs hst
    obtain ⟨key, hkey, -⟩ := h bs hbs s hs hst
    rw [hkey]
    exact Option.some_ne_none key
  · intro h bs hbs s hs hst
    obtain ⟨key, hkey⟩ := Option.ne_none_iff_exists'.mp (h bs hbs s hs hst)
    exact ⟨key, hkey, (run_told localAddress keypair now bs).keys s hs key hkey⟩

end Transport

namespace Transport
open Sample

/-- A `DIAL` of node 2 whose key is cut short. -/
def sampleShortDial : Payload :=
  samplePacket 20 (dialWord ++ [0x08, 0x01])

/-- **A stream can be established without a key**: the `DIAL` has none that decodes, and the
stream listens and is announced all the same. -/
theorem established_without_key :
    let n := Runs.run step (sampleNode 1)
      [.update sampleShortDial, .resume 0 (some (.nodeId (keyOf 2))) 10, .resume 0 none 10]
    (n.heap.map fun s => (s.status, s.remotePublicKey)) = [(.listen, none)] ∧ n.incoming = [0] := by
  decide

end Transport
end VeilidTransport
