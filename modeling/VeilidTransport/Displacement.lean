import VeilidTransport.Connections

/-!
# Streams that leave the map

Three steps make the map stop pointing at a stream: `dial` and `create_stream` insert
a new stream over it, and the heartbeat removes it once it has expired.  Every stream of the
map stands under its own remote address (`Registered`), so what the heartbeat finds expired
is what is registered for the addresses of its list, and a deletion takes out one stream and
wakes its reader.
-/

namespace VeilidTransport
namespace Transport
variable {PublicKey : Type} [KeyCodec] [Identity PublicKey]

/-- Every stream of the map is there, under its own remote address. -/
def Registered (n : Transport PublicKey) : Prop :=
  ∀ a h, n.streams.lookup a = some h → ∃ s, n.heap[h]? = some s ∧ s.remoteAddress = a

omit [KeyCodec] [Identity PublicKey] in
/-- A stream is registered for one address only. -/
theorem Registered.eq_of_lookup {n : Transport PublicKey} (hn : n.Registered) {a b : Address}
    {h : Handle} (ha : n.streams.lookup a = some h) (hb : n.streams.lookup b = some h) :
    a = b := by
  obtain ⟨s, hs, rfl⟩ := hn a h ha
  obtain ⟨t, ht, rfl⟩ := hn b h hb
  rw [hs] at ht
  obtain rfl := Option.some.inj ht
  rfl

/-- What a tending node has done to a stream of the heap. -/
theorem Tends.getElem? {n n' : Transport PublicKey} (ht : Tends n n') {h : Handle}
    {s : VeilidStream PublicKey} (hs : n.heap[h]? = some s) :
    ∃ s', n'.heap[h]? = some s' ∧ VeilidStream.Works s s' := by
  have hh := ht.heap h
  rw [hs] at hh
  generalize n'.heap[h]? = o at hh
  cases hh with
  | some hw => exact ⟨_, rfl, hw⟩

theorem Tends.registered {n n' : Transport PublicKey} (ht : Tends n n') (hn : n.Registered) :
    n'.Registered := by
  intro a h hlookup
  obtain ⟨s, hs, rfl⟩ := hn a h (ht.streams a h hlookup)
  obtain ⟨s', hs', hw⟩ := ht.getElem? hs
  exact ⟨s', hs', (VeilidStream.works_identity hw).remoteAddress⟩

omit [KeyCodec] [Identity PublicKey] in
theorem Registered.insertStream {n : Transport PublicKey} (hn : n.Registered)
    (s : VeilidStream PublicKey) : (n.insertStream s.remoteAddress s).Registered := by
  intro a h hlookup
  have hlookup' : (n.streams.insert s.remoteAddress n.heap.length).lookup a = some h := hlookup
  rw [KeyedMap.lookup_insert] at hlookup'
  by_cases ha : a = s.remoteAddress
  · rw [if_pos ha] at hlookup'
    obtain rfl := Option.some.inj hlookup'
    exact ⟨s, List.getElem?_concat_length, ha.symm⟩
  · rw [if_neg ha] at hlookup'
    obtain ⟨t, ht, hta⟩ := hn a h hlookup'
    obtain ⟨hlt, -⟩ := List.getElem?_eq_some_iff.mp ht
    exact ⟨t, (List.getElem?_append_left hlt).trans ht, hta⟩

theorem createStream_remoteAddress (n : Transport PublicKey) (l r : Address) (target : Target)
    (id : Nat) (data : Bytes) (epochSecs : Nat) :
    (n.createStream l r target id data epochSecs).remoteAddress = r := by
  obtain ⟨key, hk⟩ := VeilidStream.extractKey_eq
    (VeilidStream.new l r target id n.myKeypair epochSecs n.now) dialWord data
  rw [createStream, hk]
  rfl

theorem step_registered (n : Transport PublicKey) (a : Action) (hn : n.Registered) :
    (n.step a).Registered := by
  cases a with
  | update packet =>
    show (n.update packet).Registered
    have hu := update_updated n packet
    generalize n.update packet = n' at hu
    cases hu with
    | ignored => exact hn
    | dialed => exact hn
    | handled m g s hm hstream hs =>
      intro a h hlookup
      obtain ⟨hst, hheap, -⟩ := follow_streams
        { n with heap := n.heap.set g (s.convertRegistered n.localAddress n.now m).1 } g m
        (s.convertRegistered n.localAddress n.now m).2
      rw [hst] at hlookup
      rw [hheap]
      obtain ⟨t, ht, rfl⟩ := hn a h hlookup
      by_cases hg : g = h
      · subst hg
        rw [hs] at ht
        obtain rfl := Option.some.inj ht
        refine ⟨_, List.getElem?_set_self (List.getElem?_eq_some_iff.mp hs).1, ?_⟩
        exact (VeilidStream.handles_identity
          (VeilidStream.convertRegistered_handles _ _ _ _)).remoteAddress
      · exact ⟨t, (List.getElem?_set_ne hg).trans ht, rfl⟩
  | resume i target epochSecs =>
    show (n.resume i target epochSecs).Registered
    have hr := resume_resumed n i target epochSecs
    generalize n.resume i target epochSecs = n' at hr
    cases hr with
    | idle => exact hn
    | failed => exact hn
    | activated => exact hn
    | dialed l r remoteTarget =>
      exact Registered.insertStream hn (n.dialStream l r remoteTarget epochSecs)
    | created l r id data remoteTarget =>
      have hi := Registered.insertStream hn (n.createStream l r remoteTarget id data epochSecs)
      rw [createStream_remoteAddress] at hi
      exact hi
  | _ => exact (step_tends n (by simp) (by simp)).registered hn

/-! ## A stream that has expired -/

/-- The stream `h` has expired. -/
def Expired (n : Transport PublicKey) (h : Handle) : Prop :=
  ∃ s, n.heap[h]? = some s ∧ s.isExpired n.now = true

omit [KeyCodec] [Identity PublicKey] in
theorem isExpired_iff {s : VeilidStream PublicKey} {now : Instant} : s.isExpired now = true ↔
    s.status ≠ .expired ∧ s.inbound.lastTimestamp + secs settings.streamTimeoutSecs ≤ now := by
  unfold VeilidStream.isExpired VeilidStream.isRecent
  by_cases hs : s.status = .expired
  · simp [hs]
  · simp [hs]

/-- Time and the node's own work do not revive a stream. -/
theorem isExpired_of_works {s s' : VeilidStream PublicKey} (hw : VeilidStream.Works s s')
    {now now' : Instant} (hle : now ≤ now') (h : s.isExpired now = true) :
    s'.isExpired now' = true := by
  obtain ⟨hst, hts⟩ := isExpired_iff.mp h
  have hh := VeilidStream.works_handshake hw
  rw [isExpired_iff, hh.status, hh.lastTimestamp]
  exact ⟨hst, Nat.le_trans hts hle⟩

/-! ## The heartbeat -/

/-- A stream to delete is left alone until it is deleted. -/
theorem heartbeatStream_toDelete {now : Instant} {s : VeilidStream PublicKey}
    (h : toDelete now s = true) : heartbeatStream now s = s := by
  obtain ⟨hactive, hexpired⟩ : s.isActive now = false ∧ s.isExpired now = true := by
    simpa [toDelete] using h
  rw [heartbeatStream, hactive, if_neg (by simp), hexpired, if_pos rfl]

theorem visit_getElem? (l : List Handle) {n : Transport PublicKey} {h : Handle}
    {s : VeilidStream PublicKey} (hs : n.heap[h]? = some s) (hd : toDelete n.now s = true) :
    (l.foldl (fun n h => n.modifyStream h (heartbeatStream n.now)) n).heap[h]? = some s ∧
    (l.foldl (fun n h => n.modifyStream h (heartbeatStream n.now)) n).streams = n.streams ∧
    (l.foldl (fun n h => n.modifyStream h (heartbeatStream n.now)) n).now = n.now := by
  induction l generalizing n with
  | nil => exact ⟨hs, rfl, rfl⟩
  | cons g l ih =>
    have hs' : (n.modifyStream g (heartbeatStream n.now)).heap[h]? = some s := by
      rw [modifyStream, List.getElem?_modify, hs]
      show some (if g = h then heartbeatStream n.now s else s) = _
      rw [heartbeatStream_toDelete hd, ite_self]
    exact ih hs' hd

omit [KeyCodec] [Identity PublicKey] in
theorem deleteStream_lookup (n : Transport PublicKey) (r a : Address) :
    (n.deleteStream r).streams.lookup a = if a = r then none else n.streams.lookup a := by
  unfold deleteStream
  split
  · next hr =>
    by_cases ha : a = r
    · rw [if_pos ha, ha, hr]
    · rw [if_neg ha]
  · exact KeyedMap.lookup_erase _ _ _

omit [KeyCodec] [Identity PublicKey] in
theorem deleteStream_getElem? (n : Transport PublicKey) (r : Address) (h : Handle) :
    (n.deleteStream r).heap[h]? =
      if n.streams.lookup r = some h then n.heap[h]?.map VeilidStream.wakeToRead
      else n.heap[h]? := by
  unfold deleteStream
  split
  · next hr => rw [hr, if_neg (by simp)]
  · next g hr =>
    rw [modifyStream, List.getElem?_modify, hr]
    by_cases hg : g = h
    · simp [hg]
    · simp [hg]

omit [KeyCodec] [Identity PublicKey] in
theorem deleteStream_now (n : Transport PublicKey) (r : Address) :
    (n.deleteStream r).now = n.now := by
  unfold deleteStream
  split <;> rfl

omit [KeyCodec] [Identity PublicKey] in
theorem foldl_deleteStream_now (l : List Address) (n : Transport PublicKey) :
    (l.foldl deleteStream n).now = n.now := by
  induction l generalizing n with
  | nil => rfl
  | cons r l ih => rw [List.foldl_cons, ih, deleteStream_now]

omit [KeyCodec] [Identity PublicKey] in
theorem foldl_deleteStream_lookup (l : List Address) (n : Transport PublicKey) (a : Address) :
    (l.foldl deleteStream n).streams.lookup a = if a ∈ l then none else n.streams.lookup a := by
  induction l generalizing n with
  | nil => rfl
  | cons r l ih =>
    rw [List.foldl_cons, ih, deleteStream_lookup]
    by_cases har : a = r
    · simp [har]
    · simp [har]

/-- The first pass leaves the map alone. -/
theorem visit_streams (l : List Handle) (n : Transport PublicKey) :
    (l.foldl (fun n h => n.modifyStream h (heartbeatStream n.now)) n).streams = n.streams := by
  induction l generalizing n with
  | nil => rfl
  | cons g l ih =>
    rw [List.foldl_cons, ih]
    rfl

theorem heartbeat_lookup (n : Transport PublicKey) (a : Address) :
    n.heartbeat.streams.lookup a =
      if a ∈ n.expiredAddresses then none else n.streams.lookup a := by
  rw [heartbeat, foldl_deleteStream_lookup, visit_streams]

omit [KeyCodec] [Identity PublicKey] in
/-- The address on the list is that of the stream that is registered for it. -/
theorem Registered.mem_expiredAddresses {n : Transport PublicKey} (hn : n.Registered)
    {a : Address} (hmem : a ∈ n.expiredAddresses) :
    ∃ h s, n.streams.lookup a = some h ∧ n.heap[h]? = some s ∧ toDelete n.now s = true := by
  obtain ⟨s, hs, rfl⟩ := List.mem_map.mp hmem
  obtain ⟨hs, hdel⟩ := List.mem_filter.mp hs
  obtain ⟨h, hh, hhs⟩ := List.mem_filterMap.mp hs
  obtain ⟨a, ha⟩ := KeyedMap.mem_values.mp hh
  obtain ⟨t, ht, rfl⟩ := hn a h ha
  rw [hhs] at ht
  obtain rfl := Option.some.inj ht
  exact ⟨h, s, ha, hhs, hdel⟩

/-! ## Every other step -/

/-- The map changes by the heartbeat and by futures that insert a stream. -/
theorem step_streams (n : Transport PublicKey) {a : Action} (hh : a ≠ .heartbeat)
    (hr : ∀ i target epochSecs, a ≠ .resume i target epochSecs) :
    (n.step a).streams = n.streams := by
  cases a with
  | dial r =>
    rw [step, dial]
    split
    · rfl
    · split
      · split <;> rfl
      · rfl
  | update packet =>
    have hu := update_updated n packet
    rw [step]
    generalize n.update packet = n' at hu
    cases hu with
    | ignored => rfl
    | dialed => rfl
    | handled => exact (follow_streams _ _ _ _).1
  | resume i target epochSecs => exact absurd rfl (hr i target epochSecs)
  | pump i =>
    rw [step, pump]
    split <;> rfl
  | heartbeat => exact absurd rfl hh
  | pollRead h waker len =>
    rw [step, pollRead]
    split <;> rfl
  | pollWrite h buf =>
    rw [step, pollWrite]
    split
    · split
      · rfl
      · simp only
        split <;> rfl
    · rfl
  | tick d => rfl
  | setLocalAddress l => rfl

end Transport
end VeilidTransport
