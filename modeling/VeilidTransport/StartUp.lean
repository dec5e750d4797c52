import VeilidTransport.Lookups

/-!
# One start-up

At a start-up `veilid_core` asks for one key after another, among them the node's id and
its secret.  These two lookups agree only through the keys file: each calls
`manage_keypair`, which goes on with a key pair of its own where the file cannot be read,
and does so too where it could not write the file.

A start-up is a run of lookups of any keys, each with what the file system and
`generate_keypair` answer.  Every public key delivered comes from the key pair of every
secret delivered exactly as long as each lookup answered after one of the other kind reads
that one's key pair in the file (`identity_matched_iff`).
-/

namespace VeilidTransport

open Runs

/-- The half of a key pair a lookup asks for. -/
inductive Half where
  | publicKey
  | secret
  deriving DecidableEq

/-- The key of the settings a half is asked for under. -/
def Half.key : Half → DerivedKey
  | publicKey => .nodeId
  | secret => .nodeIdSecret

/-- The half that is asked for under a key, if one is. -/
def halfOf (key : String) : Option Half :=
  if key = Half.publicKey.key.key then some .publicKey
  else if key = Half.secret.key.key then some .secret
  else none

theorem halfOf_eq_some {key : String} {half : Half} (h : halfOf key = some half) :
    key = half.key.key := by
  unfold halfOf at h
  split at h
  · next hk =>
    cases h
    exact hk
  · split at h
    · next hk =>
      cases h
      exact hk
    · cases h

/-- One lookup, and what it meets. -/
structure LookupCall where
  key : String
  answer : LookupAnswer

/-- A half that was delivered, with the key pair it was taken from. -/
structure Served where
  half : Half
  value : ConfigValue
  pair : TypedKeyPair

/-- The node's files, and what the lookups of this start-up delivered (history). -/
structure StartUp where
  files : ConfigFiles
  served : List Served

namespace StartUp

/-- Every public key delivered is of the same key pair as every secret delivered. -/
def Matched (s : StartUp) : Prop :=
  ∀ a ∈ s.served, ∀ b ∈ s.served, a.half = .publicKey → b.half = .secret → a.pair = b.pair

section
variable [CryptoKindCodec] [KeyPairCodec]

/-- What a lookup delivers of a key pair. -/
def serve (id : String) (s : StartUp) (call : LookupCall) : List Served :=
  match halfOf call.key, (lookupConfig id call.answer s.files call.key).1,
      (manageKeypair call.answer.keys s.files.keys).1 with
  | some half, .ok (.ok value), .ok (some pair) => [⟨half, value, pair⟩]
  | _, _, _ => []

def step (id : String) (s : StartUp) (call : LookupCall) : StartUp where
  files := (lookupConfig id call.answer s.files call.key).2
  served := s.served ++ serve id s call

/-- `generate_keypair` returns a key pair that no lookup has delivered. -/
def Fresh (s : StartUp) (call : LookupCall) : Prop :=
  ∀ pair, call.answer.keys.generated = some pair → ∀ e ∈ s.served, e.pair ≠ pair

/-- A lookup that gets to the keys file reads there the key pair of each half of the other
kind delivered before, or it ends without a key pair. -/
def Rereads (s : StartUp) (call : LookupCall) : Prop :=
  ∀ half, halfOf call.key = some half → half.key.Reaches call.answer s.files →
    ∀ e ∈ s.served, e.half ≠ half →
      readPair call.answer.keys s.files.keys = some e.pair ∨
        readPair call.answer.keys s.files.keys = none ∧ call.answer.keys.generated = none

/-- **What one lookup delivers**: nothing, or the half it was asked for of the key pair that
`manage_keypair` returns. -/
theorem serve_cases (id : String) (s : StartUp) (call : LookupCall) :
    (serve id s call = [] ∧ ∀ half, halfOf call.key = some half →
        half.key.Reaches call.answer s.files →
          readPair call.answer.keys s.files.keys = none ∧ call.answer.keys.generated = none) ∨
      ∃ half pair, halfOf call.key = some half ∧ half.key.Reaches call.answer s.files ∧
        (manageKeypair call.answer.keys s.files.keys).1 = .ok (some pair) ∧
        serve id s call = [⟨half, half.key.value id pair.value, pair⟩] := by
  cases hhalf : halfOf call.key with
  | none =>
    refine .inl ⟨?_, fun half h => by cases h⟩
    rw [serve, hhalf]
  | some half =>
    have hkey : call.key = half.key.key := halfOf_eq_some hhalf
    by_cases hreach : half.key.Reaches call.answer s.files
    · have hlookup := (DerivedKey.lookupConfig_of_reaches id hreach).1
      cases hm : (manageKeypair call.answer.keys s.files.keys).1 with
      | error p =>
        refine .inl ⟨?_, fun _ _ _ => none_of_manageKeypair_error hm⟩
        rw [serve, hm]
        split <;> first | rfl | contradiction
      | ok result =>
        obtain ⟨pair, rfl, -⟩ := manageKeypair_ok_iff.mp hm
        refine .inr ⟨half, pair, rfl, hreach, rfl, ?_⟩
        rw [half.key.derivedValue_of_ok hm] at hlookup
        rw [serve, hhalf, hkey, hlookup, hm]
    · obtain ⟨⟨e, he⟩, -⟩ := DerivedKey.lookupConfig_of_not_reaches id hreach
      refine .inl ⟨?_, fun half' h hreach' => ?_⟩
      · rw [serve, hhalf, hkey, he]
      · cases h
        exact absurd hreach' hreach

omit [CryptoKindCodec] in
theorem derivedValue_of_error (half : Half) {id : String} {answer : KeyFileAnswer}
    {keys : Option Bytes} {p : Panic} (h : (manageKeypair answer keys).1 = .error p) :
    (derivedValue id answer keys half.key.key).1 = .error p := by
  cases half with
  | publicKey => exact DerivedKey.identityValue_of_error h
  | secret => exact DerivedKey.identityValue_of_error h

/-- **Every answer counts**: a half that is delivered is recorded with its value. -/
theorem serve_of_ok {id : String} {s : StartUp} {call : LookupCall} {half : Half}
    {value : ConfigValue} (hhalf : halfOf call.key = some half)
    (h : (lookupConfig id call.answer s.files call.key).1 = .ok (.ok value)) :
    ∃ pair, serve id s call = [⟨half, value, pair⟩] := by
  have hkey : call.key = half.key.key := halfOf_eq_some hhalf
  by_cases hreach : half.key.Reaches call.answer s.files
  · have hlookup := (DerivedKey.lookupConfig_of_reaches id hreach).1
    cases hm : (manageKeypair call.answer.keys s.files.keys).1 with
    | error p =>
      rw [hkey, hlookup, derivedValue_of_error half hm] at h
      cases h
    | ok result =>
      obtain ⟨pair, rfl, -⟩ := manageKeypair_ok_iff.mp hm
      exact ⟨pair, by rw [serve, hhalf, h, hm]⟩
  · obtain ⟨⟨e, he⟩, -⟩ := DerivedKey.lookupConfig_of_not_reaches id hreach
    rw [hkey, he] at h
    cases h

omit [CryptoKindCodec] in
theorem derivedValue_half (half : Half) (id : String) (answer : KeyFileAnswer)
    (keys : Option Bytes) :
    (derivedValue id answer keys half.key.key).2 = (manageKeypair answer keys).2 := by
  cases half with
  | publicKey => exact DerivedKey.identityValue_keys
  | secret => exact DerivedKey.identityValue_keys

omit [CryptoKindCodec] in
theorem derivedValue_keys_of_halfOf_none {id : String} {answer : KeyFileAnswer}
    {keys : Option Bytes} {key : String} (h : halfOf key = none) :
    (derivedValue id answer keys key).2 = keys := by
  unfold derivedValue
  split
  · exact absurd h (by decide)
  · exact absurd h (by decide)
  · rfl
  · rfl
  · rfl
  · rfl

/-- A lookup of another key leaves the keys file. -/
theorem keys_of_halfOf_none {id : String} {answer : LookupAnswer} {files : ConfigFiles}
    {key : String} (h : halfOf key = none) :
    (lookupConfig id answer files key).2.keys = files.keys := by
  rcases hopen : openSettings answer files.settings with ⟨opened, settings⟩
  cases opened with
  | error e => rw [lookupConfig, hopen]
  | ok doc =>
    rw [lookupConfig_of_open hopen, lookupValue]
    split
    · rfl
    · rfl
    · exact derivedValue_keys_of_halfOf_none h

/-- What is delivered is the half of the key pair it was taken from. -/
def Taken (id : String) (s : StartUp) : Prop :=
  ∀ e ∈ s.served, e.value = e.half.key.value id e.pair.value

/-- **Every value delivered is the half of its key pair.** -/
theorem taken_run (id : String) (files : ConfigFiles) (calls : List LookupCall) :
    (run (step id) ⟨files, []⟩ calls).Taken id := by
  have hstep : ∀ s call, Taken id s → Taken id (step id s call) := by
    intro s call h e he
    rcases List.mem_append.mp he with he | he
    · exact h e he
    · rcases serve_cases id s call with ⟨hnil, -⟩ | ⟨half, pair, -, -, -, hserve⟩
      · rw [hnil] at he
        cases he
      · rw [hserve, List.mem_singleton] at he
        rw [he]
  refine invariant hstep ?_ calls
  intro e he
  cases he

omit [CryptoKindCodec] [KeyPairCodec] in
/-- The states one lookup leads to that are still matched: it delivers no half, or one of the
key pair of each half of the other kind. -/
theorem matched_concat_iff {s : StartUp} (h : s.Matched) (files : ConfigFiles) (e : Served) :
    Matched ⟨files, s.served ++ [e]⟩ ↔ ∀ a ∈ s.served, a.half ≠ e.half → a.pair = e.pair := by
  constructor
  · intro hm a ha hne
    have ha' : a ∈ s.served ++ [e] := List.mem_append_left _ ha
    have he' : e ∈ s.served ++ [e] := List.mem_append_right _ (List.mem_singleton_self e)
    cases hhalf : a.half with
    | publicKey =>
      cases heh : e.half with
      | publicKey => exact absurd (hhalf.trans heh.symm) hne
      | secret => exact hm a ha' e he' hhalf heh
    | secret =>
      cases heh : e.half with
      | publicKey => exact (hm e he' a ha' heh hhalf).symm
      | secret => exact absurd (hhalf.trans heh.symm) hne
  · intro hall a ha b hb hpublic hsecret
    rcases List.mem_append.mp ha with ha | ha
    · rcases List.mem_append.mp hb with hb | hb
      · exact h a ha b hb hpublic hsecret
      · rw [List.mem_singleton] at hb
        rw [hb] at hsecret ⊢
        exact hall a ha (by rw [hpublic, hsecret]; decide)
    · rw [List.mem_singleton] at ha
      rw [ha] at hpublic ⊢
      rcases List.mem_append.mp hb with hb | hb
      · exact (hall b hb (by rw [hpublic, hsecret]; decide)).symm
      · rw [List.mem_singleton] at hb
        rw [hb]

/-- **One lookup.** -/
theorem matched_step_iff {id : String} {s : StartUp} {call : LookupCall} (hfresh : Fresh s call)
    (h : s.Matched) : (step id s call).Matched ↔ Rereads s call := by
  rcases serve_cases id s call with ⟨hnil, hends⟩ | ⟨half, pair, hhalf, hreach, hpair, hserve⟩
  · have hsame : (step id s call).Matched := by
      unfold Matched step
      rw [hnil, List.append_nil]
      exact h
    exact iff_of_true hsame fun half hhalf hreach _ _ _ => .inr (hends half hhalf hreach)
  · have hstep : step id s call = ⟨(lookupConfig id call.answer s.files call.key).2,
        s.served ++ [⟨half, half.key.value id pair.value, pair⟩]⟩ := by
      rw [step, hserve]
    rw [hstep, matched_concat_iff h]
    obtain ⟨_, hsome, hreturned⟩ := manageKeypair_ok_iff.mp hpair
    cases hsome
    constructor
    · intro hall half' hhalf' _ e he hne
      rw [hhalf] at hhalf'
      cases hhalf'
      have hep : e.pair = pair := hall e he hne
      rcases hreturned with hread | ⟨-, hgenerated⟩
      · exact .inl (by rw [hread, hep])
      · exact absurd hep (hfresh pair hgenerated e he)
    · intro hreads a ha hne
      rcases hreads half hhalf hreach a ha hne with hread | ⟨hnone, hgen⟩
      · rcases hreturned with hread' | ⟨hnone, -⟩
        · rw [hread] at hread'
          exact Option.some.inj hread'
        · rw [hread] at hnone
          cases hnone
      · rcases hreturned with hread' | ⟨-, hgen'⟩
        · rw [hnone] at hread'
          cases hread'
        · rw [hgen] at hgen'
          cases hgen'

/-- **When the node's id and secret match**, whatever the files hold and whatever fails: each
value delivered is the half of its key pair, and the pairs are the same as long as each lookup
of one half reads the key pair of the other halves delivered before. -/
theorem identity_matched_iff (id : String) (files : ConfigFiles) {calls : List LookupCall}
    (hfresh : Along (step id) Fresh ⟨files, []⟩ calls) :
    (run (step id) ⟨files, []⟩ calls).Taken id ∧
      ((∀ bs, bs <+: calls → (run (step id) ⟨files, []⟩ bs).Matched) ↔
        Along (step id) Rereads ⟨files, []⟩ calls) := by
  have hinit : Matched ⟨files, []⟩ := by
    intro a ha
    cases ha
  refine ⟨taken_run id files calls, ?_⟩
  exact prefixes_iff_along_of_step_iff Matched (fun s call hf h => matched_step_iff hf h) hinit
    hfresh

/-- The file system does not fail a lookup: the keys file is read and written, and what is
generated is of the node's kind. -/
def Reliable (call : LookupCall) : Prop :=
  call.answer.keys.readable = true ∧ call.answer.keys.write = .done ∧
    ∀ pair, call.answer.keys.generated = some pair → pair.kind = Address.vld0

/-- The keys file holds the key pair of every half delivered. -/
def Stored (s : StartUp) : Prop :=
  ∀ e ∈ s.served, ∃ bytes, s.files.keys = some bytes ∧ heldPair bytes = some e.pair

omit [CryptoKindCodec] in
/-- A lookup of a half that is answered leaves its key pair in the keys file. -/
theorem held_of_reliable [LawfulKeyPairCodec] {answer : KeyFileAnswer} {file : Option Bytes}
    {pair : TypedKeyPair} (hwrite : answer.write = .done)
    (hkind : ∀ pair, answer.generated = some pair → pair.kind = Address.vld0)
    (h : (manageKeypair answer file).1 = .ok (some pair)) :
    ∃ bytes, (manageKeypair answer file).2 = some bytes ∧ heldPair bytes = some pair := by
  obtain ⟨_, hsome, hreturned⟩ := manageKeypair_ok_iff.mp h
  cases hsome
  rcases hreturned with hr | ⟨hr, hg⟩
  · obtain ⟨-, bytes, hbytes, hheld⟩ := readPair_eq_some.mp hr
    rw [manageKeypair_of_read hr]
    exact ⟨bytes, hbytes, hheld⟩
  · rw [manageKeypair_of_generate hr hg, writePair, hwrite]
    exact ⟨storedPair pair, rfl, heldPair_storedPair (hkind pair hg)⟩

/-- What the keys file is after a lookup: what `manage_keypair` leaves, if the lookup gets to
it, and what it was otherwise. -/
theorem keys_after (id : String) (s : StartUp) (call : LookupCall) :
    (step id s call).files.keys = s.files.keys ∨
      ∃ half, halfOf call.key = some half ∧ half.key.Reaches call.answer s.files ∧
        (step id s call).files.keys = (manageKeypair call.answer.keys s.files.keys).2 := by
  cases hhalf : halfOf call.key with
  | none => exact .inl (keys_of_halfOf_none hhalf)
  | some half =>
    have hkey : call.key = half.key.key := halfOf_eq_some hhalf
    by_cases hreach : half.key.Reaches call.answer s.files
    · have hkeys := (DerivedKey.lookupConfig_of_reaches id hreach).2
      refine .inr ⟨half, rfl, hreach, ?_⟩
      rw [step, hkey, hkeys, derivedValue_half]
    · have hkeys := (DerivedKey.lookupConfig_of_not_reaches id hreach).2
      refine .inl ?_
      rw [step, hkey, hkeys]

theorem stored_step [LawfulKeyPairCodec] {id : String} {s : StartUp} {call : LookupCall}
    (hcall : Reliable call) (h : s.Stored) : (step id s call).Stored := by
  obtain ⟨hread, hwrite, hkind⟩ := hcall
  -- a half delivered before is read again, so the file stays
  have hold : ∀ e ∈ s.served, (step id s call).files.keys = s.files.keys := by
    intro e he
    rcases keys_after id s call with hsame | ⟨-, -, -, hkeys⟩
    · exact hsame
    · obtain ⟨bytes, hbytes, hheld⟩ := h e he
      rw [hkeys, manageKeypair_of_read (readPair_eq_some.mpr ⟨hread, bytes, hbytes, hheld⟩)]
  intro e he
  rcases List.mem_append.mp he with he | he
  · rw [hold e he]
    exact h e he
  · rcases serve_cases id s call with ⟨hnil, -⟩ | ⟨half, pair, hhalf, hreach, hpair, hserve⟩
    · rw [hnil] at he
      cases he
    · rw [hserve, List.mem_singleton] at he
      have hkeys := (DerivedKey.lookupConfig_of_reaches id hreach).2
      rw [derivedValue_half] at hkeys
      rw [he, step, halfOf_eq_some hhalf, hkeys]
      exact held_of_reliable hwrite hkind hpair

/-- **Where the file system does not fail, the halves match.** -/
theorem matched_of_reliable [LawfulKeyPairCodec] (id : String) (files : ConfigFiles)
    {calls : List LookupCall} (hcalls : ∀ call ∈ calls, Reliable call) :
    (run (step id) ⟨files, []⟩ calls).Matched := by
  have hstep : ∀ s call, Reliable call → Stored s → (step id s call).Stored :=
    fun s call hc h => stored_step hc h
  have hinit : Stored ⟨files, []⟩ := by
    intro e he
    cases he
  have hstored := invariant_along hstep hinit (along_const.mpr hcalls)
  intro a ha b hb _ _
  obtain ⟨bytes, hbytes, hheld⟩ := hstored a ha
  obtain ⟨bytes', hbytes', hheld'⟩ := hstored b hb
  rw [hbytes] at hbytes'
  cases hbytes'
  rw [hheld] at hheld'
  exact Option.some.inj hheld'

end
end StartUp

/-! ## On the sample platform -/

namespace Sample

/-- A lookup of a half, which writes the keys file or fails to. -/
def lookupOf (half : Half) (b : UInt8) (written : Bool) : LookupCall where
  key := half.key.key
  answer :=
    { smooth (pairOf b) with
      keys := ⟨true, some (pairOf b), if written then .done else .failed none⟩ }

/-- The files of a node with empty settings tables and no keys. -/
def newNode : ConfigFiles := filesOf (nested "network" "routing_table" [])

end Sample

open Sample

/-- The first lookup of a new node, of its id. -/
theorem Sample.step_newNode (written : Bool) :
    StartUp.step "id" ⟨newNode, []⟩ (lookupOf .publicKey 1 written) =
      ⟨⟨newNode.settings, if written then some (storedPair (pairOf 1)) else none⟩,
        [⟨.publicKey, publicGroup (pairOf 1).value, pairOf 1⟩]⟩ := by
  cases written <;> rfl

/-- The second key pair is another one. -/
theorem Sample.fresh_newNode (written : Bool) :
    Along (StartUp.step "id") StartUp.Fresh ⟨newNode, []⟩
      [lookupOf .publicKey 1 written, lookupOf .secret 2 true] := by
  refine ⟨fun pair _ e he => ?_, ?_, trivial⟩
  · cases he
  · rw [step_newNode]
    intro pair hpair e he
    cases hpair
    rw [List.mem_singleton.mp he]
    decide

/-- Two lookups of a new node. -/
theorem StartUp.identity_matched_sample :
    (run (StartUp.step "id") ⟨newNode, []⟩
      [lookupOf .publicKey 1 true, lookupOf .secret 2 true]).Matched := by
  refine (StartUp.identity_matched_iff "id" newNode (fresh_newNode true)).2.mpr ?_ _
    (List.prefix_refl _)
  refine ⟨fun half _ _ e he => ?_, ?_, trivial⟩
  · cases he
  · rw [step_newNode]
    intro half _ _ e he _
    rw [List.mem_singleton.mp he]
    exact .inl (readPair_eq_some.mpr ⟨rfl, _, rfl, heldPair_storedPair rfl⟩)

/-- The first lookup fails to write the key pair it delivers, and the second delivers another. -/
theorem StartUp.identity_mismatched :
    let calls := [lookupOf .publicKey 1 false, lookupOf .secret 2 true]
    let after := run (StartUp.step "id") ⟨newNode, []⟩ calls
    Along (StartUp.step "id") StartUp.Fresh ⟨newNode, []⟩ calls ∧
      after.served.map Served.value =
        [publicGroup (pairOf 1).value, secretGroup (pairOf 2).value] ∧ ¬ after.Matched := by
  intro calls after
  have hserved : after.served = [⟨.publicKey, publicGroup (pairOf 1).value, pairOf 1⟩,
      ⟨.secret, secretGroup (pairOf 2).value, pairOf 2⟩] := by rfl
  refine ⟨fresh_newNode false, by rw [hserved]; rfl, fun h => ?_⟩
  have hpair : pairOf 1 = pairOf 2 :=
    h _ (hserved ▸ List.mem_cons_self) _ (hserved ▸ List.mem_cons_of_mem _ List.mem_cons_self)
      rfl rfl
  exact absurd hpair (by decide)

end VeilidTransport
