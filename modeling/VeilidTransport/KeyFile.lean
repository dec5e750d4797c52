import VeilidTransport.Address
import VeilidTransport.Sample
import VeilidTransport.Foundation.Panics
import VeilidTransport.Foundation.Runs
import VeilidTransport.Foundation.Utf8
import Mathlib.Data.List.DropRight

/-!
# The keys file

`manage_keypair` keeps the node's key pair in a file.  It reads the file, if there is one,
and where no key pair comes of that it generates one and writes it: whether there was no
file, the file could not be read, or what it held is not a key pair.  A call returns a key
pair or panics.

The file is its bytes; what the file system and `generate_keypair` answer is a
`KeyFileAnswer`.  How `veilid_core` writes a key pair as text is the parameter
`KeyPairCodec`.
-/

namespace VeilidTransport

open Runs

/-- A key pair together with the kind of its cryptosystem. -/
structure TypedKeyPair where
  kind : List Char
  value : KeyPair
  deriving DecidableEq

/-- `White_Space` of Unicode. -/
def isWhitespace (c : Char) : Bool :=
  (9 ≤ c.toNat && c.toNat ≤ 13) || c.toNat == 0x20 || c.toNat == 0x85 || c.toNat == 0xA0 ||
  c.toNat == 0x1680 || (0x2000 ≤ c.toNat && c.toNat ≤ 0x200A) || c.toNat == 0x2028 ||
  c.toNat == 0x2029 || c.toNat == 0x202F || c.toNat == 0x205F || c.toNat == 0x3000

/-- The text without the white space around it. -/
def trim (text : List Char) : List Char := (text.dropWhile isWhitespace).rdropWhile isWhitespace

/-- The text form of a key pair (`to_string` and `parse`). -/
class KeyPairCodec where
  toText : TypedKeyPair → List Char
  parse : List Char → Option TypedKeyPair

/-- Reading a key pair of the kind the node uses inverts writing it, and its text has no
white space. -/
class LawfulKeyPairCodec [KeyPairCodec] : Prop where
  parse_toText : ∀ pair : TypedKeyPair, pair.kind = Address.vld0 →
    KeyPairCodec.parse (KeyPairCodec.toText pair) = some pair
  plain_toText : ∀ pair : TypedKeyPair, pair.kind = Address.vld0 →
    ∀ c ∈ KeyPairCodec.toText pair, isWhitespace c = false

/-- How writing a file ends; a failed write leaves some content, or no file. -/
inductive Write where
  | done
  | failed (left : Option Bytes)
  deriving DecidableEq

/-- What one call meets: whether the keys file is found and read, if there is one, the key
pair `generate_keypair` returns, if any, and how the write ends. -/
structure KeyFileAnswer where
  readable : Bool
  generated : Option TypedKeyPair
  write : Write

theorem trim_of_plain {text : List Char} (h : ∀ c ∈ text, isWhitespace c = false) :
    trim text = text := by
  have hleft : text.dropWhile isWhitespace = text := by
    cases text with
    | nil => rfl
    | cons c text =>
      have hc : isWhitespace c = false := h c List.mem_cons_self
      exact List.dropWhile_cons_of_neg (by rw [hc]; exact Bool.false_ne_true)
  rw [trim, hleft, List.rdropWhile_eq_self_iff]
  intro hne
  rw [h _ (List.getLast_mem hne)]
  exact Bool.false_ne_true

section
variable [KeyPairCodec]

/-- The bytes a key pair is stored as. -/
def storedPair (pair : TypedKeyPair) : Bytes := Utf8.encode (KeyPairCodec.toText pair)

/-- The key pair some bytes hold. -/
def heldPair (bytes : Bytes) : Option TypedKeyPair :=
  (Utf8.decode bytes).bind fun text => KeyPairCodec.parse (trim text)

/-- The existing key pair, if the file is there, is read, and can be parsed. -/
def readPair (answer : KeyFileAnswer) (file : Option Bytes) : Option TypedKeyPair :=
  if answer.readable then file.bind heldPair else none

/-- The file after `fs::write`. -/
def writePair (answer : KeyFileAnswer) (pair : TypedKeyPair) : Option Bytes :=
  match answer.write with
  | .done => some (storedPair pair)
  | .failed left => left

def manageKeypair (answer : KeyFileAnswer) (file : Option Bytes) :
    Except Panic (Option TypedKeyPair) × Option Bytes :=
  match readPair answer file with
  | some pair => (.ok (some pair), file)
  | none =>
    -- generate a new key pair if none exists
    match answer.generated with
    | some pair => (.ok (some pair), writePair answer pair)
    | none => (.error .explicit, file)

/-- **What is stored is read back.** -/
theorem heldPair_storedPair [LawfulKeyPairCodec] {pair : TypedKeyPair}
    (h : pair.kind = Address.vld0) : heldPair (storedPair pair) = some pair := by
  rw [heldPair, storedPair, Utf8.decode_encode, Option.bind_some,
    trim_of_plain (LawfulKeyPairCodec.plain_toText pair h), LawfulKeyPairCodec.parse_toText pair h]

theorem readPair_eq_some {answer : KeyFileAnswer} {file : Option Bytes} {pair : TypedKeyPair} :
    readPair answer file = some pair ↔
      answer.readable = true ∧ ∃ bytes, file = some bytes ∧ heldPair bytes = some pair := by
  unfold readPair
  split
  · next h => simp [h, Option.bind_eq_some_iff]
  · next h => simp [h]

theorem manageKeypair_of_read {answer : KeyFileAnswer} {file : Option Bytes} {pair : TypedKeyPair}
    (h : readPair answer file = some pair) :
    manageKeypair answer file = (.ok (some pair), file) := by
  rw [manageKeypair, h]

theorem manageKeypair_of_generate {answer : KeyFileAnswer} {file : Option Bytes}
    {pair : TypedKeyPair} (h : readPair answer file = none) (hg : answer.generated = some pair) :
    manageKeypair answer file = (.ok (some pair), writePair answer pair) := by
  rw [manageKeypair, h, hg]

theorem manageKeypair_of_none {answer : KeyFileAnswer} {file : Option Bytes}
    (h : readPair answer file = none) (hg : answer.generated = none) :
    manageKeypair answer file = (.error .explicit, file) := by
  rw [manageKeypair, h, hg]

/-- **What a call returns**: the key pair it read, or else the one it generated. -/
theorem manageKeypair_ok_iff {answer : KeyFileAnswer} {file : Option Bytes}
    {result : Option TypedKeyPair} :
    (manageKeypair answer file).1 = .ok result ↔
      ∃ pair, result = some pair ∧
        (readPair answer file = some pair ∨
          readPair answer file = none ∧ answer.generated = some pair) := by
  cases hr : readPair answer file with
  | some pair =>
    rw [manageKeypair_of_read hr]
    simp [eq_comm]
  | none =>
    cases hg : answer.generated with
    | some pair =>
      rw [manageKeypair_of_generate hr hg]
      simp [eq_comm]
    | none =>
      rw [manageKeypair_of_none hr hg]
      simp

/-- A call panics where there is no key pair to read and none is generated. -/
theorem none_of_manageKeypair_error {answer : KeyFileAnswer} {file : Option Bytes} {p : Panic}
    (h : (manageKeypair answer file).1 = .error p) :
    readPair answer file = none ∧ answer.generated = none := by
  cases hr : readPair answer file with
  | some pair =>
    rw [manageKeypair_of_read hr] at h
    cases h
  | none =>
    cases hg : answer.generated with
    | some pair =>
      rw [manageKeypair_of_generate hr hg] at h
      cases h
    | none => exact ⟨rfl, rfl⟩

/-! ## The file over many calls -/

/-- The keys file, with what was there each time a key pair was written (history). -/
structure KeyFile where
  content : Option Bytes
  writes : List (Option Bytes × TypedKeyPair)

/-- The key pair a call writes, if it writes one. -/
def writtenPair (answer : KeyFileAnswer) (file : Option Bytes) : Option TypedKeyPair :=
  if readPair answer file = none ∧ answer.write = .done then answer.generated else none

/-- What is written is what the call returns, and it is in the file afterwards. -/
theorem manageKeypair_of_written {answer : KeyFileAnswer} {file : Option Bytes}
    {pair : TypedKeyPair} (h : writtenPair answer file = some pair) :
    manageKeypair answer file = (.ok (some pair), some (storedPair pair)) := by
  unfold writtenPair at h
  split at h
  · next hcond =>
    obtain ⟨hread, hwrite⟩ := hcond
    rw [manageKeypair_of_generate hread h, writePair, hwrite]
  · cases h

namespace KeyFile

/-- The file after one call of `manage_keypair`. -/
def step (f : KeyFile) (answer : KeyFileAnswer) : KeyFile where
  content := (manageKeypair answer f.content).2
  writes := f.writes ++ (writtenPair answer f.content).toList.map fun pair => (f.content, pair)

/-- The content is still the first one, and a key pair was written only without a file. -/
def Kept (bytes : Bytes) (f : KeyFile) : Prop :=
  f.content = some bytes ∧ ∀ w ∈ f.writes, w.1 = none

end KeyFile

/-- The call reads the key pair these bytes hold, generates none, or fails to write and
leaves the bytes there. -/
def KeyFileAnswer.Preserves (bytes : Bytes) (answer : KeyFileAnswer) : Prop :=
  (answer.readable = true ∧ (heldPair bytes).isSome) ∨ answer.generated = none ∨
    answer.write = .failed (some bytes)

namespace KeyFile

/-- **One call.** -/
theorem kept_step_iff {bytes : Bytes} {f : KeyFile} (h : f.Kept bytes) (answer : KeyFileAnswer) :
    (f.step answer).Kept bytes ↔ answer.Preserves bytes := by
  obtain ⟨hcontent, hwrites⟩ := h
  unfold Kept step writtenPair KeyFileAnswer.Preserves
  rw [hcontent]
  cases hr : readPair answer (some bytes) with
  | some pair =>
    rw [manageKeypair_of_read hr]
    obtain ⟨hread, b, hb, hpair⟩ := readPair_eq_some.mp hr
    cases hb
    simp only [reduceCtorEq, false_and, if_false, Option.toList_none, List.map_nil,
      List.append_nil, true_and, hread, hpair, Option.isSome_some, true_or, iff_true]
    exact hwrites
  | none =>
    have hnot : ¬ (answer.readable = true ∧ (heldPair bytes).isSome = true) := by
      rintro ⟨hread, hheld⟩
      obtain ⟨pair, hpair⟩ := Option.isSome_iff_exists.mp hheld
      have := readPair_eq_some.mpr ⟨hread, bytes, rfl, hpair⟩
      rw [hr] at this
      cases this
    cases hg : answer.generated with
    | none =>
      rw [manageKeypair_of_none hr hg]
      simpa using hwrites
    | some pair =>
      rw [manageKeypair_of_generate hr hg, writePair]
      cases hw : answer.write with
      | done =>
        simp only [hnot, and_self, if_true, Option.toList_some, List.map_cons, List.map_nil,
          reduceCtorEq, or_self, iff_false, not_and]
        intro _ hall
        exact Option.some_ne_none _ (hall _ (List.mem_append_right _ (List.mem_singleton_self _)))
      | failed left =>
        simp only [hnot, reduceCtorEq, and_false, if_false, Option.toList_none, List.map_nil,
          List.append_nil, false_or, Write.failed.injEq]
        exact ⟨fun h => h.1, fun h => ⟨h, hwrites⟩⟩

/-- **A stored identity is kept as long as every call can keep it**: the content of an
existing keys file stays, over any number of calls, exactly if each call reads the key pair
it holds, or generates none, or fails to write and leaves it there. -/
theorem stored_identity_kept_iff (bytes : Bytes) (answers : List KeyFileAnswer) :
    (∀ bs, bs <+: answers → (run step ⟨some bytes, []⟩ bs).Kept bytes) ↔
      ∀ answer ∈ answers, answer.Preserves bytes := by
  have hinit : (⟨some bytes, []⟩ : KeyFile).Kept bytes := ⟨rfl, by simp⟩
  have hruns := prefixes_iff_along_of_step_iff (Kept bytes)
    (fun f answer _ h => kept_step_iff h answer) hinit (along_true _ answers)
  exact hruns.trans along_const

end KeyFile
end

/-! ## A key pair on the sample platform -/

namespace Sample

scoped instance : KeyPairCodec where
  toText pair :=
    pair.kind ++ ':' :: (Base64Url.encode pair.value.key.1 ++
      ':' :: Base64Url.encode pair.value.secret.1)
  parse text :=
    match text.splitOn ':' with
    | [kind, key, secret] => do
      let key ← KeyCodec.tryFrom key
      let secret ← KeyCodec.tryFrom secret
      if kind.length = 4 then some ⟨kind, ⟨key, secret⟩⟩ else none
    | _ => none

scoped instance : LawfulKeyPairCodec where
  parse_toText pair h := by
    have hkind : ∀ c ∈ Address.vld0, (c == ':') = false := by simp [Address.vld0]
    simp only [KeyPairCodec.parse, KeyPairCodec.toText, h]
    rw [List.splitOn_eq_splitOnP, List.splitOnP_append_cons _ _ (by simp),
      List.splitOnP_eq_singleton hkind, ← List.splitOn_eq_splitOnP,
      Address.splitOn_colon (Base64Url.colon_notMem_encode _) (Base64Url.colon_notMem_encode _)]
    have hkey := LawfulKeyCodec.tryFrom_encode pair.value.key
    have hsecret := LawfulKeyCodec.tryFrom_encode pair.value.secret
    simp only [KeyCodec.encode] at hkey hsecret
    simp only [List.singleton_append, hkey, hsecret, Option.bind_eq_bind, Option.bind_some]
    exact congrArg some (by rw [← h])
  plain_toText pair h c hc := by
    have hplain : ∀ n : Fin 64, isWhitespace (Base64Url.char n) = false := by decide
    have hencode : ∀ bs, c ∈ Base64Url.encode bs → isWhitespace c = false := by
      intro bs hmem
      obtain ⟨n, hn, rfl⟩ := Base64Url.mem_encode hmem
      exact hplain ⟨n, hn⟩
    simp only [KeyPairCodec.toText, h, List.mem_append, List.mem_cons] at hc
    rcases hc with hc | rfl | hc | rfl | hc
    · have hkind : ∀ c ∈ Address.vld0, isWhitespace c = false := by
        simp [Address.vld0, isWhitespace]
      exact hkind c hc
    · rfl
    · exact hencode _ hc
    · rfl
    · exact hencode _ hc

/-- The key pair whose halves are one repeated byte each. -/
def pairOf (b : UInt8) : TypedKeyPair := ⟨Address.vld0, ⟨keyOf b, keyOf b⟩⟩

end Sample

open Sample in
/-- A key pair is stored, reading it fails once, and a new one is written over it. -/
theorem KeyFile.stored_identity_overwritten :
    let file : KeyFile := ⟨some (storedPair (pairOf 1)), []⟩
    let after := file.step ⟨false, some (pairOf 2), .done⟩
    heldPair (storedPair (pairOf 1)) = some (pairOf 1) ∧
      after.content = some (storedPair (pairOf 2)) ∧ after.content ≠ file.content ∧
      ¬ after.Kept (storedPair (pairOf 1)) := by
  have h1 : heldPair (storedPair (pairOf 1)) = some (pairOf 1) := heldPair_storedPair rfl
  have h2 : heldPair (storedPair (pairOf 2)) = some (pairOf 2) := heldPair_storedPair rfl
  have hne : some (storedPair (pairOf 2)) ≠ some (storedPair (pairOf 1)) := by
    intro h
    rw [Option.some.inj h, h1] at h2
    exact absurd (Option.some.inj h2) (by decide)
  exact ⟨h1, rfl, hne, fun h => hne h.1⟩

end VeilidTransport
