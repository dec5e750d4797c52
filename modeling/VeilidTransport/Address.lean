import VeilidTransport.Basic
import Mathlib.Data.List.Basic

/-!
# Addresses

`Address` names a remote node by the key it is reached under: a DHT record whose
value is a private route (`safeAddress`), or a node id (`unsafeAddress`).

An address travels as text, `/unix/s:<key>` or `/unix/us:<key>`.  The text drops
everything but the variant and the key's bytes: what is read back always has the
key kind `VLD0`, no key pair and no DHT status (`tryFrom_toMultiaddr`).  So a
node's own `Address` and its peers' view of it differ, and `cmp`, which settles a
simultaneous dial, is evaluated by the two nodes on different pairs; `cmp_swap`
says that they still disagree in the right way.

How `veilid_core` writes a key as text is the parameter `KeyCodec`.
-/

namespace VeilidTransport

/-- The text form of a key (`Encodable::encode` and `try_from(&str)`). -/
class KeyCodec where
  encode : CryptoKey → List Char
  tryFrom : List Char → Option CryptoKey

/-- Reading a key inverts writing it, and the alphabet has no `':'`. -/
class LawfulKeyCodec [KeyCodec] : Prop where
  tryFrom_encode : ∀ k, KeyCodec.tryFrom (KeyCodec.encode k) = some k
  colon_notMem_encode : ∀ k, ':' ∉ KeyCodec.encode k

/-- A key together with the kind of its cryptosystem, a four-character code. -/
structure CryptoTyped where
  kind : List Char
  value : CryptoKey
  deriving DecidableEq

structure KeyPair where
  key : CryptoKey
  secret : CryptoKey
  deriving DecidableEq

inductive DHTStatus where
  | none
  | active (since : Nat)
  deriving DecidableEq

inductive Address where
  | safeAddress (key : CryptoTyped) (keypair : Option KeyPair) (status : DHTStatus)
  | unsafeAddress (key : CryptoTyped)
  deriving DecidableEq

namespace Address

/-- The key the address is built on. -/
def key : Address → CryptoTyped
  | safeAddress key _ _ => key
  | unsafeAddress key => key

/-- The kind every parsed address has. -/
def vld0 : List Char := ['V', 'L', 'D', '0']

/-- `/unix/s`, the head of a safe address. -/
def safeHead : List Char := ['/', 'u', 'n', 'i', 'x', '/', 's']

/-- `/unix/us`, the head of an unsafe address. -/
def unsafeHead : List Char := ['/', 'u', 'n', 'i', 'x', '/', 'u', 's']

variable [KeyCodec]

/-- The address as the text of its multiaddr. -/
def toMultiaddr : Address → List Char
  | safeAddress key _ _ => safeHead ++ ':' :: KeyCodec.encode key.value
  | unsafeAddress key => unsafeHead ++ ':' :: KeyCodec.encode key.value

/-- The address a text names, if it names one. -/
def tryFrom (text : List Char) : Option Address :=
  match text.splitOn ':' with
  | [head, encoded] =>
    if head = safeHead then
      (KeyCodec.tryFrom encoded).map fun k => safeAddress ⟨vld0, k⟩ Option.none .none
    else if head = unsafeHead then
      (KeyCodec.tryFrom encoded).map fun k => unsafeAddress ⟨vld0, k⟩
    else Option.none
  | _ => Option.none

/-- `key.to_string()`: the kind and the key, separated by a colon. -/
def keyString (a : Address) : List Char := a.key.kind ++ ':' :: KeyCodec.encode a.key.value

/-- The order that decides which side of a simultaneous dial listens. -/
def cmp (a b : Address) : Ordering := compare a.keyString b.keyString

/-- What a peer reads back from the text of an address. -/
def asParsed : Address → Address
  | safeAddress key _ _ => safeAddress ⟨vld0, key.value⟩ Option.none .none
  | unsafeAddress key => unsafeAddress ⟨vld0, key.value⟩

omit [KeyCodec] in
/-- Text with one colon splits into the two parts around it. -/
theorem splitOn_colon {x y : List Char} (hx : ':' ∉ x) (hy : ':' ∉ y) :
    (x ++ ':' :: y).splitOn ':' = [x, y] := by
  have hne : ∀ l : List Char, ':' ∉ l → ∀ c ∈ l, (c == ':') = false := by
    intro l hl c hc
    rw [beq_eq_false_iff_ne]
    rintro rfl
    exact hl hc
  rw [List.splitOn_eq_splitOnP, List.splitOnP_append_cons _ _ (by simp),
    List.splitOnP_eq_singleton (hne x hx), List.splitOnP_eq_singleton (hne y hy)]
  rfl

/-- **The printed address is read back**, with what the text does not carry reset. -/
theorem tryFrom_toMultiaddr [LawfulKeyCodec] (a : Address) :
    tryFrom a.toMultiaddr = some a.asParsed := by
  cases a with
  | safeAddress k kp st =>
    rw [tryFrom, toMultiaddr, splitOn_colon (by decide) (LawfulKeyCodec.colon_notMem_encode _)]
    simp only [if_true, LawfulKeyCodec.tryFrom_encode, Option.map_some, asParsed]
  | unsafeAddress k =>
    rw [tryFrom, toMultiaddr, splitOn_colon (by decide) (LawfulKeyCodec.colon_notMem_encode _)]
    simp only [LawfulKeyCodec.tryFrom_encode, Option.map_some, asParsed]
    rfl

/-- A parsed address prints its key as the original does, if that has the kind `VLD0`. -/
theorem keyString_asParsed {a : Address} (ha : a.key.kind = vld0) :
    a.asParsed.keyString = a.keyString := by
  cases a <;> simp_all [asParsed, keyString, key]

/-- **The two sides of a simultaneous dial order themselves oppositely**, although each
compares its own address with the parsed address of the other. -/
theorem cmp_swap {a b : Address} (ha : a.key.kind = vld0) (hb : b.key.kind = vld0) :
    cmp a.asParsed b = (cmp b.asParsed a).swap := by
  rw [cmp, cmp, keyString_asParsed ha, keyString_asParsed hb]
  exact Std.OrientedCmp.eq_swap

end Address
end VeilidTransport
