import Mathlib.Algebra.Order.Ring.Nat
import Mathlib.Data.List.Basic

/-!
# The words the model is written in

Bytes, the clock, 32-bit sequence numbers, the settings of `lib.rs`, and what the
code takes from outside the repository: the public keys and signatures of libp2p
(`Identity`, `Keypair`) and the routing targets of `veilid_core` (`Target`).

A `u32` is a natural number; `addU32` is the one operation that can leave the
range, and it wraps, as `fetch_add` does and as `+` does in a release build.
-/

namespace VeilidTransport

abbrev Bytes := List UInt8

/-- A reading of the clock, in nanoseconds. -/
abbrev Instant := Nat

/-- `n` seconds as nanoseconds. -/
def secs (n : Nat) : Nat := n * 10 ^ 9

/-- `a + b` on `u32`. -/
def addU32 (a b : Nat) : Nat := (a + b) % 2 ^ 32

theorem addU32_of_lt {a b : Nat} (h : a + b < 2 ^ 32) : addU32 a b = a + b := Nat.mod_eq_of_lt h

/-- What is found in a list after one more entry at its end. -/
theorem getElem?_concat_cases {α : Type} {l : List α} {a b : α} {i : Nat}
    (h : (l ++ [a])[i]? = some b) : l[i]? = some b ∨ i = l.length ∧ b = a := by
  rw [List.getElem?_append] at h
  split at h
  · exact .inl h
  · next hi =>
    rw [List.getElem?_singleton] at h
    split at h
    · next h0 => exact .inr ⟨by omega, (Option.some.inj h).symm⟩
    · cases h

/-! ## Settings -/

structure Settings where
  veilidNetworkMessageLimitBytes : Nat
  transportStreamPacketDataSizeBytes : Nat
  connectionKeepaliveTimeout : Nat
  messageRetryTimeout : Nat
  streamTimeoutSecs : Nat
  heartbeatSecs : Nat

def settings : Settings where
  veilidNetworkMessageLimitBytes := 32768
  transportStreamPacketDataSizeBytes := 32623
  messageRetryTimeout := 5
  connectionKeepaliveTimeout := 5
  streamTimeoutSecs := 20
  heartbeatSecs := 5

/-! ## Keys and targets -/

/-- A 32-byte key of `veilid_core`. -/
abbrev CryptoKey := { b : Bytes // b.length = 32 }

/-- Where a message is sent to: a node, or the private route that hides it. -/
inductive Target where
  | nodeId (key : CryptoKey)
  | privateRoute (key : CryptoKey)
  deriving DecidableEq

/-- The public keys of libp2p: their protobuf form and signature check. -/
class Identity (PublicKey : Type) where
  encodeProtobuf : PublicKey → Bytes
  tryDecodeProtobuf : Bytes → Option PublicKey
  verify : PublicKey → Bytes → Bytes → Bool

/-- Decoding a public key inverts encoding it. -/
class LawfulIdentity (PublicKey : Type) [Identity PublicKey] : Prop where
  tryDecodeProtobuf_encodeProtobuf : ∀ k : PublicKey,
    Identity.tryDecodeProtobuf (Identity.encodeProtobuf k) = some k

/-- A node's key pair: the public half, and signing, which may fail. -/
structure Keypair (PublicKey : Type) where
  publicKey : PublicKey
  sign : Bytes → Option Bytes

end VeilidTransport
