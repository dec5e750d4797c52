import VeilidTransport.Stream
import VeilidTransport.Foundation.Base64Url

/-!
# A platform to run the model on

Keys, signatures and key texts that behave as the real ones do on what the model
asks of them: a public key's protobuf is its type and length before the 32 bytes,
a key's text is its base64, and a signature has 64 bytes and verifies under the
key that made it, on the data it was made for.  The witnesses of this development
run on it.
-/

namespace VeilidTransport.Sample

/-- A public key. -/
structure PublicKey where
  key : CryptoKey
  deriving DecidableEq

/-- The protobuf fields before the bytes of the key: its type and its length. -/
def protobufHead : Bytes := [0x08, 0x01, 0x12, 0x20]

/-- A signature of 64 bytes: the key, and a checksum of the data. -/
def signature (k : PublicKey) (data : Bytes) : Bytes :=
  k.key.1 ++ List.replicate 32 (data.foldl UInt8.add 0)

scoped instance : Identity PublicKey where
  encodeProtobuf k := protobufHead ++ k.key.1
  tryDecodeProtobuf b :=
    if b.take 4 = protobufHead then
      if h : (b.drop 4).length = 32 then some ⟨⟨b.drop 4, h⟩⟩ else none
    else none
  verify k data sig := sig = signature k data

scoped instance : LawfulIdentity PublicKey where
  tryDecodeProtobuf_encodeProtobuf k := by
    have hdrop : (protobufHead ++ k.key.1).drop 4 = k.key.1 := rfl
    have htake : (protobufHead ++ k.key.1).take 4 = protobufHead := rfl
    simp only [Identity.tryDecodeProtobuf, Identity.encodeProtobuf, hdrop, htake, if_true,
      k.key.2, dite_true]

scoped instance : KeyCodec where
  encode k := Base64Url.encode k.1
  tryFrom text :=
    match Base64Url.decode text with
    | some b => if h : b.length = 32 then some ⟨b, h⟩ else none
    | none => none

scoped instance : LawfulKeyCodec where
  tryFrom_encode k := by
    simp only [KeyCodec.tryFrom, KeyCodec.encode, Base64Url.decode_encode, k.2, dite_true]
  colon_notMem_encode k := Base64Url.colon_notMem_encode k.1

/-- The key pair of a public key. -/
def keypair (k : PublicKey) : Keypair PublicKey := ⟨k, fun data => some (signature k data)⟩

/-- A key pair's signatures verify under its public key. -/
theorem verify_sign (k : PublicKey) (data : Bytes) :
    ((keypair k).sign data).map (Identity.verify (keypair k).publicKey data) = some true := by
  simp [keypair, Identity.verify]

/-- A key of one repeated byte. -/
def keyOf (b : UInt8) : CryptoKey := ⟨List.replicate 32 b, List.length_replicate⟩

/-- A node's address as the node itself knows it. -/
def addressOf (b : UInt8) : Address := .unsafeAddress ⟨Address.vld0, keyOf b⟩

def keypairOf (b : UInt8) : Keypair PublicKey := keypair ⟨keyOf b⟩

end VeilidTransport.Sample
