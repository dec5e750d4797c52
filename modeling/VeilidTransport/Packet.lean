import VeilidTransport.Pacing
import VeilidTransport.Receive
import VeilidTransport.Foundation.Protobuf
import VeilidTransport.Foundation.Utf8

/-!
# Packets

`Payload.encode` is a payload on the wire, as `prost` writes a message of `payload.proto`: a
field that has its default is left out.  `Payload.decode` reads it back
(`decode_encode`).

`send_messages` looks at the length of the data only, and leaves the other fields what
remains below Veilid's limit; `packet_fits` says that this is enough.  `packet_round_trip`
follows a packet from `encode_message` to `decode_message`, with the address of its sender,
which is printed as a `Multiaddr` and is the key of the map of streams on the other side.
-/

namespace VeilidTransport

/-! ## The wire format -/

namespace Payload

/-- The fields of `payload.proto`, in the order of their tags. -/
def fields (p : Payload) : List Protobuf.Field :=
  Protobuf.uint 1 p.receivedSeq ++ Protobuf.uint 2 p.msgSeq ++ Protobuf.uint 3 p.streamId ++
    Protobuf.bytes 4 p.signature ++ Protobuf.bytes 5 (Utf8.encode p.address) ++
    Protobuf.bytes 6 p.data

def encode (p : Payload) : Bytes := Protobuf.encode p.fields

/-- `merge_field`: a field replaces what was there, and an unknown one is skipped. -/
def mergeField (p : Payload) (f : Protobuf.Field) : Option Payload :=
  match f.number, f.value with
  | 1, .varint n => some { p with receivedSeq := n % 2 ^ 32 }
  | 2, .varint n => some { p with msgSeq := n % 2 ^ 32 }
  | 3, .varint n => some { p with streamId := n % 2 ^ 64 }
  | 4, .bytes signature => some { p with signature := signature }
  | 5, .bytes text => (Utf8.decode text).map fun address => { p with address := address }
  | 6, .bytes data => some { p with data := data }
  | number, _ => if 1 ≤ number ∧ number ≤ 6 then none else some p

/-- What `encode` writes, and unknown fields of the same two kinds.  The decoder of `prost` also
skips unknown fields of fixed width and groups, and refuses a field with number 0 and a number
that does not fit in 64 bits; no theorem rests on these, for `packet_round_trip` has the codec
as a parameter. -/
def decode (packet : Bytes) : Option Payload :=
  (Protobuf.decode packet).bind fun fs => fs.foldlM mergeField Payload.empty

/-- The numbers are in the range of their types. -/
structure InRange (p : Payload) : Prop where
  receivedSeq_lt : p.receivedSeq < 2 ^ 32
  msgSeq_lt : p.msgSeq < 2 ^ 32
  streamId_lt : p.streamId < 2 ^ 64

/-- An empty buffer is the payload of defaults. -/
theorem encode_empty : Payload.empty.encode = [] := rfl

/-- A number that is left out is the default that stands there already. -/
theorem foldlM_uint {number n : Nat} {q : Payload} (r : Nat → Payload)
    (hmerge : mergeField q ⟨number, .varint n⟩ = some (r n)) (hzero : r 0 = q) :
    (Protobuf.uint number n).foldlM mergeField q = some (r n) := by
  unfold Protobuf.uint
  split
  · next h => rw [h, hzero]; rfl
  · rw [List.foldlM_cons, hmerge]; rfl

theorem foldlM_bytes {number : Nat} {data : Bytes} {q r : Payload}
    (hmerge : mergeField q ⟨number, .bytes data⟩ = some r) (hnil : data = [] → r = q) :
    (Protobuf.bytes number data).foldlM mergeField q = some r := by
  unfold Protobuf.bytes
  split
  · next h => rw [hnil h]; rfl
  · rw [List.foldlM_cons, hmerge]; rfl

/-- **A payload is read back.** -/
theorem decode_encode {p : Payload} (h : p.InRange) : decode p.encode = some p := by
  obtain ⟨receivedSeq, msgSeq, streamId, signature, address, data⟩ := p
  have hreceived : receivedSeq % 2 ^ 32 = receivedSeq := Nat.mod_eq_of_lt h.receivedSeq_lt
  have hmsg : msgSeq % 2 ^ 32 = msgSeq := Nat.mod_eq_of_lt h.msgSeq_lt
  have hstream : streamId % 2 ^ 64 = streamId := Nat.mod_eq_of_lt h.streamId_lt
  -- the fields fill the payload one after the other
  have h1 : (Protobuf.uint 1 receivedSeq).foldlM mergeField Payload.empty =
      some ⟨receivedSeq, 0, 0, [], [], []⟩ :=
    foldlM_uint (fun n => ⟨n, 0, 0, [], [], []⟩) (by simp only [mergeField, hreceived]; rfl) rfl
  have h2 : (Protobuf.uint 2 msgSeq).foldlM mergeField ⟨receivedSeq, 0, 0, [], [], []⟩ =
      some ⟨receivedSeq, msgSeq, 0, [], [], []⟩ :=
    foldlM_uint (fun n => ⟨receivedSeq, n, 0, [], [], []⟩) (by simp only [mergeField, hmsg]) rfl
  have h3 : (Protobuf.uint 3 streamId).foldlM mergeField ⟨receivedSeq, msgSeq, 0, [], [], []⟩ =
      some ⟨receivedSeq, msgSeq, streamId, [], [], []⟩ :=
    foldlM_uint (fun n => ⟨receivedSeq, msgSeq, n, [], [], []⟩)
      (by simp only [mergeField, hstream]) rfl
  have h4 : (Protobuf.bytes 4 signature).foldlM mergeField
      ⟨receivedSeq, msgSeq, streamId, [], [], []⟩ =
        some ⟨receivedSeq, msgSeq, streamId, signature, [], []⟩ :=
    foldlM_bytes rfl (by rintro rfl; rfl)
  have h5 : (Protobuf.bytes 5 (Utf8.encode address)).foldlM mergeField
      ⟨receivedSeq, msgSeq, streamId, signature, [], []⟩ =
        some ⟨receivedSeq, msgSeq, streamId, signature, address, []⟩ := by
    refine foldlM_bytes (by simp only [mergeField, Utf8.decode_encode]; rfl) fun hnil => ?_
    have haddress := Utf8.decode_encode address
    rw [hnil] at haddress
    rw [← Option.some.inj haddress]
  have h6 : (Protobuf.bytes 6 data).foldlM mergeField
      ⟨receivedSeq, msgSeq, streamId, signature, address, []⟩ =
        some ⟨receivedSeq, msgSeq, streamId, signature, address, data⟩ :=
    foldlM_bytes rfl (by rintro rfl; rfl)
  rw [decode, encode, Protobuf.decode_encode, Option.bind_some, fields]
  simp only [List.foldlM_append, h1, h2, h3, h4, h5, h6, Option.bind_eq_bind, Option.bind_some]

/-- **How long a packet is**, with `k + 1` bytes for each of its lengths and numbers. -/
theorem length_encode_le {p : Payload} {k₁ k₂ k₃ k₄ k₅ k₆ : Nat}
    (h₁ : p.receivedSeq < 128 ^ (k₁ + 1)) (h₂ : p.msgSeq < 128 ^ (k₂ + 1))
    (h₃ : p.streamId < 128 ^ (k₃ + 1)) (h₄ : p.signature.length < 128 ^ (k₄ + 1))
    (h₅ : (Utf8.encode p.address).length < 128 ^ (k₅ + 1)) (h₆ : p.data.length < 128 ^ (k₆ + 1)) :
    p.encode.length ≤ k₁ + k₂ + k₃ + k₄ + k₅ + k₆ + 12 +
      (p.signature.length + (Utf8.encode p.address).length + p.data.length) := by
  have h1 : (Protobuf.encode (Protobuf.uint 1 p.receivedSeq)).length ≤ 1 + (k₁ + 1) :=
    Protobuf.length_uint_le (by omega) h₁
  have h2 : (Protobuf.encode (Protobuf.uint 2 p.msgSeq)).length ≤ 1 + (k₂ + 1) :=
    Protobuf.length_uint_le (by omega) h₂
  have h3 : (Protobuf.encode (Protobuf.uint 3 p.streamId)).length ≤ 1 + (k₃ + 1) :=
    Protobuf.length_uint_le (by omega) h₃
  have h4 : (Protobuf.encode (Protobuf.bytes 4 p.signature)).length ≤
      1 + (k₄ + 1) + p.signature.length := Protobuf.length_bytes_le (by omega) h₄
  have h5 : (Protobuf.encode (Protobuf.bytes 5 (Utf8.encode p.address))).length ≤
      1 + (k₅ + 1) + (Utf8.encode p.address).length := Protobuf.length_bytes_le (by omega) h₅
  have h6 : (Protobuf.encode (Protobuf.bytes 6 p.data)).length ≤
      1 + (k₆ + 1) + p.data.length := Protobuf.length_bytes_le (by omega) h₆
  simp only [encode, fields, Protobuf.encode_append, List.length_append]
  omega

end Payload

/-! ## Key texts -/

/-- A key is written in base64url: 43 characters of its alphabet for the 32 bytes. -/
class Base64KeyCodec [KeyCodec] : Prop extends LawfulKeyCodec where
  length_encode : ∀ k, (KeyCodec.encode k).length = 43
  alphabet : ∀ k, ∀ c ∈ KeyCodec.encode k, ∃ n < 64, c = Base64Url.char n

namespace Address
variable [KeyCodec] [Base64KeyCodec]

theorem toMultiaddr_ascii (a : Address) : ∀ c ∈ a.toMultiaddr, c.toNat < 128 := by
  have hkey : ∀ c ∈ KeyCodec.encode a.key.value, c.toNat < 128 := by
    intro c hc
    obtain ⟨n, hn, rfl⟩ := Base64KeyCodec.alphabet a.key.value c hc
    exact (Base64Url.char_plain hn).1
  have hhead : ∀ head : List Char, (∀ c ∈ head, c.toNat < 128) →
      ∀ c ∈ head ++ ':' :: KeyCodec.encode a.key.value, c.toNat < 128 := by
    intro head hh c hc
    rcases List.mem_append.mp hc with hc | hc
    · exact hh c hc
    · rcases List.mem_cons.mp hc with rfl | hc
      · decide
      · exact hkey c hc
  cases a with
  | safeAddress key keypair status => exact hhead safeHead (by simp [safeHead])
  | unsafeAddress key => exact hhead unsafeHead (by simp [unsafeHead])

/-- An address has 52 characters at most, and as many bytes. -/
theorem length_toMultiaddr_le (a : Address) : (Utf8.encode a.toMultiaddr).length ≤ 52 := by
  rw [Utf8.length_encode (toMultiaddr_ascii a)]
  cases a with
  | safeAddress key keypair status =>
    simp [toMultiaddr, safeHead, Base64KeyCodec.length_encode]
  | unsafeAddress key =>
    simp [toMultiaddr, unsafeHead, Base64KeyCodec.length_encode]

end Address

/-! ## Veilid's limit -/

/-- The call comes to the panic of `send_messages` next. -/
def SendCall.Panics : SendCall → Prop
  | send _ (message :: _) => settings.veilidNetworkMessageLimitBytes < message.data.length
  | _ => False

section
variable {PublicKey : Type} [KeyCodec] [Base64KeyCodec]

theorem length_encodeMessage_le {receivedSeq msgSeq streamId : Nat} {address : Address}
    {msgData : Bytes} {keypair : Keypair PublicKey} (hreceived : receivedSeq < 2 ^ 32)
    (hmsg : msgSeq < 2 ^ 32) (hstream : streamId < 2 ^ 35)
    (hsign : ∀ signature ∈ keypair.sign msgData, signature.length = 64)
    (hdata : msgData.length ≤ settings.transportStreamPacketDataSizeBytes) :
    (VeilidStream.encodeMessage receivedSeq msgSeq streamId address msgData
      keypair).encode.length ≤ settings.veilidNetworkMessageLimitBytes := by
  have hsize : settings.transportStreamPacketDataSizeBytes = 32623 := rfl
  unfold VeilidStream.encodeMessage
  split
  · next signature hs =>
    have hsig := hsign signature hs
    have haddress := address.length_toMultiaddr_le
    let p : Payload := ⟨receivedSeq, msgSeq, streamId, signature, address.toMultiaddr, msgData⟩
    have h₁ : p.receivedSeq < 128 ^ (4 + 1) := Nat.lt_trans hreceived (by decide)
    have h₂ : p.msgSeq < 128 ^ (4 + 1) := Nat.lt_trans hmsg (by decide)
    have h₃ : p.streamId < 128 ^ (4 + 1) := hstream
    have h₄ : p.signature.length < 128 ^ (0 + 1) := by
      show signature.length < _
      omega
    have h₅ : (Utf8.encode p.address).length < 128 ^ (0 + 1) :=
      Nat.lt_of_le_of_lt haddress (by decide)
    have h₆ : p.data.length < 128 ^ (2 + 1) := Nat.lt_of_le_of_lt hdata (by decide)
    calc
      p.encode.length ≤ 4 + 4 + 4 + 0 + 0 + 2 + 12 +
          (signature.length + (Utf8.encode address.toMultiaddr).length + msgData.length) :=
        Payload.length_encode_le h₁ h₂ h₃ h₄ h₅ h₆
      _ ≤ 26 + (64 + 52 + 32623) := by omega
      _ ≤ settings.veilidNetworkMessageLimitBytes := by decide
  · rw [Payload.encode_empty]
    exact Nat.zero_le _

/-- **Every data packet fits**, whatever calls overlap on the stream it is made by: a message
that was generated is sent in a packet below Veilid's limit, and no call comes to the panic. -/
theorem packet_fits (s : VeilidStream PublicKey) (now : Instant) (as : List SendTasks.Action) :
    let p := Runs.run SendTasks.step (SendTasks.start s now) as
    (∀ e ∈ p.shared.outbound.generated,
      ∀ (receivedSeq msgSeq streamId : Nat) (address : Address) (keypair : Keypair PublicKey),
      receivedSeq < 2 ^ 32 → msgSeq < 2 ^ 32 → streamId < 2 ^ 35 →
      (∀ signature ∈ keypair.sign e.2, signature.length = 64) →
      (VeilidStream.encodeMessage receivedSeq msgSeq streamId address e.2
        keypair).encode.length ≤ settings.veilidNetworkMessageLimitBytes) ∧
    ∀ t ∈ p.tasks, ¬ t.Panics := by
  intro p
  have h : SendTasks.Pacing p := SendTasks.run_pacing s now as
  obtain ⟨t, hacc⟩ := SendTasks.Guarded.accounted h.guarded
  constructor
  · intro e he receivedSeq msgSeq streamId address keypair hreceived hmsg hstream hsign
    exact length_encodeMessage_le hreceived hmsg hstream hsign (hacc.sized e he).2
  · intro t ht hpanic
    unfold SendCall.Panics at hpanic
    split at hpanic
    · next message messages =>
      exact absurd hpanic (Nat.not_lt.mpr (h.light _ ht message List.mem_cons_self))
    · exact hpanic

end

/-! ## Whole nodes -/

namespace Checked
variable {PublicKey : Type} [KeyCodec] [Identity PublicKey]

/-- **No call of `send_messages` panics** on a stream of a reachable node, right after
`generate_messages` as it is called everywhere. -/
theorem run_sends (localAddress : Option Address) (keypair : Keypair PublicKey) (now : Instant)
    (as : List Transport.Action) {s : VeilidStream PublicKey} (hs : s ∈ (Runs.run Transport.step
      (Transport.new localAddress keypair now) as).heap) (t : Instant) :
    sendMessages s.generateMessages t = .ok (s.generateMessages.sendMessages t) :=
  sendMessages_eq (sendable_of_consistent (run_consistent localAddress keypair now as s hs) t)

end Checked

/-! ## Addresses in packets -/

/-- A `Multiaddr` of libp2p, as far as it is read and printed. -/
class MultiaddrText (Multiaddr : Type) where
  parse : List Char → Option Multiaddr
  print : Multiaddr → List Char

/-- `/unix/`. -/
def unixHead : List Char := ['/', 'u', 'n', 'i', 'x', '/']

/-- One segment under `/unix/` is read, and printed again as it was. -/
class LawfulMultiaddrText (Multiaddr : Type) [MultiaddrText Multiaddr] : Prop where
  print_parse : ∀ segment : List Char, '/' ∉ segment →
    ∃ m : Multiaddr, MultiaddrText.parse (unixHead ++ segment) = some m ∧
      MultiaddrText.print m = unixHead ++ segment

namespace Address

/-- An address without the key pair and the status of its record. -/
def withoutSecrets : Address → Address
  | safeAddress key _ _ => safeAddress key Option.none .none
  | unsafeAddress key => unsafeAddress key

def isSafe : Address → Bool
  | safeAddress _ _ _ => true
  | unsafeAddress _ => false

/-- A parsed address is the original without its secrets, if that has the kind `VLD0`. -/
theorem asParsed_eq {a : Address} (ha : a.key.kind = vld0) : a.asParsed = a.withoutSecrets := by
  cases a with
  | safeAddress key keypair status =>
    have hkey : (⟨vld0, key.value⟩ : CryptoTyped) = key := by rw [← ha]; rfl
    rw [asParsed, withoutSecrets, hkey]
  | unsafeAddress key =>
    have hkey : (⟨vld0, key.value⟩ : CryptoTyped) = key := by rw [← ha]; rfl
    rw [asParsed, withoutSecrets, hkey]

section
variable {Multiaddr : Type} [MultiaddrText Multiaddr] [KeyCodec]

/-- `TryFrom<Multiaddr>`, which parses what the multiaddr prints. -/
def tryFromMultiaddr (m : Multiaddr) : Option Address := tryFrom (MultiaddrText.print m)

/-- **Two addresses print the same text** exactly when they have the same variant and key. -/
theorem toMultiaddr_eq_iff [LawfulKeyCodec] {a b : Address} :
    a.toMultiaddr = b.toMultiaddr ↔ a.isSafe = b.isSafe ∧ a.key.value = b.key.value := by
  constructor
  · intro h
    have hparsed : a.asParsed = b.asParsed := by
      have ha := tryFrom_toMultiaddr a
      rw [h, tryFrom_toMultiaddr] at ha
      exact (Option.some.inj ha).symm
    cases a <;> cases b <;> simp_all [asParsed, isSafe, key]
  · rintro ⟨hvariant, hkey⟩
    cases a <;> cases b <;> simp_all [toMultiaddr, isSafe, key]

/-- An address is one segment under `/unix/`. -/
theorem toMultiaddr_unix [Base64KeyCodec] (a : Address) :
    ∃ segment, '/' ∉ segment ∧ a.toMultiaddr = unixHead ++ segment := by
  have hkey : ∀ k : CryptoKey, '/' ∉ KeyCodec.encode k := by
    intro k hmem
    obtain ⟨n, hn, hc⟩ := Base64KeyCodec.alphabet k _ hmem
    exact (Base64Url.char_plain hn).2 hc.symm
  cases a with
  | safeAddress key keypair status =>
    exact ⟨'s' :: ':' :: KeyCodec.encode key.value, by simpa using hkey key.value, rfl⟩
  | unsafeAddress key =>
    exact ⟨'u' :: 's' :: ':' :: KeyCodec.encode key.value, by simpa using hkey key.value, rfl⟩

end

end Address

namespace Checked
variable {PublicKey : Type} [KeyCodec]

section
variable (Multiaddr : Type) [MultiaddrText Multiaddr]

/-- `to_multiaddr`; a text that is no multiaddr panics. -/
def toMultiaddr (a : Address) : Except Panic Multiaddr :=
  Panic.unwrap (MultiaddrText.parse a.toMultiaddr)

/-- `encode_message`; `encode` is `Payload::encode`. -/
def encodeMessage (encode : Payload → Bytes) (receivedSeq msgSeq streamId : Nat)
    (address : Address) (msgData : Bytes) (keypair : Keypair PublicKey) : Except Panic Bytes := do
  let multiaddr ← toMultiaddr Multiaddr address
  match keypair.sign msgData with
  | some signature => return encode {
      receivedSeq := receivedSeq
      msgSeq := msgSeq
      streamId := streamId
      signature := signature
      address := MultiaddrText.print multiaddr
      data := msgData }
  | none => return []

end

section
variable (Multiaddr : Type) [MultiaddrText Multiaddr] [LawfulMultiaddrText Multiaddr]
  [Base64KeyCodec]

/-- An address has a multiaddr, which prints its text. -/
theorem toMultiaddr_print (a : Address) :
    ∃ m : Multiaddr, toMultiaddr Multiaddr a = .ok m ∧ MultiaddrText.print m = a.toMultiaddr := by
  obtain ⟨segment, hslash, htext⟩ := a.toMultiaddr_unix
  obtain ⟨m, hparse, hprint⟩ : ∃ m : Multiaddr,
      MultiaddrText.parse (unixHead ++ segment) = some m ∧
        MultiaddrText.print m = unixHead ++ segment :=
    LawfulMultiaddrText.print_parse segment hslash
  refine ⟨m, ?_, ?_⟩
  · rw [toMultiaddr, htext, hparse]
    rfl
  · rw [hprint, htext]

/-- `encode_message` does not panic, and leaves what the model sends. -/
theorem encodeMessage_eq (encode : Payload → Bytes) (receivedSeq msgSeq streamId : Nat)
    (address : Address) (msgData : Bytes) (keypair : Keypair PublicKey) :
    encodeMessage Multiaddr encode receivedSeq msgSeq streamId address msgData keypair =
      .ok (if (keypair.sign msgData).isSome then
        encode (VeilidStream.encodeMessage receivedSeq msgSeq streamId address msgData keypair)
      else []) := by
  obtain ⟨m, hm, hprint⟩ := toMultiaddr_print Multiaddr address
  rw [encodeMessage, hm, Panic.ok_bind, VeilidStream.encodeMessage]
  cases keypair.sign msgData with
  | none => rfl
  | some signature =>
    simp only [hprint, Option.isSome_some, if_true]
    rfl

end
end Checked

namespace Transport
variable {PublicKey : Type}

/-- `dial` of a multiaddr; one that names no address is not supported. -/
def dialMultiaddr {Multiaddr : Type} [MultiaddrText Multiaddr] [KeyCodec]
    (n : Transport PublicKey) (addr : Multiaddr) : Transport PublicKey :=
  match Address.tryFromMultiaddr addr with
  | none => n
  | some remoteAddress => n.dial remoteAddress

/-- The stream just inserted is the one registered. -/
theorem registered_insertStream (n : Transport PublicKey) (remoteAddress : Address)
    (s : VeilidStream PublicKey) :
    (n.insertStream remoteAddress s).registered remoteAddress = some s := by
  rw [registered, insertStream, AList.lookup_insert, Option.bind_some,
    List.getElem?_concat_length]

variable [KeyCodec] [Identity PublicKey] [Base64KeyCodec]

/-- **A packet comes back as it was sent**, with the address of its sender as its peers know
it: what both parsers make of the printed multiaddr, what `dial` registers the stream under,
and the same for two addresses exactly when they have the same variant and key. -/
theorem packet_round_trip {Multiaddr : Type} [MultiaddrText Multiaddr]
    [LawfulMultiaddrText Multiaddr] (encode : Payload → Bytes) (decode : Bytes → Option Payload)
    (hprost : ∀ p : Payload, p.InRange → decode (encode p) = some p)
    (a : Address) (ha : a.key.kind = Address.vld0) :
    (∀ (receivedSeq msgSeq streamId : Nat) (data signature : Bytes) (keypair : Keypair PublicKey),
      receivedSeq < 2 ^ 32 → msgSeq < 2 ^ 32 → streamId < 2 ^ 64 →
      keypair.sign data = some signature →
      ∃ packet, Checked.encodeMessage Multiaddr encode receivedSeq msgSeq streamId a data keypair =
          .ok packet ∧
        Checked.decodeMessage decode packet =
          .ok (some ⟨receivedSeq, msgSeq, streamId, a.withoutSecrets, data, signature⟩)) ∧
    (∃ m : Multiaddr, Checked.toMultiaddr Multiaddr a = .ok m ∧
      Address.tryFromMultiaddr m = some a.withoutSecrets ∧
      Address.tryFrom (MultiaddrText.print m) = some a.withoutSecrets ∧
      ∀ n : Transport PublicKey, n.dialMultiaddr m = n.dial a.withoutSecrets) ∧
    (∀ b : Address, a.toMultiaddr = b.toMultiaddr ↔
      a.isSafe = b.isSafe ∧ a.key.value = b.key.value) ∧
    ∀ (n : Transport PublicKey) (localAddress : Address) (target : Target) (epochSecs : Nat),
      (n.resumeTask (.dial localAddress a.withoutSecrets) (some target) epochSecs).registered
          a.withoutSecrets =
        some (n.dialStream localAddress a.withoutSecrets target epochSecs) := by
  have hparse : Address.tryFrom a.toMultiaddr = some a.withoutSecrets := by
    rw [Address.tryFrom_toMultiaddr, Address.asParsed_eq ha]
  refine ⟨?_, ?_, fun b => Address.toMultiaddr_eq_iff, ?_⟩
  · intro receivedSeq msgSeq streamId data signature keypair hreceived hmsg hstream hsign
    have hencode := Checked.encodeMessage_eq Multiaddr encode receivedSeq msgSeq streamId a
      data keypair
    rw [VeilidStream.encodeMessage, hsign] at hencode
    refine ⟨_, hencode, Checked.decodeMessage_eq (hprost _ ⟨hreceived, hmsg, hstream⟩) ?_⟩
    simp only [VeilidStream.decodeMessage, hparse]
  · obtain ⟨m, hm, hprint⟩ := Checked.toMultiaddr_print Multiaddr a
    have hm' : Address.tryFromMultiaddr m = some a.withoutSecrets := by
      rw [Address.tryFromMultiaddr, hprint, hparse]
    refine ⟨m, hm, hm', by rw [hprint, hparse], fun n => ?_⟩
    rw [dialMultiaddr, hm']
  · intro n localAddress target epochSecs
    exact registered_insertStream n _ _

end Transport

/-! ## The platform's addresses -/

namespace Sample

scoped instance : Base64KeyCodec where
  length_encode k := by
    show (Base64Url.encode k.1).length = 43
    rw [Base64Url.length_encode, k.2]
  alphabet _ _ h := Base64Url.mem_encode h

/-- A multiaddr of one segment under `/unix/`. -/
structure UnixPath where
  segment : List Char

scoped instance : MultiaddrText UnixPath where
  parse text :=
    if text.take 6 = unixHead ∧ '/' ∉ text.drop 6 then some ⟨text.drop 6⟩ else none
  print m := unixHead ++ m.segment

scoped instance : LawfulMultiaddrText UnixPath where
  print_parse segment h := by
    have htake : (unixHead ++ segment).take 6 = unixHead := rfl
    have hdrop : (unixHead ++ segment).drop 6 = segment := rfl
    exact ⟨⟨segment⟩, by simp only [MultiaddrText.parse, htake, hdrop, h, not_false_eq_true,
      and_self, if_true], rfl⟩

/-- A safe address as the node knows it that has made it. -/
def safeAddressOf (b : UInt8) : Address :=
  .safeAddress ⟨Address.vld0, keyOf b⟩ (some ⟨keyOf b, keyOf (b + 1)⟩) (.active 7)

end Sample

open Sample

theorem packet_fits_sample :
    (VeilidStream.encodeMessage 0 1 10 (addressOf 1) [1, 0, 0, 0, 7]
      (keypairOf 1)).encode.length ≤ settings.veilidNetworkMessageLimitBytes :=
  (packet_fits ReceiveTasks.sampleStream 0 SendTasks.sampleRetries).1 (1, [1, 0, 0, 0, 7])
    (by decide) 0 1 10 (addressOf 1) (keypairOf 1) (by decide) (by decide) (by decide) (by decide)

theorem Transport.packet_round_trip_sample :
    ∃ packet, Checked.encodeMessage UnixPath Payload.encode 3 0 10 (safeAddressOf 1) [7]
        (keypairOf 1) = .ok packet ∧
      Checked.decodeMessage Payload.decode packet = .ok (some ⟨3, 0, 10,
        (safeAddressOf 1).withoutSecrets, [7], Sample.signature ⟨keyOf 1⟩ [7]⟩) :=
  (packet_round_trip Payload.encode Payload.decode (fun _ h => Payload.decode_encode h)
    (safeAddressOf 1) rfl).1 3 0 10 [7] _ (keypairOf 1) (by decide) (by decide) (by decide) rfl

end VeilidTransport
