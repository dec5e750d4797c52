import VeilidTransport.KeyFile
import VeilidTransport.Foundation.Toml

/-!
# The settings

`lookup_config` answers `veilid_core` when it asks for its configuration.  It reads the
settings file, which it first writes from the defaults where there is none, follows the
dotted key through the document, and converts what it finds to the type the table of keys
has for it (`convertValue`).  Five keys are not in the table: where the document has nothing
under one of them, the value is derived, and two of those come from the keys file
(`derivedValue`).

The settings file is what its text parses to, a document or the parser's complaint.  The end
of the node's peer id, after which its directory is named, and the four-character codes of
`veilid_core` are parameters.
-/

namespace VeilidTransport

open Toml (Value)

/-! ## Tables -/

inductive ValueType where
  | str
  | bool
  | optString
  | u32
  | u8
  | optU32
  | vecString
  | vecFourCC
  deriving DecidableEq

/-- `CONFIG_TABLE`. -/
def configTable : List (String × ValueType) :=
  [ ("program_name", .str),
    ("namespace", .str),
    ("logging.api.enabled", .bool),
    ("logging.api.level", .str),
    ("capabilities.disable", .vecFourCC),
    ("block_store.delete", .bool),
    ("protected_store.allow_insecure_fallback", .bool),
    ("protected_store.always_use_insecure_storage", .bool),
    ("protected_store.delete", .bool),
    ("protected_store.device_encryption_key_password", .str),
    ("protected_store.new_device_encryption_key_password", .optString),
    ("table_store.delete", .bool),
    ("network.application.http.enabled", .bool),
    ("network.application.http.listen_address", .str),
    ("network.application.http.path", .str),
    ("network.application.http.url", .optString),
    ("network.application.https.enabled", .bool),
    ("network.application.https.listen_address", .str),
    ("network.application.https.path", .str),
    ("network.application.https.url", .optString),
    ("network.client_whitelist_timeout_ms", .u32),
    ("network.client_allowlist_timeout_ms", .u32),
    ("network.connection_initial_timeout_ms", .u32),
    ("network.connection_inactivity_timeout_ms", .u32),
    ("network.detect_address_changes", .bool),
    ("network.dht.max_find_node_count", .u32),
    ("network.dht.resolve_node_timeout_ms", .u32),
    ("network.dht.resolve_node_count", .u32),
    ("network.dht.resolve_node_fanout", .u32),
    ("network.dht.get_value_timeout_ms", .u32),
    ("network.dht.get_value_count", .u32),
    ("network.dht.get_value_fanout", .u32),
    ("network.dht.set_value_timeout_ms", .u32),
    ("network.dht.set_value_count", .u32),
    ("network.dht.set_value_fanout", .u32),
    ("network.dht.member_watch_limit", .u32),
    ("network.dht.min_peer_count", .u32),
    ("network.dht.min_peer_refresh_time_ms", .u32),
    ("network.dht.max_watch_expiration_ms", .u32),
    ("network.dht.validate_dial_info_receipt_time_ms", .u32),
    ("network.dht.local_subkey_cache_size", .u32),
    ("network.dht.local_max_subkey_cache_memory_mb", .u32),
    ("network.dht.public_watch_limit", .u32),
    ("network.dht.remote_subkey_cache_size", .u32),
    ("network.dht.remote_max_records", .u32),
    ("network.dht.remote_max_subkey_cache_memory_mb", .u32),
    ("network.dht.remote_max_storage_space_mb", .u32),
    ("network.hole_punch_receipt_time_ms", .u32),
    ("network.max_connections_per_ip4", .u32),
    ("network.max_connections_per_ip6_prefix", .u32),
    ("network.max_connections_per_ip6_prefix_size", .u32),
    ("network.max_connection_frequency_per_min", .u32),
    ("network.network_key_password", .optString),
    ("network.protocol.tcp.connect", .bool),
    ("network.protocol.tcp.listen", .bool),
    ("network.protocol.tcp.max_connections", .u32),
    ("network.protocol.tcp.listen_address", .str),
    ("network.protocol.tcp.public_address", .optString),
    ("network.protocol.udp.enabled", .bool),
    ("network.protocol.udp.socket_pool_size", .u32),
    ("network.protocol.udp.listen_address", .str),
    ("network.protocol.udp.public_address", .optString),
    ("network.protocol.ws.connect", .bool),
    ("network.protocol.ws.listen", .bool),
    ("network.protocol.ws.listen_address", .str),
    ("network.protocol.ws.max_connections", .u32),
    ("network.protocol.ws.path", .str),
    ("network.protocol.ws.url", .optString),
    ("network.protocol.wss.connect", .bool),
    ("network.protocol.wss.listen", .bool),
    ("network.protocol.wss.listen_address", .str),
    ("network.protocol.wss.max_connections", .u32),
    ("network.protocol.wss.path", .str),
    ("network.protocol.wss.url", .optString),
    ("network.restricted_nat_retries", .u32),
    ("network.reverse_connection_receipt_time_ms", .u32),
    ("network.routing_table.bootstrap", .vecString),
    ("network.routing_table.limit_over_attached", .u32),
    ("network.routing_table.limit_fully_attached", .u32),
    ("network.routing_table.limit_attached_strong", .u32),
    ("network.routing_table.limit_attached_good", .u32),
    ("network.routing_table.limit_attached_weak", .u32),
    ("network.rpc.concurrency", .u32),
    ("network.rpc.default_route_hop_count", .u8),
    ("network.rpc.max_timestamp_behind_ms", .optU32),
    ("network.rpc.max_timestamp_ahead_ms", .optU32),
    ("network.rpc.max_route_hop_count", .u8),
    ("network.rpc.queue_size", .u32),
    ("network.rpc.timeout_ms", .u32),
    ("network.tls.certificate_path", .str),
    ("network.tls.connection_initial_timeout_ms", .u32),
    ("network.tls.private_key_path", .str),
    ("network.upnp", .bool) ]

/-- What `DEFAULT_SETTINGS` parses to. -/
def defaultSettings : Value :=
  .table [
    ("program_name", .string "app"),
    ("namespace", .string ""),
    ("logging", .table [
      ("api", .table [
        ("enabled", .boolean true),
        ("level", .string "trace")])]),
    ("capabilities", .table [
      ("disable", .array [])]),
    ("block_store", .table [
      ("delete", .boolean true)]),
    ("protected_store", .table [
      ("allow_insecure_fallback", .boolean true),
      ("always_use_insecure_storage", .boolean true),
      ("delete", .boolean true),
      ("device_encryption_key_password", .string ""),
      ("new_device_encryption_key_password", .string "")]),
    ("table_store", .table [
      ("delete", .boolean true)]),
    ("network", .table [
      ("application", .table [
        ("http", .table [
          ("enabled", .boolean false),
          ("listen_address", .string ""),
          ("path", .string "app"),
          ("url", .string "")]),
        ("https", .table [
          ("enabled", .boolean false),
          ("listen_address", .string ""),
          ("path", .string "app"),
          ("url", .string "")])]),
      ("client_whitelist_timeout_ms", .integer 300000),
      ("client_allowlist_timeout_ms", .integer 300000),
      ("connection_initial_timeout_ms", .integer 2000),
      ("connection_inactivity_timeout_ms", .integer 60000),
      ("detect_address_changes", .boolean true),
      ("dht", .table [
        ("max_find_node_count", .integer 20),
        ("resolve_node_timeout_ms", .integer 10000),
        ("resolve_node_count", .integer 1),
        ("resolve_node_fanout", .integer 4),
        ("get_value_timeout_ms", .integer 10000),
        ("get_value_count", .integer 3),
        ("get_value_fanout", .integer 4),
        ("set_value_timeout_ms", .integer 10000),
        ("set_value_count", .integer 5),
        ("set_value_fanout", .integer 4),
        ("member_watch_limit", .integer 8),
        ("min_peer_count", .integer 20),
        ("min_peer_refresh_time_ms", .integer 60000),
        ("max_watch_expiration_ms", .integer 600000),
        ("validate_dial_info_receipt_time_ms", .integer 2000),
        ("local_subkey_cache_size", .integer 128),
        ("local_max_subkey_cache_memory_mb", .integer 256),
        ("public_watch_limit", .integer 32),
        ("remote_subkey_cache_size", .integer 1024),
        ("remote_max_records", .integer 65536),
        ("remote_max_subkey_cache_memory_mb", .integer 64),
        ("remote_max_storage_space_mb", .integer 1000)]),
      ("hole_punch_receipt_time_ms", .integer 5000),
      ("max_connections_per_ip4", .integer 32),
      ("max_connections_per_ip6_prefix", .integer 32),
      ("max_connections_per_ip6_prefix_size", .integer 56),
      ("max_connection_frequency_per_min", .integer 128),
      ("network_key_password", .string ""),
      ("protocol", .table [
        ("tcp", .table [
          ("connect", .boolean true),
          ("listen", .boolean true),
          ("max_connections", .integer 32),
          ("listen_address", .string ""),
          ("public_address", .string "")]),
        ("udp", .table [
          ("enabled", .boolean true),
          ("socket_pool_size", .integer 0),
          ("listen_address", .string ""),
          ("public_address", .string "")]),
        ("ws", .table [
          ("connect", .boolean false),
          ("listen", .boolean false),
          ("listen_address", .string ""),
          ("max_connections", .integer 16),
          ("path", .string "ws"),
          ("url", .string "")]),
        ("wss", .table [
          ("connect", .boolean false),
          ("listen", .boolean false),
          ("max_connections", .integer 16),
          ("listen_address", .string ""),
          ("path", .string "ws"),
          ("url", .string "")])]),
      ("restricted_nat_retries", .integer 3),
      ("reverse_connection_receipt_time_ms", .integer 5000),
      ("routing_table", .table [
        ("bootstrap", .array [.string "bootstrap.veilid.net"]),
        ("limit_over_attached", .integer 64),
        ("limit_fully_attached", .integer 32),
        ("limit_attached_strong", .integer 16),
        ("limit_attached_good", .integer 8),
        ("limit_attached_weak", .integer 4)]),
      ("rpc", .table [
        ("concurrency", .integer 0),
        ("default_route_hop_count", .integer 1),
        ("max_timestamp_behind_ms", .integer 10000),
        ("max_timestamp_ahead_ms", .integer 10000),
        ("max_route_hop_count", .integer 4),
        ("queue_size", .integer 1024),
        ("timeout_ms", .integer 5000)]),
      ("tls", .table [
        ("certificate_path", .string "./.veilid/cert"),
        ("connection_initial_timeout_ms", .integer 2000),
        ("private_key_path", .string "./.veilid/key")]),
      ("upnp", .boolean false)])]

/-- The kind of a cryptosystem, a four-character code. -/
abbrev CryptoKind := List Char

/-- `CryptoKind::from_str`. -/
class CryptoKindCodec where
  fromStr : String → Option CryptoKind

/-- A value as `veilid_core` gets it, by its type. -/
inductive ConfigValue where
  | str (s : String)
  | bool (b : Bool)
  | optString (s : Option String)
  | u32 (n : Nat)
  | u8 (n : Nat)
  | optU32 (n : Option Nat)
  | vecString (ss : List String)
  | vecFourCC (kinds : List CryptoKind)
  | publicKeys (group : List CryptoTyped)
  | secretKeys (group : List CryptoTyped)
  deriving DecidableEq

/-! ## The settings file -/

/-- What a settings file parses to: a document, or the parser's complaint. -/
abbrev SettingsText := Except String Value

/-- What one call of `lookup_config` meets.  The fields `createDirAll`, `createFile` and
`writeAll` are the errors, where there are any; a failed `writeAll` leaves some text. -/
structure LookupAnswer where
  createDirAll : Option String
  /-- Whether a settings file that is there is found. -/
  found : Bool
  createFile : Option String
  writeAll : Option (String × SettingsText)
  readable : Bool
  keys : KeyFileAnswer

/-- The node's files. -/
structure ConfigFiles where
  settings : Option SettingsText
  keys : Option Bytes

/-- The settings file is there, or is written from the defaults. -/
def writeDefaults (answer : LookupAnswer) (settings : Option SettingsText) :
    Except String Unit × Option SettingsText :=
  if answer.found ∧ settings.isSome then (.ok (), settings)
  else
    match answer.createFile with
    | some e => (.error ("Failed to create settings file: " ++ e), settings)
    | none =>
      match answer.writeAll with
      | some (e, left) =>
        (.error ("Failed to write default settings to settings.toml: " ++ e), some left)
      | none => (.ok (), some (.ok defaultSettings))

def readSettings (answer : LookupAnswer) (settings : Option SettingsText) : Except String Value :=
  match answer.readable, settings with
  | true, some (.ok doc) => .ok doc
  | true, some (.error e) => .error ("Failed to parse toml: " ++ e)
  | _, _ => .error "Failed to read settings.toml"

/-- The document, and the settings file after it. -/
def openSettings (answer : LookupAnswer) (settings : Option SettingsText) :
    Except String Value × Option SettingsText :=
  match answer.createDirAll with
  | some e => (.error ("Failed to create directory: " ++ e), settings)
  | none =>
    match writeDefaults answer settings with
    | (.error e, settings) => (.error e, settings)
    | (.ok _, settings) => (readSettings answer settings, settings)

/-! ## One key -/

def keyNotFound (key : String) : String := "Config key '" ++ key ++ "' not found in TOML"

/-- The walk over the parts of a key.  It gives up at a part it comes to with nothing in its
hands; where the last part is missing it ends with nothing. -/
def walk (notFound : String) : Option Value → List String → Except String (Option Value)
  | current, [] => .ok current
  | some v, part :: path => walk notFound (v.get part) path
  | none, _ :: _ => .error notFound

def getValueType (key : String) : Except String ValueType :=
  match configTable.lookup key with
  | some ty => .ok ty
  | none => .error ("get_value_type | key not found '" ++ key ++ "'")

/-- `i as u32`. -/
def asU32 (i : Int) : Nat := (i % 2 ^ 32).toNat

/-- `i as u8`. -/
def asU8 (i : Int) : Nat := (i % 2 ^ 8).toNat

/-- `ok_or_else`. -/
def okOr {α : Type} (o : Option α) (e : String) : Except String α :=
  match o with
  | some a => .ok a
  | none => .error e

/-- The value that is derived from a key pair. -/
def identityValue [KeyPairCodec] (deliver : KeyPair → ConfigValue) (answer : KeyFileAnswer)
    (keys : Option Bytes) : Except Panic (Except String ConfigValue) × Option Bytes :=
  match manageKeypair answer keys with
  | (.ok (some pair), keys) => (.ok (.ok (deliver pair.value)), keys)
  | (.ok none, keys) => (.ok (.error "Failed to retreive keypair"), keys)
  | (.error p, keys) => (.error p, keys)

/-- The group of the one public key of a key pair. -/
def publicGroup (pair : KeyPair) : ConfigValue := .publicKeys [⟨Address.vld0, pair.key⟩]

/-- The group of the one secret of a key pair. -/
def secretGroup (pair : KeyPair) : ConfigValue := .secretKeys [⟨Address.vld0, pair.secret⟩]

/-- The value of a key the document has nothing under, and the keys file after it. -/
def derivedValue [KeyPairCodec] (id : String) (answer : KeyFileAnswer) (keys : Option Bytes)
    (key : String) : Except Panic (Except String ConfigValue) × Option Bytes :=
  match key with
  | "network.routing_table.node_id" => identityValue publicGroup answer keys
  | "network.routing_table.node_id_secret" => identityValue secretGroup answer keys
  | "protected_store.directory" => (.ok (.ok (.str ("./.veilid/" ++ id ++ "/protected"))), keys)
  | "block_store.directory" => (.ok (.ok (.str ("./.veilid/" ++ id ++ "/block"))), keys)
  | "table_store.directory" => (.ok (.ok (.str ("./.veilid/" ++ id ++ "/table"))), keys)
  | _ => (.ok (.error (keyNotFound key)), keys)

section
variable [CryptoKindCodec]

/-- The code an element of an array is, if it is a string and that is one. -/
def asCryptoKind (v : Value) : Option CryptoKind := v.asStr.bind CryptoKindCodec.fromStr

/-- What the document has under a key, as a value of a type. -/
def convertAs (ty : ValueType) (v : Value) : Except String ConfigValue := do
  match ty with
  | .str => return .str (← okOr v.asStr "Expected a string value in TOML")
  | .bool => return .bool (← okOr v.asBool "Expected a boolean value in TOML")
  | .optString =>
    match v.asStr with
    | some s => return .optString (if s = "" then none else some s)
    | none => return .optString none
  | .u32 => return .u32 (asU32 (← okOr v.asInteger "Expected a u32 value in TOML"))
  | .u8 => return .u8 (asU8 (← okOr v.asInteger "Expected a u8 value in TOML"))
  | .optU32 =>
    match v.asInteger with
    | some i => return .optU32 (some (asU32 i))
    | none => return .optU32 none
  | .vecString =>
    let vs ← okOr v.asArray "Expected an array of strings in TOML"
    return .vecString (vs.filterMap Value.asStr)
  | .vecFourCC =>
    let vs ← okOr v.asArray "Expected an array of strings for VecFourCC in TOML"
    return .vecFourCC ((vs.filterMap Value.asStr).filterMap CryptoKindCodec.fromStr)

/-- What the document has under a key, as the type the table has for it. -/
def convertValue (key : String) (v : Value) : Except String ConfigValue := do
  convertAs (← getValueType key) v

variable [KeyPairCodec]

/-- The value of a key in a document. -/
def lookupValue (id : String) (answer : KeyFileAnswer) (doc : Value) (keys : Option Bytes)
    (key : String) : Except Panic (Except String ConfigValue) × Option Bytes :=
  match walk (keyNotFound key) (some doc) (Toml.parts key) with
  | .error e => (.ok (.error e), keys)
  | .ok (some v) => (.ok (convertValue key v), keys)
  | .ok none => derivedValue id answer keys key

def lookupConfig (id : String) (answer : LookupAnswer) (files : ConfigFiles) (key : String) :
    Except Panic (Except String ConfigValue) × ConfigFiles :=
  match openSettings answer files.settings with
  | (.error e, settings) => (.ok (.error e), { files with settings })
  | (.ok doc, settings) =>
    match lookupValue id answer.keys doc files.keys key with
    | (result, keys) => (result, ⟨settings, keys⟩)

/-! ## What a call comes to -/

omit [KeyPairCodec] [CryptoKindCodec] in
theorem walk_none {e : String} {path : List String} (h : path ≠ []) : walk e none path = .error e := by
  cases path with
  | nil => exact absurd rfl h
  | cons part path => rfl

omit [KeyPairCodec] [CryptoKindCodec] in
/-- **Where the walk ends**: at the last part, if the path before it leads somewhere. -/
theorem walk_concat (e : String) (doc : Value) (path : List String) (last : String) :
    walk e (some doc) (path ++ [last]) =
      match doc.resolve path with
      | some v => .ok (v.get last)
      | none => .error e := by
  induction path generalizing doc with
  | nil => rfl
  | cons part path ih =>
    rw [List.cons_append, walk, Value.resolve_cons]
    cases doc.get part with
    | none => exact walk_none (List.append_ne_nil_of_right_ne_nil _ (List.cons_ne_nil _ _))
    | some v => exact ih v

omit [KeyPairCodec] [CryptoKindCodec] in
theorem parts_ne_nil (key : String) : Toml.parts key ≠ [] := by
  rw [Toml.parts, Ne, List.map_eq_nil_iff]
  exact List.splitOn_ne_nil _ _

omit [KeyPairCodec] [CryptoKindCodec] in
/-- The walk finds what the document has under the key. -/
theorem walk_of_resolve {e : String} {doc v : Value} {path : List String} (hne : path ≠ [])
    (h : doc.resolve path = some v) : walk e (some doc) path = .ok (some v) := by
  rw [← List.dropLast_append_getLast hne] at h ⊢
  rw [Value.resolve_concat, Option.bind_eq_some_iff] at h
  obtain ⟨w, hw, hget⟩ := h
  rw [walk_concat, hw, ← hget]

theorem lookupConfig_of_open {id : String} {answer : LookupAnswer} {files : ConfigFiles}
    {key : String} {doc : Value} {settings : Option SettingsText}
    (h : openSettings answer files.settings = (.ok doc, settings)) :
    lookupConfig id answer files key =
      ((lookupValue id answer.keys doc files.keys key).1,
        ⟨settings, (lookupValue id answer.keys doc files.keys key).2⟩) := by
  rw [lookupConfig, h]

/-- **What a call comes to for a key that is set.** -/
theorem lookupConfig_of_resolve {id : String} {answer : LookupAnswer} {files : ConfigFiles}
    {key : String} {doc v : Value} {settings : Option SettingsText}
    (h : openSettings answer files.settings = (.ok doc, settings))
    (hv : doc.resolve (Toml.parts key) = some v) :
    lookupConfig id answer files key = (.ok (convertValue key v), ⟨settings, files.keys⟩) := by
  rw [lookupConfig_of_open h, lookupValue, walk_of_resolve (parts_ne_nil key) hv]

end
end VeilidTransport
