import VeilidTransport.Settings

/-!
# What a lookup delivers

A number is delivered as it stands in the document if it is in the range of its type, and
an array if all of it is of the kind that is asked for: `as` and `filter_map` say nothing
where they change a value, although the arms beside them report what they did not expect
(`settings_faithful_iff`).

A key that is not set has a derived value only where the path before its last part leads
somewhere: one part earlier, the walk gives up (`derived_iff`).
-/

namespace VeilidTransport

open Toml (Value)

/-! ## Values that are set -/

/-- The partial maps of a list that keep every element. -/
theorem map_eq_map_filterMap_iff {α β : Type} {f : α → Option β} {l : List α} :
    l.map f = (l.filterMap f).map some ↔ ∀ a ∈ l, (f a).isSome := by
  induction l with
  | nil => simp
  | cons a l ih =>
    cases ha : f a with
    | some b => simp [ha, ih]
    | none =>
      rw [List.filterMap_cons_none ha, List.map_cons, ha, List.forall_mem_cons, ha]
      refine iff_of_false ?_ fun h => absurd h.1 Bool.false_ne_true
      intro h
      obtain ⟨b, -, hb⟩ := List.mem_map.mp (h ▸ List.mem_cons_self)
      exact Option.some_ne_none b hb

theorem asU32_eq_iff {i : Int} : i = asU32 i ↔ 0 ≤ i ∧ i < 2 ^ 32 := by
  unfold asU32
  omega

theorem asU8_eq_iff {i : Int} : i = asU8 i ↔ 0 ≤ i ∧ i < 2 ^ 8 := by
  unfold asU8
  omega

/-- The types whose values are converted. -/
def ValueType.converted : List ValueType := [.u32, .u8, .optU32, .vecString, .vecFourCC]

section
variable [CryptoKindCodec]

/-- The value is the document's: the same text, truth value or integer, or the same list,
element by element. -/
def ConfigValue.Represents : ConfigValue → Value → Prop
  | .str s, .string t => s = t
  | .bool b, .boolean c => b = c
  | .optString s, .string t => s.getD "" = t
  | .u32 n, .integer i => i = n
  | .u8 n, .integer i => i = n
  | .optU32 (some n), .integer i => i = n
  | .vecString ss, .array vs => vs.map Value.asStr = ss.map some
  | .vecFourCC kinds, .array vs => vs.map asCryptoKind = kinds.map some
  | _, _ => False

/-- An integer outside the range of the type, or an array with an element of another kind. -/
def Unfit : ValueType → Value → Prop
  | .u32, .integer i => ¬ (0 ≤ i ∧ i < 2 ^ 32)
  | .u8, .integer i => ¬ (0 ≤ i ∧ i < 2 ^ 8)
  | .optU32, .integer i => ¬ (0 ≤ i ∧ i < 2 ^ 32)
  | .vecString, .array vs => ∃ v ∈ vs, v.asStr = none
  | .vecFourCC, .array vs => ∃ v ∈ vs, asCryptoKind v = none
  | _, _ => False

/-- The answer is the document's value or an error, and an error for what is unfit. -/
def Faithful (ty : ValueType) (v : Value) (result : Except Panic (Except String ConfigValue)) :
    Prop :=
  (∀ c, result = .ok (.ok c) → c.Represents v) ∧ (Unfit ty v → ∃ e, result = .ok (.error e))

/-- What an arm of the conversion leaves as it is, or refuses. -/
def Fits : ValueType → Value → Prop
  | .u32, v => ∀ i, v = .integer i → 0 ≤ i ∧ i < 2 ^ 32
  | .u8, v => ∀ i, v = .integer i → 0 ≤ i ∧ i < 2 ^ 8
  | .optU32, v => ∃ i, v = .integer i ∧ 0 ≤ i ∧ i < 2 ^ 32
  | .vecString, v => ∀ vs, v = .array vs → ∀ w ∈ vs, w.asStr.isSome
  | .vecFourCC, v => ∀ vs, v = .array vs → ∀ w ∈ vs, (asCryptoKind w).isSome
  | _, _ => True

/-- The error an arm reports is faithful. -/
theorem faithful_error {ty : ValueType} {v : Value} {e : String} :
    Faithful ty v (.ok (.error e)) := by
  refine ⟨fun c h => ?_, fun _ => ⟨e, rfl⟩⟩
  cases h

/-- A delivered value is faithful if it is the document's. -/
theorem faithful_value_iff {ty : ValueType} {v : Value} {c : ConfigValue}
    (h : c.Represents v → ¬ Unfit ty v) : Faithful ty v (.ok (.ok c)) ↔ c.Represents v := by
  constructor
  · intro hf
    exact hf.1 c rfl
  · intro hr
    refine ⟨fun d hd => ?_, fun hu => absurd hu (h hr)⟩
    cases hd
    exact hr

theorem convertValue_of_type {key : String} {ty : ValueType} (h : configTable.lookup key = some ty)
    (v : Value) : convertValue key v = convertAs ty v := by
  rw [convertValue, getValueType, h]
  rfl

theorem filterMap_asCryptoKind (vs : List Value) :
    (vs.filterMap Value.asStr).filterMap CryptoKindCodec.fromStr = vs.filterMap asCryptoKind :=
  List.filterMap_filterMap

/-- **An arm that reads one kind of value and reports every other** is faithful exactly if it
is where it reads. -/
theorem faithful_read_iff {α : Type} {ty : ValueType} {e : String} {read : Value → Option α}
    {wrap : α → Value} (hread : ∀ v a, read v = some a ↔ v = wrap a) (value : α → ConfigValue)
    {Good : α → Prop} (hr : ∀ a, (value a).Represents (wrap a) ↔ Good a)
    (hu : ∀ a, Good a → ¬ Unfit ty (wrap a)) (v : Value) :
    Faithful ty v (.ok ((okOr (read v) e).map value)) ↔ ∀ a, v = wrap a → Good a := by
  cases hv : read v with
  | none =>
    refine iff_of_true faithful_error fun a ha => ?_
    rw [(hread v a).mpr ha] at hv
    cases hv
  | some a =>
    obtain rfl := (hread v a).mp hv
    have hvalue : Faithful ty (wrap a) (.ok (.ok (value a))) ↔ Good a := by
      rw [faithful_value_iff fun h => hu a ((hr a).mp h), hr]
    refine hvalue.trans ⟨fun h b hb => ?_, fun h => h a rfl⟩
    have hsame : read (wrap a) = some b := (hread _ b).mpr hb
    rw [hv] at hsame
    cases hsame
    exact h

/-- A number that is cast is faithful if it is in range. -/
theorem faithful_cast_iff {ty : ValueType} {v : Value} {e : String} (cast : Int → ConfigValue)
    {InRange : Int → Prop} (hr : ∀ i, (cast i).Represents (.integer i) ↔ InRange i)
    (hu : ∀ i, Unfit ty (.integer i) ↔ ¬ InRange i) :
    Faithful ty v (.ok ((okOr v.asInteger e).map cast)) ↔ ∀ i, v = .integer i → InRange i :=
  faithful_read_iff (fun _ _ => Value.asInteger_eq_some) cast hr
    (fun i h hunfit => (hu i).mp hunfit h) v

/-- An array that is filtered is faithful if the filter keeps every element. -/
theorem faithful_filter_iff {ty : ValueType} {v : Value} {e : String} {α : Type}
    (kind : Value → Option α) (list : List α → ConfigValue)
    (hr : ∀ vs as, (list as).Represents (.array vs) ↔ vs.map kind = as.map some)
    (hu : ∀ vs, Unfit ty (.array vs) ↔ ∃ w ∈ vs, kind w = none) :
    Faithful ty v (.ok ((okOr v.asArray e).map fun vs => list (vs.filterMap kind))) ↔
      ∀ vs, v = .array vs → ∀ w ∈ vs, (kind w).isSome := by
  refine faithful_read_iff (fun _ _ => Value.asArray_eq_some) _ (fun vs => ?_) ?_ v
  · rw [hr, map_eq_map_filterMap_iff]
  · intro vs hall hunfit
    obtain ⟨w, hw, hnone⟩ := (hu vs).mp hunfit
    have hsome := hall w hw
    rw [hnone] at hsome
    cases hsome

/-- **One conversion.** -/
theorem faithful_convertAs_iff {ty : ValueType} (hty : ty ∈ ValueType.converted) (v : Value) :
    Faithful ty v (.ok (convertAs ty v)) ↔ Fits ty v := by
  cases ty with
  | str => simp [ValueType.converted] at hty
  | bool => simp [ValueType.converted] at hty
  | optString => simp [ValueType.converted] at hty
  | u32 =>
    exact faithful_cast_iff (fun i => .u32 (asU32 i)) (fun _ => asU32_eq_iff) fun _ => Iff.rfl
  | u8 =>
    exact faithful_cast_iff (fun i => .u8 (asU8 i)) (fun _ => asU8_eq_iff) fun _ => Iff.rfl
  | optU32 =>
    cases hv : v.asInteger with
    | none =>
      -- anything but an integer is delivered as if it were not there
      have hnot : ∀ i, v ≠ .integer i := by
        rintro i rfl
        cases hv
      have hconv : convertAs .optU32 v = .ok (.optU32 none) := by rw [convertAs, hv]; rfl
      have hrep : ¬ (ConfigValue.optU32 none).Represents v := by cases v <;> exact id
      rw [hconv, faithful_value_iff fun h => absurd h hrep]
      refine iff_of_false hrep ?_
      rintro ⟨i, hi, -⟩
      exact hnot i hi
    | some i =>
      obtain rfl := Value.asInteger_eq_some.mp hv
      have hrep : (ConfigValue.optU32 (some (asU32 i))).Represents (.integer i) ↔
          0 ≤ i ∧ i < 2 ^ 32 := asU32_eq_iff
      have hconv : convertAs .optU32 (.integer i) = .ok (.optU32 (some (asU32 i))) := rfl
      have hfit : (ConfigValue.optU32 (some (asU32 i))).Represents (.integer i) →
          ¬ Unfit .optU32 (.integer i) := fun h hunfit => hunfit (hrep.mp h)
      rw [hconv, faithful_value_iff hfit, hrep]
      constructor
      · intro h
        exact ⟨i, rfl, h⟩
      · rintro ⟨j, hj, hrange⟩
        cases hj
        exact hrange
  | vecString =>
    exact faithful_filter_iff Value.asStr .vecString (fun _ _ => Iff.rfl) fun _ => Iff.rfl
  | vecFourCC =>
    have hconv : convertAs .vecFourCC v =
        (okOr v.asArray "Expected an array of strings for VecFourCC in TOML").map fun vs =>
          .vecFourCC (vs.filterMap asCryptoKind) := by
      simp only [← filterMap_asCryptoKind]
      rfl
    rw [hconv]
    exact faithful_filter_iff asCryptoKind .vecFourCC (fun _ _ => Iff.rfl) fun _ => Iff.rfl

variable [KeyPairCodec]

/-- **Which settings are delivered faithfully or rejected.** -/
theorem settings_faithful_iff {id : String} {answer : LookupAnswer} {files : ConfigFiles}
    {settings : Option SettingsText} {doc v : Value} {key : String} {ty : ValueType}
    (hopen : openSettings answer files.settings = (.ok doc, settings))
    (hkey : configTable.lookup key = some ty) (hty : ty ∈ ValueType.converted)
    (hset : doc.resolve (Toml.parts key) = some v) :
    Faithful ty v (lookupConfig id answer files key).1 ↔ Fits ty v := by
  rw [lookupConfig_of_resolve hopen hset, convertValue_of_type hkey]
  exact faithful_convertAs_iff hty v

/-! ## Values that are derived -/

/-- The keys that have a derived value. -/
inductive DerivedKey where
  | protectedStore
  | blockStore
  | tableStore
  | nodeId
  | nodeIdSecret
  deriving DecidableEq

namespace DerivedKey

def key : DerivedKey → String
  | protectedStore => "protected_store.directory"
  | blockStore => "block_store.directory"
  | tableStore => "table_store.directory"
  | nodeId => "network.routing_table.node_id"
  | nodeIdSecret => "network.routing_table.node_id_secret"

/-- The path of the table the key is in. -/
def enclosing : DerivedKey → List String
  | protectedStore => ["protected_store"]
  | blockStore => ["block_store"]
  | tableStore => ["table_store"]
  | nodeId => ["network", "routing_table"]
  | nodeIdSecret => ["network", "routing_table"]

/-- The key in that table. -/
def last : DerivedKey → String
  | protectedStore => "directory"
  | blockStore => "directory"
  | tableStore => "directory"
  | nodeId => "node_id"
  | nodeIdSecret => "node_id_secret"

/-- The derived value. -/
def value (id : String) (pair : KeyPair) : DerivedKey → ConfigValue
  | protectedStore => .str ("./.veilid/" ++ id ++ "/protected")
  | blockStore => .str ("./.veilid/" ++ id ++ "/block")
  | tableStore => .str ("./.veilid/" ++ id ++ "/table")
  | nodeId => publicGroup pair
  | nodeIdSecret => secretGroup pair

omit [CryptoKindCodec] [KeyPairCodec] in
theorem parts_key (d : DerivedKey) : Toml.parts d.key = d.enclosing ++ [d.last] := by
  cases d <;> decide

omit [CryptoKindCodec] in
/-- The value and the file after it, each by what `manage_keypair` returns. -/
theorem identityValue_eq (deliver : KeyPair → ConfigValue) (answer : KeyFileAnswer)
    (keys : Option Bytes) :
    identityValue deliver answer keys =
      (match (manageKeypair answer keys).1 with
        | .ok (some pair) => .ok (.ok (deliver pair.value))
        | .ok none => .ok (.error "Failed to retreive keypair")
        | .error p => .error p, (manageKeypair answer keys).2) := by
  unfold identityValue
  split <;> next h => rw [h]

omit [CryptoKindCodec] in
theorem identityValue_of_ok {deliver : KeyPair → ConfigValue} {answer : KeyFileAnswer}
    {keys : Option Bytes} {pair : TypedKeyPair}
    (h : (manageKeypair answer keys).1 = .ok (some pair)) :
    (identityValue deliver answer keys).1 = .ok (.ok (deliver pair.value)) := by
  rw [identityValue_eq, h]

omit [CryptoKindCodec] in
theorem identityValue_of_error {deliver : KeyPair → ConfigValue} {answer : KeyFileAnswer}
    {keys : Option Bytes} {p : Panic} (h : (manageKeypair answer keys).1 = .error p) :
    (identityValue deliver answer keys).1 = .error p := by
  rw [identityValue_eq, h]

omit [CryptoKindCodec] in
theorem identityValue_keys {deliver : KeyPair → ConfigValue} {answer : KeyFileAnswer}
    {keys : Option Bytes} :
    (identityValue deliver answer keys).2 = (manageKeypair answer keys).2 := by
  rw [identityValue_eq]

omit [CryptoKindCodec] in
theorem derivedValue_of_ok (d : DerivedKey) {id : String} {answer : KeyFileAnswer}
    {keys : Option Bytes} {pair : TypedKeyPair}
    (h : (manageKeypair answer keys).1 = .ok (some pair)) :
    (derivedValue id answer keys d.key).1 = .ok (.ok (d.value id pair.value)) := by
  cases d with
  | protectedStore => rfl
  | blockStore => rfl
  | tableStore => rfl
  | nodeId => exact identityValue_of_ok h
  | nodeIdSecret => exact identityValue_of_ok h

/-- A key with nothing under it, in a path that leads somewhere: the value is derived. -/
theorem lookupValue_of_enclosed (d : DerivedKey) {id : String} {answer : KeyFileAnswer}
    {doc v : Value} {keys : Option Bytes} (h : doc.resolve d.enclosing = some v)
    (hunset : doc.resolve (Toml.parts d.key) = none) :
    lookupValue id answer doc keys d.key = derivedValue id answer keys d.key := by
  rw [d.parts_key, Value.resolve_concat, h, Option.bind_some] at hunset
  have hwalk : walk (keyNotFound d.key) (some doc) (Toml.parts d.key) = .ok none := by
    rw [d.parts_key, walk_concat, h, ← hunset]
  rw [lookupValue, hwalk]

/-- A key in a path that leads nowhere: the walk gives up. -/
theorem lookupValue_of_lost (d : DerivedKey) {id : String} {answer : KeyFileAnswer}
    {doc : Value} {keys : Option Bytes} (h : doc.resolve d.enclosing = none) :
    lookupValue id answer doc keys d.key = (.ok (.error (keyNotFound d.key)), keys) := by
  have hwalk : walk (keyNotFound d.key) (some doc) (Toml.parts d.key) =
      .error (keyNotFound d.key) := by
    rw [d.parts_key, walk_concat, h]
  rw [lookupValue, hwalk]

omit [CryptoKindCodec] [KeyPairCodec] in
/-- The table has no type for a derived key. -/
theorem configTable_key (d : DerivedKey) : configTable.lookup d.key = none := by
  cases d <;> decide +kernel

/-- A derived key that is set is refused. -/
theorem lookupValue_of_set (d : DerivedKey) {id : String} {answer : KeyFileAnswer}
    {doc v : Value} {keys : Option Bytes} (h : doc.resolve (Toml.parts d.key) = some v) :
    ∃ e, lookupValue id answer doc keys d.key = (.ok (.error e), keys) := by
  have hconvert : convertValue d.key v =
      .error ("get_value_type | key not found '" ++ d.key ++ "'") := by
    rw [convertValue, getValueType, d.configTable_key]
    rfl
  refine ⟨"get_value_type | key not found '" ++ d.key ++ "'", ?_⟩
  rw [lookupValue, walk_of_resolve (parts_ne_nil d.key) h, ← hconvert]

/-- The document leads to the derived value of the key: it can be opened, the path before the
last part leads somewhere, and the key is not set. -/
def Reaches (answer : LookupAnswer) (files : ConfigFiles) (d : DerivedKey) : Prop :=
  ∃ doc v, (openSettings answer files.settings).1 = .ok doc ∧ doc.resolve d.enclosing = some v ∧
    doc.resolve (Toml.parts d.key) = none

/-- A lookup that reaches the derived value. -/
theorem lookupConfig_of_reaches (id : String) {d : DerivedKey} {answer : LookupAnswer}
    {files : ConfigFiles} (h : d.Reaches answer files) :
    (lookupConfig id answer files d.key).1 = (derivedValue id answer.keys files.keys d.key).1 ∧
      (lookupConfig id answer files d.key).2.keys =
        (derivedValue id answer.keys files.keys d.key).2 := by
  obtain ⟨doc, v, hopen, henclosing, hunset⟩ := h
  rw [lookupConfig_of_open (Prod.ext hopen rfl), lookupValue_of_enclosed d henclosing hunset]
  exact ⟨rfl, rfl⟩

/-- **A lookup that does not reach the derived value fails**, and leaves the keys file. -/
theorem lookupConfig_of_not_reaches (id : String) {d : DerivedKey} {answer : LookupAnswer}
    {files : ConfigFiles} (h : ¬ d.Reaches answer files) :
    (∃ e, (lookupConfig id answer files d.key).1 = .ok (.error e)) ∧
      (lookupConfig id answer files d.key).2.keys = files.keys := by
  rcases hopen : openSettings answer files.settings with ⟨opened, settings⟩
  cases opened with
  | error e =>
    rw [lookupConfig, hopen]
    exact ⟨⟨e, rfl⟩, rfl⟩
  | ok doc =>
    rw [lookupConfig_of_open hopen]
    cases henclosing : doc.resolve d.enclosing with
    | none =>
      rw [lookupValue_of_lost d henclosing]
      exact ⟨⟨_, rfl⟩, rfl⟩
    | some w =>
      cases hset : doc.resolve (Toml.parts d.key) with
      | none => exact absurd ⟨doc, w, by rw [hopen], henclosing, hset⟩ h
      | some v =>
        obtain ⟨e, he⟩ := lookupValue_of_set d hset
        rw [he]
        exact ⟨⟨e, rfl⟩, rfl⟩

/-- **Where a derived setting resolves**: where the path before its last part leads
somewhere. -/
theorem derived_iff (d : DerivedKey) {id : String} {answer : LookupAnswer} {files : ConfigFiles}
    {settings : Option SettingsText} {doc : Value} {pair : TypedKeyPair}
    (hopen : openSettings answer files.settings = (.ok doc, settings))
    (hunset : doc.resolve (Toml.parts d.key) = none)
    (hpair : (manageKeypair answer.keys files.keys).1 = .ok (some pair)) :
    (lookupConfig id answer files d.key).1 = .ok (.ok (d.value id pair.value)) ↔
      (doc.resolve d.enclosing).isSome := by
  rw [lookupConfig_of_open hopen]
  cases h : doc.resolve d.enclosing with
  | none =>
    rw [lookupValue_of_lost d h]
    simp
  | some v =>
    rw [lookupValue_of_enclosed d h hunset]
    exact iff_of_true (derivedValue_of_ok d hpair) rfl

end DerivedKey
end

/-! ## On the sample platform -/

namespace Sample

scoped instance : CryptoKindCodec where
  fromStr s := if (Utf8.encode s.toList).length = 4 then some s.toList else none

/-- A call that meets no failure. -/
def smooth (pair : TypedKeyPair) : LookupAnswer where
  createDirAll := none
  found := true
  createFile := none
  writeAll := none
  readable := true
  keys := ⟨true, some pair, .done⟩

/-- A document with one table in a table. -/
def nested (outer inner : String) (entries : List (String × Value)) : Value :=
  .table [(outer, .table [(inner, .table entries)])]

/-- The files of a node without keys. -/
def filesOf (doc : Value) : ConfigFiles := ⟨some (.ok doc), none⟩

theorem openSettings_smooth (pair : TypedKeyPair) (doc : Value) :
    openSettings (smooth pair) (filesOf doc).settings = (.ok doc, some (.ok doc)) := rfl

end Sample

open Sample

/-- A queue of five elements, which is what the table asks for. -/
theorem settings_faithful_sample :
    Faithful .u32 (.integer 5) (lookupConfig "id" (smooth (pairOf 1))
      (filesOf (nested "network" "rpc" [("queue_size", .integer 5)]))
      "network.rpc.queue_size").1 := by
  refine (settings_faithful_iff (openSettings_smooth _ _) (by decide) (by decide) (by rfl)).mpr ?_
  rintro i hi
  cases hi
  decide

/-- A queue of `2 ^ 32 + 5` elements is delivered as one of five, and a list with a number in
it as the list without it. -/
theorem settings_changed :
    let queue := (lookupConfig "id" (smooth (pairOf 1))
      (filesOf (nested "network" "rpc" [("queue_size", .integer (2 ^ 32 + 5))]))
      "network.rpc.queue_size").1
    let bootstrap := (lookupConfig "id" (smooth (pairOf 1))
      (filesOf (nested "network" "routing_table" [("bootstrap", .array [.string "a", .integer 1])]))
      "network.routing_table.bootstrap").1
    (queue = .ok (.ok (.u32 5)) ∧ ¬ Faithful .u32 (.integer (2 ^ 32 + 5)) queue) ∧
      bootstrap = .ok (.ok (.vecString ["a"])) ∧
      ¬ Faithful .vecString (.array [.string "a", .integer 1]) bootstrap := by
  intro queue bootstrap
  have hqueue : queue = .ok (.ok (.u32 5)) := by rfl
  have hbootstrap : bootstrap = .ok (.ok (.vecString ["a"])) := by rfl
  refine ⟨⟨hqueue, fun h => ?_⟩, hbootstrap, fun h => ?_⟩
  · have hrep : (2 ^ 32 + 5 : Int) = (5 : Nat) := h.1 _ hqueue
    exact absurd hrep (by decide)
  · have hrep : [some "a", none] = [some "a"] := h.1 _ hbootstrap
    exact absurd hrep (by decide)

/-- The table is there without the key. -/
theorem DerivedKey.derived_sample :
    (lookupConfig "id" (smooth (pairOf 1)) (filesOf (nested "network" "routing_table" []))
      "network.routing_table.node_id").1 = .ok (.ok (publicGroup (pairOf 1).value)) :=
  (DerivedKey.nodeId.derived_iff (openSettings_smooth _ _) (by rfl) (by rfl)).mpr (by rfl)

/-- The enclosing table is not there either, and the key is not found. -/
theorem DerivedKey.derived_lost :
    let doc := Value.table [("program_name", .string "app")]
    doc.resolve (Toml.parts DerivedKey.nodeId.key) = none ∧
      (manageKeypair (smooth (pairOf 1)).keys none).1 = .ok (some (pairOf 1)) ∧
      (lookupConfig "id" (smooth (pairOf 1)) (filesOf doc) DerivedKey.nodeId.key).1 =
        .ok (.error "Config key 'network.routing_table.node_id' not found in TOML") := by
  intro doc
  refine ⟨?_, rfl, ?_⟩
  · rfl
  · rfl

end VeilidTransport
