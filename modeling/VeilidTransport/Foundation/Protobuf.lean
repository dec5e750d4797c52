import Mathlib.Data.Nat.Digits.Lemmas

/-!
# The protobuf wire format

A message on the wire is a sequence of fields, each one a key and a value.  A number is a
*varint*, its digits in base 128 with a mark on all bytes but the last; bytes stand behind
their length.  The key is the field's number and what kind of value follows.

`decode_encode` says that the fields are read back.  `length_varint_le_iff` says how long a
number is, and `length_uint_le` and `length_bytes_le` how long a field is that is left out
where it has its default.  A varint here has as many bytes as it needs; ten are enough for
64 bits.

Fields of fixed width and groups are left out, and any field number and any length of a varint
are read.
-/

namespace Protobuf

/-! ## Numbers -/

/-- The digits of a number in base 128, lowest first; zero has one. -/
def groups (n : Nat) : List Nat := if n = 0 then [0] else Nat.digits 128 n

/-- The bytes of some digits, with a mark on all but the last. -/
def mark : List Nat → List UInt8
  | [] => []
  | [d] => [UInt8.ofNat d]
  | d :: ds => UInt8.ofNat (d + 128) :: mark ds

def varint (n : Nat) : List UInt8 := mark (groups n)

/-- The digits at the front, up to the first byte without a mark. -/
def takeGroups : List UInt8 → Option (List Nat × List UInt8)
  | [] => none
  | b :: bs =>
    if b.toNat < 128 then some ([b.toNat], bs)
    else (takeGroups bs).map fun (ds, rest) => (b.toNat % 128 :: ds, rest)

def takeVarint (bs : List UInt8) : Option (Nat × List UInt8) :=
  (takeGroups bs).map fun (ds, rest) => (Nat.ofDigits 128 ds, rest)

example : varint 300 = [0xAC, 0x02] := by decide

theorem groups_ne_nil (n : Nat) : groups n ≠ [] := by
  unfold groups
  split
  · exact List.cons_ne_nil 0 []
  · next h => exact Nat.digits_ne_nil_iff_ne_zero.mpr h

theorem groups_lt {n d : Nat} (h : d ∈ groups n) : d < 128 := by
  unfold groups at h
  split at h
  · rw [List.mem_singleton.mp h]
    omega
  · exact Nat.digits_lt_base (by omega) h

theorem ofDigits_groups (n : Nat) : Nat.ofDigits 128 (groups n) = n := by
  unfold groups
  split
  · next h => rw [h]; rfl
  · exact Nat.ofDigits_digits 128 n

theorem length_mark (ds : List Nat) : (mark ds).length = ds.length := by
  induction ds using mark.induct with
  | case1 => rfl
  | case2 d => rfl
  | case3 d ds hds ih => rw [mark.eq_3 d ds hds, List.length_cons, List.length_cons, ih]

theorem takeGroups_mark {ds : List Nat} (hne : ds ≠ []) (hlt : ∀ d ∈ ds, d < 128)
    (rest : List UInt8) : takeGroups (mark ds ++ rest) = some (ds, rest) := by
  induction ds using mark.induct with
  | case1 => exact absurd rfl hne
  | case2 d =>
    have hd := hlt d List.mem_cons_self
    have hbyte : (UInt8.ofNat d).toNat = d := by rw [UInt8.toNat_ofNat']; omega
    rw [mark, List.singleton_append, takeGroups, hbyte, if_pos hd]
  | case3 d ds hds ih =>
    have hd := hlt d List.mem_cons_self
    have hbyte : (UInt8.ofNat (d + 128)).toNat = d + 128 := by rw [UInt8.toNat_ofNat']; omega
    rw [mark.eq_3 d ds hds, List.cons_append, takeGroups, hbyte, if_neg (by omega),
      ih hds fun e he => hlt e (List.mem_cons_of_mem _ he)]
    have hmod : (d + 128) % 128 = d := by omega
    simp only [Option.map_some, hmod]

/-- **A number is read back**, whatever follows it. -/
theorem takeVarint_varint (n : Nat) (rest : List UInt8) :
    takeVarint (varint n ++ rest) = some (n, rest) := by
  rw [takeVarint, varint, takeGroups_mark (groups_ne_nil n) fun _ h => groups_lt h]
  simp only [Option.map_some, ofDigits_groups]

/-- **How long a number is.** -/
theorem length_varint_le_iff (n k : Nat) : (varint n).length ≤ k + 1 ↔ n < 128 ^ (k + 1) := by
  rw [varint, length_mark, groups]
  split
  · next h => simp [h]
  · exact Nat.digits_length_le_iff (by omega) n

theorem varint_ne_nil (n : Nat) : varint n ≠ [] := by
  intro h
  have hlen := congrArg List.length h
  rw [varint, length_mark, List.length_nil, List.length_eq_zero_iff] at hlen
  exact groups_ne_nil n hlen

/-! ## Fields -/

inductive Value where
  | varint (n : Nat)
  | bytes (data : List UInt8)
  deriving DecidableEq

structure Field where
  number : Nat
  value : Value
  deriving DecidableEq

def Value.wireType : Value → Nat
  | varint _ => 0
  | bytes _ => 2

def Value.encode : Value → List UInt8
  | varint n => Protobuf.varint n
  | bytes data => Protobuf.varint data.length ++ data

def Field.encode (f : Field) : List UInt8 :=
  varint (f.number * 8 + f.value.wireType) ++ f.value.encode

def encode (fs : List Field) : List UInt8 := (fs.map Field.encode).flatten

def takeValue (wireType : Nat) (bs : List UInt8) : Option (Value × List UInt8) :=
  match takeVarint bs with
  | none => none
  | some (n, rest) =>
    if wireType = 0 then some (.varint n, rest)
    else if wireType = 2 ∧ n ≤ rest.length then some (.bytes (rest.take n), rest.drop n)
    else none

def takeField (bs : List UInt8) : Option (Field × List UInt8) :=
  match takeVarint bs with
  | none => none
  | some (key, rest) =>
    (takeValue (key % 8) rest).map fun (value, rest) => (⟨key / 8, value⟩, rest)

/-- The fields, one after the other, at most `fuel` of them. -/
def decodeLoop : Nat → List UInt8 → Option (List Field)
  | _, [] => some []
  | 0, _ :: _ => none
  | fuel + 1, bs =>
    match takeField bs with
    | none => none
    | some (f, rest) => (decodeLoop fuel rest).map (f :: ·)

/-- A field has a byte at least, so the length bounds the fields. -/
def decode (bs : List UInt8) : Option (List Field) := decodeLoop bs.length bs

@[simp] theorem encode_nil : encode [] = [] := rfl

@[simp] theorem encode_cons (f : Field) (fs : List Field) :
    encode (f :: fs) = f.encode ++ encode fs := by simp [encode]

@[simp] theorem encode_append (fs gs : List Field) :
    encode (fs ++ gs) = encode fs ++ encode gs := by simp [encode]

theorem takeValue_encode (v : Value) (rest : List UInt8) :
    takeValue v.wireType (v.encode ++ rest) = some (v, rest) := by
  cases v with
  | varint n =>
    rw [Value.encode, takeValue, takeVarint_varint]
    rfl
  | bytes data =>
    rw [Value.encode, takeValue, List.append_assoc, takeVarint_varint]
    simp [Value.wireType]

theorem takeField_encode (f : Field) (rest : List UInt8) :
    takeField (f.encode ++ rest) = some (f, rest) := by
  have hwire : f.value.wireType < 8 := by
    cases f.value <;> simp [Value.wireType]
  have hkind : (f.number * 8 + f.value.wireType) % 8 = f.value.wireType := by omega
  have hnumber : (f.number * 8 + f.value.wireType) / 8 = f.number := by omega
  rw [Field.encode, takeField, List.append_assoc, takeVarint_varint]
  simp only [hkind, hnumber, takeValue_encode, Option.map_some]

theorem length_field_pos (f : Field) : 0 < f.encode.length := by
  have := List.length_pos_iff.mpr (varint_ne_nil (f.number * 8 + f.value.wireType))
  rw [Field.encode, List.length_append]
  omega

/-- **The fields are read back.** -/
theorem decode_encode (fs : List Field) : decode (encode fs) = some fs := by
  suffices key : ∀ fuel, (encode fs).length ≤ fuel → decodeLoop fuel (encode fs) = some fs from
    key _ (Nat.le_refl _)
  induction fs with
  | nil => intro fuel _; cases fuel <;> rfl
  | cons f fs ih =>
    intro fuel hfuel
    have hpos := length_field_pos f
    rw [encode_cons, List.length_append] at hfuel
    obtain ⟨fuel, rfl⟩ : ∃ k, fuel = k + 1 := ⟨fuel - 1, by omega⟩
    obtain ⟨b, bs, hb⟩ := List.exists_cons_of_ne_nil (List.length_pos_iff.mp hpos)
    have htake := takeField_encode f (encode fs)
    rw [encode_cons]
    rw [hb, List.cons_append] at htake ⊢
    simp only [decodeLoop, htake, ih fuel (by omega), Option.map_some]

/-! ## Fields that may be left out -/

/-- A number; its default is zero. -/
def uint (number n : Nat) : List Field := if n = 0 then [] else [⟨number, .varint n⟩]

/-- Bytes; their default is the empty list. -/
def bytes (number : Nat) (data : List UInt8) : List Field :=
  if data = [] then [] else [⟨number, .bytes data⟩]

/-- The key of one of the first fifteen fields is one byte. -/
theorem length_key_le {number : Nat} (hnumber : number < 16) (v : Value) :
    (varint (number * 8 + v.wireType)).length ≤ 1 := by
  have hwire : v.wireType < 8 := by
    cases v <;> simp [Value.wireType]
  rw [length_varint_le_iff]
  omega

theorem length_uint_le {number n k : Nat} (hnumber : number < 16) (hn : n < 128 ^ (k + 1)) :
    (encode (uint number n)).length ≤ 1 + (k + 1) := by
  unfold uint
  split
  · exact Nat.zero_le _
  · have hkey := length_key_le hnumber (.varint n)
    have hvalue := (length_varint_le_iff n k).mpr hn
    rw [encode_cons, encode_nil, List.append_nil, Field.encode, List.length_append, Value.encode]
    exact Nat.add_le_add hkey hvalue

theorem length_bytes_le {number k : Nat} {data : List UInt8} (hnumber : number < 16)
    (hdata : data.length < 128 ^ (k + 1)) :
    (encode (bytes number data)).length ≤ 1 + (k + 1) + data.length := by
  unfold bytes
  split
  · exact Nat.zero_le _
  · have hkey := length_key_le hnumber (.bytes data)
    have hlen := (length_varint_le_iff data.length k).mpr hdata
    rw [encode_cons, encode_nil, List.append_nil, Field.encode, List.length_append, Value.encode,
      List.length_append, ← Nat.add_assoc]
    exact Nat.add_le_add_right (Nat.add_le_add hkey hlen) _

end Protobuf
