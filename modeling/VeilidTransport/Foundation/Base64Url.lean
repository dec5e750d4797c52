import Mathlib.Data.List.Basic

/-!
# Base64 for URLs, without padding

Three bytes are four characters of six bits each; two bytes left over are three
characters and one byte is two.  `decode` refuses what `encode` cannot have
written: a character outside the alphabet, a single character left over, or
leftover bits that are not zero.
-/

namespace Base64Url

/-- The character of six bits. -/
def char (n : Nat) : Char :=
  if n < 26 then Char.ofNat (65 + n)
  else if n < 52 then Char.ofNat (97 + (n - 26))
  else if n < 62 then Char.ofNat (48 + (n - 52))
  else if n = 62 then '-'
  else '_'

/-- The six bits of a character. -/
def value (c : Char) : Option Nat :=
  if 65 ≤ c.toNat ∧ c.toNat ≤ 90 then some (c.toNat - 65)
  else if 97 ≤ c.toNat ∧ c.toNat ≤ 122 then some (c.toNat - 97 + 26)
  else if 48 ≤ c.toNat ∧ c.toNat ≤ 57 then some (c.toNat - 48 + 52)
  else if c = '-' then some 62
  else if c = '_' then some 63
  else none

def encode : List UInt8 → List Char
  | [] => []
  | [a] => [char (a.toNat / 4), char (a.toNat % 4 * 16)]
  | [a, b] =>
    [char (a.toNat / 4), char (a.toNat % 4 * 16 + b.toNat / 16), char (b.toNat % 16 * 4)]
  | a :: b :: c :: rest =>
    char (a.toNat / 4) :: char (a.toNat % 4 * 16 + b.toNat / 16) ::
      char (b.toNat % 16 * 4 + c.toNat / 64) :: char (c.toNat % 64) :: encode rest

def decode : List Char → Option (List UInt8)
  | [] => some []
  | [_] => none
  | [w, x] =>
    match value w, value x with
    | some w, some x => if x % 16 = 0 then some [UInt8.ofNat (w * 4 + x / 16)] else none
    | _, _ => none
  | [w, x, y] =>
    match value w, value x, value y with
    | some w, some x, some y =>
      if y % 4 = 0 then
        some [UInt8.ofNat (w * 4 + x / 16), UInt8.ofNat (x % 16 * 16 + y / 4)]
      else none
    | _, _, _ => none
  | w :: x :: y :: z :: rest =>
    match value w, value x, value y, value z, decode rest with
    | some w, some x, some y, some z, some rest =>
      some (UInt8.ofNat (w * 4 + x / 16) :: UInt8.ofNat (x % 16 * 16 + y / 4) ::
        UInt8.ofNat (y % 4 * 64 + z) :: rest)
    | _, _, _, _, _ => none

theorem value_char {n : Nat} (hn : n < 64) : value (char n) = some n := by
  have h : ∀ n : Fin 64, value (char n) = some n.val := by decide
  exact h ⟨n, hn⟩

theorem char_ne_colon {n : Nat} (hn : n < 64) : char n ≠ ':' := by
  have h : ∀ n : Fin 64, char n ≠ ':' := by decide
  exact h ⟨n, hn⟩

/-- The alphabet is ASCII, and has no slash. -/
theorem char_plain {n : Nat} (hn : n < 64) : (char n).toNat < 128 ∧ char n ≠ '/' := by
  have h : ∀ n : Fin 64, (char n).toNat < 128 ∧ char n ≠ '/' := by decide
  exact h ⟨n, hn⟩

theorem ofNat_eq {a : UInt8} {n : Nat} (h : n = a.toNat) : UInt8.ofNat n = a := by
  rw [h, UInt8.ofNat_toNat]

/-- **Decoding inverts encoding.** -/
theorem decode_encode (bs : List UInt8) : decode (encode bs) = some bs := by
  induction bs using encode.induct with
  | case1 => rfl
  | case2 a =>
    have ha := a.toNat_lt
    rw [encode, decode, value_char (by omega), value_char (by omega)]
    simp only
    rw [if_pos (by omega), ofNat_eq (a := a) (by omega)]
  | case3 a b =>
    have ha := a.toNat_lt
    have hb := b.toNat_lt
    rw [encode, decode, value_char (by omega), value_char (by omega), value_char (by omega)]
    simp only
    rw [if_pos (by omega), ofNat_eq (a := a) (by omega), ofNat_eq (a := b) (by omega)]
  | case4 a b c rest ih =>
    have ha := a.toNat_lt
    have hb := b.toNat_lt
    have hc := c.toNat_lt
    rw [encode, decode, value_char (by omega), value_char (by omega), value_char (by omega),
      value_char (by omega), ih]
    simp only
    rw [ofNat_eq (a := a) (by omega), ofNat_eq (a := b) (by omega), ofNat_eq (a := c) (by omega)]

/-- **What is written is in the alphabet.** -/
theorem mem_encode {bs : List UInt8} {c : Char} (h : c ∈ encode bs) : ∃ n < 64, c = char n := by
  induction bs using encode.induct with
  | case1 => cases h
  | case2 a =>
    have ha := a.toNat_lt
    simp only [encode, List.mem_cons, List.not_mem_nil, or_false] at h
    rcases h with rfl | rfl
    · exact ⟨_, by omega, rfl⟩
    · exact ⟨_, by omega, rfl⟩
  | case3 a b =>
    have ha := a.toNat_lt
    have hb := b.toNat_lt
    simp only [encode, List.mem_cons, List.not_mem_nil, or_false] at h
    rcases h with rfl | rfl | rfl
    · exact ⟨_, by omega, rfl⟩
    · exact ⟨_, by omega, rfl⟩
    · exact ⟨_, by omega, rfl⟩
  | case4 a b c rest ih =>
    have ha := a.toNat_lt
    have hb := b.toNat_lt
    have hc := c.toNat_lt
    simp only [encode, List.mem_cons] at h
    rcases h with rfl | rfl | rfl | rfl | h
    · exact ⟨_, by omega, rfl⟩
    · exact ⟨_, by omega, rfl⟩
    · exact ⟨_, by omega, rfl⟩
    · exact ⟨_, by omega, rfl⟩
    · exact ih h

/-- The alphabet has no colon. -/
theorem colon_notMem_encode (bs : List UInt8) : ':' ∉ encode bs := by
  intro h
  obtain ⟨n, hn, hc⟩ := mem_encode h
  exact char_ne_colon hn hc.symm

/-- Three bytes are four characters. -/
theorem length_encode (bs : List UInt8) : (encode bs).length = (bs.length * 4 + 2) / 3 := by
  induction bs using encode.induct with
  | case1 => rfl
  | case2 a => simp [encode]
  | case3 a b => simp [encode]
  | case4 a b c rest ih =>
    simp only [encode, List.length_cons, ih]
    omega

end Base64Url
