import Mathlib.Data.List.Basic

/-!
# UTF-8

`Utf8.encode` and `Utf8.decode` are the encoding of a text and its inverse, for the core
library's characters; an ASCII text has as many bytes as characters (`length_encode`).

`Utf8.decodeLossy` reads bytes as UTF-8, one code point for each well-formed
sequence and the replacement character `U+FFFD` for each maximal ill-formed one,
as the standard libraries do when they are told not to fail.

What a program may rely on when it inspects such a text is `prefix_iff`: an
ASCII word is a prefix of the decoded text exactly when its bytes are a prefix
of the input, whatever ill-formed bytes come later.
-/

namespace Utf8

/-! ## Encoding -/

/-- The bytes of a text. -/
def encode (text : List Char) : List UInt8 := text.flatMap String.utf8EncodeChar

/-- The text of some bytes, if they are well formed. -/
def decode (bs : List UInt8) : Option (List Char) := bs.toByteArray.utf8Decode?.map Array.toList

/-- **Decoding inverts encoding.** -/
theorem decode_encode (text : List Char) : decode (encode text) = some text := by
  have h : (encode text).toByteArray = text.utf8Encode := rfl
  rw [decode, h, List.utf8Decode?_utf8Encode, Option.map_some]

theorem length_encode {text : List Char} (h : ∀ c ∈ text, c.toNat < 128) :
    (encode text).length = text.length := by
  induction text with
  | nil => rfl
  | cons c text ih =>
    have hc : c.utf8Size = 1 := by
      rw [Char.utf8Size_eq_one_iff]
      exact UInt32.le_iff_toNat_le.mpr (Nat.le_of_lt_succ (h c List.mem_cons_self))
    rw [encode, List.flatMap_cons, List.length_append, String.length_utf8EncodeChar, hc,
      List.length_cons, Nat.add_comm]
    exact congrArg (· + 1) (ih fun c' hc' => h c' (List.mem_cons_of_mem _ hc'))

/-! ## Lossy decoding -/

/-- `U+FFFD`, the replacement character. -/
def replacement : Nat := 0xFFFD

/-- A continuation byte. -/
def isCont (b : UInt8) : Bool := 0x80 ≤ b.toNat && b.toNat ≤ 0xBF

/-- The second bytes a three-byte sequence may have, by its first byte: no
overlong forms and no surrogates. -/
def second3 (b c : UInt8) : Bool :=
  (b.toNat == 0xE0 && 0xA0 ≤ c.toNat && c.toNat ≤ 0xBF) ||
  (0xE1 ≤ b.toNat && b.toNat ≤ 0xEC && isCont c) ||
  (b.toNat == 0xED && 0x80 ≤ c.toNat && c.toNat ≤ 0x9F) ||
  (0xEE ≤ b.toNat && b.toNat ≤ 0xEF && isCont c)

/-- The second bytes a four-byte sequence may have, by its first byte: no
overlong forms and nothing above `U+10FFFF`. -/
def second4 (b c : UInt8) : Bool :=
  (b.toNat == 0xF0 && 0x90 ≤ c.toNat && c.toNat ≤ 0xBF) ||
  (0xF1 ≤ b.toNat && b.toNat ≤ 0xF3 && isCont c) ||
  (b.toNat == 0xF4 && 0x80 ≤ c.toNat && c.toNat ≤ 0x8F)

/-- The bits a continuation byte carries. -/
def low (b : UInt8) : Nat := b.toNat % 64

/-- The text the bytes hold, as its list of code points. -/
def decodeLossy : List UInt8 → List Nat
  | [] => []
  | b :: rest =>
    if b.toNat < 0x80 then b.toNat :: decodeLossy rest
    else if 0xC2 ≤ b.toNat && b.toNat ≤ 0xDF then
      match rest with
      | [] => [replacement]
      | c :: rest =>
        if isCont c then ((b.toNat - 0xC0) * 64 + low c) :: decodeLossy rest
        else replacement :: decodeLossy (c :: rest)
    else if 0xE0 ≤ b.toNat && b.toNat ≤ 0xEF then
      match rest with
      | [] => [replacement]
      | c :: rest =>
        if second3 b c then
          match rest with
          | [] => [replacement]
          | d :: rest =>
            if isCont d then
              ((b.toNat - 0xE0) * 4096 + low c * 64 + low d) :: decodeLossy rest
            else replacement :: decodeLossy (d :: rest)
        else replacement :: decodeLossy (c :: rest)
    else if 0xF0 ≤ b.toNat && b.toNat ≤ 0xF4 then
      match rest with
      | [] => [replacement]
      | c :: rest =>
        if second4 b c then
          match rest with
          | [] => [replacement]
          | d :: rest =>
            if isCont d then
              match rest with
              | [] => [replacement]
              | e :: rest =>
                if isCont e then
                  ((b.toNat - 0xF0) * 262144 + low c * 4096 + low d * 64 + low e) ::
                    decodeLossy rest
                else replacement :: decodeLossy (e :: rest)
            else replacement :: decodeLossy (d :: rest)
        else replacement :: decodeLossy (c :: rest)
    else replacement :: decodeLossy rest

example : decodeLossy [0x44, 0xC3, 0xA9, 0xE2, 0x82, 0x41] = [0x44, 0xE9, 0xFFFD, 0x41] := by
  decide

/-- An ASCII byte decodes to itself. -/
theorem decodeLossy_ascii {b : UInt8} (hb : b.toNat < 0x80) (rest : List UInt8) :
    decodeLossy (b :: rest) = b.toNat :: decodeLossy rest := by
  rw [decodeLossy.eq_def]
  simp only [hb, if_true]

/-- **No other byte starts an ASCII code point**: what it decodes to, alone or
with the bytes after it, is at least `0x80`. -/
theorem decodeLossy_head {b : UInt8} (hb : 0x80 ≤ b.toNat) (rest : List UInt8) :
    ∃ c t, decodeLossy (b :: rest) = c :: t ∧ 0x80 ≤ c := by
  have hr : 0x80 ≤ replacement := by decide
  have hn : ¬ b.toNat < 0x80 := by omega
  rw [decodeLossy.eq_def]
  simp only [hn, if_false]
  split
  · next h =>
    simp only [Bool.and_eq_true, decide_eq_true_eq] at h
    split
    · exact ⟨_, _, rfl, hr⟩
    · split
      · exact ⟨_, _, rfl, by omega⟩
      · exact ⟨_, _, rfl, hr⟩
  · split
    · split
      · exact ⟨_, _, rfl, hr⟩
      · split
        · next h2 =>
          -- the first two bytes already put the code point at `0x800` or above
          simp only [second3, isCont, Bool.or_eq_true, Bool.and_eq_true, decide_eq_true_eq,
            beq_iff_eq] at h2
          split
          · exact ⟨_, _, rfl, hr⟩
          · split
            · exact ⟨_, _, rfl, by unfold low; omega⟩
            · exact ⟨_, _, rfl, hr⟩
        · exact ⟨_, _, rfl, hr⟩
    · split
      · split
        · exact ⟨_, _, rfl, hr⟩
        · split
          · next h2 =>
            -- and here at `0x10000` or above
            simp only [second4, isCont, Bool.or_eq_true, Bool.and_eq_true, decide_eq_true_eq,
              beq_iff_eq] at h2
            split
            · exact ⟨_, _, rfl, hr⟩
            · split
              · split
                · exact ⟨_, _, rfl, hr⟩
                · split
                  · exact ⟨_, _, rfl, by unfold low; omega⟩
                  · exact ⟨_, _, rfl, hr⟩
              · exact ⟨_, _, rfl, hr⟩
          · exact ⟨_, _, rfl, hr⟩
      · exact ⟨_, _, rfl, hr⟩

/-- **An ASCII word starts the text exactly when its bytes start the input.** -/
theorem prefix_iff {w : List UInt8} (hw : ∀ b ∈ w, b.toNat < 0x80) (bs : List UInt8) :
    w.map UInt8.toNat <+: decodeLossy bs ↔ w <+: bs := by
  induction w generalizing bs with
  | nil => simp
  | cons a w ih =>
    have ha : a.toNat < 0x80 := hw a List.mem_cons_self
    have hw' : ∀ b ∈ w, b.toNat < 0x80 := fun b hb => hw b (List.mem_cons_of_mem _ hb)
    cases bs with
    | nil => simp [decodeLossy]
    | cons b bs =>
      by_cases hb : b.toNat < 0x80
      · rw [decodeLossy_ascii hb, List.map_cons, List.cons_prefix_cons, List.cons_prefix_cons,
          ih hw', UInt8.toNat_inj]
      · obtain ⟨c, t, hct, hc⟩ := decodeLossy_head (by omega : 0x80 ≤ b.toNat) bs
        rw [hct, List.map_cons, List.cons_prefix_cons, List.cons_prefix_cons]
        constructor
        · rintro ⟨h, -⟩; omega
        · rintro ⟨h, -⟩; rw [h] at ha; omega

end Utf8
