import Mathlib.Algebra.Order.Ring.Nat
import Mathlib.Data.List.Basic

/-!
# Length-prefixed framing

A list `d` is framed by a fixed-width header holding its length, followed by `d`
itself; a list of lists is framed one after the other.  The header is a
`LengthHeader`: an encoding of the lengths below a limit, carrying the laws that
make it one.  `U32.leHeader` is the four-byte little-endian header.

The point of the framing is that it can be cut back into the same pieces
whatever follows: `frames_prefix` says that if a whole number of frames is a
prefix of a framed list, the framed pieces are its first pieces.  Cut anywhere, the
framed list is the frames that are `complete` at the cut, and a `remainder`.
-/

universe u

/-- A fixed-width encoding of the lengths below `limit`. -/
structure LengthHeader (β : Type u) where
  width : Nat
  limit : Nat
  encode : Nat → List β
  decode : List β → Nat
  width_pos : 0 < width
  length_encode : ∀ n, (encode n).length = width
  decode_encode : ∀ n, n < limit → decode (encode n) = n
  encode_decode : ∀ h, h.length = width → encode (decode h) = h
  decode_lt : ∀ h, h.length = width → decode h < limit

namespace LengthHeader
variable {β : Type u} (H : LengthHeader β)

/-- One framed piece. -/
def frame (d : List β) : List β := H.encode d.length ++ d

/-- The framed pieces, one after the other. -/
def frames (ds : List (List β)) : List β := (ds.map H.frame).flatten

/-- Every piece is short enough for the header. -/
def Fits (ds : List (List β)) : Prop := ∀ d ∈ ds, d.length < H.limit

@[simp] theorem length_frame (d : List β) : (H.frame d).length = H.width + d.length := by
  rw [frame, List.length_append, H.length_encode]

@[simp] theorem frames_nil : H.frames [] = [] := rfl

@[simp] theorem frames_cons (d : List β) (ds : List (List β)) :
    H.frames (d :: ds) = H.frame d ++ H.frames ds := by simp [frames]

@[simp] theorem frames_append (ds es : List (List β)) :
    H.frames (ds ++ es) = H.frames ds ++ H.frames es := by simp [frames]

theorem fits_nil : H.Fits [] := fun _ h => absurd h List.not_mem_nil

theorem fits_append {ds es : List (List β)} : H.Fits (ds ++ es) ↔ H.Fits ds ∧ H.Fits es := by
  simp [Fits, or_imp, forall_and]

/-- A header read off the front of a list is the frame header of the piece it
announces. -/
theorem frame_of_header {h d : List β} (hh : h.length = H.width) (hd : d.length = H.decode h) :
    H.frame d = h ++ d := by
  rw [frame, hd, H.encode_decode h hh]

/-- Two framed pieces that agree as far as the first one goes are the same. -/
theorem frame_append_prefix {d e x y : List β} (hd : d.length < H.limit)
    (he : e.length < H.limit) (h : H.frame d ++ x <+: H.frame e ++ y) :
    d = e ∧ x <+: y := by
  obtain ⟨z, hz⟩ := h
  simp only [frame, List.append_assoc] at hz
  obtain ⟨hhead, htail⟩ := List.append_inj hz ((H.length_encode _).trans (H.length_encode _).symm)
  have hlen : d.length = e.length := by
    rw [← H.decode_encode _ hd, hhead, H.decode_encode _ he]
  obtain ⟨rfl, hxy⟩ := List.append_inj htail hlen
  exact ⟨rfl, z, hxy⟩

/-- **Whole frames at the front of a framed list are its first pieces.** -/
theorem frames_prefix {ds es : List (List β)} {x : List β} (hds : H.Fits ds) (hes : H.Fits es)
    (h : H.frames ds ++ x <+: H.frames es) : ds <+: es := by
  induction ds generalizing es with
  | nil => exact List.nil_prefix
  | cons d ds ih =>
    cases es with
    | nil =>
      have := h.length_le
      have hw := H.width_pos
      simp at this
      omega
    | cons e es =>
      rw [frames_cons, frames_cons, List.append_assoc] at h
      obtain ⟨rfl, hrest⟩ := H.frame_append_prefix (hds d List.mem_cons_self)
        (hes e List.mem_cons_self) h
      exact (List.prefix_cons_inj d).mpr
        (ih (fun d hd => hds d (List.mem_cons_of_mem _ hd))
          (fun e he => hes e (List.mem_cons_of_mem _ he)) hrest)

/-! ### Cutting a framed list short -/

/-- The pieces whose frames lie within the first `n` elements. -/
def complete : Nat → List (List β) → List (List β)
  | _, [] => []
  | n, d :: ds =>
    if (H.frame d).length ≤ n then d :: complete (n - (H.frame d).length) ds else []

/-- What the first `n` elements hold behind their complete frames. -/
def remainder (n : Nat) (ds : List (List β)) : List β :=
  ((H.frames ds).take n).drop (H.frames (H.complete n ds)).length

@[simp] theorem complete_nil (n : Nat) : H.complete n [] = [] := by rw [complete]

@[simp] theorem complete_zero (ds : List (List β)) : H.complete 0 ds = [] := by
  cases ds with
  | nil => exact H.complete_nil 0
  | cons d ds =>
    have hw := H.width_pos
    rw [complete, if_neg (by rw [length_frame]; omega)]

@[simp] theorem remainder_nil (n : Nat) : H.remainder n [] = [] := by simp [remainder]

theorem complete_prefix (n : Nat) (ds : List (List β)) : H.complete n ds <+: ds := by
  induction ds generalizing n with
  | nil => exact H.complete_nil n ▸ List.prefix_rfl
  | cons d ds ih =>
    rw [complete]
    split
    · exact (List.prefix_cons_inj d).mpr (ih _)
    · exact List.nil_prefix

theorem complete_append (cs es : List (List β)) (k : Nat) :
    H.complete ((H.frames cs).length + k) (cs ++ es) = cs ++ H.complete k es := by
  induction cs with
  | nil => simp
  | cons c cs ih =>
    rw [frames_cons, List.length_append, List.cons_append, complete, if_pos (by omega),
      List.cons_append, ← ih]
    congr 2
    omega

theorem remainder_append (cs es : List (List β)) (k : Nat) :
    H.remainder ((H.frames cs).length + k) (cs ++ es) = H.remainder k es := by
  rw [remainder, complete_append, frames_append, frames_append, List.take_length_add_append,
    List.length_append, ← List.drop_drop, List.drop_left, remainder]

/-- The complete frames lie within the first `n` elements. -/
theorem length_frames_complete_le (n : Nat) (ds : List (List β)) :
    (H.frames (H.complete n ds)).length ≤ n := by
  induction ds generalizing n with
  | nil => simp
  | cons d ds ih =>
    rw [complete]
    split
    · next h =>
      have := ih (n - (H.frame d).length)
      rw [frames_cons, List.length_append]
      omega
    · exact Nat.zero_le _

/-- **The first `n` elements** are the complete frames, and the remainder. -/
theorem take_frames (n : Nat) (ds : List (List β)) :
    (H.frames ds).take n = H.frames (H.complete n ds) ++ H.remainder n ds := by
  obtain ⟨es, hes⟩ := H.complete_prefix n ds
  have hpre : H.frames (H.complete n ds) <+: (H.frames ds).take n := by
    rw [List.prefix_take_iff]
    refine ⟨?_, H.length_frames_complete_le n ds⟩
    conv_rhs => rw [← hes]
    rw [frames_append]
    exact List.prefix_append _ _
  obtain ⟨x, hx⟩ := hpre
  rw [remainder, ← hx, List.drop_left]

/-- **Behind the pieces complete at `n`** the list goes on as one cut `j` elements in. -/
theorem complete_add (n : Nat) (ds : List (List β)) :
    ∃ es j, ds = H.complete n ds ++ es ∧ n = (H.frames (H.complete n ds)).length + j ∧
      ∀ k, H.complete (n + k) ds = H.complete n ds ++ H.complete (j + k) es ∧
        H.remainder (n + k) ds = H.remainder (j + k) es := by
  obtain ⟨es, hes⟩ := H.complete_prefix n ds
  obtain ⟨j, hj⟩ := Nat.exists_eq_add_of_le (H.length_frames_complete_le n ds)
  refine ⟨es, j, hes.symm, hj, fun k => ?_⟩
  generalize H.complete n ds = cs at hes hj
  subst hes hj
  rw [Nat.add_assoc]
  exact ⟨H.complete_append cs es _, H.remainder_append cs es _⟩

end LengthHeader

namespace U32

/-- The four bytes of a 32-bit number, lowest first. -/
def toLeBytes (n : Nat) : List UInt8 :=
  [UInt8.ofNat n, UInt8.ofNat (n / 2 ^ 8), UInt8.ofNat (n / 2 ^ 16), UInt8.ofNat (n / 2 ^ 24)]

/-- The number four bytes hold, lowest first. -/
def fromLeBytes : List UInt8 → Nat
  | [b0, b1, b2, b3] => b0.toNat + b1.toNat * 2 ^ 8 + b2.toNat * 2 ^ 16 + b3.toNat * 2 ^ 24
  | _ => 0

theorem fromLeBytes_toLeBytes (n : Nat) : fromLeBytes (toLeBytes n) = n % 2 ^ 32 := by
  simp only [toLeBytes, fromLeBytes, UInt8.toNat_ofNat']
  omega

theorem toLeBytes_fromLeBytes {h : List UInt8} (hh : h.length = 4) :
    toLeBytes (fromLeBytes h) = h := by
  obtain ⟨b0, b1, b2, b3, rfl⟩ := List.length_eq_four.mp hh
  have h0 := b0.toNat_lt
  have h1 := b1.toNat_lt
  have h2 := b2.toNat_lt
  have h3 := b3.toNat_lt
  simp only [toLeBytes, fromLeBytes, List.cons.injEq, and_true]
  refine ⟨?_, ?_, ?_, ?_⟩ <;> (apply UInt8.toNat_inj.mp; rw [UInt8.toNat_ofNat']; omega)

@[simp] theorem toLeBytes_mod (n : Nat) : toLeBytes (n % 2 ^ 32) = toLeBytes n := by
  rw [← fromLeBytes_toLeBytes, toLeBytes_fromLeBytes rfl]

theorem fromLeBytes_lt {h : List UInt8} (hh : h.length = 4) : fromLeBytes h < 2 ^ 32 := by
  obtain ⟨b0, b1, b2, b3, rfl⟩ := List.length_eq_four.mp hh
  have h0 := b0.toNat_lt
  have h1 := b1.toNat_lt
  have h2 := b2.toNat_lt
  have h3 := b3.toNat_lt
  simp only [fromLeBytes]
  omega

/-- The four-byte little-endian length header. -/
def leHeader : LengthHeader UInt8 where
  width := 4
  limit := 2 ^ 32
  encode := toLeBytes
  decode := fromLeBytes
  width_pos := by omega
  length_encode _ := rfl
  decode_encode n hn := by rw [fromLeBytes_toLeBytes, Nat.mod_eq_of_lt hn]
  encode_decode _ hh := toLeBytes_fromLeBytes hh
  decode_lt _ hh := fromLeBytes_lt hh

end U32
