import VeilidTransport.Stream
import VeilidTransport.Sample
import VeilidTransport.Foundation.Runs

/-!
# De-framing in pieces

The bytes of a framed list of slices reach `buffer` in pieces, cut where the
messages happen to be cut, and `update_inbound_stream` runs after each piece.  A
piece can end anywhere: inside a header, inside a slice, or between two slices.

What the buffer holds after `n` bytes depends on the slices and on `n` alone: it is
the `remainder` behind the slices that are complete in the first `n` bytes.  What
reaches the stream does depend on the pieces.  A piece that ends one, two or three
bytes into a header (`HeaderCut`) makes the loop return, and the slices which that
piece has completed are dropped.  So the stream gets every slice exactly when such a
piece completes none that holds a byte (`KeepsSlices`).
-/

namespace VeilidTransport
open Runs

/-! ## The loop on a prefix of a framed list -/

/-- The first `n` bytes end inside a header, behind its first byte. -/
def HeaderCut (ds : List Bytes) (n : Nat) : Prop :=
  0 < (U32.leHeader.remainder n ds).length ∧ (U32.leHeader.remainder n ds).length < 4

instance (ds : List Bytes) (n : Nat) : Decidable (HeaderCut ds n) :=
  inferInstanceAs (Decidable (_ ∧ _))

theorem headerCut_iff {ds : List Bytes} {n : Nat} : HeaderCut ds n ↔
    0 < (U32.leHeader.remainder n ds).length ∧ (U32.leHeader.remainder n ds).length < 4 := Iff.rfl

/-- The slices that `k` bytes after the first `n` complete. -/
def completedBy (ds : List Bytes) (n k : Nat) : List Bytes :=
  (U32.leHeader.complete (n + k) ds).drop (U32.leHeader.complete n ds).length

namespace Inbound

/-- A frame cut short: the loop cuts nothing off, and returns inside the header. -/
theorem sliceLoop_short {d : Bytes} (hd : d.length < 2 ^ 32) {n : Nat}
    (hn : n < (U32.leHeader.frame d).length) (fuel : Nat) (hfuel : n ≤ fuel) :
    sliceLoop fuel ((U32.leHeader.frame d).take n) =
      ([], (U32.leHeader.frame d).take n, decide (0 < n ∧ n < 4)) := by
  have hlen : ((U32.leHeader.frame d).take n).length = n := by
    rw [List.length_take]
    omega
  cases fuel with
  | zero =>
    obtain rfl : n = 0 := Nat.le_zero.mp hfuel
    rfl
  | succ fuel =>
    rw [sliceLoop]
    by_cases h0 : n = 0
    · subst h0
      rfl
    · rw [if_neg (fun h => h0 (by rw [← hlen, h]; rfl)), hlen]
      by_cases h4 : n < 4
      · rw [if_pos h4, decide_eq_true ⟨Nat.pos_of_ne_zero h0, h4⟩]
      · have hhead : ((U32.leHeader.frame d).take n).take 4 = U32.toLeBytes d.length := by
          rw [List.take_take, Nat.min_eq_left (Nat.le_of_not_lt h4)]
          exact List.take_left' rfl
        have hshort : ¬ d.length + 4 ≤ n := by
          rw [LengthHeader.length_frame] at hn
          have hw : U32.leHeader.width = 4 := rfl
          omega
        rw [if_neg h4, hhead, U32.fromLeBytes_toLeBytes, Nat.mod_eq_of_lt hd]
        simp only
        rw [if_neg hshort, decide_eq_false (fun h => h4 h.2)]

/-- **On the first `n` bytes of a framed list** the loop cuts off the complete slices,
leaves the remainder, and returns if that is part of a header. -/
theorem sliceLoop_take {ds : List Bytes} (hds : U32.leHeader.Fits ds) (n fuel : Nat)
    (hfuel : ((U32.leHeader.frames ds).take n).length ≤ fuel) :
    sliceLoop fuel ((U32.leHeader.frames ds).take n) =
      (U32.leHeader.complete n ds, U32.leHeader.remainder n ds, decide (HeaderCut ds n)) := by
  induction ds generalizing n fuel with
  | nil =>
    rw [LengthHeader.frames_nil, List.take_nil, LengthHeader.complete_nil,
      decide_eq_false (by rw [headerCut_iff]; simp), LengthHeader.remainder_nil]
    cases fuel with
    | zero => rfl
    | succ fuel => rfl
  | cons d ds ih =>
    have hd : d.length < 2 ^ 32 := hds d List.mem_cons_self
    by_cases hn : (U32.leHeader.frame d).length ≤ n
    · -- the first frame is complete: the loop cuts it off and goes on behind it
      obtain ⟨k, rfl⟩ := Nat.exists_eq_add_of_le hn
      have hone : U32.leHeader.frames [d] = U32.leHeader.frame d := by simp
      have hc := U32.leHeader.complete_append [d] ds k
      have hr := U32.leHeader.remainder_append [d] ds k
      rw [hone, List.singleton_append] at hc hr
      rw [LengthHeader.frames_cons, List.take_length_add_append] at hfuel ⊢
      have hw : U32.leHeader.width = 4 := rfl
      rw [List.length_append, LengthHeader.length_frame] at hfuel
      obtain ⟨fuel, rfl⟩ : ∃ f, fuel = f + 1 := ⟨fuel - 1, by omega⟩
      have hcut : HeaderCut (d :: ds) ((U32.leHeader.frame d).length + k) ↔ HeaderCut ds k := by
        rw [headerCut_iff, headerCut_iff, hr]
      rw [sliceLoop_frame hd, ih (fun e he => hds e (List.mem_cons_of_mem _ he)) k fuel (by omega),
        hc, hr, decide_eq_decide.mpr hcut]
      rfl
    · have htake : (U32.leHeader.frames (d :: ds)).take n = (U32.leHeader.frame d).take n := by
        rw [LengthHeader.frames_cons, List.take_append_of_le_length (by omega)]
      have hc : U32.leHeader.complete n (d :: ds) = [] := by
        rw [LengthHeader.complete, if_neg hn]
      have hr : U32.leHeader.remainder n (d :: ds) = (U32.leHeader.frame d).take n := by
        rw [LengthHeader.remainder, hc, htake]
        rfl
      have hlen : ((U32.leHeader.frame d).take n).length = n := by
        rw [List.length_take]
        omega
      rw [htake] at hfuel ⊢
      rw [sliceLoop_short hd (by omega) fuel (by omega), hc, hr,
        decide_eq_decide.mpr (headerCut_iff.trans (by rw [hr, hlen]))]

end Inbound

/-! ## Feeding pieces -/

namespace VeilidStream
variable {PublicKey : Type}

def recvInboundBuffer (s : VeilidStream PublicKey) (data : Bytes) : VeilidStream PublicKey :=
  { s with inbound := s.inbound.recvInboundBuffer data }

/-- `recv_inbound_buffer`, followed by `update_inbound_stream`. -/
def feed (s : VeilidStream PublicKey) (piece : Bytes) : VeilidStream PublicKey :=
  (s.recvInboundBuffer piece).updateInboundStream

/-- From `s`, the slices complete in the first `n` bytes have been appended to the
stream, and the buffer holds the bytes behind them. -/
structure Deframed (s s' : VeilidStream PublicKey) (ds : List Bytes) (n : Nat) : Prop where
  stream : s'.inbound.stream = s.inbound.stream ++ (U32.leHeader.complete n ds).flatten
  buffer : s'.inbound.buffer = U32.leHeader.remainder n ds

/-- Behind the bytes `before`, the piece ends in no header, or it completes no slice that
holds a byte. -/
def KeepsSlices (ds : List Bytes) (before piece : Bytes) : Prop :=
  HeaderCut ds (before.length + piece.length) →
    (completedBy ds before.length piece.length).flatten = []

instance (ds : List Bytes) (before piece : Bytes) : Decidable (KeepsSlices ds before piece) :=
  inferInstanceAs (Decidable (_ → _))

/-- The slices complete so far, and those completed next. -/
theorem complete_add_eq (ds : List Bytes) (n k : Nat) :
    U32.leHeader.complete (n + k) ds = U32.leHeader.complete n ds ++ completedBy ds n k := by
  obtain ⟨es, j, -, -, hadd⟩ := U32.leHeader.complete_add n ds
  rw [completedBy, (hadd k).1, List.drop_left]

/-- The slices that one piece completes, and those that the next completes. -/
theorem completedBy_add (ds : List Bytes) (n j k : Nat) :
    completedBy ds n (j + k) = completedBy ds n j ++ completedBy ds (n + j) k := by
  apply (List.append_right_inj (U32.leHeader.complete n ds)).mp
  rw [← complete_add_eq, ← Nat.add_assoc, complete_add_eq, complete_add_eq, List.append_assoc]

/-- **What one piece does**: the buffer holds the remainder again, and the stream gets
the slices the piece completes, unless the piece ends inside a header. -/
theorem feed_eq {s : VeilidStream PublicKey} {ds : List Bytes} (hds : U32.leHeader.Fits ds)
    {before piece : Bytes} (hs : s.inbound.buffer = U32.leHeader.remainder before.length ds)
    (hp : before ++ piece <+: U32.leHeader.frames ds) :
    (s.feed piece).inbound.buffer = U32.leHeader.remainder (before.length + piece.length) ds ∧
    (s.feed piece).inbound.stream = s.inbound.stream ++
      if HeaderCut ds (before.length + piece.length) then []
      else (completedBy ds before.length piece.length).flatten := by
  obtain ⟨woken, hw⟩ := updateInboundStream_eq (s.recvInboundBuffer piece)
  obtain ⟨es, j, hes, hn, hadd⟩ := U32.leHeader.complete_add before.length ds
  obtain ⟨hc, hr⟩ := hadd piece.length
  -- the buffer and the piece are the front of the frames that are not complete yet
  have hbuf : s.inbound.buffer ++ piece =
      (U32.leHeader.frames es).take (j + piece.length) := by
    have hbefore := U32.leHeader.take_frames before.length ds
    rw [← hs, ← List.prefix_iff_eq_take.mp ((List.prefix_append _ _).trans hp)] at hbefore
    have hframes : U32.leHeader.frames ds =
        U32.leHeader.frames (U32.leHeader.complete before.length ds) ++ U32.leHeader.frames es := by
      rw [← U32.leHeader.frames_append, ← hes]
    have htake := List.prefix_iff_eq_take.mp hp
    rw [List.length_append] at htake
    have hlen : before.length + piece.length =
        (U32.leHeader.frames (U32.leHeader.complete before.length ds)).length +
          (j + piece.length) := by
      rw [← Nat.add_assoc, ← hn]
    rw [hlen, hframes, List.take_length_add_append] at htake
    apply (List.append_right_inj (U32.leHeader.frames (U32.leHeader.complete _ ds))).mp
    rw [← List.append_assoc, ← hbefore]
    exact htake
  have hby : completedBy ds before.length piece.length =
      U32.leHeader.complete (j + piece.length) es := by
    rw [completedBy, hc, List.drop_left]
  have hes' : U32.leHeader.Fits es := (U32.leHeader.fits_append.mp (hes ▸ hds)).2
  have hcut : HeaderCut ds (before.length + piece.length) ↔ HeaderCut es (j + piece.length) := by
    rw [headerCut_iff, headerCut_iff, hr]
  have hloop := Inbound.sliceLoop_take hes' (j + piece.length) _ (Nat.le_refl _)
  rw [feed, hw, hby, hr]
  simp only [recvInboundBuffer, Inbound.updateInboundStream, Inbound.pushSlices,
    Inbound.takeCompleteSlices, Inbound.recvInboundBuffer, hbuf, hloop, true_and]
  by_cases h : HeaderCut es (j + piece.length)
  · rw [if_pos (decide_eq_true h), if_pos (hcut.mpr h)]
    rfl
  · rw [if_neg (by rw [decide_eq_false h]; exact Bool.false_ne_true), if_neg (hcut.not.mpr h)]

/-- **Any pieces, fed one after the other**: the buffer holds the remainder, and the
stream has got what the pieces complete exactly if each of them kept its slices. -/
theorem run_feed {s : VeilidStream PublicKey} {ds : List Bytes} (hds : U32.leHeader.Fits ds)
    {before : Bytes} (hs : s.inbound.buffer = U32.leHeader.remainder before.length ds)
    (pieces : List Bytes) (hp : before ++ pieces.flatten <+: U32.leHeader.frames ds) :
    (run feed s pieces).inbound.buffer =
      U32.leHeader.remainder (before.length + pieces.flatten.length) ds ∧
    ∃ got, (run feed s pieces).inbound.stream = s.inbound.stream ++ got ∧
      got.length ≤ (completedBy ds before.length pieces.flatten.length).flatten.length ∧
      (got = (completedBy ds before.length pieces.flatten.length).flatten ↔
        Along List.append (KeepsSlices ds) before pieces) := by
  induction pieces generalizing s before with
  | nil =>
    refine ⟨hs, [], (List.append_nil _).symm, Nat.zero_le _, ?_⟩
    simp [completedBy]
  | cons piece pieces ih =>
    rw [List.flatten_cons, ← List.append_assoc] at hp
    obtain ⟨hbuf, hstream⟩ := feed_eq hds hs ((List.prefix_append _ _).trans hp)
    rw [← List.length_append] at hbuf
    obtain ⟨hbuf', got, hgot, hle, hiff⟩ := ih hbuf hp
    rw [List.length_append] at hbuf' hle hiff
    rw [run_cons, List.flatten_cons, List.length_append, ← Nat.add_assoc, completedBy_add,
      List.flatten_append]
    refine ⟨hbuf', _, by rw [hgot, hstream, List.append_assoc], ?_⟩
    rw [along_cons, KeepsSlices]
    generalize completedBy ds before.length piece.length = first at *
    generalize completedBy ds (before.length + piece.length) pieces.flatten.length = later at *
    by_cases hcut : HeaderCut ds (before.length + piece.length)
    · -- what the piece completed is dropped
      rw [if_pos hcut, List.nil_append, List.length_append]
      refine ⟨by omega, ?_⟩
      constructor
      · intro h
        have hlen := congrArg List.length h
        rw [List.length_append] at hlen
        have hfirst : first.flatten = [] := List.length_eq_zero_iff.mp (by omega)
        rw [hfirst, List.nil_append] at h
        exact ⟨fun _ => hfirst, hiff.mp h⟩
      · rintro ⟨hfirst, hrest⟩
        rw [hfirst hcut, List.nil_append]
        exact hiff.mpr hrest
    · rw [if_neg hcut, List.length_append, List.length_append]
      refine ⟨by omega, ?_⟩
      rw [List.append_cancel_left_eq, hiff]
      exact ⟨fun h => ⟨fun hc => absurd hc hcut, h⟩, fun h => h.2⟩

/-- **De-framing in pieces.**  Fed any pieces of a prefix of the framed slices, a stream
with an empty buffer ends with the complete slices appended and the bytes behind them in
the buffer, exactly if no piece that ends inside a header completes a slice with a byte. -/
theorem deframed_iff {s : VeilidStream PublicKey} (hs : s.inbound.buffer = [])
    {ds : List Bytes} (hds : ∀ d ∈ ds, d.length < 2 ^ 32) {pieces : List Bytes}
    (hp : pieces.flatten <+: U32.leHeader.frames ds) :
    Deframed s (run feed s pieces) ds pieces.flatten.length ↔
      Along List.append (KeepsSlices ds) [] pieces := by
  have hzero : U32.leHeader.remainder 0 ds = [] := by simp [LengthHeader.remainder]
  have hall : completedBy ds 0 pieces.flatten.length =
      U32.leHeader.complete pieces.flatten.length ds := by
    have h := complete_add_eq ds 0 pieces.flatten.length
    rw [Nat.zero_add, LengthHeader.complete_zero, List.nil_append] at h
    exact h.symm
  have hnil : s.inbound.buffer = U32.leHeader.remainder ([] : Bytes).length ds :=
    hs.trans hzero.symm
  obtain ⟨hbuf, got, hgot, -, hiff⟩ := run_feed hds hnil pieces hp
  rw [List.length_nil, Nat.zero_add] at hbuf
  rw [List.length_nil, hall] at hiff
  rw [← hiff]
  constructor
  · rintro ⟨h, -⟩
    rw [hgot] at h
    exact List.append_cancel_left h
  · intro h
    exact ⟨by rw [hgot, h], hbuf⟩

/-- A stream nothing has arrived on. -/
def emptySample : VeilidStream Sample.PublicKey :=
  new (Sample.addressOf 1) (Sample.addressOf 2) (.nodeId (Sample.keyOf 2)) 0
    (Sample.keypairOf 1) 0 0

/-- Cut between the frames and inside a slice, nothing is dropped. -/
theorem deframed_sample :
    Deframed emptySample (run feed emptySample [[1, 0, 0, 0, 7], [2, 0, 0, 0, 8], [9]])
      [[7], [8, 9], []] 11 := by
  apply (deframed_iff rfl _ _).mpr
  · decide
  · decide
  · decide

/-- **A piece that ends one byte into a header** drops the slice before it. -/
theorem piece_drops_slice :
    ¬ Deframed emptySample (run feed emptySample [[1, 0, 0, 0, 7, 1], [0, 0, 0, 8]])
      [[7], [8]] 10 := by
  rintro ⟨h, -⟩
  revert h
  decide

end VeilidStream
end VeilidTransport
