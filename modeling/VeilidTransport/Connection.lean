import VeilidTransport.Stream

/-!
# Connections

A `VeilidConnection` is a reader and a writer over one stream.  It has no state
of its own: `pollRead` and `pollWrite` are operations on the stream, refused once
the stream has expired.
-/

namespace VeilidTransport

/-- What a poll answers: a result, an error, or nothing yet. -/
inductive Poll (α : Type) where
  | ready (a : α)
  | error
  | pending
  deriving DecidableEq

namespace VeilidStream
variable {PublicKey : Type}

/-- Read up to `len` bytes; with nothing to read the reader leaves its waker. -/
def pollRead (s : VeilidStream PublicKey) (now : Instant) (waker : Waker) (len : Nat) :
    Poll Bytes × VeilidStream PublicKey :=
  if s.isExpired now then (.error, s)
  else
    match s.readInboundStream len with
    | (some data, s) => (.ready data, s)
    | (none, s) => (.pending, { s with waker := some waker })

/-- Accept the whole buffer; the answer is the number of bytes accepted and
whether sending them is spawned. -/
def pollWrite (s : VeilidStream PublicKey) (now : Instant) (buf : Bytes) :
    Poll (Nat × Bool) × VeilidStream PublicKey :=
  if s.isExpired now then (.error, s)
  else
    match s.insertToOutboundStream now buf with
    | (s, spawned) => (.ready (buf.length, spawned), s)

/-- **What a read does**: refuse, or hand out bytes from the front of the stream, or
leave the waker. -/
theorem pollRead_cases (s : VeilidStream PublicKey) (now : Instant) (waker : Waker) (len : Nat) :
    (s.isExpired now = true ∧ s.pollRead now waker len = (.error, s)) ∨
    (s.isExpired now = false ∧ s.inbound.stream ≠ [] ∧ s.pollRead now waker len =
      (.ready (s.inbound.stream.take len),
        { s with inbound := { s.inbound with stream := s.inbound.stream.drop len } })) ∨
    (s.isExpired now = false ∧ s.inbound.stream = [] ∧ s.pollRead now waker len =
      (.pending, { s with waker := some waker })) := by
  unfold pollRead readInboundStream Inbound.readInboundStream
  cases hx : s.isExpired now with
  | true => exact .inl ⟨rfl, by simp⟩
  | false =>
    by_cases hs : s.inbound.stream = []
    · refine .inr (.inr ⟨rfl, hs, ?_⟩)
      simp [hs]
    · refine .inr (.inl ⟨rfl, hs, ?_⟩)
      have htake : s.inbound.stream.take (min len s.inbound.stream.length) =
          s.inbound.stream.take len := Outbound.take_min_length _ _
      have hdrop : s.inbound.stream.drop (min len s.inbound.stream.length) =
          s.inbound.stream.drop len := by
        rcases Nat.le_total len s.inbound.stream.length with h | h
        · rw [Nat.min_eq_left h]
        · rw [Nat.min_eq_right h, List.drop_length, List.drop_of_length_le h]
      simp [hs, htake, hdrop]

/-- **What a write does**: refuse, or put the whole buffer behind its length. -/
theorem pollWrite_cases (s : VeilidStream PublicKey) (now : Instant) (buf : Bytes) :
    (s.isExpired now = true ∧ s.pollWrite now buf = (.error, s)) ∨
    (s.isExpired now = false ∧ s.pollWrite now buf =
      (.ready (buf.length, s.isActive now),
        { s with outbound := s.outbound.insertToOutboundStream buf })) := by
  unfold pollWrite insertToOutboundStream
  cases hx : s.isExpired now with
  | true => exact .inl ⟨rfl, by simp⟩
  | false => exact .inr ⟨rfl, by simp⟩

/-- A reader is refused exactly when the stream has expired, and so is a writer. -/
theorem poll_error_iff (s : VeilidStream PublicKey) (now : Instant) (waker : Waker) (len : Nat)
    (buf : Bytes) :
    ((s.pollRead now waker len).1 = .error ↔ s.isExpired now = true) ∧
    ((s.pollWrite now buf).1 = .error ↔ s.isExpired now = true) := by
  constructor
  · rcases pollRead_cases s now waker len with ⟨hx, h⟩ | ⟨hx, -, h⟩ | ⟨hx, -, h⟩
    · simp [h, hx]
    · simp [h, hx]
    · simp [h, hx]
  · rcases pollWrite_cases s now buf with ⟨hx, h⟩ | ⟨hx, h⟩
    · simp [h, hx]
    · simp [h, hx]

end VeilidStream
end VeilidTransport
