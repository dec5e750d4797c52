import VeilidTransport.Session

/-!
# Is every data message recognised as data?

A message has no type of its own: `message_type` reads the first bytes.  The first
bytes of a message that `generate_messages` cuts are whatever stands in the stream
at a multiple of 32623 bytes, so the written bytes decide.

`generated_data_iff` says which written bytes: none that put `DIAL`, `LISTEN`,
`STATUS` or `PING` at such a place of what one call of `generate_messages` finds.
`misclassified_blocks` is what follows if they do: the receiver's cursor never
passes the message.
-/

namespace VeilidTransport

/-- The words `message_type` looks for. -/
def words : List Bytes := [dialWord, listenWord, statusWord, pingWord]

theorem messageType_data_iff (x : Bytes) :
    messageType x = .data ↔ ∀ w ∈ words, ¬ w <+: x := by
  rw [messageType_eq_data_iff]
  simp [words]

/-- A word is no longer than a message may be. -/
theorem length_word {w : Bytes} (hw : w ∈ words) :
    0 < w.length ∧ w.length ≤ settings.transportStreamPacketDataSizeBytes := by
  simp only [words, List.mem_cons, List.not_mem_nil, or_false] at hw
  rcases hw with rfl | rfl | rfl | rfl <;> decide

namespace Outbound

/-- What the node does to the outbound half of a stream to put data into its queue. -/
inductive Op where
  | insert (data : Bytes)
  | generate

def perform (o : Outbound) : Op → Outbound
  | .insert data => o.insertToOutboundStream data
  | .generate => o.generateMessages

/-- What each call of `generate_messages` finds in the stream, `stream` being there at
first. -/
def batches (stream : Bytes) : List Op → List Bytes
  | [] => []
  | .insert data :: ops => batches (stream ++ U32.leHeader.frame data) ops
  | .generate :: ops => stream :: batches [] ops

/-- The messages are the chunks of the batches. -/
theorem run_generated (ops : List Op) (o : Outbound) :
    (Runs.run perform o ops).generated.map Prod.snd = o.generated.map Prod.snd ++
      (batches o.stream ops).flatMap
        (Chunks.chunks settings.transportStreamPacketDataSizeBytes) := by
  induction ops generalizing o with
  | nil => simp [batches]
  | cons op ops ih =>
    rw [Runs.run_cons, ih]
    cases op with
    | insert data =>
      rw [perform, insertToOutboundStream_generated, insertToOutboundStream_stream, batches]
    | generate =>
      rw [perform, generateMessages_data, generateMessages_stream, batches, List.flatMap_cons,
        List.append_assoc]

/-- A chunk starts with a word exactly if the word stands at the chunk's place. -/
theorem chunks_data_iff (b : Bytes) :
    (∀ c ∈ Chunks.chunks settings.transportStreamPacketDataSizeBytes b,
      messageType c = .data) ↔
    ∀ w ∈ words, ∀ i, ¬ w <+: b.drop (i * settings.transportStreamPacketDataSizeBytes) := by
  have hlim : 0 < settings.transportStreamPacketDataSizeBytes := by decide
  constructor
  · intro h w hw i hpre
    obtain ⟨hpos, hle⟩ := length_word hw
    have hi : i * settings.transportStreamPacketDataSizeBytes < b.length := by
      have := hpre.length_le
      rw [List.length_drop] at this
      omega
    have hc := (Chunks.mem_chunks_iff hlim).mpr ⟨i, hi, rfl⟩
    apply (messageType_data_iff _).mp (h _ hc) w hw
    -- the word is shorter than a chunk, so cutting the chunk off keeps it
    rw [List.prefix_take_iff]
    exact ⟨hpre, hle⟩
  · intro h c hc
    obtain ⟨i, -, rfl⟩ := (Chunks.mem_chunks_iff hlim).mp hc
    rw [messageType_data_iff]
    intro w hw hpre
    exact h w hw i (hpre.trans (List.take_prefix _ _))

/-- **Every message is recognised as data exactly when no batch has a word at a
multiple of the message size.** -/
theorem generated_data_iff (now : Instant) (ops : List Op) :
    (∀ e ∈ (Runs.run perform (new now) ops).generated, messageType e.2 = .data) ↔
    ∀ b ∈ batches [] ops, ∀ w ∈ words, ∀ i,
      ¬ w <+: b.drop (i * settings.transportStreamPacketDataSizeBytes) := by
  have hgen : (Runs.run perform (new now) ops).generated.map Prod.snd =
      (batches [] ops).flatMap (Chunks.chunks settings.transportStreamPacketDataSizeBytes) := by
    rw [run_generated]
    rfl
  have hmap : (∀ e ∈ (Runs.run perform (new now) ops).generated, messageType e.2 = .data) ↔
      ∀ c ∈ (Runs.run perform (new now) ops).generated.map Prod.snd, messageType c = .data := by
    rw [List.forall_mem_map]
  rw [hmap, hgen, List.forall_mem_flatMap]
  constructor
  · intro h b hb
    exact (chunks_data_iff b).mp (h b hb)
  · intro h b hb
    exact (chunks_data_iff b).mpr (h b hb)

/-- The four bytes behind a full message are a message of their own. -/
theorem dialWord_mem_chunks {x : Bytes} (h : x.length = 32619) :
    dialWord ∈ Chunks.chunks settings.transportStreamPacketDataSizeBytes
      (U32.leHeader.frame (x ++ dialWord)) := by
  have hhead : ∀ n, (U32.toLeBytes n).length = 4 := fun _ => rfl
  have hword : dialWord.length = 4 := rfl
  have hlim : settings.transportStreamPacketDataSizeBytes = 32623 := rfl
  have hframe : U32.leHeader.frame (x ++ dialWord) =
      (U32.toLeBytes (x ++ dialWord).length ++ x) ++ dialWord := (List.append_assoc _ _ _).symm
  rw [Chunks.mem_chunks_iff (by decide), hframe, hlim]
  refine ⟨1, ?_, ?_⟩
  · simp only [List.length_append, hhead, hword, h]
    omega
  · rw [List.drop_left' (by rw [List.length_append, hhead, h]), List.take_of_length_le (by omega)]

/-- A write that ends with the word for a dial behind a full message is not all data. -/
theorem not_data_of_full {x : Bytes} (h : x.length = 32619) :
    (x ++ dialWord).length < 2 ^ 32 ∧
    ¬ ∀ e ∈ (Runs.run perform (new 0) [.insert (x ++ dialWord), .generate]).generated,
      messageType e.2 = .data := by
  have hword : dialWord.length = 4 := rfl
  have hlen : (x ++ dialWord).length = 32619 + 4 := by rw [List.length_append, h, hword]
  refine ⟨by omega, fun hall => ?_⟩
  have hmem : dialWord ∈
      (Runs.run perform (new 0) [.insert (x ++ dialWord), .generate]).generated.map Prod.snd := by
    rw [run_generated]
    simpa [batches, new] using dialWord_mem_chunks h
  obtain ⟨e, he, heq⟩ := List.mem_map.mp hmem
  have hdial := messageType_dial []
  rw [List.append_nil, ← heq, hall e he] at hdial
  cases hdial

/-- One write can make a message that is taken for a dial: its second message is the
four bytes that end it. -/
theorem generated_dial :
    let buf := List.replicate 32619 0 ++ dialWord
    buf.length < 2 ^ 32 ∧
    ¬ ∀ e ∈ (Runs.run perform (new 0) [.insert buf, .generate]).generated,
      messageType e.2 = .data := by
  intro buf
  exact not_data_of_full List.length_replicate

end Outbound

/-! ## What a misclassified message does to a session -/

namespace Session
open VeilidStream
variable {PublicKey : Type} [KeyCodec] [Identity PublicKey]

/-- The generated messages that are recognised as data. -/
def dataOf (o : Outbound) : List (Nat × Bytes) :=
  o.generated.filter fun e => messageType e.2 = .data

omit [KeyCodec] [Identity PublicKey] in
theorem mem_dataOf {o : Outbound} {e : Nat × Bytes} :
    e ∈ dataOf o ↔ e ∈ o.generated ∧ messageType e.2 = .data := by simp [dataOf]

/-- A receiver takes in what is recognised as data. -/
def TakesData (s : Session PublicKey) : Prop :=
  ∀ d, (s.get d).stream.inbound.TakenFrom (dataOf (s.get d.other).stream.outbound)

theorem TakesData.set {s : Session PublicKey} (h : s.TakesData) (hl : s.Linked) {d : Side}
    {e : Endpoint PublicKey} {m : AppMessage} (hh : Handles m (s.get d).stream e.stream)
    (hdata : messageType m.data = .data →
      (m.seq, m.data) ∈ (s.get d.other).stream.outbound.generated) :
    TakesData (s.set d e) := by
  obtain ⟨hg, -⟩ := Handles.consistent hh (hl.consistent d)
  refine Pair.set_forall_peer (R := fun _ (x y : Endpoint PublicKey) =>
    x.stream.inbound.TakenFrom (dataOf y.stream.outbound)) ?_ ?_
  · exact Handles.takenFrom hh (hl.consistent _) (h _)
      fun hm => mem_dataOf.mpr ⟨hdata hm, hm⟩
  · have ht := h d.other
    rw [Side.other_other] at ht
    refine ht.mono fun e he => ?_
    obtain ⟨he, hm⟩ := mem_dataOf.mp he
    exact mem_dataOf.mpr ⟨hg.generated.subset he, hm⟩

theorem step_takesData (s : Session PublicKey) (a : Action) (hl : s.Linked) (h : s.TakesData) :
    (s.step a).TakesData := by
  cases a with
  | act d a =>
    refine h.set hl ((Endpoint.works_act (s.get d) a).quietly.handles
      (silent (s.get d).stream.localAddress)) fun hm => ?_
    rw [silent, messageType_status] at hm
    cases hm
  | deliver d k =>
    rw [step]
    split
    · exact h
    · next p hp =>
      rw [Endpoint.receive]
      split
      · rw [Pair.set_get]
        exact h
      · next m hm =>
        have hv := (hl.consistent d.other).vouches p (List.mem_of_getElem? hp)
        obtain ⟨-, -, hdata⟩ := decodeMessage_vouched hv hm
        exact h.set hl (convertRegistered_handles _ _ _ _) hdata

/-- **A misclassified message blocks its direction for good**: in every state of every
session the receiver's cursor stays below it. -/
theorem misclassified_blocks {s : Session PublicKey} (h : s.Paired) (as : List Action) (d : Side)
    (hfew : Few (Runs.run step s as)) {k : Nat} {e : Nat × Bytes}
    (he : ((Runs.run step s as).get d.other).stream.outbound.generated[k]? = some e)
    (hm : messageType e.2 ≠ .data) :
    ((Runs.run step s as).get d).stream.inbound.receivedSeq ≤ k := by
  have hstep : ∀ (s : Session PublicKey) (a : Action), s.Linked ∧ s.TakesData →
      (s.step a).Linked ∧ (s.step a).TakesData :=
    fun s a h => ⟨step_linked s a h.1, step_takesData s a h.1 h.2⟩
  have h0 : s.TakesData := by
    intro x
    obtain ⟨t, hi⟩ := h.inbound x
    rw [hi]
    exact Inbound.takenFrom_new t _
  obtain ⟨hl, ht⟩ := Runs.invariant hstep ⟨h.linked, h0⟩ as
  have hlt : ((Runs.run step s as).get d.other).stream.outbound.generated.length < 2 ^ 32 :=
    Nat.lt_of_lt_of_le (hfew d.other) (by omega)
  by_contra hk
  -- the receiver has appended something under the number `k + 1`
  have hidx : k < ((Runs.run step s as).get d).stream.inbound.appended.length := by
    rw [(hl.consistent d).counted.length_appended]
    omega
  obtain ⟨hmem, hdata⟩ := mem_dataOf.mp ((ht d).appended k _ (List.getElem?_eq_getElem hidx))
  have hget := (hl.consistent d.other).numbered.getElem_of_mem hlt hmem
  rw [hget] at he
  obtain rfl := Option.some.inj he
  exact hm hdata

end Session
end VeilidTransport
