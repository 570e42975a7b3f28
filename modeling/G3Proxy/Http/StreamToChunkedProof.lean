/-
  What the chunked encoder writes: over a reader whose answers are segments
  and waits, to a writer that never fails and never accepts nothing, an
  encoder made by `new_with_no_trailer` writes the chunked message of the
  segments (`Message.ofSegments`: each segment a chunk, its size in
  lowercase hexadecimal, then the last chunk and the empty trailer section)
  and returns its length (`newWithNoTrailer_writes_ofSegments`).

  * `tailEncoding started segs` is what is left to write for the segments
    to come, after the line end of a previous chunk when `started`;
    without it, it is the message of the segments (`tailEncoding_false`).
  * `toWrite` reads off a round's state what is left to write: the rest of
    the header, the rest of the chunk in the reader's window, and the
    segments to come.  `Inv` says that the bytes written and these make the
    whole message, and that `total_write` counts the bytes written.  Each
    block of the loop keeps it (`fillStep_spec`, `headerLoop_spec`,
    `finishStep_spec`, `dataLoop_spec`, `endRound_spec`).
  * `measure` counts the bytes left and the answers of both ends.  A pass of
    the loop that goes on to the next one has written a byte (a chunk in
    progress has data left, `Live`) or taken a segment, and a poll that
    waits has taken an answer or written a byte; this bounds the passes of
    a poll and the polls of a run.
-/
import G3Proxy.Http.StreamToChunked
import G3Proxy.Core.ChunkedCoding

namespace G3Proxy

open AsyncIo Machine Hex ChunkedCoding

/-- What is left to write for the segments to come, after the line end of a
    previous chunk when `started`. -/
def tailEncoding (started : Bool) : List (List UInt8) → List UInt8
  | [] => (if started then crlf else []) ++ [48, 13, 10, 13, 10]
  | s :: ss => (if started then crlf else []) ++ lowerHex s.length ++ crlf ++ s ++ tailEncoding true ss

theorem tailEncoding_true (segs : List (List UInt8)) :
    tailEncoding true segs = crlf ++ tailEncoding false segs := by
  cases segs <;> simp [tailEncoding]

/-- With no chunk before them, the segments are written as their chunked
    message. -/
theorem tailEncoding_false (segs : List (List UInt8)) :
    tailEncoding false segs = (Message.ofSegments segs).encode := by
  induction segs with
  | nil => rfl
  | cons s ss ih =>
    rw [Message.ofSegments_encode_cons, ← ih]
    simp [tailEncoding, tailEncoding_true]

namespace ChunkedEncodeTransferInternal

/-- The header of a chunk is the start of what is left for its segment. -/
theorem tailEncoding_cons_eq (total : Nat) {d : List UInt8} (hd : d ≠ []) (ss : List (List UInt8)) :
    tailEncoding (total != 0) (d :: ss) = staticHeaderFor total d.length true ++ d ++ tailEncoding true ss := by
  have hlen : d.length ≠ 0 := by simpa using hd
  by_cases ht : total = 0 <;> simp [tailEncoding, staticHeaderFor, ht, hlen, crlf]

/-- The header at the end of the stream is all that is left. -/
theorem tailEncoding_nil_eq (total : Nat) : tailEncoding (total != 0) [] = staticHeaderFor total 0 true := by
  by_cases ht : total = 0 <;> simp [tailEncoding, staticHeaderFor, ht, crlf]

theorem staticHeaderFor_ne_nil (total n : Nat) (noTrailer : Bool) : staticHeaderFor total n noTrailer ≠ [] := by
  unfold staticHeaderFor
  split_ifs <;> simp

end ChunkedEncodeTransferInternal

namespace ChunkedEncodeRound

open ChunkedEncodeTransferInternal

/-- What is left to write after the current chunk: until the stream has
    ended, the segments to come, after a line end once a chunk was started
    (some header was made). -/
def rest (s : ChunkedEncodeRound) : List UInt8 :=
  if s.enc.readFinished then []
  else tailEncoding (s.enc.thisChunkSize != 0 || !s.enc.staticHeader.isEmpty) (segments s.reader.events)

/-- What is left to write: the rest of the header, the rest of the chunk in
    the reader's window, and what comes after the chunk. -/
def toWrite (s : ChunkedEncodeRound) : List UInt8 :=
  s.enc.staticHeader.drop s.enc.staticOffset ++ s.reader.buf ++ s.rest

/-- The work left: the bytes to write and the answers of both ends. -/
def measure (s : ChunkedEncodeRound) : Nat :=
  s.toWrite.length + s.reader.events.length + s.writer.events.length

/-- The header is written. -/
def HeaderDone (s : ChunkedEncodeRound) : Prop := s.enc.staticHeader.length ≤ s.enc.staticOffset

/-- A chunk in progress has data left: true whenever a poll returns. -/
def Live (s : ChunkedEncodeRound) : Prop := s.enc.thisChunkSize ≠ 0 → 0 < s.enc.leftChunkSize

/-- A round of an encoder that has `no_trailer` set, reads a segmented reader
    and writes to a steady writer, part way through writing `W` after
    `pre`. -/
structure Inv (pre W : List UInt8) (s : ChunkedEncodeRound) : Prop where
  written : s.writer.written ++ s.toWrite = pre ++ W
  total : s.writer.written.length = pre.length + s.enc.totalWrite
  no_trailer : s.enc.noTrailer = true
  buf_len : s.reader.buf.length = s.enc.leftChunkSize
  /-- between chunks the header is written, the window consumed, and a
      header was made once some bytes were written -/
  idle : s.enc.thisChunkSize = 0 → s.enc.readFinished = false →
    s.HeaderDone ∧ s.enc.leftChunkSize = 0 ∧ (s.enc.staticHeader = [] ↔ s.enc.totalWrite = 0)
  finished : s.enc.readFinished = true → s.enc.thisChunkSize = 0 ∧ s.enc.leftChunkSize = 0
  header_ne : s.enc.thisChunkSize ≠ 0 → s.enc.staticHeader ≠ []
  offset_le : s.enc.staticOffset ≤ s.enc.totalWrite
  reader : s.reader.Segmented
  writer : s.writer.Steady

variable {pre W : List UInt8} {s : ChunkedEncodeRound}

theorem Inv.buf_eq_nil (h : Inv pre W s) (hl : s.enc.leftChunkSize = 0) : s.reader.buf = [] :=
  List.eq_nil_of_length_eq_zero (h.buf_len.trans hl)

/-- Once the header is written and the window consumed, only what comes after
    the chunk is left. -/
theorem toWrite_of_headerDone (h : Inv pre W s) (hd : s.HeaderDone) (hl : s.enc.leftChunkSize = 0) :
    s.toWrite = s.rest := by
  rw [toWrite, List.drop_eq_nil_of_le hd, h.buf_eq_nil hl]
  rfl

/-- Between chunks, what is left is the segments to come, after a line end
    once some bytes were written. -/
theorem toWrite_idle (h : Inv pre W s) (h0 : s.enc.thisChunkSize = 0) (hrf : s.enc.readFinished = false) :
    s.toWrite = tailEncoding (s.enc.totalWrite != 0) (segments s.reader.events) := by
  obtain ⟨hdone, hleft, hfresh⟩ := h.idle h0 hrf
  rw [toWrite_of_headerDone h hdone hleft, rest, if_neg (by simp [hrf]), h0]
  congr 1
  by_cases ht : s.enc.totalWrite = 0
  · simp [ht, hfresh.2 ht]
  · have hne : s.enc.staticHeader.isEmpty = false := by
      simpa [List.isEmpty_iff] using fun he => ht (hfresh.1 he)
    have ht' : (s.enc.totalWrite != 0) = true := by simpa using ht
    simp [hne, ht']

/-- The fill at the top of the loop: it waits, taking an answer, or leaves a
    chunk in progress or the end of the stream, with nothing more to do. -/
theorem fillStep_spec (h : Inv pre W s) (hl : s.Live) :
    (∃ s', fillStep s = some (.exit .pending s') ∧ Inv pre W s' ∧ s'.Live ∧ s'.measure < s.measure) ∨
    (∃ s', fillStep s = some (.next s') ∧ Inv pre W s' ∧ s'.Live ∧ s'.measure ≤ s.measure ∧
      (s'.enc.readFinished = true ∨ s'.enc.thisChunkSize ≠ 0)) := by
  by_cases hc : s.enc.thisChunkSize = 0 ∧ s.enc.readFinished = false
  · obtain ⟨hdone, hleft, -⟩ := h.idle hc.1 hc.2
    have hbuf := h.buf_eq_nil hleft
    have hw := toWrite_idle h hc.1 hc.2
    have hseg : ∀ es, s.reader.events = es → ∀ e ∈ es.tail, e = .pending ∨ ∃ d, e = .data d ∧ d ≠ [] :=
      fun es he e he' => h.reader e (he ▸ List.mem_of_mem_tail he')
    rw [fillStep, if_pos hc]
    rcases Source.fillBuf_segmented_empty h.reader hbuf with ⟨he, hf⟩ | ⟨d, es, he, hd, hf⟩ | ⟨es, he, hf⟩
    · -- end of stream: the last chunk is all that is left
      rw [hf, h.no_trailer]
      have hlast := tailEncoding_nil_eq s.enc.totalWrite
      refine .inr ⟨_, rfl, ⟨?_, h.total, h.no_trailer, by simp [hbuf], nofun, fun _ => ⟨rfl, rfl⟩, nofun,
        Nat.zero_le _, h.reader, h.writer⟩, nofun, ?_, .inl rfl⟩
      · rw [← h.written, hw, he]
        simp [toWrite, rest, hbuf, hlast]
      · unfold measure
        rw [hw, he]
        simp [toWrite, rest, hbuf, hlast]
    · -- a segment: its header, its bytes, then the segments after it
      rw [hf, h.no_trailer]
      have hlen : d.length ≠ 0 := by simpa using hd
      have hcons := tailEncoding_cons_eq s.enc.totalWrite hd (segments es)
      have hbeq : (d.length == 0) = false := by simpa using hlen
      have hbne : (d.length != 0) = true := by simpa using hlen
      refine .inr ⟨_, rfl, ⟨?_, h.total, h.no_trailer, rfl, fun h0 => absurd h0 hlen,
        fun h1 => absurd h1 (by simp [hbeq]), fun _ => staticHeaderFor_ne_nil _ _ _,
        Nat.zero_le _, hseg _ he, h.writer⟩, fun _ => Nat.pos_of_ne_zero hlen, ?_, .inr hlen⟩
      · rw [← h.written, hw, he]
        simp [toWrite, rest, hbeq, hbne, hcons]
      · unfold measure
        rw [hw, he]
        simp [toWrite, rest, hbeq, hbne, hcons]
    · -- a wait: the answer is taken
      rw [hf]
      refine .inl ⟨_, rfl, ⟨?_, h.total, h.no_trailer, by simpa [hbuf] using h.buf_len, h.idle, h.finished,
        h.header_ne, h.offset_le, hseg _ he, h.writer⟩, fun h0 => absurd hc.1 h0, ?_⟩
      · rw [← h.written]
        simp [toWrite, rest, hbuf, he]
      · simp only [measure, toWrite, rest, hbuf, he, segments, List.length_cons]
        omega
  · refine .inr ⟨s, by simp [fillStep, hc], h, hl, le_rfl, ?_⟩
    cases hf : s.enc.readFinished
    · exact .inr fun h0 => hc ⟨h0, hf⟩
    · exact .inl rfl

/-- How the header write loop can end from `s`: waiting, with an answer of
    the writer taken, or with the header written, the chunk and the end of
    the stream as they were and the work left smaller by the header's
    rest. -/
def HeaderOk (pre W : List UInt8) (s : ChunkedEncodeRound) (x : Option (Flow ChunkedEncodeRound EncodePoll)) : Prop :=
  (∃ s', x = some (.exit .pending s') ∧ Inv pre W s' ∧ s'.Live ∧ s'.measure < s.measure) ∨
  (∃ s', x = some (.next s') ∧ Inv pre W s' ∧ s'.Live ∧ s'.HeaderDone ∧
    s'.measure + (s.enc.staticHeader.drop s.enc.staticOffset).length ≤ s.measure ∧
    s'.enc.readFinished = s.enc.readFinished ∧ s'.enc.thisChunkSize = s.enc.thisChunkSize ∧
    s'.enc.leftChunkSize = s.enc.leftChunkSize)

/-- The outcome from the state after a write of `k` bytes of the header is
    one from the state before it. -/
theorem HeaderOk.of_write {s₁ : ChunkedEncodeRound} {x : Option (Flow ChunkedEncodeRound EncodePoll)} {k : Nat}
    (h : HeaderOk pre W s₁ x) (hm : s₁.measure + k ≤ s.measure)
    (hd : (s₁.enc.staticHeader.drop s₁.enc.staticOffset).length + k =
      (s.enc.staticHeader.drop s.enc.staticOffset).length)
    (hrf : s₁.enc.readFinished = s.enc.readFinished) (hthis : s₁.enc.thisChunkSize = s.enc.thisChunkSize)
    (hleft : s₁.enc.leftChunkSize = s.enc.leftChunkSize) (hk : 0 < k) : HeaderOk pre W s x := by
  rcases h with ⟨s', hx, h', hl', hm'⟩ | ⟨s', hx, h', hl', hd', hm', hrf', hthis', hleft'⟩
  · exact .inl ⟨s', hx, h', hl', by omega⟩
  · exact .inr ⟨s', hx, h', hl', hd', by omega, hrf'.trans hrf, hthis'.trans hthis, hleft'.trans hleft⟩

/-- The header write loop, with a round of fuel for each byte of the header
    and one more. -/
theorem headerLoop_spec (h : Inv pre W s) (hl : s.Live)
    (hfuel : (s.enc.staticHeader.drop s.enc.staticOffset).length < fuel) :
    HeaderOk pre W s (headerLoop fuel s) := by
  induction fuel generalizing s with
  | zero => omega
  | succ fuel ih =>
    by_cases hoff : s.enc.staticOffset < s.enc.staticHeader.length
    · have hne : s.enc.staticHeader.drop s.enc.staticOffset ≠ [] := by simpa using hoff
      rw [headerLoop, if_pos hoff]
      rcases Sink.write_steady h.writer hne with ⟨hw, hev⟩ | ⟨n, hn, hle, hw⟩
      · -- the writer is not ready: one answer taken
        rw [hw]
        refine .inl ⟨_, rfl, ⟨h.written, h.total, h.no_trailer, h.buf_len, h.idle, h.finished, h.header_ne,
          h.offset_le, h.reader, h.writer.tail⟩, hl, ?_⟩
        have := Sink.events_tail_lt hev
        simp only [measure, toWrite, rest]
        omega
      · -- `n` bytes of the header are written
        rw [hw]
        have hlen : (s.enc.staticHeader.drop (s.enc.staticOffset + n)).length + n =
            (s.enc.staticHeader.drop s.enc.staticOffset).length := by
          simp at hle ⊢
          omega
        have hev : s.writer.events.tail.length ≤ s.writer.events.length := by simp
        refine HeaderOk.of_write (ih ⟨?_, ?_, h.no_trailer, h.buf_len, fun h0 hrf => ?_, h.finished,
          h.header_ne, by simpa using h.offset_le, h.reader, h.writer.tail⟩ hl ?_) ?_ hlen rfl rfl rfl hn
        · rw [← h.written]
          simp only [toWrite, rest, List.append_assoc]
          rw [← List.append_assoc (List.take _ _), ← List.drop_drop, List.take_append_drop]
        · simp only [List.length_drop] at hle
          simp [h.total]
          omega
        · -- between chunks the header is already written
          exact absurd (h.idle h0 hrf).1 (by unfold HeaderDone; omega)
        · show (s.enc.staticHeader.drop (s.enc.staticOffset + n)).length < fuel
          simp only [List.length_drop] at hfuel hlen ⊢
          omega
        · simp only [measure, toWrite, rest, List.length_append] at hlen ⊢
          omega
    · rw [headerLoop, if_neg hoff]
      exact .inr ⟨s, rfl, h, hl, by unfold HeaderDone; omega, by simp; omega, rfl, rfl, rfl⟩

/-- How the data write loop can end from `s`: waiting, with an answer of the
    writer taken, or with the chunk's data written, the work left smaller by
    it. -/
def DataOk (pre W : List UInt8) (s : ChunkedEncodeRound) (x : Option (Flow ChunkedEncodeRound EncodePoll)) : Prop :=
  (∃ s', x = some (.exit .pending s') ∧ Inv pre W s' ∧ s'.Live ∧ s'.measure < s.measure) ∨
  (∃ s', x = some (.next s') ∧ Inv pre W s' ∧ s'.HeaderDone ∧ s'.enc.leftChunkSize = 0 ∧
    s'.measure + s.enc.leftChunkSize ≤ s.measure ∧ s'.enc.readFinished = s.enc.readFinished ∧
    s'.enc.thisChunkSize = s.enc.thisChunkSize)

/-- The outcome from the state after a write of `k` data bytes is one from
    the state before it. -/
theorem DataOk.of_write {s₁ : ChunkedEncodeRound} {x : Option (Flow ChunkedEncodeRound EncodePoll)} {k : Nat}
    (h : DataOk pre W s₁ x) (hm : s₁.measure + k ≤ s.measure)
    (hleft : s₁.enc.leftChunkSize + k = s.enc.leftChunkSize)
    (hrf : s₁.enc.readFinished = s.enc.readFinished) (hthis : s₁.enc.thisChunkSize = s.enc.thisChunkSize)
    (hk : 0 < k) : DataOk pre W s x := by
  rcases h with ⟨s', hx, h', hl', hm'⟩ | ⟨s', hx, h', hd', hleft', hm', hrf', hthis'⟩
  · exact .inl ⟨s', hx, h', hl', by omega⟩
  · exact .inr ⟨s', hx, h', hd', hleft', by omega, hrf'.trans hrf, hthis'.trans hthis⟩

/-- The data write loop, once the header is written, with a round of fuel
    for each byte of the chunk and one more. -/
theorem dataLoop_spec (h : Inv pre W s) (hd : s.HeaderDone) (hrf : s.enc.readFinished = false)
    (hfuel : s.enc.leftChunkSize < fuel) : DataOk pre W s (dataLoop fuel s) := by
  induction fuel generalizing s with
  | zero => omega
  | succ fuel ih =>
    by_cases hpos : 0 < s.enc.leftChunkSize
    · have hne : s.reader.buf ≠ [] := by
        intro hb
        have := h.buf_len
        rw [hb] at this
        simp at this
        omega
      have htake : s.reader.buf.take s.enc.leftChunkSize = s.reader.buf := by
        rw [← h.buf_len, List.take_length]
      have hdrop : s.enc.staticHeader.drop s.enc.staticOffset = [] := List.drop_eq_nil_of_le hd
      -- a chunk is in progress while data is left
      have hthis : s.enc.thisChunkSize ≠ 0 := fun h0 => by
        have := (h.idle h0 hrf).2.1
        omega
      rw [dataLoop, if_pos hpos, Source.fillBuf_of_buf_ne_nil hne]
      dsimp only
      rw [if_pos h.buf_len.ge, htake]
      rcases Sink.write_steady h.writer hne with ⟨hw, hev⟩ | ⟨n, hn, hle, hw⟩
      · -- the writer is not ready: one answer taken
        rw [hw]
        refine .inl ⟨_, rfl, ⟨h.written, h.total, h.no_trailer, h.buf_len, h.idle, h.finished, h.header_ne,
          h.offset_le, h.reader, h.writer.tail⟩, fun _ => hpos, ?_⟩
        have := Sink.events_tail_lt hev
        simp only [measure, toWrite, rest]
        omega
      · -- `n` bytes of the chunk are written and consumed
        rw [hw]
        have hlen : s.reader.buf.length = s.enc.leftChunkSize := h.buf_len
        have hev : s.writer.events.tail.length ≤ s.writer.events.length := by simp
        refine DataOk.of_write (ih ⟨?_, ?_, h.no_trailer, ?_, fun h0 => absurd h0 hthis,
          fun h1 => absurd h1 (by simp [hrf]), h.header_ne, by have := h.offset_le; simp; omega, h.reader,
          h.writer.tail⟩
          hd hrf ?_) ?_ ?_ rfl rfl hn
        · rw [← h.written]
          simp only [toWrite, rest, Source.consume_buf, Source.consume_events, hdrop, List.nil_append,
            List.append_assoc]
          rw [← List.append_assoc (List.take _ _), List.take_append_drop]
        · simp [h.total]
          omega
        · simp
          omega
        · show s.enc.leftChunkSize - n < fuel
          omega
        · simp only [measure, toWrite, rest, Source.consume_buf, Source.consume_events, hdrop,
            List.length_append, List.length_drop]
          omega
        · show s.enc.leftChunkSize - n + n = s.enc.leftChunkSize
          omega
    · rw [dataLoop, if_neg hpos]
      exact .inr ⟨s, rfl, h, hd, by omega, by omega, rfl, rfl⟩

/-- The end of a pass once the chunk is written: no chunk is in progress, and
    nothing else changes. -/
theorem endRound_spec (h : Inv pre W s) (hd : s.HeaderDone) (hleft : s.enc.leftChunkSize = 0)
    (hrf : s.enc.readFinished = false) :
    ∃ s', (endRound s = some (.exit .pending s') ∨ endRound s = some (.next s')) ∧ Inv pre W s' ∧
      s'.Live ∧ s'.measure = s.measure := by
  -- the line end after the chunk is due whether or not a chunk is in progress
  have hflag : (s.enc.thisChunkSize != 0 || !s.enc.staticHeader.isEmpty) = !s.enc.staticHeader.isEmpty := by
    by_cases h0 : s.enc.thisChunkSize = 0
    · simp [h0]
    · have hne : s.enc.staticHeader.isEmpty = false := by simpa [List.isEmpty_iff] using h.header_ne h0
      simp [hne]
  have hrest : ({ s with enc := { s.enc with thisChunkSize := 0 } } : ChunkedEncodeRound).rest = s.rest := by
    simp only [rest, hflag]
    simp
  refine ⟨{ s with enc := { s.enc with thisChunkSize := 0 } }, ?_, ⟨?_, h.total, h.no_trailer, h.buf_len,
    fun _ _ => ⟨hd, hleft, ?_⟩, fun _ => ⟨rfl, hleft⟩, nofun, h.offset_le, h.reader, h.writer⟩, nofun, ?_⟩
  · by_cases hy : s.enc.yieldSize ≤ s.copyThisRound
    · exact .inl (by simp [endRound, hy])
    · exact .inr (by simp [endRound, hy])
  · rw [← h.written, toWrite, toWrite, hrest]
  · -- some bytes were written exactly when a header was made
    by_cases h0 : s.enc.thisChunkSize = 0
    · exact (h.idle h0 hrf).2.2
    · have hne := h.header_ne h0
      have hlen : 0 < s.enc.staticHeader.length := List.length_pos_iff.2 hne
      have := h.offset_le
      unfold HeaderDone at hd
      simp only [hne, false_iff]
      omega
  · simp only [measure, toWrite, hrest]

/-- How a poll can end from `s`: waiting, with the invariant kept and less
    work left, or with the whole message written and its length returned. -/
def PollOk (pre W : List UInt8) (s : ChunkedEncodeRound) (x : Option (Flow ChunkedEncodeRound EncodePoll)) : Prop :=
  (∃ s', x = some (.exit .pending s') ∧ Inv pre W s' ∧ s'.Live ∧ s'.measure < s.measure) ∨
  (∃ s', x = some (.exit (.ready (.ok W.length)) s') ∧ s'.writer.written = pre ++ W ∧
    s'.enc.finished = true)

theorem PollOk.mono {s₁ : ChunkedEncodeRound} {x : Option (Flow ChunkedEncodeRound EncodePoll)} (h : PollOk pre W s₁ x)
    (hm : s₁.measure ≤ s.measure) : PollOk pre W s x := by
  rcases h with ⟨s', hx, h', hl', hm'⟩ | hready
  · exact .inl ⟨s', hx, h', hl', by omega⟩
  · exact .inr hready

/-- The flush at the end of the stream, once the last header is written. -/
theorem finishStep_spec (h : Inv pre W s) (hd : s.HeaderDone) :
    (s.enc.readFinished = false ∧ finishStep s = some (.next s)) ∨ PollOk pre W s (finishStep s) := by
  cases hrf : s.enc.readFinished
  · exact .inl ⟨rfl, by simp [finishStep, hrf]⟩
  · obtain ⟨h0, hleft⟩ := h.finished hrf
    -- everything is written: `total_write` is the length of the message
    have hall : s.writer.written = pre ++ W := by
      rw [← h.written, toWrite_of_headerDone h hd hleft, rest, if_pos hrf, List.append_nil]
    have htot : s.enc.totalWrite = W.length := by
      have := h.total
      rw [hall, List.length_append] at this
      omega
    rw [finishStep, if_pos hrf]
    rcases Sink.flush_steady h.writer with ⟨hf, hev⟩ | hf
    · rw [hf]
      refine .inr (.inl ⟨_, rfl, ⟨h.written, h.total, h.no_trailer, h.buf_len, h.idle, h.finished,
        h.header_ne, h.offset_le, h.reader, h.writer.tail⟩, fun h0' => absurd h0 h0', ?_⟩)
      have := Sink.events_tail_lt hev
      simp only [measure, toWrite, rest]
      omega
    · rw [hf, htot]
      refine .inr (.inr ⟨_, rfl, hall, ?_⟩)
      simp [ChunkedEncodeTransferInternal.finished, hrf]
      exact hd

/-- How a pass of the loop can end from `s`: as a poll does, or going on to
    the next pass with the invariant kept and less work left. -/
def RoundOk (pre W : List UInt8) (s : ChunkedEncodeRound) (x : Option (Flow ChunkedEncodeRound EncodePoll)) : Prop :=
  PollOk pre W s x ∨ ∃ s', x = some (.next s') ∧ Inv pre W s' ∧ s'.Live ∧ s'.measure < s.measure

/-- One pass of the loop of `poll_encode`, up to the next. -/
def round (fuel : Nat) (s : ChunkedEncodeRound) : Option (Flow ChunkedEncodeRound EncodePoll) :=
  Flow.andThen (Flow.andThen (Flow.andThen (fillStep s) (headerLoop fuel)) finishStep) fun s =>
    Flow.andThen (dataLoop fuel s) endRound

theorem encodeLoop_succ (fuel : Nat) (s : ChunkedEncodeRound) :
    encodeLoop (fuel + 1) s = Flow.andThen (round fuel s) (encodeLoop fuel) := by
  rw [round, Flow.andThen_assoc]
  rfl

theorem length_le_measure (s : ChunkedEncodeRound) :
    (s.enc.staticHeader.drop s.enc.staticOffset).length + s.reader.buf.length ≤ s.measure := by
  simp only [measure, toWrite, List.length_append]
  omega

/-- A pass of the loop: a chunk's header and data are written, or the stream
    ends; each pass that goes on has taken a segment or written a byte. -/
theorem round_spec (h : Inv pre W s) (hl : s.Live) (hfuel : s.measure < fuel) :
    RoundOk pre W s (round fuel s) := by
  rw [round]
  rcases fillStep_spec h hl with ⟨s₁, hf, h₁, hl₁, hm₁⟩ | ⟨s₁, hf, h₁, hl₁, hm₁, hst₁⟩
  · rw [hf]
    exact .inl (.inl ⟨s₁, rfl, h₁, hl₁, hm₁⟩)
  rw [hf, Flow.andThen_next]
  have hm₁' := length_le_measure s₁
  rcases headerLoop_spec h₁ hl₁ (by omega : _ < fuel) with ⟨s₂, hx, h₂, hl₂, hm₂⟩ |
      ⟨s₂, hx, h₂, hl₂, hd₂, hm₂, hrf₂, hthis₂, hleft₂⟩
  · rw [hx]
    exact .inl (.inl ⟨s₂, rfl, h₂, hl₂, by omega⟩)
  rw [hx, Flow.andThen_next]
  rcases finishStep_spec h₂ hd₂ with ⟨hrf, hfin⟩ | ⟨s₃, hx₃, h₃, hl₃, hm₃⟩ | ⟨s₃, hx₃, hw₃, hfin₃⟩
  · rw [hfin, Flow.andThen_next]
    -- the stream has not ended, so a chunk is in progress with data left
    have hthis : s₂.enc.thisChunkSize ≠ 0 := by
      rcases hst₁ with h' | h'
      · rw [← hrf₂, hrf] at h'
        cases h'
      · rwa [hthis₂]
    have hpos : 0 < s₂.enc.leftChunkSize := hl₂ hthis
    have hm₂' := length_le_measure s₂
    have hbuf := h₂.buf_len
    rcases dataLoop_spec h₂ hd₂ hrf (by omega : _ < fuel) with ⟨s₃, hx₃, h₃, hl₃, hm₃⟩ |
        ⟨s₃, hx₃, h₃, hd₃, hleft₃, hm₃, hrf₃, -⟩
    · rw [hx₃]
      exact .inl (.inl ⟨s₃, rfl, h₃, hl₃, by omega⟩)
    · rw [hx₃, Flow.andThen_next]
      obtain ⟨s₄, hx₄, h₄, hl₄, hm₄⟩ := endRound_spec h₃ hd₃ hleft₃ (hrf₃.trans hrf)
      rcases hx₄ with hx₄ | hx₄ <;> rw [hx₄]
      · exact .inl (.inl ⟨s₄, rfl, h₄, hl₄, by omega⟩)
      · exact .inr ⟨s₄, rfl, h₄, hl₄, by omega⟩
  · rw [hx₃]
    exact .inl (.inl ⟨s₃, rfl, h₃, hl₃, by omega⟩)
  · rw [hx₃]
    exact .inl (.inr ⟨s₃, rfl, hw₃, hfin₃⟩)

/-- The loop of `poll_encode` returns, with a round of fuel for each unit of
    work left and two more. -/
theorem encodeLoop_spec (h : Inv pre W s) (hl : s.Live) (hfuel : s.measure + 1 < fuel) :
    PollOk pre W s (encodeLoop fuel s) := by
  induction fuel generalizing s with
  | zero => omega
  | succ fuel ih =>
    rw [encodeLoop_succ]
    rcases round_spec h hl (by omega : s.measure < fuel) with
        (⟨s', hx, h', hl', hm'⟩ | ⟨s', hx, hw', hf'⟩) | ⟨s', hx, h', hl', hm'⟩
    · rw [hx]
      exact .inl ⟨s', rfl, h', hl', hm'⟩
    · rw [hx]
      exact .inr ⟨s', rfl, hw', hf'⟩
    · rw [hx, Flow.andThen_next]
      exact (ih h' hl' (by omega)).mono hm'.le

end ChunkedEncodeRound

namespace StreamToChunkedTransfer

open ChunkedEncodeRound

/-- The round a poll starts from. -/
def start (t : StreamToChunkedTransfer) : ChunkedEncodeRound := ⟨t.internal, t.reader, t.writer, 0⟩

variable {pre W : List UInt8} {t : StreamToChunkedTransfer}

theorem poll_of_encodeLoop {fuel : Nat} {res : EncodePoll} {s : ChunkedEncodeRound}
    (hx : encodeLoop fuel t.start = some (.exit res s)) :
    poll fuel t = some (res, ⟨s.reader, s.writer, s.enc⟩) := by
  unfold start at hx
  unfold poll
  rw [hx]

/-- A poll either waits, with the invariant kept and less work left, or
    returns the length of the whole message, written. -/
theorem poll_spec (h : Inv pre W t.start) (hl : t.start.Live) (hfuel : t.start.measure + 1 < fuel) :
    (∃ t', poll fuel t = some (.pending, t') ∧ Inv pre W t'.start ∧ t'.start.Live ∧
      t'.start.measure < t.start.measure) ∨
    (∃ t', poll fuel t = some (.ready (.ok W.length), t') ∧ t'.writer.written = pre ++ W ∧
      t'.finished = true) := by
  rcases encodeLoop_spec h hl hfuel with ⟨s', hx, h', hl', hm'⟩ | ⟨s', hx, hw', hf'⟩
  · -- the next poll starts from the state this one left, its count reset
    refine .inl ⟨⟨s'.reader, s'.writer, s'.enc⟩, poll_of_encodeLoop hx, ⟨h'.written, h'.total, h'.no_trailer,
      h'.buf_len, h'.idle, h'.finished, h'.header_ne, h'.offset_le, h'.reader, h'.writer⟩, hl', hm'⟩
  · exact .inr ⟨⟨s'.reader, s'.writer, s'.enc⟩, poll_of_encodeLoop hx, hw', hf'⟩

/-- Polled once for each unit of work left and once more, the encoder
    returns the length of the whole message, written. -/
theorem run_spec (h : Inv pre W t.start) (hl : t.start.Live) (hpolls : t.start.measure < polls)
    (hfuel : t.start.measure + 1 < fuel) :
    ∃ t', run fuel polls t = some (.ready (.ok W.length), t') ∧ t'.writer.written = pre ++ W ∧
      t'.finished = true := by
  induction polls generalizing t with
  | zero => omega
  | succ polls ih =>
    rcases poll_spec h hl hfuel with ⟨t', hp, h', hl', hm'⟩ | ⟨t', hp, hw', hf'⟩
    · rw [run, hp]
      exact ih h' hl' (by omega) (by omega)
    · exact ⟨t', by rw [run, hp], hw', hf'⟩

/-- A new encoder over a reader with an empty window writes the message of
    the segments the reader will give. -/
theorem inv_newWithNoTrailer {r : Source} {w : Sink} (yieldSize : Nat) (hbuf : r.buf = [])
    (hr : r.Segmented) (hw : w.Steady) :
    Inv w.written (Message.ofSegments (segments r.events)).encode (newWithNoTrailer r w yieldSize).start where
  written := by
    simp [start, newWithNoTrailer, new, ChunkedEncodeTransferInternal.new, toWrite, rest, hbuf,
      tailEncoding_false]
  total := by simp [start, newWithNoTrailer, new, ChunkedEncodeTransferInternal.new]
  no_trailer := rfl
  buf_len := by simp [start, newWithNoTrailer, new, ChunkedEncodeTransferInternal.new, hbuf]
  idle _ _ := ⟨Nat.le_refl 0, rfl, Iff.rfl.trans (by simp [start, newWithNoTrailer, new,
    ChunkedEncodeTransferInternal.new])⟩
  finished := nofun
  header_ne := fun h0 => absurd rfl h0
  offset_le := Nat.le_refl 0
  reader := hr
  writer := hw

/-- The work left of a new encoder: the message and the answers of both
    ends. -/
theorem measure_newWithNoTrailer {r : Source} {w : Sink} (yieldSize : Nat) (hbuf : r.buf = [])
    (hr : r.Segmented) (hw : w.Steady) :
    (newWithNoTrailer r w yieldSize).start.measure =
      (Message.ofSegments (segments r.events)).encode.length + r.events.length + w.events.length := by
  have hw' : (newWithNoTrailer r w yieldSize).start.toWrite = (Message.ofSegments (segments r.events)).encode :=
    List.append_cancel_left (inv_newWithNoTrailer yieldSize hbuf hr hw).written
  rw [ChunkedEncodeRound.measure, hw']
  rfl

/-- An encoder made by `new_with_no_trailer`, over a reader with nothing in
    its window whose answers are non-empty segments and waits, writing to a
    writer that never fails and never accepts nothing, writes after what the
    writer held the chunked message of the segments, returns its length and
    has finished, once polled for each byte of the message and each answer
    of both ends, and once more. -/
theorem newWithNoTrailer_writes_ofSegments {r : Source} {w : Sink} (yieldSize : Nat) (hbuf : r.buf = [])
    (hr : r.Segmented) (hw : w.Steady) {fuel polls : Nat}
    (hpolls : (Message.ofSegments (segments r.events)).encode.length + r.events.length + w.events.length < polls)
    (hfuel : (Message.ofSegments (segments r.events)).encode.length + r.events.length + w.events.length + 1 <
      fuel) :
    ∃ t, run fuel polls (newWithNoTrailer r w yieldSize) =
        some (.ready (.ok (Message.ofSegments (segments r.events)).encode.length), t) ∧
      t.writer.written = w.written ++ (Message.ofSegments (segments r.events)).encode ∧ t.finished = true := by
  have h := inv_newWithNoTrailer yieldSize hbuf hr hw
  -- nothing is written yet: the work left is the message and the answers
  have hm : (newWithNoTrailer r w yieldSize).start.measure =
      (Message.ofSegments (segments r.events)).encode.length + r.events.length + w.events.length := by
    have hw' : (newWithNoTrailer r w yieldSize).start.toWrite = (Message.ofSegments (segments r.events)).encode :=
      List.append_cancel_left h.written
    rw [ChunkedEncodeRound.measure, hw']
    rfl
  exact run_spec h (fun h0 => absurd rfl h0) (by omega) (by omega)

end StreamToChunkedTransfer

end G3Proxy
