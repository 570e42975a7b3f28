/-
  What `H1BodyToChunkedTransfer` (g3-http `body/body_to_chunked.rs`) sends
  for a body of known length: the body as one chunk, then the last chunk
  and an empty trailer section, or the last chunk alone for a body of
  length `0`; the stream is left just after the body.  For a body read to
  the end of the stream it sends the chunked message of the stream's
  segments.

  * `writeRest_spec` is the write loop of `SendHead` and `SendNoTrailerEnd`
    on a steady writer.
  * `SendsBody` gives each state of a transfer of a body of known length
    what it has still to write: the rest of the head, the bytes of the copy
    (`Io.CopySpec`, over the reader contract of `Http.PlainBodyProof`), and
    `NO_TRAILER_END_BUFFER`.  `sendMeasure` counts the work left; one lemma
    per state (`poll_sendHead`, `poll_copy`, `poll_sendNoTrailerEnd`) shows
    that a poll waits with less of it, or completes.
  * At its encoder the transfer polls `StreamToChunkedTransfer`, so the
    encoder's spec gives the transfer of a body read to the end
    (`run_encode`).
-/
import G3Proxy.Http.BodyToChunked
import G3Proxy.Http.PlainBodyProof
import G3Proxy.Http.StreamToChunkedProof

namespace G3Proxy

open AsyncIo ChunkedCoding

/-- `writeRest` on a steady writer: it waits, with an answer taken and
    maybe some of the bytes written, or writes all of them. -/
theorem writeRest_spec {bytes : List UInt8} {w : Sink} {offset fuel : Nat} (hw : w.Steady)
    (hfuel : bytes.length - offset < fuel) :
    (∃ offset' w', writeRest bytes fuel offset w = some (.pending, offset', w') ∧
      w'.written ++ bytes.drop offset' = w.written ++ bytes.drop offset ∧ w'.Steady ∧
      w'.events.length < w.events.length ∧ bytes.length - offset' ≤ bytes.length - offset) ∨
    (∃ offset' w', writeRest bytes fuel offset w = some (.ready (.ok ()), offset', w') ∧
      w'.written = w.written ++ bytes.drop offset ∧ w'.Steady ∧ w'.events.length ≤ w.events.length) := by
  induction fuel generalizing offset w with
  | zero => omega
  | succ fuel ih =>
    rw [writeRest]
    by_cases hoff : offset < bytes.length
    · rw [if_pos hoff]
      have hne : bytes.drop offset ≠ [] := by simpa using hoff
      rcases Sink.write_steady hw hne with ⟨hx, hev⟩ | ⟨n, hn, hle, hx⟩ <;> rw [hx] <;> dsimp only
      · exact .inl ⟨offset, _, rfl, rfl, hw.tail, Sink.events_tail_lt hev, le_rfl⟩
      · -- `n` bytes written: the rest of the loop from the offset after them
        have hsplit : (w.written ++ (bytes.drop offset).take n) ++ bytes.drop (offset + n) =
            w.written ++ bytes.drop offset := by
          rw [List.append_assoc, ← List.drop_drop, List.take_append_drop]
        have hev : w.events.tail.length ≤ w.events.length := by simp
        rcases @ih ⟨_, _, _⟩ (offset + n) hw.tail (by simp at hle; omega) with
            ⟨offset', w', hx', hw', hst', hev', hle'⟩ | ⟨offset', w', hx', hw', hst', hev'⟩
        · exact .inl ⟨offset', w', hx', hw'.trans hsplit, hst', by simp at hev' ⊢; omega, by omega⟩
        · exact .inr ⟨offset', w', hx', hw'.trans hsplit, hst', by simp at hev' ⊢; omega⟩
    · rw [if_neg hoff]
      exact .inr ⟨offset, w, rfl, by simp [List.drop_eq_nil_of_le (not_lt.1 hoff)], hw, le_rfl⟩

/-! ## The transfer of a body of known length -/

namespace H1BodyToChunkedRun

open HttpBodyReader OwnedCopyRound

variable {libs : ByteLibs} {L : Nat} {S base O : List UInt8}

/-- The states of the transfer of a body of length `L`, with `S` after it
    on the stream, that writes `O` after `base`, with what each has still to
    write: the rest of the head, the bytes of the copy, and
    `NO_TRAILER_END_BUFFER`. -/
def SendsBody (L : Nat) (S base O : List UInt8) : ChunkedTransferRun → Prop
  | .sendHead head offset br w =>
    w.written ++ head.drop offset ++ br.fixedRest ++ noTrailerEndBuffer = base ++ O ∧ w.Steady ∧
      FixedReading L S br
  | .copy c => ∃ pre D, CopyInv (FixedReading L S) fixedRest pre D c.round ∧ pre ++ D ++ noTrailerEndBuffer = base ++ O
  | .sendNoTrailerEnd offset stream w =>
    w.written ++ noTrailerEndBuffer.drop offset = base ++ O ∧ w.Steady ∧ stream.rest = S
  | _ => False

/-- The work left: the bytes to write and the waits of both ends, with the
    end of the body in the copy, and the seven bytes of
    `NO_TRAILER_END_BUFFER` after a head or a copy. -/
def sendMeasure : ChunkedTransferRun → Nat
  | .sendHead head offset br w =>
    (head.length - offset) + br.fixedRest.length + br.stream.events.length + w.events.length + 8
  | .copy c => OwnedCopyRound.measure fixedRest (fun r => r.stream.events.length) c.round + 7
  | .sendNoTrailerEnd offset _ w => (noTrailerEndBuffer.length - offset) + w.events.length
  | _ => 0

/-- A transfer of a body of known length with a valid copy configuration,
    in one of the states that still write. -/
structure RunInv (L : Nat) (S base O : List UInt8) (t : H1BodyToChunkedRun) : Prop where
  body_type : t.bodyType = .contentLength L
  config : t.copyConfig.Valid
  state : SendsBody L S base O t.state

/-- How a poll can end, for a bound `m` on the work left: waiting, with the
    work left below it, or with the whole output written and the stream
    just after the body. -/
def PollOk (L : Nat) (S base O : List UInt8) (m : Nat)
    (x : Option (Poll (Except LimitedCopyError Unit) × H1BodyToChunkedRun)) : Prop :=
  (∃ t', x = some (.pending, t') ∧ RunInv L S base O t' ∧ sendMeasure t'.state < m) ∨
  (∃ t', x = some (.ready (.ok ()), t') ∧ t'.state.writer.written = base ++ O ∧ t'.state.stream.rest = S)

theorem PollOk.mono {m m' : Nat} {x : Option (Poll (Except LimitedCopyError Unit) × H1BodyToChunkedRun)}
    (h : PollOk L S base O m x) (hm : m ≤ m') : PollOk L S base O m' x := by
  rcases h with ⟨t', hx, h', hm'⟩ | hready
  · exact .inl ⟨t', hx, h', by omega⟩
  · exact .inr hready

variable {t : H1BodyToChunkedRun} {fuel : Nat}

/-- The end of the transfer: `NO_TRAILER_END_BUFFER` from an offset. -/
theorem poll_sendNoTrailerEnd {offset : Nat} {stream : Source} {w : Sink} (h : RunInv L S base O t)
    (hst : t.state = .sendNoTrailerEnd offset stream w) (hfuel : sendMeasure t.state + 1 < fuel) :
    PollOk L S base O (sendMeasure t.state) (poll libs fuel t) := by
  obtain ⟨fuel, rfl⟩ : ∃ f, fuel = f + 1 := ⟨fuel - 1, by omega⟩
  have hs := h.state
  rw [hst] at hs hfuel ⊢
  obtain ⟨hout, hw, hrest⟩ := hs
  simp only [sendMeasure] at hfuel ⊢
  rw [poll, hst]
  dsimp only
  rcases @writeRest_spec noTrailerEndBuffer w offset fuel hw (by omega) with
      ⟨offset', w', hx, hw', hst', hev', hle'⟩ | ⟨offset', w', hx, hw', hst', -⟩ <;> rw [hx]
  · -- not ready: an answer of the writer taken
    refine .inl ⟨_, rfl, ⟨h.body_type, h.config, ⟨hw'.trans hout, hst', hrest⟩⟩, ?_⟩
    simp only [sendMeasure]
    omega
  · refine .inr ⟨_, rfl, ?_, hrest⟩
    simp only [ChunkedTransferRun.writer]
    rw [hw', hout]

/-- The copy of the body, then the end. -/
theorem poll_copy {c : ROwnedLimitedCopy HttpBodyReader} (h : RunInv L S base O t) (hst : t.state = .copy c)
    (hfuel : sendMeasure t.state + 2 < fuel) :
    PollOk L S base O (sendMeasure t.state) (poll libs fuel t) := by
  obtain ⟨fuel, rfl⟩ : ∃ f, fuel = f + 1 := ⟨fuel - 1, by omega⟩
  have hs := h.state
  rw [hst] at hs hfuel ⊢
  obtain ⟨pre, D, hc, hout⟩ := hs
  simp only [sendMeasure] at hfuel ⊢
  rw [poll, hst]
  dsimp only
  rcases ROwnedLimitedCopy.poll_spec readsStream_fixed hc (show _ + 1 < fuel by omega) with
      ⟨c', hx, hc', hm'⟩ | ⟨c', hx, hw', hr', -, hst', hP', hm'⟩ <;> rw [hx]
  · -- the copy waits, with less work left
    exact .inl ⟨_, rfl, ⟨h.body_type, h.config, ⟨pre, D, hc', hout⟩⟩, by simp only [sendMeasure]; omega⟩
  · -- the body is copied: the rest of the poll writes the end
    dsimp only
    rw [h.body_type]
    dsimp only
    have hS : c'.reader.stream.rest = S := by
      rw [hP'.holds.rest, hr', List.nil_append]
    have hev : c'.writer.events.length ≤ OwnedCopyRound.measure fixedRest (fun r => r.stream.events.length) c'.round := by
      simp only [OwnedCopyRound.measure, ROwnedLimitedCopy.round]
      omega
    have hnext : PollOk L S base O (noTrailerEndBuffer.length + c'.writer.events.length)
        (poll libs fuel { t with
          bodyType := .contentLength L
          totalWrite := t.totalWrite + D.length
          active := true
          state := .sendNoTrailerEnd 0 c'.reader.stream c'.writer }) :=
      poll_sendNoTrailerEnd ⟨rfl, h.config, ⟨by rw [hw', List.drop_zero, hout], hst', hS⟩⟩ rfl
        (by simp only [sendMeasure, noTrailerEndBuffer, List.length_cons, List.length_nil]; omega)
    refine hnext.mono ?_
    simp only [noTrailerEndBuffer, List.length_cons, List.length_nil]
    omega

/-- The head of the chunk, then the copy of the body. -/
theorem poll_sendHead {head : List UInt8} {offset : Nat} {br : HttpBodyReader} {w : Sink} (h : RunInv L S base O t)
    (hst : t.state = .sendHead head offset br w) (hfuel : sendMeasure t.state + 3 < fuel) :
    PollOk L S base O (sendMeasure t.state) (poll libs fuel t) := by
  obtain ⟨fuel, rfl⟩ : ∃ f, fuel = f + 1 := ⟨fuel - 1, by omega⟩
  have hs := h.state
  rw [hst] at hs hfuel ⊢
  obtain ⟨hout, hw, hbr⟩ := hs
  simp only [sendMeasure] at hfuel ⊢
  rw [poll, hst]
  dsimp only
  rcases @writeRest_spec head w offset fuel hw (by omega) with
      ⟨offset', w', hx, hw', hst', hev', hle'⟩ | ⟨offset', w', hx, hw', hst', hev'⟩ <;> rw [hx]
  · -- not ready: an answer of the writer taken
    refine .inl ⟨_, rfl, ⟨h.body_type, h.config, ⟨?_, hst', hbr⟩⟩, by simp only [sendMeasure]; omega⟩
    rw [hw']
    exact hout
  · -- the head is written: the copy starts in the same poll
    dsimp only
    have hm : OwnedCopyRound.measure fixedRest (fun r => r.stream.events.length)
        (ROwnedLimitedCopy.new br w' t.copyConfig).round =
        br.fixedRest.length + br.stream.events.length + w'.events.length + 1 :=
      ROwnedLimitedCopy.measure_new br w' t.copyConfig
    have hc : CopyInv (FixedReading L S) fixedRest w'.written br.fixedRest (ROwnedLimitedCopy.new br w' t.copyConfig).round :=
      ROwnedLimitedCopy.inv_new hbr hst' h.config
    have hnext : PollOk L S base O (OwnedCopyRound.measure fixedRest (fun r => r.stream.events.length)
          (ROwnedLimitedCopy.new br w' t.copyConfig).round + 7)
        (poll libs fuel { t with
          totalWrite := t.totalWrite + offset'
          active := true
          state := .copy (.new br w' t.copyConfig) }) :=
      poll_copy ⟨h.body_type, h.config, ⟨w'.written, br.fixedRest, hc, by rw [hw', ← hout]⟩⟩ rfl
        (by simp only [sendMeasure]; omega)
    refine hnext.mono ?_
    omega

/-- A poll of the transfer, with three rounds of fuel more than its work
    left. -/
theorem poll_spec (h : RunInv L S base O t) (hfuel : sendMeasure t.state + 3 < fuel) :
    PollOk L S base O (sendMeasure t.state) (poll libs fuel t) := by
  obtain ⟨σ, hst⟩ : ∃ σ, t.state = σ := ⟨_, rfl⟩
  have hs := h.state
  rw [hst] at hs
  cases σ with
  | sendHead head offset br w => exact poll_sendHead h hst hfuel
  | copy c => exact poll_copy h hst (by omega)
  | sendNoTrailerEnd offset stream w => exact poll_sendNoTrailerEnd h hst (by omega)
  | encode e => exact hs.elim
  | flushEnd stream w => exact hs.elim
  | end_ stream w => exact hs.elim

/-- Polls of the transfer, more of them than its work left: it completes,
    having written the whole output. -/
theorem run_spec {polls : Nat} (h : RunInv L S base O t) (hfuel : sendMeasure t.state + 3 < fuel)
    (hpolls : sendMeasure t.state < polls) :
    ∃ t', run libs fuel polls t = some (.ready (.ok ()), t') ∧ t'.state.writer.written = base ++ O ∧
      t'.state.stream.rest = S := by
  induction polls generalizing t with
  | zero => omega
  | succ polls ih =>
    rw [run]
    rcases poll_spec h hfuel with ⟨t', hx, h', hm'⟩ | ⟨t', hx, hw', hs'⟩ <;> rw [hx]
    · -- a wait: the polls after it, with less work left
      exact ih h' (by omega) (by omega)
    · exact ⟨t', rfl, hw', hs'⟩

end H1BodyToChunkedRun

namespace H1BodyToChunkedRun

open HttpBodyReader

/-- The transfer `new` builds for a body of length `L` that the stream
    holds is about to write the body as one chunk, or the last chunk alone
    for an empty body, and to leave the stream after it. -/
theorem runInv_new {L maxLen : Nat} {stream : Source} {w : Sink} {config : LimitedCopyConfig} (hs : stream.Segmented)
    (hL : L ≤ stream.rest.length) (hw : w.Steady) (hcfg : config.Valid) :
    RunInv L (stream.rest.drop L) w.written
      (Message.ofSegments (if L = 0 then [] else [stream.rest.take L])).encode
      ((H1BodyToChunkedTransfer.new stream w (.contentLength L) maxLen config).start stream) := by
  cases L with
  | zero =>
    -- the end alone, from its third byte
    refine ⟨rfl, hcfg, ?_⟩
    exact ⟨rfl, hw, by simp⟩
  | succ n =>
    obtain ⟨hbr, hrest⟩ := fixedReading_newFixedLength hs hL (Nat.succ_pos n)
    refine ⟨rfl, hcfg, ?_⟩
    refine ⟨?_, hw, hbr⟩
    rw [hrest, if_neg (Nat.succ_ne_zero n), Message.ofSegments_encode_cons, Message.ofSegments_encode_nil,
      List.length_take, min_eq_left hL]
    simp [Preview.chunkHead, noTrailerEndBuffer, crlf]

/-- The work left of that transfer: twice the length of the body, the
    answers of both ends and ten. -/
theorem sendMeasure_new_le {L maxLen : Nat} {stream : Source} {w : Sink} {config : LimitedCopyConfig}
    (hs : stream.Segmented) (hL : L ≤ stream.rest.length) :
    sendMeasure ((H1BodyToChunkedTransfer.new stream w (.contentLength L) maxLen config).start stream).state ≤
      2 * L + stream.events.length + w.events.length + 10 := by
  cases L with
  | zero =>
    simp [H1BodyToChunkedTransfer.new, H1BodyToChunkedTransfer.start, ChunkedTransferState.start, sendMeasure,
      noTrailerEndBuffer]
    omega
  | succ n =>
    obtain ⟨-, hrest⟩ := fixedReading_newFixedLength hs hL (Nat.succ_pos n)
    -- the size line has at most as many digits as the size
    have hhex : (Hex.lowerHex (n + 1)).length ≤ n + 1 :=
      Hex.lowerHex_length_le (Nat.lt_pow_self (by norm_num)) (by omega)
    have hst : (newFixedLength stream (n + 1)).stream = stream := by simp [newFixedLength]
    simp only [H1BodyToChunkedTransfer.new, H1BodyToChunkedTransfer.start, ChunkedTransferState.start, sendMeasure,
      hrest, hst, Preview.chunkHead, List.length_append]
    simp
    omega

end H1BodyToChunkedRun

/-- `H1BodyToChunkedTransfer` sends a body of known length `L` that a
    segmented stream holds as the chunked encoding of its `L` bytes: one
    chunk of them, then the last chunk and an empty trailer section (the
    last chunk alone for `L = 0`).  Polled enough times with a steady
    writer and a configuration its constructors build, it completes with
    that encoding written after what the writer held, and leaves the stream
    just after the body. -/
theorem H1BodyToChunkedTransfer.contentLength_sends_one_chunk (libs : ByteLibs) {L maxLen : Nat} {stream : Source}
    {w : Sink} {config : LimitedCopyConfig} (hs : stream.Segmented) (hL : L ≤ stream.rest.length) (hw : w.Steady)
    (hcfg : config.Valid) {fuel polls : Nat} (hfuel : 2 * L + stream.events.length + w.events.length + 13 < fuel)
    (hpolls : 2 * L + stream.events.length + w.events.length + 10 < polls) :
    ∃ t, ((H1BodyToChunkedTransfer.new stream w (.contentLength L) maxLen config).start stream).run libs fuel polls =
        some (.ready (.ok ()), t) ∧
      t.state.writer.written =
        w.written ++ (Message.ofSegments (if L = 0 then [] else [stream.rest.take L])).encode ∧
      t.state.stream.rest = stream.rest.drop L := by
  have hm : H1BodyToChunkedRun.sendMeasure
      ((H1BodyToChunkedTransfer.new stream w (.contentLength L) maxLen config).start stream).state ≤
      2 * L + stream.events.length + w.events.length + 10 :=
    H1BodyToChunkedRun.sendMeasure_new_le hs hL
  exact H1BodyToChunkedRun.run_spec (H1BodyToChunkedRun.runInv_new hs hL hw hcfg) (by omega) (by omega)


/-- A body of two bytes read in two segments, with a third byte after it,
    to a writer that is not ready once and then takes two bytes at a time. -/
theorem H1BodyToChunkedTransfer.contentLength_sends_one_chunk_split :
    ∃ t, ((H1BodyToChunkedTransfer.new (.ofSegments [[97], [98, 99]]) (.open_ [.pending, .accept 2])
        (.contentLength 2) 1024 .default).start (.ofSegments [[97], [98, 99]])).run
        ⟨Hex.hexPrefixValue, fun _ => true⟩ 30 30 = some (.ready (.ok ()), t) ∧
      t.state.writer.written = (Sink.open_ [.pending, .accept 2]).written ++
        (Message.ofSegments (if 2 = 0 then [] else [(Source.ofSegments [[97], [98, 99]]).rest.take 2])).encode ∧
      t.state.stream.rest = (Source.ofSegments [[97], [98, 99]]).rest.drop 2 :=
  H1BodyToChunkedTransfer.contentLength_sends_one_chunk _ (by simp [Source.Segmented, Source.ofSegments])
    (by decide) (by simp [Sink.Steady, Sink.open_]) LimitedCopyConfig.default_valid (by decide) (by decide)

/-! ## A body read to the end of the stream -/

namespace H1BodyToChunkedRun

/-- The transfer at its encoder polls the encoder with one round less and
    ends when it does: polled once for each unit of the encoder's work left
    and once more, it completes with the encoder's whole message written. -/
theorem run_encode {libs : ByteLibs} {pre W : List UInt8} {e : StreamToChunkedTransfer} {t : H1BodyToChunkedRun}
    {fuel polls : Nat} (hst : t.state = .encode e) (h : ChunkedEncodeRound.Inv pre W e.start)
    (hl : e.start.Live) (hpolls : e.start.measure < polls) (hfuel : e.start.measure + 2 < fuel) :
    ∃ t', run libs fuel polls t = some (.ready (.ok ()), t') ∧ t'.state.writer.written = pre ++ W := by
  induction polls generalizing t e with
  | zero => omega
  | succ polls ih =>
    obtain ⟨fuel, rfl⟩ : ∃ f, fuel = f + 1 := ⟨fuel - 1, by omega⟩
    rw [run, poll, hst]
    dsimp only
    rcases StreamToChunkedTransfer.poll_spec h hl (show e.start.measure + 1 < fuel by omega) with
        ⟨e', hx, h', hl', hm'⟩ | ⟨e', hx, hw', -⟩ <;> rw [hx]
    · -- the encoder waits: the transfer waits at the encoder it left
      exact ih rfl h' hl' (by omega) (by omega)
    · exact ⟨_, rfl, hw'⟩

end H1BodyToChunkedRun

/-- `H1BodyToChunkedTransfer` sends a body read to the end of a segmented
    stream, whose window is empty, as the chunked message of the stream's
    segments, one chunk each, then the last chunk and an empty trailer
    section.  Polled enough times with a steady writer, it completes with
    that message written after what the writer held. -/
theorem H1BodyToChunkedTransfer.readUntilEnd_sends_segments (libs : ByteLibs) {maxLen : Nat} {stream : Source}
    {w : Sink} {config : LimitedCopyConfig} (hbuf : stream.buf = []) (hs : stream.Segmented) (hw : w.Steady)
    {fuel polls : Nat}
    (hpolls : (Message.ofSegments (segments stream.events)).encode.length + stream.events.length +
      w.events.length < polls)
    (hfuel : (Message.ofSegments (segments stream.events)).encode.length + stream.events.length +
      w.events.length + 2 < fuel) :
    ∃ t, ((H1BodyToChunkedTransfer.new stream w .readUntilEnd maxLen config).start stream).run libs fuel polls =
        some (.ready (.ok ()), t) ∧
      t.state.writer.written = w.written ++ (Message.ofSegments (segments stream.events)).encode := by
  have hm := StreamToChunkedTransfer.measure_newWithNoTrailer config.yieldSize hbuf hs hw
  exact H1BodyToChunkedRun.run_encode rfl (StreamToChunkedTransfer.inv_newWithNoTrailer config.yieldSize hbuf hs hw)
    (fun h0 => absurd rfl h0) (by omega) (by omega)

/-- A body of two segments read to the end, to a writer not ready once. -/
theorem H1BodyToChunkedTransfer.readUntilEnd_sends_segments_two :
    ∃ t, ((H1BodyToChunkedTransfer.new (.ofSegments [[97], [98]]) (.open_ [.pending]) .readUntilEnd 1024
        .default).start (.ofSegments [[97], [98]])).run ⟨Hex.hexPrefixValue, fun _ => true⟩ 30 30 =
        some (.ready (.ok ()), t) ∧
      t.state.writer.written = (Sink.open_ [.pending]).written ++
        (Message.ofSegments (segments (Source.ofSegments [[97], [98]]).events)).encode :=
  H1BodyToChunkedTransfer.readUntilEnd_sends_segments _ rfl (by simp [Source.Segmented, Source.ofSegments])
    (by simp [Sink.Steady, Sink.open_]) (by decide) (by decide)

end G3Proxy
