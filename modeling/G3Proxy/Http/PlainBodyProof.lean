/-
  The bodies of g3-http that are not chunked (`body/reader.rs`,
  `body/decoder.rs`): one of known length, read slice by slice, and one
  read to the end of the stream.

  * `HttpBodyReader.FixedReading` is a reader of a body of known length
    part way through it, and `fixedRest` the body bytes it has still to
    give.  Such a reader, and one reading to the end, hand out the rest of
    their body as the copy of `Io.CopySpec` asks of a reader
    (`readsStream_fixed`, `readsStream_untilEnd`): a read waits or gives
    the next bytes, and nothing only at the end.
  * Over any reader that does, the plain branch of `HttpBodyDecodeReader`
    gives out the whole body and then ends (`readAll_plain`), whatever the
    sizes of the caller's buffers.
-/
import G3Proxy.Http.BodyReaderProof
import G3Proxy.Http.BodyToChunked
import G3Proxy.Http.ChunkedDecoder
import G3Proxy.Io.CopySpec

namespace G3Proxy

open AsyncIo

namespace HttpBodyReader

variable {libs : ByteLibs} {L : Nat} {S : List UInt8} {r : HttpBodyReader}

/-- The body bytes a reader of a body of known length has still to give:
    the next `next_read_size + left_total_size` bytes of its stream, and
    none at the end of the body. -/
def fixedRest (r : HttpBodyReader) : List UInt8 :=
  if r.nextReadType = .fixedLength then r.stream.rest.take (r.nextReadSize + r.leftTotalSize) else []

/-- A reader of a body of length `L` with `S` after it on the stream, part
    way through the body: it reads a slice of it, or is at its end. -/
structure FixedReading (L : Nat) (S : List UInt8) (r : HttpBodyReader) : Prop where
  body_type : r.bodyType = .contentLength L
  holds : r.stream.Holds S r.fixedRest
  state : (r.nextReadType = .fixedLength ∧ 0 < r.nextReadSize ∧
      r.nextReadSize + r.leftTotalSize ≤ r.stream.rest.length) ∨ r.nextReadType = .endOfFile

/-- While a slice is read, the bytes left are the next ones of the stream. -/
theorem fixedRest_of_holds {s : Source} {rem : List UInt8} (hs : s.Holds S rem) (hfix : r.nextReadType = .fixedLength)
    (hst : r.stream = s) (hlen : rem.length = r.nextReadSize + r.leftTotalSize) : r.fixedRest = rem := by
  rw [fixedRest, if_pos hfix, hst, hs.rest, ← hlen, List.take_left']
  rfl

theorem length_fixedRest (h : FixedReading L S r) (hfix : r.nextReadType = .fixedLength) :
    r.fixedRest.length = r.nextReadSize + r.leftTotalSize := by
  have hle : r.nextReadSize + r.leftTotalSize ≤ r.stream.rest.length := by
    rcases h.state with ⟨-, -, hle⟩ | he
    · exact hle
    · rw [hfix] at he
      exact absurd he (by decide)
  rw [fixedRest, if_pos hfix, List.length_take, min_eq_left hle]

/-- A reader of a body of known length hands out the rest of the body. -/
theorem readsStream_fixed : ReadsStream (readFn libs) (FixedReading L S) fixedRest (fun r => r.stream.events.length) := by
  refine ⟨fun r space h hspace => ?_⟩
  rcases h.state with ⟨hfix, hn, hle⟩ | hend
  · -- a slice of the body: a read of at most the slice
    have hlen := length_fixedRest h hfix
    have hne : r.fixedRest ≠ [] := List.ne_nil_of_length_pos (by omega)
    rcases h.holds.read hne (show 0 < min space r.nextReadSize by omega) with ⟨s', hx, hs', hev⟩ |
        ⟨d, s', hx, hd, hdn, hpre, hs', hev⟩
    · refine .inl ⟨{ r with stream := s' }, by simp [readFn, pollRead, h.body_type, hfix, pollFixed, hx], ?_, ?_, hev⟩
      · have hrest : ({ r with stream := s' } : HttpBodyReader).fixedRest = r.fixedRest :=
          fixedRest_of_holds hs' hfix rfl hlen
        refine ⟨h.body_type, hrest ▸ hs', .inl ⟨hfix, hn, ?_⟩⟩
        rw [show ({ r with stream := s' } : HttpBodyReader).stream = s' from rfl, hs'.rest]
        simp only [List.length_append]
        omega
      · exact fixedRest_of_holds hs' hfix rfl hlen
    · -- the bytes read are the first of the body
      have hdn' : d.length ≤ r.nextReadSize := hdn.trans (min_le_right _ _)
      have hpre' : d <+: r.fixedRest :=
        List.prefix_of_prefix_length_le hpre (List.prefix_append _ _) (by omega)
      obtain ⟨rem', hrem⟩ := hpre'
      have hs'' := hs' rem' hrem.symm
      have hlen' : rem'.length + d.length = r.nextReadSize + r.leftTotalSize := by
        rw [← hlen, ← hrem, List.length_append]
        omega
      obtain ⟨r', hp, hst', hbt', -, -, -, -, hnext⟩ := pollFixed_read hx hd hdn' (by rw [h.body_type]; simp)
      refine .inr ⟨d, r', by simp [readFn, pollRead, h.body_type, hfix, hp], ?_, hdn.trans (min_le_left _ _), ?_,
        hst' ▸ hev, fun h0 => absurd h0 hd⟩
      · rcases hnext with ⟨hpos, htype, hsum⟩ | ⟨hsum, -, htype⟩
        · have hrest : r'.fixedRest = rem' := fixedRest_of_holds hs'' (htype.trans hfix) hst' (by omega)
          refine ⟨hbt'.trans h.body_type, by rw [hrest, hst']; exact hs'', .inl ⟨htype.trans hfix, hpos, ?_⟩⟩
          rw [hst', hs''.rest, List.length_append]
          omega
        · -- the end of the body
          have htype := htype L h.body_type
          have hnil : rem' = [] := List.eq_nil_of_length_eq_zero (by omega)
          have hrest : r'.fixedRest = [] := by simp [fixedRest, htype]
          exact ⟨hbt'.trans h.body_type, by rw [hrest]; exact hst' ▸ hnil ▸ hs'', .inr htype⟩
      · rcases hnext with ⟨hpos, htype, hsum⟩ | ⟨hsum, -, htype⟩
        · rw [fixedRest_of_holds hs'' (htype.trans hfix) hst' (by omega), hrem]
        · have hnil : rem' = [] := List.eq_nil_of_length_eq_zero (by omega)
          rw [show r'.fixedRest = [] by simp [fixedRest, htype L h.body_type], ← hrem, hnil]
  · -- at the end of the body a read gives nothing
    have hnil : r.fixedRest = [] := by simp [fixedRest, hend]
    refine .inr ⟨[], { r with finished := true }, by simp [readFn, pollRead, h.body_type, hend], ?_, by simp,
      by simp [fixedRest, hend], le_rfl, fun _ => hnil⟩
    exact ⟨h.body_type, h.holds, .inr hend⟩

/-- A reader about to read a body of positive length `L` that its stream
    holds: after `update_next_read_size` the body is the next `L` bytes. -/
theorem fixedReading_update {L : Nat} {stream : Source} {r : HttpBodyReader} (hst : r.stream = stream)
    (hbt : r.bodyType = .contentLength L) (htype : r.nextReadType = .fixedLength) (hleft : r.leftTotalSize = L)
    (hs : stream.Segmented) (hL : L ≤ stream.rest.length) (hpos : 0 < L) :
    FixedReading L (stream.rest.drop L) r.updateNextReadSize ∧
      r.updateNextReadSize.fixedRest = stream.rest.take L := by
  obtain ⟨hn, hsum⟩ := updateNextReadSize_pos r (by omega)
  have hfix : r.updateNextReadSize.nextReadType = .fixedLength := by rw [updateNextReadSize_nextReadType, htype]
  have hrest : r.updateNextReadSize.fixedRest = stream.rest.take L := by
    rw [fixedRest, if_pos hfix, updateNextReadSize_stream, hsum, hleft, hst]
  refine ⟨⟨by rw [updateNextReadSize_bodyType, hbt], ?_, .inl ⟨hfix, hn, ?_⟩⟩, hrest⟩
  · rw [hrest, updateNextReadSize_stream, hst]
    exact ⟨(List.take_append_drop L stream.rest).symm, hs⟩
  · rw [hsum, hleft, updateNextReadSize_stream, hst]
    exact hL

/-- `new_fixed_length` of a body of positive length `L` that the stream
    holds: the body is the next `L` bytes. -/
theorem fixedReading_newFixedLength {L : Nat} {stream : Source} (hs : stream.Segmented) (hL : L ≤ stream.rest.length)
    (hpos : 0 < L) :
    FixedReading L (stream.rest.drop L) (newFixedLength stream L) ∧
      (newFixedLength stream L).fixedRest = stream.rest.take L := by
  unfold newFixedLength
  -- the reader before `update_next_read_size` is the one the source builds
  exact fixedReading_update rfl rfl rfl rfl hs hL hpos

/-- A reader of a body read to the end hands out the rest of its stream. -/
theorem readsStream_untilEnd :
    ReadsStream (readFn libs) (fun r => r.bodyType = .readUntilEnd ∧ r.stream.Segmented) (fun r => r.stream.rest)
      (fun r => r.stream.events.length) := by
  refine ⟨fun r space h hspace => ?_⟩
  obtain ⟨hbt, hs⟩ := h
  rcases Source.readsStream.read_spec r.stream space hs hspace with ⟨s', hx, hs', hrest, hev⟩ |
      ⟨d, s', hx, hs', hle, hrest, hev, hend⟩
  · have hx' : r.stream.read space = (.pending, s') := by simpa [Source.readFn] using hx
    exact .inl ⟨{ r with stream := s' }, by simp [readFn, pollRead, hbt, pollEof, hx'], ⟨hbt, hs'⟩, hrest, hev⟩
  · have hx' : r.stream.read space = (.ready (.ok d), s') := by simpa [Source.readFn] using hx
    by_cases hd : d = []
    · -- a read of nothing: the end of the stream, and of the body
      subst hd
      exact .inr ⟨[], { r with stream := s', finished := true }, by simp [readFn, pollRead, hbt, pollEof, hx'],
        ⟨hbt, hs'⟩, hle, hrest, hev, hend⟩
    · exact .inr ⟨d, { r with stream := s', readContentLength := r.readContentLength + d.length },
        by simp [readFn, pollRead, hbt, pollEof, hx', hd], ⟨hbt, hs'⟩, hle, hrest, hev, hend⟩

/-- `poll_read` of a reader whose read, as the copy sees it, waits. -/
theorem pollRead_of_readFn_pending {r r' : HttpBodyReader} {space : Nat} (h : readFn libs r space = some (.pending, r')) :
    ∃ out, pollRead libs r space = some (.pending, out, r') := by
  unfold readFn at h
  rcases hp : pollRead libs r space with _ | ⟨(_ | ⟨⟨⟩⟩) | _, out, r₁⟩ <;> rw [hp] at h <;> simp at h
  exact ⟨out, by rw [h]⟩

/-- `poll_read` of a reader whose read, as the copy sees it, gives `d`. -/
theorem pollRead_of_readFn_ok {r r' : HttpBodyReader} {space : Nat} {d : List UInt8}
    (h : readFn libs r space = some (.ready (.ok d), r')) : pollRead libs r space = some (.ready (.ok ()), d, r') := by
  unfold readFn at h
  rcases hp : pollRead libs r space with _ | ⟨(_ | ⟨⟨⟩⟩) | _, out, r₁⟩ <;> rw [hp] at h <;> simp at h
  rw [h.1, h.2]

end HttpBodyReader

/-! ## The decoder of a plain body -/

namespace HttpBodyDecodeReader

variable {libs : ByteLibs} {P : HttpBodyReader → Prop} {rest : HttpBodyReader → List UInt8}
  {waits : HttpBodyReader → Nat}

/-- A caller reading a plain body whose reader hands out `rest r`, with
    buffers of positive sizes, more of them than there are bytes and waits:
    the reads give out the whole body and the decoder ends, its reader at
    the end of the body. -/
theorem readAll_plain (hread : ReadsStream (HttpBodyReader.readFn libs) P rest waits) {fuel : Nat} :
    ∀ {spaces : List Nat} {r : HttpBodyReader}, P r → (∀ sp ∈ spaces, 0 < sp) →
      (rest r).length + waits r < spaces.length →
      ∃ outs r', readAll libs fuel spaces ⟨false, false, some (.plain r)⟩ = some (outs, ⟨true, true, some (.plain r')⟩) ∧
        outs.flatten = rest r ∧ P r' ∧ rest r' = [] := by
  intro spaces
  induction spaces with
  | nil => intro r _ _ hlen; simp at hlen
  | cons sp sps ih =>
    intro r hP hsp hlen
    have hsp' : ∀ s ∈ sps, 0 < s := fun s hs => hsp s (List.mem_cons_of_mem _ hs)
    simp only [List.length_cons] at hlen
    rcases hread.read_spec r sp hP (hsp sp List.mem_cons_self) with ⟨r', hx, hP', hrest, hwt⟩ |
        ⟨d, r', hx, hP', -, hrest, hwt, hend⟩
    · -- a wait takes a buffer and gives nothing
      obtain ⟨out, hp⟩ := HttpBodyReader.pollRead_of_readFn_pending hx
      obtain ⟨outs, r'', hra, hflat, hP'', hr''⟩ := ih hP' hsp' (by rw [hrest]; omega)
      refine ⟨outs, r'', ?_, by rw [hflat, hrest], hP'', hr''⟩
      simp [readAll, pollRead, hp, hra]
    · have hp := HttpBodyReader.pollRead_of_readFn_ok hx
      by_cases hd : d = []
      · -- nothing read: the end of the body
        subst hd
        have hnil := hend rfl
        refine ⟨[], r', by simp [readAll, pollRead, hp], by simp [hnil], hP', ?_⟩
        simpa [hnil] using hrest.symm
      · -- the next bytes of the body, then the reads after them
        have hlen' : (rest r').length < (rest r).length := by
          rw [hrest, List.length_append]
          have := List.length_pos_of_ne_nil hd
          omega
        obtain ⟨outs, r'', hra, hflat, hP'', hr''⟩ := ih hP' hsp' (by omega)
        refine ⟨d :: outs, r'', ?_, by rw [List.flatten_cons, hflat, hrest], hP'', hr''⟩
        simp [readAll, pollRead, hp, hd, hra]

/-- `HttpBodyDecodeReader::new_fixed_length` over a segmented stream that
    holds a body of positive length `L`, read with buffers of positive
    sizes, more of them than `L` and the stream's answers: the decoder gives
    out exactly the `L` bytes of the body and then ends, and leaves the
    stream just after the body. -/
theorem newFixedLength_reads_body (libs : ByteLibs) (fuel : Nat) {L : Nat} {stream : Source} (hs : stream.Segmented)
    (hL : L ≤ stream.rest.length) (hpos : 0 < L) {spaces : List Nat} (hsp : ∀ sp ∈ spaces, 0 < sp)
    (hlen : L + stream.events.length < spaces.length) :
    ∃ outs d, readAll libs fuel spaces (newFixedLength stream L) = some (outs, d) ∧
      outs.flatten = stream.rest.take L ∧ d.finished = true ∧
      ∃ r, d.decodeState = some (.plain r) ∧ r.stream.rest = stream.rest.drop L := by
  obtain ⟨hbr, hrest⟩ := HttpBodyReader.fixedReading_newFixedLength hs hL hpos
  have hst : (HttpBodyReader.newFixedLength stream L).stream = stream := by simp [HttpBodyReader.newFixedLength]
  have hlen' : (HttpBodyReader.newFixedLength stream L).fixedRest.length +
      (HttpBodyReader.newFixedLength stream L).stream.events.length < spaces.length := by
    rw [hrest, hst, List.length_take, min_eq_left hL]
    exact hlen
  obtain ⟨outs, r', hra, hflat, hP', hr'⟩ := readAll_plain HttpBodyReader.readsStream_fixed hbr hsp hlen'
  refine ⟨outs, _, hra, by rw [hflat, hrest], rfl, r', rfl, ?_⟩
  -- at the end of the body only what follows it is left on the stream
  rw [hP'.holds.rest, hr', List.nil_append]

/-- A body of two bytes in two segments, with a byte after it, read one
    byte at a time. -/
theorem newFixedLength_reads_body_split :
    ∃ outs d, readAll ⟨Hex.hexPrefixValue, fun _ => true⟩ 0 (List.replicate 8 1)
        (newFixedLength (.ofSegments [[97], [98, 99]]) 2) = some (outs, d) ∧
      outs.flatten = (Source.ofSegments [[97], [98, 99]]).rest.take 2 ∧ d.finished = true ∧
      ∃ r, d.decodeState = some (.plain r) ∧ r.stream.rest = (Source.ofSegments [[97], [98, 99]]).rest.drop 2 :=
  newFixedLength_reads_body _ 0 (by simp [Source.Segmented, Source.ofSegments]) (by decide) (by decide)
    (by simp) (by decide)

/-- `HttpBodyDecodeReader::new_read_until_end` over a segmented stream,
    read with buffers of positive sizes, more of them than the bytes and
    answers of the stream: the decoder gives out the whole stream and then
    ends. -/
theorem newReadUntilEnd_reads_stream (libs : ByteLibs) (fuel : Nat) {stream : Source} (hs : stream.Segmented)
    {spaces : List Nat} (hsp : ∀ sp ∈ spaces, 0 < sp) (hlen : stream.rest.length + stream.events.length < spaces.length) :
    ∃ outs d, readAll libs fuel spaces (newReadUntilEnd stream) = some (outs, d) ∧ outs.flatten = stream.rest ∧
      d.finished = true := by
  have hst : (HttpBodyReader.newReadUntilEnd stream).stream = stream := by
    simp [HttpBodyReader.newReadUntilEnd]
  have hP : (HttpBodyReader.newReadUntilEnd stream).bodyType = .readUntilEnd ∧
      (HttpBodyReader.newReadUntilEnd stream).stream.Segmented := by
    simp [HttpBodyReader.newReadUntilEnd, hs]
  obtain ⟨outs, r', hra, hflat, -, -⟩ := readAll_plain HttpBodyReader.readsStream_untilEnd hP hsp (by rw [hst]; exact hlen)
  exact ⟨outs, _, hra, by rw [hflat, hst], rfl⟩

/-- A stream of three bytes in two answers, read with buffers of two bytes. -/
theorem newReadUntilEnd_reads_stream_split :
    ∃ outs d, readAll ⟨Hex.hexPrefixValue, fun _ => true⟩ 0 (List.replicate 6 2)
        (newReadUntilEnd (.ofSegments [[97, 98], [99]])) = some (outs, d) ∧
      outs.flatten = (Source.ofSegments [[97, 98], [99]]).rest ∧ d.finished = true :=
  newReadUntilEnd_reads_stream _ 0 (by simp [Source.Segmented, Source.ofSegments]) (by simp) (by decide)

end HttpBodyDecodeReader

end G3Proxy
