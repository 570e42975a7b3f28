/-
  The HTTP body reader of g3-http (`body/reader.rs`) and the chunk-size line
  parser it calls (`parse/chunked_line.rs`).

  * `HttpBodyReader` reads a body from a buffered stream and gives its bytes
    out as they are on the wire: until the end of the stream, a fixed
    length, or a chunked body with its size lines, line ends and trailer.
    The chunked reader is the state machine of `NextReadType`; each state
    has its poll (`pollChunkSize`, `pollFixed`, `pollChunkDataEnd`,
    `pollTrailer`), which looks at most at as many buffered bytes as the
    caller has room for and consumes exactly the bytes it gives out.
  * `pollChunkedLoop` is the loop of `poll_chunked`; it stops once the
    caller's buffer is full, so the model runs it with one more round of
    fuel than there is room (`pollRead`).
  * The two library functions of the chunk-size line parser, `atoi`'s
    `u64::from_radix_16` and `std::str::from_utf8`, are parameters
    (`ByteLibs`); `ByteLibs.Spec` is what is assumed of them.
  * A `panic!`/`unreachable!()` or an index out of bounds is `none`.
-/
import G3Proxy.Io.Stream
import G3Proxy.Http.Request
import G3Proxy.Core.Hex

namespace G3Proxy

open AsyncIo

/-- The library functions the chunk-size line parser calls: the parser of a
    hexadecimal prefix (value and length) and the UTF-8 check. -/
structure ByteLibs where
  fromRadix16 : List UInt8 → Nat × Nat
  fromUtf8 : List UInt8 → Bool

/-- `from_radix_16` reads the longest prefix of hexadecimal digits (below
    `2^64`, where it cannot overflow). -/
structure ByteLibs.Spec (libs : ByteLibs) : Prop where
  fromRadix16 : Hex.FromRadix16 libs.fromRadix16

/-- `HttpChunkedLine`: of the parsed line only the chunk size is kept; no
    caller reads the extension. -/
structure HttpChunkedLine where
  chunkSize : Nat
  deriving Repr, DecidableEq

/-- `HttpChunkedLine::parse` of a line with its line end. -/
def HttpChunkedLine.parse (libs : ByteLibs) (buf : List UInt8) :
    Except HttpLineParseError HttpChunkedLine :=
  match libs.fromRadix16 buf with
  | (chunkSize, offset) =>
    if offset = 0 then .error .invalidChunkSize
    else if buf.length = offset then .error .notLongEnough
    else
      match buf[offset]? with
      | some 13 | some 10 => .ok ⟨chunkSize⟩
      | some 59 => if libs.fromUtf8 (buf.drop (offset + 1)) then .ok ⟨chunkSize⟩ else .error .invalidUtf8Encoding
      | _ => .error .invalidChunkSize

/-- `NextReadType`. -/
inductive NextReadType where
  | endOfFile
  | untilEnd
  | fixedLength
  | chunkSize
  | chunkDataEnd (c : UInt8)
  | trailer
  deriving Repr, DecidableEq

/-- `HttpBodyReader`. -/
structure HttpBodyReader where
  stream : Source
  bodyType : HttpBodyType
  nextReadType : NextReadType
  bodyLineMaxLen : Nat
  nextReadSize : Nat
  leftTotalSize : Nat
  chunkSizeLineCache : List UInt8
  trailerLineLength : Nat
  trailerLastChar : UInt8
  finished : Bool
  readContentLength : Nat
  currentChunkSize : Nat
  deriving Repr, DecidableEq

/-- A poll of one state of the chunked reader: the count it gives out, the
    bytes it put in the caller's buffer, and the reader. -/
abbrev StatePoll := Poll (Except IoError Nat) × List UInt8 × HttpBodyReader

/-- A poll of `poll_read`. -/
abbrev ReadPoll := Poll (Except IoError Unit) × List UInt8 × HttpBodyReader

namespace HttpBodyReader

/-- `usize::MAX` on a 64-bit target. -/
def maxUsize : Nat := 2 ^ 64 - 1

/-- `update_next_read_size`: move what is left of the body (at most
    `usize::MAX`) to the next read. -/
def updateNextReadSize (r : HttpBodyReader) : HttpBodyReader :=
  if r.leftTotalSize > maxUsize then
    { r with nextReadSize := maxUsize, leftTotalSize := r.leftTotalSize - maxUsize }
  else if r.leftTotalSize > 0 then { r with nextReadSize := r.leftTotalSize, leftTotalSize := 0 }
  else r

section UpdateNextReadSize

variable (r : HttpBodyReader)

@[simp] theorem updateNextReadSize_stream : r.updateNextReadSize.stream = r.stream := by
  unfold updateNextReadSize; split_ifs <;> rfl

@[simp] theorem updateNextReadSize_bodyType : r.updateNextReadSize.bodyType = r.bodyType := by
  unfold updateNextReadSize; split_ifs <;> rfl

@[simp] theorem updateNextReadSize_nextReadType : r.updateNextReadSize.nextReadType = r.nextReadType := by
  unfold updateNextReadSize; split_ifs <;> rfl

@[simp] theorem updateNextReadSize_bodyLineMaxLen :
    r.updateNextReadSize.bodyLineMaxLen = r.bodyLineMaxLen := by
  unfold updateNextReadSize; split_ifs <;> rfl

@[simp] theorem updateNextReadSize_chunkSizeLineCache :
    r.updateNextReadSize.chunkSizeLineCache = r.chunkSizeLineCache := by
  unfold updateNextReadSize; split_ifs <;> rfl

@[simp] theorem updateNextReadSize_trailerLineLength :
    r.updateNextReadSize.trailerLineLength = r.trailerLineLength := by
  unfold updateNextReadSize; split_ifs <;> rfl

@[simp] theorem updateNextReadSize_finished : r.updateNextReadSize.finished = r.finished := by
  unfold updateNextReadSize; split_ifs <;> rfl

/-- With something left, the next read gets some of it and nothing is lost. -/
theorem updateNextReadSize_pos (h : 0 < r.leftTotalSize) :
    0 < r.updateNextReadSize.nextReadSize ∧
      r.updateNextReadSize.nextReadSize + r.updateNextReadSize.leftTotalSize = r.leftTotalSize := by
  unfold updateNextReadSize
  split_ifs with h1
  · exact ⟨by simp [maxUsize], by simp; omega⟩
  · exact ⟨h, by simp⟩

theorem updateNextReadSize_of_zero (h : r.leftTotalSize = 0) : r.updateNextReadSize = r := by
  simp [updateNextReadSize, h]

end UpdateNextReadSize

/-- `new_read_until_end`. -/
def newReadUntilEnd (stream : Source) : HttpBodyReader :=
  updateNextReadSize
    { stream, bodyType := .readUntilEnd, nextReadType := .untilEnd, bodyLineMaxLen := 1024,
      nextReadSize := 0, leftTotalSize := 0, chunkSizeLineCache := [], trailerLineLength := 0,
      trailerLastChar := 0, finished := false, readContentLength := 0, currentChunkSize := 0 }

/-- `new_fixed_length`. -/
def newFixedLength (stream : Source) (contentLength : Nat) : HttpBodyReader :=
  updateNextReadSize
    { stream, bodyType := .contentLength contentLength, nextReadType := .fixedLength,
      bodyLineMaxLen := 1024, nextReadSize := 0, leftTotalSize := contentLength,
      chunkSizeLineCache := [], trailerLineLength := 0, trailerLastChar := 0, finished := false,
      readContentLength := 0, currentChunkSize := 0 }

/-- `new_chunked`. -/
def newChunked (stream : Source) (bodyLineMaxLen : Nat) : HttpBodyReader :=
  updateNextReadSize
    { stream, bodyType := .chunked, nextReadType := .chunkSize, bodyLineMaxLen,
      nextReadSize := 0, leftTotalSize := 0, chunkSizeLineCache := [], trailerLineLength := 0,
      trailerLastChar := 0, finished := false, readContentLength := 0, currentChunkSize := 0 }

/-- `new_chunked_after_preview`: inside a chunk, `nextChunkSize` data bytes
    to go. -/
def newChunkedAfterPreview (stream : Source) (bodyType : HttpBodyType) (bodyLineMaxLen : Nat)
    (nextChunkSize : Nat) : HttpBodyReader :=
  updateNextReadSize
    { stream, bodyType, nextReadType := .fixedLength, bodyLineMaxLen, nextReadSize := 0,
      leftTotalSize := nextChunkSize, chunkSizeLineCache := [], trailerLineLength := 0,
      trailerLastChar := 0, finished := false, readContentLength := 0,
      currentChunkSize := nextChunkSize }

/-- `HttpBodyReader::new`. -/
def new (stream : Source) (bodyType : HttpBodyType) (bodyLineMaxLen : Nat) : HttpBodyReader :=
  match bodyType with
  | .readUntilEnd => newReadUntilEnd stream
  | .contentLength len => newFixedLength stream len
  | .chunked => newChunked stream bodyLineMaxLen

/-- The error of a closed stream. -/
def eofError (msg : String) : IoError := ⟨.unexpectedEof, msg⟩

/-- The error of bytes that are not a chunked body. -/
def dataError (msg : String) : IoError := ⟨.invalidData, msg⟩

/-- `poll_eof`: read to the end of the stream. -/
def pollEof (r : HttpBodyReader) (space : Nat) : ReadPoll :=
  match r.stream.read space with
  | (.ready (.ok d), s) =>
    if d.length = 0 then (.ready (.ok ()), [], { r with stream := s, finished := true })
    else (.ready (.ok ()), d, { r with stream := s, readContentLength := r.readContentLength + d.length })
  | (.ready (.error e), s) => (.ready (.error e), [], { r with stream := s })
  | (.pending, s) => (.pending, [], { r with stream := s })

/-- `poll_fixed`: read at most `next_read_size` bytes; at the end of the
    slice, the end of the body or of the chunk's data. -/
def pollFixed (r : HttpBodyReader) (space : Nat) : Option ReadPoll :=
  match r.stream.read (min space r.nextReadSize) with
  | (.ready (.ok d), s) =>
    let r := { r with stream := s }
    if d.length = 0 then
      some (.ready (.error (eofError "reader closed while reading fixed length body")), [], r)
    else
      let r := { r with readContentLength := r.readContentLength + d.length,
                        nextReadSize := r.nextReadSize - d.length }
      if r.nextReadSize = 0 then
        let r := r.updateNextReadSize
        if r.nextReadSize = 0 then
          match r.bodyType with
          | .contentLength _ => some (.ready (.ok ()), d, { r with nextReadType := .endOfFile })
          | .chunked => some (.ready (.ok ()), d, { r with nextReadType := .chunkDataEnd 13 })
          | .readUntilEnd => none
        else some (.ready (.ok ()), d, r)
      else some (.ready (.ok ()), d, r)
  | (.ready (.error e), s) => some (.ready (.error e), [], { r with stream := s })
  | (.pending, s) => some (.pending, [], { r with stream := s })

section Chunked

variable (libs : ByteLibs)

/-- `parse_chunk_size_and_update_next_read_type`: the line is complete. -/
def parseChunkSizeAndUpdateNextReadType (r : HttpBodyReader) : Except IoError HttpBodyReader :=
  match HttpChunkedLine.parse libs r.chunkSizeLineCache with
  | .error e => .error (dataError e.display)
  | .ok chunk =>
    let r := { r with currentChunkSize := chunk.chunkSize }
    let r :=
      if chunk.chunkSize = 0 then { r with nextReadType := .trailer }
      else updateNextReadSize { r with nextReadType := .fixedLength, leftTotalSize := chunk.chunkSize }
    .ok { r with chunkSizeLineCache := [] }

/-- `check_chunk_size_last_char`. -/
def checkChunkSizeLastChar (r : HttpBodyReader) (char : UInt8) : Except IoError HttpBodyReader :=
  if char ≠ 10 then .error (dataError "invalid chunk size line ending")
  else parseChunkSizeAndUpdateNextReadType libs { r with chunkSizeLineCache := r.chunkSizeLineCache ++ [10] }

/-- `poll_chunk_size`: copy the size line up to its `CR`, and its `LF` when
    it is already buffered. -/
def pollChunkSize (r : HttpBodyReader) (space : Nat) : Option StatePoll :=
  match r.stream.fillBuf with
  | (.pending, s) => some (.pending, [], { r with stream := s })
  | (.ready (.error e), s) => some (.ready (.error e), [], { r with stream := s })
  | (.ready (.ok cache), s) =>
    let r := { r with stream := s }
    if cache.isEmpty then some (.ready (.error (eofError "reader closed while reading chunk line")), [], r)
    else
      -- do not parse more data than really needed
      let cache := if space < cache.length then cache.take space else cache
      if r.chunkSizeLineCache.getLast? = some 13 then
        match cache with
        | [] => none
        | nextChar :: _ =>
          let r := { r with stream := r.stream.consume 1 }
          match checkChunkSizeLastChar libs r nextChar with
          | .error e => some (.ready (.error e), [], r)
          | .ok r => some (.ready (.ok 1), [nextChar], r)
      else
        match cache.idxOf? 13 with
        | some offset =>
          let nw := offset + 1
          if r.chunkSizeLineCache.length + nw ≥ r.bodyLineMaxLen then
            some (.ready (.error (dataError "chunk size line too long")), [], r)
          else
            let toCopy := cache.take nw
            let r := { r with chunkSizeLineCache := r.chunkSizeLineCache ++ toCopy }
            match cache.drop nw with
            | nextChar :: _ =>
              let r := { r with stream := r.stream.consume (nw + 1) }
              match checkChunkSizeLastChar libs r nextChar with
              | .error e => some (.ready (.error e), [], r)
              | .ok r => some (.ready (.ok (nw + 1)), toCopy ++ [nextChar], r)
            | [] => some (.ready (.ok nw), toCopy, { r with stream := r.stream.consume nw })
        | none =>
          let nw := cache.length
          if r.chunkSizeLineCache.length + nw ≥ r.bodyLineMaxLen then
            some (.ready (.error (dataError "chunk size line too long")), [], r)
          else
            some (.ready (.ok nw), cache,
              { r with chunkSizeLineCache := r.chunkSizeLineCache ++ cache, stream := r.stream.consume nw })

/-- `check_chunk_data_end_last_char`. -/
def checkChunkDataEndLastChar (r : HttpBodyReader) (char : UInt8) : Except IoError HttpBodyReader :=
  if char ≠ 10 then .error (dataError "invalid chunk ending last char")
  else .ok { r with nextReadType := .chunkSize }

/-- `poll_chunk_data_end`: the `CR` (and the `LF` when buffered) or the `LF`
    after chunk data. -/
def pollChunkDataEnd (r : HttpBodyReader) (space : Nat) (char : UInt8) : Option StatePoll :=
  match r.stream.fillBuf with
  | (.pending, s) => some (.pending, [], { r with stream := s })
  | (.ready (.error e), s) => some (.ready (.error e), [], { r with stream := s })
  | (.ready (.ok cache), s) =>
    let r := { r with stream := s }
    if cache.isEmpty then
      some (.ready (.error (eofError "reader closed while reading chunk line end whitespace")), [], r)
    else
      let cache := if space < cache.length then cache.take space else cache
      match cache with
      | [] => none
      | c0 :: rest =>
        if c0 ≠ char then some (.ready (.error (dataError "invalid chunk ending first char")), [], r)
        else if char = 13 then
          match rest with
          | nextChar :: _ =>
            let r := { r with stream := r.stream.consume 2 }
            match checkChunkDataEndLastChar r nextChar with
            | .error e => some (.ready (.error e), [], r)
            | .ok r => some (.ready (.ok 2), [13, 10], r)
          | [] =>
            some (.ready (.ok 1), [13],
              { r with stream := r.stream.consume 1, nextReadType := .chunkDataEnd 10 })
        else if char = 10 then
          some (.ready (.ok 1), [10], { r with stream := r.stream.consume 1, nextReadType := .chunkSize })
        else none

/-- `update_next_read_type_after_trailer_header`: an empty line ends the
    body. -/
def updateNextReadTypeAfterTrailerHeader (r : HttpBodyReader) : HttpBodyReader :=
  if r.trailerLineLength = 0 then { r with nextReadType := .endOfFile }
  else { r with trailerLastChar := 0, trailerLineLength := 0, nextReadType := .trailer }

/-- `check_trailer_header_last_char`. -/
def checkTrailerHeaderLastChar (r : HttpBodyReader) (char : UInt8) : Except IoError HttpBodyReader :=
  if char ≠ 10 then .error (dataError "invalid trailer line ending")
  else .ok r.updateNextReadTypeAfterTrailerHeader

/-- `poll_trailer`: copy a trailer line up to its `CR`, and its `LF` when it
    is already buffered.  `trailer_line_length` counts the bytes of the line
    before its `CR`, and a `CR` at the end of a poll is remembered only
    through `trailer_last_char`. -/
def pollTrailer (r : HttpBodyReader) (space : Nat) : Option StatePoll :=
  match r.stream.fillBuf with
  | (.pending, s) => some (.pending, [], { r with stream := s })
  | (.ready (.error e), s) => some (.ready (.error e), [], { r with stream := s })
  | (.ready (.ok cache), s) =>
    let r := { r with stream := s }
    if cache.isEmpty then some (.ready (.error (eofError "reader closed while reading trailer")), [], r)
    else
      let cache := if space < cache.length then cache.take space else cache
      if r.trailerLineLength ≠ 0 ∧ r.trailerLastChar = 13 then
        match cache with
        | [] => none
        | nextChar :: _ =>
          let r := { r with stream := r.stream.consume 1 }
          match checkTrailerHeaderLastChar r nextChar with
          | .error e => some (.ready (.error e), [], r)
          | .ok r => some (.ready (.ok 1), [nextChar], r)
      else
        match cache.idxOf? 13 with
        | some offset =>
          let nw := offset + 1
          if r.trailerLineLength + nw ≥ r.bodyLineMaxLen then
            some (.ready (.error (dataError "trailer line too long")), [], r)
          else
            let r := { r with trailerLastChar := 13, trailerLineLength := r.trailerLineLength + offset }
            match cache.drop nw with
            | nextChar :: _ =>
              let r := { r with stream := r.stream.consume (nw + 1) }
              match checkTrailerHeaderLastChar r nextChar with
              | .error e => some (.ready (.error e), [], r)
              | .ok r => some (.ready (.ok (nw + 1)), cache.take nw ++ [nextChar], r)
            | [] => some (.ready (.ok nw), cache.take nw, { r with stream := r.stream.consume nw })
        | none =>
          let nw := cache.length
          if r.trailerLineLength + nw ≥ r.bodyLineMaxLen then
            some (.ready (.error (dataError "trailer line too long")), [], r)
          else
            match cache.getLast? with
            | none => none
            | some last =>
              some (.ready (.ok nw), cache,
                { r with trailerLastChar := last, trailerLineLength := r.trailerLineLength + nw,
                         stream := r.stream.consume nw })

/-- The poll of the current state, inside `poll_chunked`; `none` for the
    end of the body, which the loop handles itself. -/
def pollState (r : HttpBodyReader) (space : Nat) : Option StatePoll :=
  match r.nextReadType with
  | .endOfFile | .untilEnd => none
  | .chunkSize => pollChunkSize libs r space
  | .fixedLength =>
    (pollFixed r space).map fun
      | (.ready (.ok ()), d, r) => (.ready (.ok d.length), d, r)
      | (.ready (.error e), d, r) => (.ready (.error e), d, r)
      | (.pending, d, r) => (.pending, d, r)
  | .chunkDataEnd char => pollChunkDataEnd r space char
  | .trailer => pollTrailer r space

/-- The loop of `poll_chunked`: `offset` bytes of the caller's `expectLen`
    are filled with `out`. -/
def pollChunkedLoop (expectLen : Nat) : Nat → Nat → List UInt8 → HttpBodyReader → Option ReadPoll
  | 0, _, _, _ => none
  | fuel + 1, offset, out, r =>
    if offset ≥ expectLen then some (.ready (.ok ()), out, r)
    else
      match r.nextReadType with
      | .endOfFile => some (.ready (.ok ()), out, { r with finished := true })
      | .untilEnd => none
      | _ =>
        match pollState libs r (expectLen - offset) with
        | none => none
        | some (.pending, _, r) =>
          if offset ≠ 0 then some (.ready (.ok ()), out, r) else some (.pending, out, r)
        | some (.ready (.ok 0), _, r) => some (.ready (.ok ()), out, r)
        | some (.ready (.ok nr), d, r) => pollChunkedLoop expectLen fuel (offset + nr) (out ++ d) r
        | some (.ready (.error e), _, r) => some (.ready (.error e), out, r)

/-- `poll_chunked`: each round of the loop fills at least one byte, so
    `space + 1` rounds reach a full buffer. -/
def pollChunked (r : HttpBodyReader) (space : Nat) : Option ReadPoll :=
  pollChunkedLoop libs space (space + 1) 0 [] r

/-- `AsyncRead::poll_read` into a buffer with `space` bytes free. -/
def pollRead (r : HttpBodyReader) (space : Nat) : Option ReadPoll :=
  match r.bodyType with
  | .readUntilEnd => some (pollEof r space)
  | .contentLength _ =>
    match r.nextReadType with
    | .endOfFile => some (.ready (.ok ()), [], { r with finished := true })
    | .fixedLength => pollFixed r space
    | _ => none
  | .chunked => pollChunked libs r space

/-- A caller reading with buffers of the given sizes: the bytes of each
    ready poll, until the reader has finished or fails or the sizes run
    out. -/
def readAll : List Nat → HttpBodyReader → Option (List (List UInt8) × HttpBodyReader)
  | [], r => some ([], r)
  | space :: spaces, r =>
    match pollRead libs r space with
    | none => none
    | some (.ready (.ok ()), out, r) =>
      if r.finished then some ([out], r)
      else (readAll spaces r).map fun (outs, r) => (out :: outs, r)
    | some (.ready (.error _), _, r) => some ([], r)
    | some (.pending, _, r) => readAll spaces r

end Chunked

end HttpBodyReader

end G3Proxy
