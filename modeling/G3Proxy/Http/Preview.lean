/-
  The ICAP preview of an HTTP body (g3-http `body/preview.rs`) and the
  transfer that sends the rest of the body after `100 Continue`
  (`body/body_to_chunked.rs`).

  * `PreviewData.poll` fills the reader's buffer once and hands the buffered
    bytes to `pushPreviewData`, which appends the preview to the request
    head as a chunked body and says, in a `PreviewDataState`, how many
    buffered bytes the preview stands for (`consumeSize`), how many data
    bytes it holds (`previewSize`), whether it holds the whole body
    (`previewEof`) and how much of a chunk cut by the preview is left
    (`chunkedNextSize`).  Nothing is consumed from the reader.
  * `chunkedPreviewLoop` is the loop of `push_chunked_preview_data` over the
    size lines of a chunked body, with its exits: the last chunk (with or
    without what follows it), a chunk cut by the limit or by the end of the
    buffer, a chunk that ends exactly at the end of the buffer (one byte of
    it is kept back), and a buffer that holds no more lines.  The loop
    consumes a line at each turn, so a fuel of the buffer's length is
    enough; `none` is a panic or the fuel running out.
  * `H1BodyToChunkedTransfer.new` and `newAfterPreview` build the transfer's
    first state from the body type and, after a preview, from its state;
    the states are modelled as these constructors leave them.
-/
import G3Proxy.Http.BodyReader
import G3Proxy.Http.StreamToChunked

namespace G3Proxy

open AsyncIo Hex

/-- `PreviewError`. -/
inductive PreviewError where
  | readError (e : IoError)
  | readerClosed
  | alreadyPolled
  | invalidChunkedBody
  deriving Repr, DecidableEq

/-- `PreviewDataState`. -/
structure PreviewDataState where
  consumeSize : Nat
  previewSize : Nat
  previewEof : Bool
  chunkedNextSize : Nat
  deriving Repr, DecidableEq

namespace Preview

/-- `write!(header, "{n:x}\r\n")`: a chunk's size line. -/
def chunkHead (n : Nat) : List UInt8 := lowerHex n ++ [13, 10]

/-- `b"\r\n"`, the end of a chunk's data. -/
def dataEnd : List UInt8 := [13, 10]

/-- `b"0\r\n\r\n"`: the last chunk and the end of an empty trailer. -/
def lastChunk : List UInt8 := [48, 13, 10, 13, 10]

/-- `b"0; ieof\r\n\r\n"`: the last chunk with the `ieof` extension, which tells
    the ICAP server that the preview is the whole body. -/
def lastChunkIeof : List UInt8 := [48, 59, 32, 105, 101, 111, 102, 13, 10, 13, 10]

/-- The preview of `n` data bytes of `buf` as one chunk, then `last`. -/
def oneChunk (buf : List UInt8) (n : Nat) (last : List UInt8) : List UInt8 :=
  chunkHead n ++ buf.take n ++ dataEnd ++ last

/-- The loop of `push_chunked_preview_data`: the head so far, and the bytes
    consumed and previewed so far.  Each turn reads the size line at
    `consumeSize`. -/
def chunkedPreviewLoop (libs : ByteLibs) (limit : Nat) (buf : List UInt8) :
    Nat → List UInt8 → Nat → Nat → Option (Except PreviewError (List UInt8 × PreviewDataState))
  | 0, _, _, _ => none
  | fuel + 1, header, consumeSize, previewSize =>
    let left := buf.drop consumeSize
    -- `break`: the preview ends with a last chunk
    let stop := some (.ok (header ++ lastChunk, ⟨consumeSize, previewSize, false, 0⟩))
    if left.isEmpty then stop
    else match left.idxOf? 10 with
    | none => stop
    | some p =>
      match libs.fromRadix16 (left.take p) with
      | (chunkSize, offset) =>
        if offset = 0 then some (.error .invalidChunkedBody)
        else match left[offset]? with
        | none => none
        | some c =>
          -- `CR LF` right after the size, or an extension
          if (if offset + 1 = p then c ≠ 13 else c ≠ 59) then some (.error .invalidChunkedBody)
          else if chunkSize = 0 then
            let rest := left.drop (p + 1)
            if rest.head? = some 10 then
              -- end chunk ends
              some (.ok (header ++ lastChunkIeof, ⟨consumeSize + p + 2, previewSize, true, 0⟩))
            else if rest.take 2 = [13, 10] then
              some (.ok (header ++ lastChunkIeof, ⟨consumeSize + p + 3, previewSize, true, 0⟩))
            else
              -- do not consume the ending chunk, so a trailer goes along with it
              -- in the continue request
              some (.ok (header ++ lastChunk, ⟨consumeSize, previewSize, false, 0⟩))
          else
            let leftLimit := limit - previewSize
            if leftLimit = 0 then stop
            else
              let chunkSizeUsize := min chunkSize HttpBodyReader.maxUsize
              let data := left.drop (p + 1)
              if chunkSizeUsize ≤ leftLimit then
                if data.length = 0 then
                  -- no real data available, skip this chunk
                  some (.ok (header ++ lastChunk, ⟨consumeSize, previewSize, false, 0⟩))
                else if data.length > chunkSizeUsize then
                  let header := header ++ chunkHead chunkSizeUsize ++ data.take chunkSizeUsize ++ dataEnd
                  let previewSize := previewSize + chunkSizeUsize
                  let consumeSize := consumeSize + p + 1 + chunkSizeUsize
                  let chunkEnd := data.drop chunkSizeUsize
                  if chunkEnd.head? = some 10 then chunkedPreviewLoop libs limit buf fuel header (consumeSize + 1) previewSize
                  else if chunkEnd.take 2 = [13, 10] then
                    chunkedPreviewLoop libs limit buf fuel header (consumeSize + 2) previewSize
                  else some (.error .invalidChunkedBody)
                else if data.length = chunkSizeUsize then
                  -- leave one byte to ease the send of the continue request
                  let toPreview := data.length - 1
                  if toPreview > 0 then
                    some (.ok (header ++ oneChunk data toPreview lastChunk,
                      ⟨consumeSize + p + 1 + toPreview, previewSize + toPreview, false, chunkSize - toPreview⟩))
                  else some (.ok (header, ⟨consumeSize, previewSize, false, 0⟩))
                else
                  some (.ok (header ++ oneChunk data data.length lastChunk,
                    ⟨consumeSize + p + 1 + data.length, previewSize + data.length, false,
                      chunkSize - data.length⟩))
              else
                -- this chunk is big enough
                if data.length > leftLimit then
                  some (.ok (header ++ oneChunk data leftLimit lastChunk,
                    ⟨consumeSize + p + 1 + leftLimit, previewSize + leftLimit, false, chunkSize - leftLimit⟩))
                else
                  some (.ok (header ++ oneChunk data data.length lastChunk,
                    ⟨consumeSize + p + 1 + data.length, previewSize + data.length, false,
                      chunkSize - data.length⟩))

/-- `push_chunked_preview_data`. -/
def pushChunkedPreviewData (libs : ByteLibs) (header : List UInt8) (limit : Nat) (buf : List UInt8) :
    Option (Except PreviewError (List UInt8 × PreviewDataState)) :=
  chunkedPreviewLoop libs limit buf (buf.length + 1) header 0 0

/-- `push_preview_data`: the head with the preview appended, and the state. -/
def pushPreviewData (libs : ByteLibs) (header : List UInt8) (bodyType : HttpBodyType) (limit : Nat)
    (buf : List UInt8) : Option (Except PreviewError (List UInt8 × PreviewDataState)) :=
  match bodyType with
  | .readUntilEnd =>
    let len := buf.length
    if len > limit then some (.ok (header ++ oneChunk buf limit lastChunk, ⟨limit, limit, false, 0⟩))
    else some (.ok (header ++ oneChunk buf len lastChunk, ⟨len, len, false, 0⟩))
  | .contentLength totalLen =>
    let len := min buf.length (min totalLen HttpBodyReader.maxUsize)
    if len > limit then some (.ok (header ++ oneChunk buf limit lastChunk, ⟨limit, limit, false, 0⟩))
    else if len < totalLen then some (.ok (header ++ oneChunk buf len lastChunk, ⟨len, len, false, 0⟩))
    else some (.ok (header ++ oneChunk buf len lastChunkIeof, ⟨len, len, true, 0⟩))
  | .chunked => pushChunkedPreviewData libs header limit buf

end Preview

/-- `PreviewData`: the request head the preview is appended to (taken when
    the future completes), the body's type, the limit and the reader. -/
structure PreviewData where
  header : Option (List UInt8)
  bodyType : HttpBodyType
  limit : Nat
  inner : Source

/-- `PreviewData::poll`: one fill of the reader's buffer, which is left
    unconsumed. -/
def PreviewData.poll (libs : ByteLibs) (d : PreviewData) :
    Option (Poll (Except PreviewError (List UInt8 × PreviewDataState)) × PreviewData) :=
  match d.header with
  | none => some (.ready (.error .alreadyPolled), d)
  | some header =>
    match d.inner.fillBuf with
    | (.ready (.ok buf), inner) =>
      if buf.isEmpty then some (.ready (.error .readerClosed), { d with header := none, inner })
      else (Preview.pushPreviewData libs header d.bodyType d.limit buf).map fun r =>
        (.ready r, { d with header := none, inner })
    | (.ready (.error e), inner) => some (.ready (.error (.readError e)), { d with header := none, inner })
    | (.pending, inner) => some (.pending, { d with inner })

/-- `ChunkedTransferState`, as the constructors create its states: the
    copy state holds the reader, writer and configuration of a new
    `ROwnedLimitedCopy`. -/
inductive ChunkedTransferState where
  | sendHead (head : List UInt8) (offset : Nat) (bodyReader : HttpBodyReader) (writer : Sink)
  | copy (bodyReader : HttpBodyReader) (writer : Sink) (config : LimitedCopyConfig)
  | sendNoTrailerEnd (offset : Nat) (writer : Sink)
  | encode (encoder : StreamToChunkedTransfer)
  | flushEnd (writer : Sink)
  | end_

/-- `H1BodyToChunkedTransfer`. -/
structure H1BodyToChunkedTransfer where
  bodyType : HttpBodyType
  copyConfig : LimitedCopyConfig
  state : ChunkedTransferState
  totalWrite : Nat
  active : Bool

namespace H1BodyToChunkedTransfer

/-- `H1BodyToChunkedTransfer::new`. -/
def new (reader : Source) (writer : Sink) (bodyType : HttpBodyType) (bodyLineMaxLen : Nat)
    (copyConfig : LimitedCopyConfig) : H1BodyToChunkedTransfer :=
  let state : ChunkedTransferState :=
    match bodyType with
    | .contentLength 0 =>
      -- just send 0 chunk size and empty trailer end
      .sendNoTrailerEnd 2 writer
    | .contentLength len => .sendHead (Preview.chunkHead len) 0 (HttpBodyReader.newFixedLength reader len) writer
    | .readUntilEnd => .encode (StreamToChunkedTransfer.newWithNoTrailer reader writer copyConfig.yieldSize)
    | .chunked => .copy (HttpBodyReader.newChunked reader bodyLineMaxLen) writer copyConfig
  ⟨bodyType, copyConfig, state, 0, false⟩

/-- `H1BodyToChunkedTransfer::new_after_preview`.  The length left of a
    fixed-length body is `u64` subtraction, which the preview's own state
    never takes below zero. -/
def newAfterPreview (reader : Source) (writer : Sink) (bodyType : HttpBodyType) (bodyLineMaxLen : Nat)
    (copyConfig : LimitedCopyConfig) (previewState : PreviewDataState) : H1BodyToChunkedTransfer :=
  let state : ChunkedTransferState :=
    match bodyType with
    | .contentLength len =>
      let leftLen := len - previewState.previewSize
      .sendHead (Preview.chunkHead leftLen) 0
        (HttpBodyReader.newFixedLength (reader.consume previewState.consumeSize) leftLen) writer
    | .readUntilEnd =>
      .encode (StreamToChunkedTransfer.newWithNoTrailer (reader.consume previewState.consumeSize) writer
        copyConfig.yieldSize)
    | .chunked =>
      let nextChunkSize := previewState.chunkedNextSize
      if nextChunkSize > 0 then
        .sendHead (Preview.chunkHead nextChunkSize) 0
          (HttpBodyReader.newChunkedAfterPreview (reader.consume previewState.consumeSize) bodyType
            bodyLineMaxLen nextChunkSize) writer
      else .copy (HttpBodyReader.newChunked reader bodyLineMaxLen) writer copyConfig
  ⟨bodyType, copyConfig, state, 0, false⟩

end H1BodyToChunkedTransfer

end G3Proxy
