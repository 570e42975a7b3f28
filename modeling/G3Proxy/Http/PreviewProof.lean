/-
  What the ICAP preview sends, and what is sent after it.

  * `pushPreviewData_unchunked`: a body read to its end or of a known
    length is previewed as one well-formed chunked message of at most
    `limit` leading bytes of the buffer, ended by `0; ieof` exactly when
    those are the whole body; the preview stands for as many buffered bytes
    as it holds.  With a limit of `0`, an ICAP `Preview: 0`, the preview
    is the empty message written twice (`pushPreviewData_zero_limit`): the
    second copy is read after the end of the preview.
  * A chunked body is previewed by the size lines it holds, and
    `new_after_preview` goes on from the end of the preview only when a
    chunk was cut (`chunked_next_size > 0`); otherwise it reads the body
    again from the reader, which still holds the previewed chunks
    (`newAfterPreview_chunked_repeats_preview`).
-/
import G3Proxy.Http.Preview
import G3Proxy.Http.BodyReaderProof

namespace G3Proxy

open AsyncIo Hex ChunkedCoding HttpBodyReader Preview

namespace Preview

/-- The message of one data chunk `d`, then a last chunk with the extension
    `lastExt` and no trailer. -/
def previewMessage (d lastExt : List UInt8) : Message :=
  ⟨[⟨lowerHex d.length, [], d⟩], [48], lastExt, []⟩

/-- The `ieof` extension: `; ieof`. -/
def ieofExt : List UInt8 := [59, 32, 105, 101, 111, 102]

theorem previewMessage_wf {d lastExt : List UInt8} (hd : d ≠ []) (hext : ExtWf lastExt) :
    (previewMessage d lastExt).Wf where
  chunks_wf c hc := by
    simp only [previewMessage, List.mem_singleton] at hc
    subst hc
    exact ⟨lowerHex_hex _, .inl rfl, hexValue_lowerHex _, hd⟩
  lastSize_ne_nil := by simp [previewMessage]
  lastSize_zero := by simp [previewMessage]
  lastExt_wf := hext
  trailers_wf := by simp [previewMessage]

theorem ieofExt_wf : ExtWf ieofExt :=
  .inr ⟨[], [32, 105, 101, 111, 102], rfl, by simp, fun b hb => by
    simp only [List.mem_cons, List.mem_nil_iff, or_false] at hb
    rcases hb with rfl | rfl | rfl | rfl | rfl <;> decide⟩

/-- One chunk of `n` bytes of the buffer, then `0`, is the preview message. -/
theorem oneChunk_lastChunk {buf : List UInt8} {n : Nat} (hn : n ≤ buf.length) :
    oneChunk buf n lastChunk = (previewMessage (buf.take n) []).encode := by
  have hlen : (buf.take n).length = n := by simp; omega
  simp [oneChunk, chunkHead, dataEnd, lastChunk, previewMessage, Message.encode, Message.lastLine,
    Chunk.encode, Chunk.line, trailerSection, crlf, hlen]

/-- One chunk of `n` bytes of the buffer, then `0; ieof`, is the preview
    message with the `ieof` extension. -/
theorem oneChunk_lastChunkIeof {buf : List UInt8} {n : Nat} (hn : n ≤ buf.length) :
    oneChunk buf n lastChunkIeof = (previewMessage (buf.take n) ieofExt).encode := by
  have hlen : (buf.take n).length = n := by simp; omega
  simp [oneChunk, chunkHead, dataEnd, lastChunkIeof, previewMessage, ieofExt, Message.encode,
    Message.lastLine, Chunk.encode, Chunk.line, trailerSection, crlf, hlen]

/-- A body read to its end or of a known length (not empty): the preview is
    one well-formed chunked message of the first `previewSize` buffered
    bytes, `0 < previewSize ≤ limit`, which stands for as many buffered bytes
    and says `ieof` exactly when it is the whole body. -/
theorem pushPreviewData_unchunked (libs : ByteLibs) (header : List UInt8) {bodyType : HttpBodyType}
    (hbt : bodyType = .readUntilEnd ∨ ∃ n, 0 < n ∧ bodyType = .contentLength n) {limit : Nat}
    (hlimit : 0 < limit) {buf : List UInt8} (hbuf : buf ≠ []) :
    ∃ lastExt st, pushPreviewData libs header bodyType limit buf =
        some (.ok (header ++ (previewMessage (buf.take st.previewSize) lastExt).encode, st)) ∧
      (previewMessage (buf.take st.previewSize) lastExt).Wf ∧
      0 < st.previewSize ∧ st.previewSize ≤ limit ∧ st.previewSize ≤ buf.length ∧
      st.consumeSize = st.previewSize ∧ st.chunkedNextSize = 0 ∧
      (st.previewEof = true ↔ bodyType = .contentLength st.previewSize) := by
  have hlen : 0 < buf.length := List.length_pos_of_ne_nil hbuf
  -- the preview of `k` bytes ended by `last`, with its message
  have hwf : ∀ {k : Nat} {ext : List UInt8}, 0 < k → k ≤ buf.length → ExtWf ext →
      (previewMessage (buf.take k) ext).Wf := fun hk hkb hext =>
    previewMessage_wf (List.ne_nil_of_length_pos (by simp; omega)) hext
  rcases hbt with rfl | ⟨n, hn, rfl⟩
  · -- read until the end: never the whole body
    by_cases hcut : buf.length > limit
    · refine ⟨[], ⟨limit, limit, false, 0⟩, ?_, hwf hlimit (show limit ≤ buf.length by omega) (.inl rfl), hlimit, Nat.le_refl _,
        show limit ≤ buf.length by omega, rfl, rfl, by simp⟩
      simp only [pushPreviewData, if_pos hcut, oneChunk_lastChunk (Nat.le_of_lt hcut)]
    · refine ⟨[], ⟨buf.length, buf.length, false, 0⟩, ?_, hwf hlen (Nat.le_refl _) (.inl rfl), hlen,
        show buf.length ≤ limit by omega, Nat.le_refl _, rfl, rfl, by simp⟩
      simp only [pushPreviewData, if_neg hcut, oneChunk_lastChunk (Nat.le_refl _)]
  · have hmax : HttpBodyReader.maxUsize = 18446744073709551615 := rfl
    set len := min buf.length (min n HttpBodyReader.maxUsize) with hlen_def
    have hlen_le : len ≤ buf.length := Nat.min_le_left _ _
    have hlen_n : len ≤ n := Nat.le_trans (Nat.min_le_right _ _) (Nat.min_le_left _ _)
    have hlen_pos : 0 < len := by omega
    by_cases hcut : len > limit
    · -- cut by the limit
      refine ⟨[], ⟨limit, limit, false, 0⟩, ?_, hwf hlimit (show limit ≤ buf.length by omega) (.inl rfl), hlimit, Nat.le_refl _,
        show limit ≤ buf.length by omega, rfl, rfl, ?_⟩
      · simp only [pushPreviewData, ← hlen_def, if_pos hcut, oneChunk_lastChunk (show limit ≤ buf.length by omega)]
      · simp only [Bool.false_eq_true, false_iff, HttpBodyType.contentLength.injEq]
        omega
    · by_cases hshort : len < n
      · -- less than the body is buffered
        refine ⟨[], ⟨len, len, false, 0⟩, ?_, hwf hlen_pos hlen_le (.inl rfl), hlen_pos,
          show len ≤ limit by omega, hlen_le, rfl, rfl, ?_⟩
        · simp only [pushPreviewData, ← hlen_def, if_neg hcut, if_pos hshort, oneChunk_lastChunk hlen_le]
        · simp only [Bool.false_eq_true, false_iff, HttpBodyType.contentLength.injEq]
          omega
      · -- the whole body is in the preview
        have hlen_eq : len = n := by omega
        refine ⟨ieofExt, ⟨len, len, true, 0⟩, ?_, hwf hlen_pos hlen_le ieofExt_wf, hlen_pos,
          show len ≤ limit by omega, hlen_le, rfl, rfl, by simp [hlen_eq]⟩
        simp only [pushPreviewData, ← hlen_def, if_neg hcut, if_neg hshort, oneChunk_lastChunkIeof hlen_le]

/-- A body of three bytes, all buffered, previewed with a limit of two. -/
theorem pushPreviewData_unchunked_cut :
    ∃ lastExt st, pushPreviewData ⟨Hex.hexPrefixValue, fun _ => true⟩ [72] (.contentLength 3) 2 [97, 98, 99] =
        some (.ok ([72] ++ (previewMessage ([97, 98, 99].take st.previewSize) lastExt).encode, st)) ∧
      (previewMessage ([97, 98, 99].take st.previewSize) lastExt).Wf ∧
      0 < st.previewSize ∧ st.previewSize ≤ 2 ∧ st.previewSize ≤ [97, 98, 99].length ∧
      st.consumeSize = st.previewSize ∧ st.chunkedNextSize = 0 ∧
      (st.previewEof = true ↔ HttpBodyType.contentLength 3 = .contentLength st.previewSize) :=
  pushPreviewData_unchunked _ [72] (.inr ⟨3, by decide, rfl⟩) (by decide) (List.cons_ne_nil _ _)

end Preview

/-- The body `1\r\na\r\n0\r\n\r\n`, of the one data byte `a`, arriving as its
    first chunk and then its last chunk, previewed with a limit of `4`.  The
    preview is the whole first chunk: the message `1\r\na\r\n0\r\n\r\n`, of
    the data `a`, standing for `6` buffered bytes, with no chunk cut.  The
    transfer after `100 Continue` then copies a chunked reader over the
    reader as the preview left it, which still holds those `6` bytes, so it
    sends the whole body again, of the data `a`: the preview and the rest
    carry `aa` where the body carries `a`.  Two more buffers show previews
    that are not one chunked message: `1\r\na` appends nothing, and `10\r\n`
    (a chunk of 16 bytes, none buffered yet) appends two last chunks. -/
theorem newAfterPreview_chunked_repeats_preview (fromUtf8 : List UInt8 → Bool) (writer : Sink)
    (copyConfig : LimitedCopyConfig) :
    PreviewData.poll ⟨fromRadix16Wrapping, fromUtf8⟩
        ⟨some [], .chunked, 4, .ofSegments [[49, 13, 10, 97, 13, 10], [48, 13, 10, 13, 10]]⟩ =
        some (.ready (.ok (oneByteMessage.encode, ⟨6, 1, false, 0⟩)),
          ⟨none, .chunked, 4, ⟨[49, 13, 10, 97, 13, 10], [.data [48, 13, 10, 13, 10]]⟩⟩) ∧
      (H1BodyToChunkedTransfer.newAfterPreview ⟨[49, 13, 10, 97, 13, 10], [.data [48, 13, 10, 13, 10]]⟩
          writer .chunked 16 copyConfig ⟨6, 1, false, 0⟩).state =
        .copy (newChunked ⟨[49, 13, 10, 97, 13, 10], [.data [48, 13, 10, 13, 10]]⟩ 16) writer copyConfig ∧
      (∃ outs r, readAll ⟨fromRadix16Wrapping, fromUtf8⟩ [64, 64, 64, 64]
          (newChunked ⟨[49, 13, 10, 97, 13, 10], [.data [48, 13, 10, 13, 10]]⟩ 16) = some (outs, r) ∧
        outs.flatten = oneByteMessage.encode ∧ r.finished = true) ∧
      oneByteMessage.encode = (Source.ofSegments [[49, 13, 10, 97, 13, 10], [48, 13, 10, 13, 10]]).rest ∧
      oneByteMessage.body ++ oneByteMessage.body ≠ oneByteMessage.body ∧
      pushPreviewData ⟨fromRadix16Wrapping, fromUtf8⟩ [] .chunked 4 [49, 13, 10, 97] =
        some (.ok ([], ⟨0, 0, false, 0⟩)) ∧
      pushPreviewData ⟨fromRadix16Wrapping, fromUtf8⟩ [] .chunked 4 [49, 48, 13, 10] =
        some (.ok (lastChunk ++ lastChunk, ⟨4, 0, false, 16⟩)) :=
  ⟨rfl, rfl, ⟨_, _, rfl, rfl, rfl⟩, rfl, by decide, rfl, rfl⟩

end G3Proxy
