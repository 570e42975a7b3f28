/-
  The chunked encoder and the chunked decoder of g3-http agree: what
  `StreamToChunkedTransfer::new_with_no_trailer` writes for the segments a
  reader gives, `HttpBodyDecodeReader::new_chunked` reads back as their
  concatenation, with no trailer, leaving what follows on the stream.

  The two halves are proved apart: the encoder writes the chunked message of
  the segments (`newWithNoTrailer_writes_ofSegments`), and the decoder reads
  the data part of a message whose size lines fit `body_line_max_size`
  (`newChunked_reads_dataPart`), then the empty trailer section
  (`trailer_empty`).  What joins them is that the encoder's size lines are
  the lowercase hexadecimal sizes of the segments: below `2^64` such a line
  has at most 16 digits, so with its `CR` it fits a limit of 17.
-/
import G3Proxy.Http.StreamToChunkedProof
import G3Proxy.Http.ChunkedDecoderProof

namespace AsyncIo

/-- The segments of a reader that answers only with bytes or waits are not
    empty. -/
theorem Source.Segmented.segments_ne_nil {r : Source} (hr : r.Segmented) : ∀ d ∈ segments r.events, d ≠ [] := by
  obtain ⟨buf, events⟩ := r
  simp only [Source.Segmented] at hr
  induction events with
  | nil => simp
  | cons e es ih =>
    have hes : ∀ e ∈ es, e = .pending ∨ ∃ d, e = .data d ∧ d ≠ [] := fun e he => hr e (by simp [he])
    rcases hr e (by simp) with rfl | ⟨d, rfl, hd⟩
    · simpa using ih hes
    · intro d' hd'
      rcases List.mem_cons.1 hd' with rfl | hd'
      · exact hd
      · exact ih hes d' hd'

end AsyncIo

namespace ChunkedCoding.Message

open Hex G3Proxy

variable {libs : ByteLibs} {max : Nat} {segs : List (List UInt8)}

/-- The size lines of the message of segments below `2^64`, with their
    `CR`, fit a line limit of 17. -/
theorem ofSegments_linesFit_of_lt (hmax : 17 ≤ max) (hsegs : ∀ d ∈ segs, d.length < 2 ^ 64) :
    LinesFit (max + 1) (ofSegments segs) := by
  refine ofSegments_linesFit (fun d hd => ?_) (by omega)
  have h16 : (lowerHex d.length).length ≤ 16 :=
    lowerHex_length_le (by simpa [show (2 : Nat) ^ 64 = 16 ^ 16 by norm_num] using hsegs d hd) (by norm_num)
  omega

/-- The decoder's size-line parser reads the sizes of the message of
    segments below `2^64`. -/
theorem ofSegments_sizesRead (hlibs : libs.Spec) (hne : ∀ d ∈ segs, d ≠ [])
    (hsegs : ∀ d ∈ segs, d.length < 2 ^ 64) : SizesRead (HttpBodyReader.lineSize libs) (ofSegments segs) := by
  refine HttpBodyReader.sizesRead_of_linesRead hlibs (ofSegments_wf hne) ⟨?_, .inl rfl, ?_⟩
  · simp only [ofSegments, List.mem_map]
    rintro c ⟨d, -, rfl⟩
    exact .inl rfl
  · simp only [ofSegments, List.mem_map]
    rintro c ⟨d, hd, rfl⟩
    exact hsegs d hd

end ChunkedCoding.Message

namespace G3Proxy

open AsyncIo ChunkedCoding

/-- The chunked round trip.  A reader whose answers are non-empty segments
    (each below `2^64` bytes) and waits, copied by `new_with_no_trailer`
    (any `yield_size`) to a writer that waits or accepts some bytes at each
    answer: the encoder returns the length of what it wrote, `W`.  Then for
    every stream holding `W` and then any `T`, split into reads in any way,
    `new_chunked` with a `body_line_max_size` of at least 17, read with
    enough buffers of any non-zero sizes, gives the segments' bytes in
    order, and its `trailer` with a `max_size` of at least 2 is no trailer
    map and leaves `T` on the stream. -/
theorem newWithNoTrailer_newChunked_roundTrip {r : Source} {w : Sink} (yieldSize : Nat) (hbuf : r.buf = [])
    (hr : r.Segmented) (hw : w.Steady) (hsegs : ∀ d ∈ segments r.events, d.length < 2 ^ 64) {fuel polls : Nat}
    (hpolls : (Message.ofSegments (segments r.events)).encode.length + r.events.length + w.events.length < polls)
    (hfuel : (Message.ofSegments (segments r.events)).encode.length + r.events.length + w.events.length + 1 < fuel)
    (libs : ByteLibs) (hlibs : libs.Spec) {max : Nat} (hmax : 17 ≤ max) (T : List UInt8) {s : Source}
    (hs : s.rest = (Message.ofSegments (segments r.events)).encode ++ T) (hseg : s.Segmented)
    {spaces : List Nat} (hsp : ∀ n ∈ spaces, 0 < n)
    (hlen : (Message.ofSegments (segments r.events)).encode.length + s.events.length < spaces.length)
    {dfuel : Nat} (hdfuel : 2 * ((Message.ofSegments (segments r.events)).encode.length + s.events.length) + 2 < dfuel)
    {M : Type} (L : HttpLibs M) (hL : L.Spec) (utf8 : List UInt8 → Option (List Char))
    {maxSize tfuel tpolls : Nat} (hmaxSize : 2 ≤ maxSize) (htfuel : 2 ≤ tfuel)
    (htpolls : s.events.length < tpolls) :
    ∃ t, StreamToChunkedTransfer.run fuel polls (.newWithNoTrailer r w yieldSize) =
        some (.ready (.ok (Message.ofSegments (segments r.events)).encode.length), t) ∧
      t.writer.written = w.written ++ (Message.ofSegments (segments r.events)).encode ∧
      ∃ outs d, HttpBodyDecodeReader.readAll libs dfuel spaces (.newChunked s max) = some (outs, d) ∧
        outs.flatten = (segments r.events).flatten ∧
        ∃ s', HttpBodyDecodeReader.trailer L utf8 maxSize tfuel tpolls d =
            some (.ready (.ok none), ⟨true, true, none⟩, some s') ∧ s'.rest = T := by
  -- the encoder writes the message of the segments
  obtain ⟨t, hrun, hwritten, -⟩ := StreamToChunkedTransfer.newWithNoTrailer_writes_ofSegments yieldSize hbuf hr hw
    hpolls hfuel
  refine ⟨t, hrun, hwritten, ?_⟩
  -- which the decoder reads: first its data part
  set m := Message.ofSegments (segments r.events) with hm
  have hne := hr.segments_ne_nil
  have hwf : m.Wf := Message.ofSegments_wf hne
  have hdata : m.encode = m.dataPart ++ [13, 10] := by
    rw [Message.encode_eq_dataPart]
    rfl
  have hs' : s.Holds ([13, 10] ++ T) m.dataPart := ⟨by rw [hs, hdata]; simp, hseg⟩
  have hdlen : m.dataPart.length ≤ m.encode.length := by rw [hdata]; simp
  obtain ⟨outs, c, hra, hflat, hc, hev⟩ := HttpBodyDecodeReader.newChunked_reads_dataPart hwf
    (Message.ofSegments_linesFit_of_lt hmax hsegs) (Message.ofSegments_sizesRead hlibs hne hsegs) hs' hsp
    (show m.dataPart.length + s.events.length < spaces.length by omega)
    (show 2 * (m.dataPart.length + s.events.length) + 2 < dfuel by omega)
  refine ⟨outs, _, hra, by rw [hflat, hm, Message.ofSegments_body], ?_⟩
  -- then the empty trailer section
  have hct : c.reader.Holds T [13, 10] := ⟨by rw [hc.rest]; rfl, hc.segmented⟩
  have htr : ∃ s', HttpBodyDecodeReader.trailer L utf8 maxSize tfuel tpolls
      ⟨true, false, some (.chunked c)⟩ =
        some (.ready (.ok none), ⟨true, true, none⟩, some s') ∧ s'.Holds T [] :=
    HttpBodyDecodeReader.trailer_empty hL hct hmaxSize htfuel (by omega)
  obtain ⟨s', htr, hs''⟩ := htr
  exact ⟨s', htr, by rw [hs''.rest]; rfl⟩

/-- The round trip for the segment `a`, the message read back split after
    its first byte, one byte per buffer. -/
theorem newWithNoTrailer_newChunked_roundTrip_a :
    ∃ t, StreamToChunkedTransfer.run 14 13 (.newWithNoTrailer (.ofSegments [[97]]) (.open_ []) 1024) =
        some (.ready (.ok (Message.ofSegments (segments (Source.ofSegments [[97]]).events)).encode.length), t) ∧
      t.writer.written = (Sink.open_ []).written ++ (Message.ofSegments (segments (Source.ofSegments [[97]]).events)).encode ∧
      ∃ outs d, HttpBodyDecodeReader.readAll ⟨Hex.hexPrefixValue, fun _ => true⟩ 29 (List.replicate 14 1)
          (.newChunked (.ofSegments [[49], [13, 10, 97, 13, 10, 48, 13, 10, 13, 10]]) 17) = some (outs, d) ∧
        outs.flatten = (segments (Source.ofSegments [[97]]).events).flatten ∧
        ∃ s', HttpBodyDecodeReader.trailer HttpLibs.ofLists (fun _ => none) 2 2 3 d =
            some (.ready (.ok none), ⟨true, true, none⟩, some s') ∧ s'.rest = [] :=
  newWithNoTrailer_newChunked_roundTrip 1024 rfl (by simp [Source.Segmented, Source.ofSegments])
    (by simp [Sink.Steady, Sink.open_]) (by simp [Source.ofSegments]) (by decide) (by decide)
    ⟨Hex.hexPrefixValue, fun _ => true⟩ ⟨Hex.fromRadix16_hexPrefixValue⟩ le_rfl [] (by decide)
    (by simp [Source.Segmented, Source.ofSegments]) (by simp) (by decide) (by decide) HttpLibs.ofLists
    HttpLibs.ofLists_spec (fun _ => none) le_rfl le_rfl (by decide)

/-- With a `body_line_max_size` of 0 the decoder refuses what the encoder
    wrote for the segment `a` when the stream splits it after the size
    digit: the window `1` has no `LF` and is longer than the limit, so the
    first read fails and nothing is read. -/
theorem newChunked_splitSizeLine_short_limit :
    (StreamToChunkedTransfer.run 16 2 (.newWithNoTrailer (.ofSegments [[97]]) (.open_ []) 1024)).map
        (fun r => (r.1, r.2.writer.written)) =
      some (.ready (.ok 11), [49, 13, 10, 97, 13, 10, 48, 13, 10, 13, 10]) ∧
    (HttpBodyDecodeReader.readAll ⟨Hex.hexPrefixValue, fun _ => true⟩ 32 [16, 16]
        (.newChunked (.ofSegments [[49], [13, 10, 97, 13, 10, 48, 13, 10, 13, 10]]) 0)).map (·.1) = some [] := by
  decide

end G3Proxy
