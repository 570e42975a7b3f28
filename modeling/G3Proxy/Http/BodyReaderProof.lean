/-
  The chunked `HttpBodyReader` follows the chunked-coding recognizer
  (`ChunkedCoding.step`, for the reader's line limit and its chunk-size line
  parser): reading a message it accepts, every poll gives out exactly the
  bytes it consumes, never reads past the message, and ends it.

  * `Tracks r φ` says which reader states stand for the recognizer's phase
    `φ`; `ChunkedInv` adds what the rest of the stream is (`SrcInv`: the
    rest of the message, then `T`).
  * One lemma per state poll (`pollChunkSize_sizeLine`, ...): from a state
    that tracks `φ`, a poll waits or gives out the next bytes `c` of the
    message and tracks `run φ c`.  The only state with no reader state is
    `trailerCr 0`, the `CR` of the final empty line read alone: the reader
    then forgets it (`trailer_line_length` stays `0`), which a poll reaches
    only when its view ends right after that `CR`.
-/
import G3Proxy.Core.Lists
import G3Proxy.Http.BodyReaderTotal
import G3Proxy.Core.ChunkedCoding

namespace G3Proxy

open AsyncIo ChunkedCoding Hex

/-! ## Bytes around a `CR` -/

/-- A prefix of a line continued past its `CR` ends before the `CR`, or
    holds the whole line and its `CR`. -/
theorem prefix_cr_cases {v xs ys : List UInt8} (hx : 13 ∉ xs) (hv : v <+: xs ++ 13 :: ys) :
    (13 ∉ v ∧ v <+: xs) ∨ (∃ v', v = xs ++ 13 :: v' ∧ v' <+: ys) := by
  induction xs generalizing v with
  | nil =>
    rcases List.prefix_cons_iff.1 hv with rfl | ⟨t, rfl, ht⟩
    · exact .inl ⟨List.not_mem_nil, List.nil_prefix⟩
    · exact .inr ⟨t, rfl, ht⟩
  | cons x xs ih =>
    have hx' : x ≠ 13 := fun h => hx (h ▸ List.mem_cons_self ..)
    rcases List.prefix_cons_iff.1 hv with rfl | ⟨t, rfl, ht⟩
    · exact .inl ⟨List.not_mem_nil, List.nil_prefix⟩
    · rcases ih (fun h => hx (List.mem_cons_of_mem _ h)) ht with ⟨hn, hp⟩ | ⟨v', rfl, hv'⟩
      · refine .inl ⟨?_, List.cons_prefix_cons.2 ⟨rfl, hp⟩⟩
        rintro (_ | ⟨_, h⟩)
        exacts [hx' rfl, hn h]
      · exact .inr ⟨v', rfl, hv'⟩

/-- The view of a non-empty window of the bytes after `b`: it starts with
    `b`, and what follows it in view comes next in the stream. -/
theorem take_cons_of_prefix {w rest : List UInt8} {b : UInt8} {space : Nat} (hw : w ≠ [])
    (hpre : w <+: b :: rest) (hspace : 0 < space) :
    ∃ t, w.take space = b :: t ∧ t <+: rest ∧ t.length + 1 ≤ space ∧ t.length + 1 ≤ w.length := by
  have hv : w.take space <+: b :: rest := (List.take_prefix _ _).trans hpre
  rcases List.prefix_cons_iff.1 hv with h0 | ⟨t, ht, htr⟩
  · simp [hw] at h0
    omega
  · have hlen := congrArg List.length ht
    simp only [List.length_take, List.length_cons] at hlen
    exact ⟨t, ht, htr, by omega, by omega⟩

/-- The bytes a state poll looks at: the window, cut to the caller's room. -/
theorem view_eq (w : List UInt8) (space : Nat) :
    (if space < w.length then w.take space else w) = w.take space := by
  split_ifs with h
  · rfl
  · exact (List.take_of_length_le (by omega)).symm

/-! ## The stream under a reader -/

/-- The reader's stream holds the rest `rem` of the message and then `T`,
    answers only with bytes or not ready, and no window ends right after the
    message's last `CR`. -/
structure SrcInv (T : List UInt8) (s : Source) (rem : List UInt8) : Prop where
  rest : s.rest = rem ++ T
  segmented : s.Segmented
  no_cut : 1 < rem.length → rem.length - 1 ∉ s.ends

namespace SrcInv

variable {T rem : List UInt8} {s : Source}

/-- A fill: not ready, or a window of the next bytes that does not end right
    after the message's last `CR`. -/
theorem fill (h : SrcInv T s rem) (hne : rem ≠ []) :
    (∃ s', s.fillBuf = (.pending, s') ∧ SrcInv T s' rem ∧ s'.events.length < s.events.length) ∨
    (∃ s', s.fillBuf = (.ready (.ok s'.buf), s') ∧ s'.buf ≠ [] ∧ s'.buf <+: rem ++ T ∧
      SrcInv T s' rem ∧ s'.events.length ≤ s.events.length ∧
      (1 < rem.length → s'.buf.length ≠ rem.length - 1)) := by
  have hr : s.rest ≠ [] := by rw [h.rest]; simp [hne]
  rcases Source.fillBuf_segmented h.segmented hr with
    ⟨s', hf, hrest, hseg, hev, hends⟩ | ⟨s', hf, hne', hrest, hseg, hev, hmem, hends⟩
  · exact .inl ⟨s', hf, ⟨hrest.trans h.rest, hseg, fun hl hq => h.no_cut hl (hends _ hq)⟩, hev⟩
  · refine .inr ⟨s', hf, hne', ?_, ⟨hrest.trans h.rest, hseg, fun hl hq => h.no_cut hl (hends _ hq)⟩,
      hev, fun hl heq => h.no_cut hl (hends _ (heq ▸ hmem))⟩
    have hpre := Source.fillBuf_ok_prefix hf
    rw [← h.rest, ← hpre]
    exact List.prefix_append _ _

/-- Consuming the next bytes `c` of the window. -/
theorem consume {c : List UInt8} (h : SrcInv T s (c ++ rem)) (hc : c.length ≤ s.buf.length) :
    SrcInv T (s.consume c.length) rem := by
  refine ⟨?_, h.segmented, fun hl hq => ?_⟩
  · rw [Source.rest_consume _ _ hc, h.rest]
    simp
  · have hmem := Source.add_mem_ends_of_consume hc hq
    refine h.no_cut (by simp; omega) ?_
    simpa [show rem.length - 1 + c.length = (c ++ rem).length - 1 by simp; omega] using hmem

/-- A read of at most `n > 0` bytes: not ready, or some of the next bytes,
    consumed. -/
theorem read (h : SrcInv T s rem) (hne : rem ≠ []) {n : Nat} (hn : 0 < n) :
    (∃ s', s.read n = (.pending, s') ∧ SrcInv T s' rem ∧ s'.events.length < s.events.length) ∨
    (∃ d s', s.read n = (.ready (.ok d), s') ∧ d ≠ [] ∧ d.length ≤ n ∧ d <+: rem ++ T ∧
      (∀ rem', rem = d ++ rem' → SrcInv T s' rem') ∧ s'.events.length ≤ s.events.length) := by
  rcases h.fill hne with ⟨s', hfill, hsrc', hev⟩ | ⟨s', hfill, hbuf, hpre, hsrc', hev, -⟩
  · exact .inl ⟨s', by simp [Source.read, hfill], hsrc', hev⟩
  · refine .inr ⟨s'.buf.take n, s'.consume n, by simp [Source.read, hfill], by simp [hbuf]; omega,
      List.length_take_le _ _, (List.take_prefix _ _).trans hpre, fun rem' hrem => ?_, hev⟩
    have hc : s'.consume n = s'.consume (s'.buf.take n).length := by
      simp only [Source.consume, List.length_take]
      congr 1
      rcases le_total n s'.buf.length with hle | hle
      · rw [min_eq_left hle]
      · rw [min_eq_right hle, List.drop_eq_nil_of_le hle, List.drop_eq_nil_of_le le_rfl]
    rw [hc]
    exact (hrem ▸ hsrc').consume (List.length_take_le' _ _)

end SrcInv

namespace HttpBodyReader

section Chunked

variable (libs : ByteLibs)

/-- The size the reader reads from a chunk-size line, given without its
    line end. -/
def lineSize (l : List UInt8) : Option Nat :=
  match HttpChunkedLine.parse libs (l ++ crlf) with
  | .ok chunk => some chunk.chunkSize
  | .error _ => none

/-- An extension the reader's line parser takes: none, or a `;` right
    after the size and then bytes that `from_utf8` accepts with the line
    end. -/
def ExtRead (ext : List UInt8) : Prop :=
  ext = [] ∨ ∃ rest, ext = 59 :: rest ∧ libs.fromUtf8 (rest ++ crlf) = true

/-- The size lines of a message that the reader's parser reads: their
    extensions, and sizes that fit a `u64`. -/
structure LinesRead (m : Message) : Prop where
  chunk_ext : ∀ c ∈ m.chunks, ExtRead libs c.ext
  last_ext : ExtRead libs m.lastExt
  chunk_size : ∀ c ∈ m.chunks, c.data.length < 2 ^ 64

/-- The reader state that stands for each phase of the recognizer. -/
def Tracks (r : HttpBodyReader) : Phase → Prop
  | .sizeLine l =>
    r.nextReadType = .chunkSize ∧ r.chunkSizeLineCache = l ∧ 13 ∉ l ∧ r.trailerLineLength = 0
  | .sizeLineCr l =>
    r.nextReadType = .chunkSize ∧ r.chunkSizeLineCache = l ++ [13] ∧ r.trailerLineLength = 0
  | .data n =>
    r.nextReadType = .fixedLength ∧ r.chunkSizeLineCache = [] ∧ r.trailerLineLength = 0 ∧
      0 < r.nextReadSize ∧ r.nextReadSize + r.leftTotalSize = n
  | .dataCr => r.nextReadType = .chunkDataEnd 13 ∧ r.chunkSizeLineCache = [] ∧ r.trailerLineLength = 0
  | .dataLf => r.nextReadType = .chunkDataEnd 10 ∧ r.chunkSizeLineCache = [] ∧ r.trailerLineLength = 0
  | .trailer k => r.nextReadType = .trailer ∧ r.trailerLineLength = k ∧ (k ≠ 0 → r.trailerLastChar ≠ 13)
  | .trailerCr k => r.nextReadType = .trailer ∧ r.trailerLineLength = k ∧ r.trailerLastChar = 13 ∧ k ≠ 0
  | .done => r.nextReadType = .endOfFile

@[simp] theorem tracks_stream {r : HttpBodyReader} {s : Source} {φ : Phase} :
    Tracks { r with stream := s } φ ↔ Tracks r φ := by
  cases φ <;> rfl

/-- The state the reader is in at each phase. -/
def readType : Phase → NextReadType
  | .sizeLine _ | .sizeLineCr _ => .chunkSize
  | .data _ => .fixedLength
  | .dataCr => .chunkDataEnd 13
  | .dataLf => .chunkDataEnd 10
  | .trailer _ | .trailerCr _ => .trailer
  | .done => .endOfFile

theorem Tracks.nextReadType {r : HttpBodyReader} {φ : Phase} (h : Tracks r φ) :
    r.nextReadType = readType φ := by
  cases φ <;> first | exact h | exact h.1

theorem readType_ne {φ : Phase} (hφ : φ ≠ .done) : readType φ ≠ .endOfFile ∧ readType φ ≠ .untilEnd := by
  cases φ <;> simp [readType] at hφ ⊢

/-- A chunked reader part way through a message it accepts: it tracks the
    phase `φ` reached, and the stream holds the rest `rem` of the message,
    then `T`. -/
structure ChunkedInv (T : List UInt8) (maxLen : Nat) (r : HttpBodyReader) (φ : Phase)
    (rem : List UInt8) : Prop where
  tracks : Tracks r φ
  chunked : r.bodyType = .chunked
  not_finished : r.finished = false
  max_len : r.bodyLineMaxLen = maxLen
  src : SrcInv T r.stream rem
  accepts : run maxLen (lineSize libs) φ rem = some .done

/-- What one state poll does from a reader that tracks `φ`: wait, taking an
    answer of the stream, or give out the next `n` bytes of the message and
    track the phase the recognizer reaches over them. -/
def StepOk (T : List UInt8) (maxLen : Nat) (r : HttpBodyReader) (φ : Phase) (rem : List UInt8)
    (space : Nat) : StatePoll → Prop
  | (.pending, _, r') =>
    ChunkedInv libs T maxLen r' φ rem ∧ r'.stream.events.length < r.stream.events.length
  | (.ready (.ok n), c, r') =>
    n = c.length ∧ 0 < n ∧ n ≤ space ∧ r'.stream.events.length ≤ r.stream.events.length ∧
      ∃ rem' φ', rem = c ++ rem' ∧ run maxLen (lineSize libs) φ c = some φ' ∧
        ChunkedInv libs T maxLen r' φ' rem'
  | (.ready (.error _), _, _) => False

/-- What the loop of `poll_chunked` does from a reader that tracks `φ`:
    wait, end the message, give out the next bytes `c` of the message and
    track the phase reached (with less left to read, counting the stream's
    answers), or stop one byte short of the message's end. -/
def LoopOk (T : List UInt8) (maxLen : Nat) (r : HttpBodyReader) (φ : Phase) (rem : List UInt8) :
    ReadPoll → Prop
  | (.pending, c, r') =>
    c = [] ∧ ChunkedInv libs T maxLen r' φ rem ∧ r'.stream.events.length < r.stream.events.length
  | (.ready (.ok ()), c, r') =>
    (c = rem ∧ r'.finished = true ∧ r'.stream.rest = T) ∨
    (∃ rem' φ', rem = c ++ rem' ∧ ChunkedInv libs T maxLen r' φ' rem' ∧
      rem'.length + r'.stream.events.length < rem.length + r.stream.events.length) ∨
    rem = c ++ [10]
  | (.ready (.error _), _, _) => False

variable {libs}
variable {T : List UInt8} {maxLen : Nat} {r : HttpBodyReader} {rem : List UInt8} {space : Nat}

theorem ChunkedInv.withStream {φ : Phase} {s : Source} (h : ChunkedInv libs T maxLen r φ rem)
    (hs : SrcInv T s rem) : ChunkedInv libs T maxLen { r with stream := s } φ rem :=
  ⟨tracks_stream.2 h.tracks, h.chunked, h.not_finished, h.max_len, hs, h.accepts⟩

/-- A state poll that finds the stream not ready waits. -/
theorem stepOk_pending {φ : Phase} {s : Source} (h : ChunkedInv libs T maxLen r φ rem)
    (hs : SrcInv T s rem) (hev : s.events.length < r.stream.events.length) :
    StepOk libs T maxLen r φ rem space (.pending, [], { r with stream := s }) :=
  ⟨h.withStream hs, hev⟩

/-! ### Chunk-size lines -/

/-- The `LF` of a size line whose size the recognizer reads: the reader
    parses the line and tracks the phase the recognizer goes to. -/
theorem checkChunkSizeLastChar_lf {L : List UInt8} {φ' : Phase}
    (hcache : r.chunkSizeLineCache = L ++ [13]) (htl : r.trailerLineLength = 0)
    (hstep : step maxLen (lineSize libs) (.sizeLineCr L) 10 = some φ') :
    ∃ r', checkChunkSizeLastChar libs r 10 = .ok r' ∧ Tracks r' φ' ∧ r'.stream = r.stream ∧
      r'.bodyType = r.bodyType ∧ r'.finished = r.finished ∧ r'.bodyLineMaxLen = r.bodyLineMaxLen := by
  cases hn : lineSize libs L with
  | none => simp [step, hn] at hstep
  | some n =>
    have hparse : HttpChunkedLine.parse libs (r.chunkSizeLineCache ++ [10]) = .ok ⟨n⟩ := by
      rw [hcache, List.append_assoc]
      unfold lineSize at hn
      split at hn
      · rename_i chunk hchunk
        cases hn
        exact hchunk
      · cases hn
    simp only [checkChunkSizeLastChar, ne_eq, not_true_eq_false, if_false,
      parseChunkSizeAndUpdateNextReadType, hparse]
    by_cases h0 : n = 0
    · subst h0
      simp only [step, if_true, hn] at hstep
      cases hstep
      exact ⟨_, rfl, ⟨rfl, htl, fun h => absurd rfl h⟩, rfl, rfl, rfl, rfl⟩
    · obtain ⟨k, rfl⟩ := Nat.exists_eq_succ_of_ne_zero h0
      simp only [step, if_true, hn] at hstep
      cases hstep
      simp only [h0, if_false]
      refine ⟨_, rfl, ?_, by simp, by simp, by simp, by simp⟩
      obtain ⟨ha, hab⟩ := updateNextReadSize_pos
        { r with chunkSizeLineCache := r.chunkSizeLineCache ++ [10], currentChunkSize := k + 1,
                 nextReadType := .fixedLength, leftTotalSize := k + 1 } (Nat.succ_pos k)
      exact ⟨by simp, rfl, by simpa using htl, ha, hab⟩

/-- A poll inside a size line: it copies the line's bytes in view, up to its
    `CR` and the `LF` after it. -/
theorem pollChunkSize_sizeLine {l : List UInt8} (h : ChunkedInv libs T maxLen r (.sizeLine l) rem)
    (hspace : 0 < space) :
    ∃ res, pollChunkSize libs r space = some res ∧ StepOk libs T maxLen r (.sizeLine l) rem space res := by
  obtain ⟨⟨htype, hcache, hl, htl⟩, hbt, hfin, hmax, hsrc, hacc⟩ := h
  obtain ⟨xs, rest1, rfl, hxs, hfit, hacc1⟩ := run_sizeLine_done hacc
  -- after the `CR` comes the `LF`
  obtain ⟨rest2, rfl, φ', hstep, hacc2⟩ : ∃ rest2, rest1 = 10 :: rest2 ∧ ∃ φ',
      step maxLen (lineSize libs) (.sizeLineCr (l ++ xs)) 10 = some φ' ∧
      run maxLen (lineSize libs) φ' rest2 = some .done := by
    rcases rest1 with _ | ⟨b, rest2⟩
    · cases hacc1
    · rw [run_cons] at hacc1
      by_cases hb : b = 10
      · subst hb
        obtain ⟨φ', h1, h2⟩ := Option.bind_eq_some_iff.1 hacc1
        exact ⟨rest2, rfl, φ', h1, h2⟩
      · simp [step, hb] at hacc1
  have hx13 : 13 ∉ xs := fun hm => (hxs 13 hm).1 rfl
  have hlast : r.chunkSizeLineCache.getLast? ≠ some 13 := by
    rw [hcache]
    exact fun h => hl (List.mem_of_getLast? h)
  have hinv : ChunkedInv libs T maxLen r (.sizeLine l) (xs ++ 13 :: 10 :: rest2) :=
    ⟨⟨htype, hcache, hl, htl⟩, hbt, hfin, hmax, hsrc, hacc⟩
  rcases hsrc.fill (by simp) with ⟨s', hfill, hsrc', hev⟩ | ⟨s', hfill, hne, hpre, hsrc', hev, -⟩
  · exact ⟨_, by simp [pollChunkSize, hfill], stepOk_pending hinv hsrc' hev⟩
  · have hv : s'.buf.take space <+: xs ++ 13 :: (10 :: rest2 ++ T) :=
      (List.take_prefix _ _).trans (by simpa using hpre)
    have hvne : s'.buf.take space ≠ [] := by simp [hne]; omega
    have hvlen : (s'.buf.take space).length ≤ s'.buf.length := List.IsPrefix.length_le (List.take_prefix _ _)
    simp only [pollChunkSize, hfill, List.isEmpty_eq_false_iff.2 hne, Bool.false_eq_true, if_false,
      view_eq, hlast]
    rcases prefix_cr_cases hx13 hv with ⟨hn, hvx⟩ | ⟨v', hveq, hv'⟩
    · -- the view ends inside the line: copy it all
      obtain ⟨xs', hxs'⟩ := hvx
      have hfit' : l.length + (s'.buf.take space).length < maxLen := by
        have := congrArg List.length hxs'
        simp only [List.length_append] at this hfit
        omega
      rw [List.idxOf?_eq_none_iff.2 hn]
      simp only [hcache, hmax, ge_iff_le, not_le.2 hfit', if_false]
      refine ⟨_, rfl, rfl, List.length_pos_iff.2 hvne, List.length_take_le _ _, hev, ?_⟩
      refine ⟨xs' ++ 13 :: 10 :: rest2, .sizeLine (l ++ s'.buf.take space), by simp [← hxs'], ?_, ?_⟩
      · exact run_sizeLine_bytes (fun b hb => hxs b (hxs' ▸ List.mem_append_left _ hb))
          (by simpa using hfit')
      · refine ⟨⟨htype, rfl, fun hm => ?_, htl⟩, hbt, hfin, rfl, ?_, ?_⟩
        · rcases List.mem_append.1 hm with hm | hm
          exacts [hl hm, hn hm]
        · apply SrcInv.consume _ hvlen
          simpa [← hxs'] using hsrc'
        · rw [← hxs', List.append_assoc] at hacc
          rwa [run_append_of_eq _ _ (run_sizeLine_bytes (fun b hb => hxs b (hxs' ▸ List.mem_append_left _ hb))
            (by simpa using hfit'))] at hacc
    · -- the view holds the line's `CR`
      have hfit' : ¬ l.length + (xs.length + 1) ≥ maxLen := by simp at hfit; omega
      have hlenv : xs.length + 1 ≤ s'.buf.length := by
        have := congrArg List.length hveq
        simp at this
        omega
      have hline : run maxLen (lineSize libs) (.sizeLine l) (xs ++ [13]) = some (.sizeLineCr (l ++ xs)) :=
        run_sizeLine hxs hfit
      have hspace' : xs.length + 1 + v'.length ≤ space := by
        have := congrArg List.length hveq
        simp at this
        omega
      have hsplit : xs ++ 13 :: v' = (xs ++ [13]) ++ v' := by simp
      have htake : (xs ++ 13 :: v').take (xs.length + 1) = xs ++ [13] := by
        rw [hsplit, List.take_left' (by simp)]
      have hdrop : (xs ++ 13 :: v').drop (xs.length + 1) = v' := by
        rw [hsplit, List.drop_left' (by simp)]
      rw [hveq, List.idxOf?_append_cons_of_not_mem hx13]
      simp only [hcache, hmax, hfit', if_false, htake, hdrop]
      have hsrc'' : SrcInv T s' ((xs ++ [13]) ++ 10 :: rest2) := by simpa using hsrc'
      rcases List.prefix_cons_iff.1 hv' with rfl | ⟨t, rfl, ht⟩
      · -- the view ends with the `CR`
        refine ⟨_, rfl, by simp, by simp, by simpa using hspace', hev, 10 :: rest2, _, by simp, hline, ?_⟩
        refine ⟨⟨htype, by simp, htl⟩, hbt, hfin, rfl, ?_, hacc1⟩
        simpa using hsrc''.consume (by simpa using hlenv)
      · -- the `LF` is in view too: the line is parsed
        obtain ⟨r', hcheck, htr, hstream, hbt', hfin', hmax'⟩ := checkChunkSizeLastChar_lf
          (r := { r with stream := s'.consume (xs.length + 1 + 1),
                         chunkSizeLineCache := l ++ (xs ++ [13]), bodyLineMaxLen := maxLen })
          (by simp) htl hstep
        dsimp only
        rw [hcheck]
        have hlen2 : xs.length + 1 + 1 ≤ s'.buf.length := by
          have := congrArg List.length hveq
          simp at this
          omega
        refine ⟨_, rfl, by simp, by simp, by simp at hspace'; omega, by simpa [hstream] using hev,
          rest2, φ', by simp, ?_, ⟨htr, hbt' ▸ hbt, hfin' ▸ hfin, hmax', ?_, hacc2⟩⟩
        · rw [run_append_of_eq _ _ hline]
          simpa [run] using hstep
        · have hsrc3 : SrcInv T s' ((xs ++ [13, 10]) ++ rest2) := by simpa using hsrc'
          rw [hstream]
          simpa using hsrc3.consume (by simp; omega)

/-- The first byte of a message's rest, read to its end from `φ`. -/
theorem run_done_cons_inv {φ : Phase} {rem : List UInt8}
    (h : run maxLen (lineSize libs) φ rem = some .done) (hφ : φ ≠ .done) :
    ∃ b rest φ', rem = b :: rest ∧ step maxLen (lineSize libs) φ b = some φ' ∧
      run maxLen (lineSize libs) φ' rest = some .done := by
  rcases rem with _ | ⟨b, rest⟩
  · cases h; exact absurd rfl hφ
  · rw [run_cons] at h
    obtain ⟨φ', h1, h2⟩ := Option.bind_eq_some_iff.1 h
    exact ⟨b, rest, φ', rfl, h1, h2⟩

/-- A poll after the `CR` of a size line: its `LF`, and the line is parsed. -/
theorem pollChunkSize_sizeLineCr {l : List UInt8} (h : ChunkedInv libs T maxLen r (.sizeLineCr l) rem)
    (hspace : 0 < space) :
    ∃ res, pollChunkSize libs r space = some res ∧ StepOk libs T maxLen r (.sizeLineCr l) rem space res := by
  obtain ⟨⟨htype, hcache, htl⟩, hbt, hfin, hmax, hsrc, hacc⟩ := h
  obtain ⟨b, rest, φ', rfl, hstep, hacc'⟩ := run_done_cons_inv hacc (by simp)
  have hb : b = 10 := by
    by_contra hb
    simp [step, hb] at hstep
  subst hb
  have hinv : ChunkedInv libs T maxLen r (.sizeLineCr l) (10 :: rest) :=
    ⟨⟨htype, hcache, htl⟩, hbt, hfin, hmax, hsrc, hacc⟩
  have hlast : r.chunkSizeLineCache.getLast? = some 13 := by simp [hcache]
  rcases hsrc.fill (by simp) with ⟨s', hfill, hsrc', hev⟩ | ⟨s', hfill, hne, hpre, hsrc', hev, -⟩
  · exact ⟨_, by simp [pollChunkSize, hfill], stepOk_pending hinv hsrc' hev⟩
  · -- the view starts with the `LF`
    obtain ⟨t, hview⟩ : ∃ t, s'.buf.take space = 10 :: t := by
      have hv : s'.buf.take space <+: 10 :: (rest ++ T) := (List.take_prefix _ _).trans (by simpa using hpre)
      rcases List.prefix_cons_iff.1 hv with h0 | ⟨t, ht, -⟩
      · simp [hne] at h0; omega
      · exact ⟨t, ht⟩
    have hbuf : 1 ≤ s'.buf.length := List.length_pos_iff.2 hne
    obtain ⟨r', hcheck, htr, hstream, hbt', hfin', hmax'⟩ := checkChunkSizeLastChar_lf
      (r := { r with stream := s'.consume 1 }) hcache htl hstep
    simp only [pollChunkSize, hfill, List.isEmpty_eq_false_iff.2 hne, Bool.false_eq_true, if_false,
      view_eq, hlast, if_true]
    rw [hview]
    dsimp only
    rw [hcheck]
    refine ⟨_, rfl, rfl, Nat.one_pos, hspace, by simpa [hstream] using hev, rest, φ', rfl,
      by simpa [run] using hstep, ⟨htr, hbt' ▸ hbt, hfin' ▸ hfin, hmax' ▸ hmax, ?_, hacc'⟩⟩
    rw [hstream]
    exact (show SrcInv T s' ([10] ++ rest) from hsrc').consume hbuf

/-- What `poll_fixed` does with the bytes `d` it read (at most the next
    read size): it counts them off, moves on to what is left of the body,
    and at its end goes to the end of the body or of the chunk. -/
theorem pollFixed_read {s' : Source} {d : List UInt8}
    (hread : r.stream.read (min space r.nextReadSize) = (.ready (.ok d), s')) (hd : d ≠ [])
    (hdn : d.length ≤ r.nextReadSize) (hbt : r.bodyType ≠ .readUntilEnd) :
    ∃ r', pollFixed r space = some (.ready (.ok ()), d, r') ∧ r'.stream = s' ∧
      r'.bodyType = r.bodyType ∧ r'.bodyLineMaxLen = r.bodyLineMaxLen ∧
      r'.chunkSizeLineCache = r.chunkSizeLineCache ∧ r'.trailerLineLength = r.trailerLineLength ∧
      r'.finished = r.finished ∧
      ((0 < r'.nextReadSize ∧ r'.nextReadType = r.nextReadType ∧
          r'.nextReadSize + r'.leftTotalSize + d.length = r.nextReadSize + r.leftTotalSize) ∨
        (r.nextReadSize + r.leftTotalSize = d.length ∧
          (r.bodyType = .chunked → r'.nextReadType = .chunkDataEnd 13) ∧
          (∀ n, r.bodyType = .contentLength n → r'.nextReadType = .endOfFile))) := by
  have hd0 : d.length ≠ 0 := by simpa using hd
  unfold pollFixed
  rw [hread]
  simp only [hd0, if_false]
  generalize hX : ({ r with stream := s', readContentLength := r.readContentLength + d.length, nextReadSize := r.nextReadSize - d.length } : HttpBodyReader) = X
  have hXs : X.stream = s' ∧ X.bodyType = r.bodyType ∧ X.nextReadType = r.nextReadType ∧
      X.bodyLineMaxLen = r.bodyLineMaxLen ∧ X.chunkSizeLineCache = r.chunkSizeLineCache ∧
      X.trailerLineLength = r.trailerLineLength ∧ X.finished = r.finished ∧
      X.nextReadSize = r.nextReadSize - d.length ∧ X.leftTotalSize = r.leftTotalSize := by
    subst hX; simp
  obtain ⟨hs, hb, ht, hm, hc, htl, hf, hn, hl⟩ := hXs
  by_cases h1 : r.nextReadSize - d.length = 0
  · rw [if_pos h1]
    by_cases h2 : X.leftTotalSize = 0
    · -- the body or the chunk is read to its end
      rw [updateNextReadSize_of_zero X h2, if_pos (hn.trans h1)]
      have hend : r.nextReadSize + r.leftTotalSize = d.length := by omega
      cases hbt' : r.bodyType with
      | readUntilEnd => exact absurd hbt' hbt
      | contentLength n =>
        rw [hb, hbt']
        refine ⟨_, rfl, ?_⟩
        simp [hs, hm, hc, htl, hf, hend]
      | chunked =>
        rw [hb, hbt']
        refine ⟨_, rfl, ?_⟩
        simp [hs, hm, hc, htl, hf, hend]
    · -- what is left of the body moves to the next read
      obtain ⟨hpos, hsum⟩ := updateNextReadSize_pos X (Nat.pos_of_ne_zero h2)
      rw [if_neg (Nat.pos_iff_ne_zero.1 hpos)]
      exact ⟨_, rfl, by simp [hs], by simp [hb], by simp [hm], by simp [hc], by simp [htl], by simp [hf],
        .inl ⟨hpos, by simp [ht], by omega⟩⟩
  · rw [if_neg h1]
    exact ⟨_, rfl, hs, hb, hm, hc, htl, hf, .inl ⟨by omega, ht, by omega⟩⟩

/-- A poll inside chunk data: it reads at most what is left of the chunk. -/
theorem pollState_data {n : Nat} (h : ChunkedInv libs T maxLen r (.data n) rem) (hspace : 0 < space) :
    ∃ res, pollState libs r space = some res ∧ StepOk libs T maxLen r (.data n) rem space res := by
  obtain ⟨⟨htype, hcache, htl, hnext, hsum⟩, hbt, hfin, hmax, hsrc, hacc⟩ := h
  have hn : 0 < n := by omega
  obtain ⟨hacc', hlen⟩ := run_data_done hn hacc
  have hinv : ChunkedInv libs T maxLen r (.data n) rem :=
    ⟨⟨htype, hcache, htl, hnext, hsum⟩, hbt, hfin, hmax, hsrc, hacc⟩
  have hne : rem ≠ [] := by rintro rfl; simp at hlen; omega
  rcases hsrc.read hne (n := min space r.nextReadSize) (by omega) with
    ⟨s', hread, hsrc', hev⟩ | ⟨d, s', hread, hd, hdlen, hpre, hsrc', hev⟩
  · exact ⟨_, by simp [pollState, htype, pollFixed, hread], stepOk_pending hinv hsrc' hev⟩
  · -- the bytes read are the chunk's next bytes
    have hdn : d.length ≤ r.nextReadSize := le_trans hdlen (min_le_right _ _)
    obtain ⟨rem', rfl⟩ : d <+: rem := by
      have hrem : rem <+: rem ++ T := List.prefix_append _ _
      exact List.prefix_of_prefix_length_le hpre hrem (by omega)
    obtain ⟨r', hpoll, hs, hb, hm, hc, htl', hf, hcases⟩ :=
      pollFixed_read hread hd hdn (by rw [hbt]; simp)
    have hsrc'' : SrcInv T r'.stream rem' := hs ▸ hsrc' rem' rfl
    simp only [pollState, htype, hpoll, Option.map_some]
    refine ⟨_, rfl, rfl, List.length_pos_iff.2 hd, by omega, by rw [hs]; exact hev, rem', ?_⟩
    rcases hcases with ⟨hpos, htype', hsum'⟩ | ⟨hend, hchunk, -⟩
    · -- the read stops inside the chunk
      refine ⟨.data (n - d.length), rfl, run_data_short (by omega),
        ⟨⟨htype'.trans htype, hc.trans hcache, htl'.trans htl, hpos, by omega⟩, hb.trans hbt, hf.trans hfin,
          hm.trans hmax, hsrc'', ?_⟩⟩
      rwa [run_append_of_eq _ _ (run_data_short (by omega))] at hacc
    · -- the chunk's data is all read: its line end is next
      have hdn' : d.length = n := by omega
      refine ⟨.dataCr, rfl, run_data hdn' hn, ⟨⟨hchunk hbt, hc.trans hcache, htl'.trans htl⟩,
        hb.trans hbt, hf.trans hfin, hm.trans hmax, hsrc'', ?_⟩⟩
      simpa [List.drop_left' hdn'] using hacc'

/-! ### Line ends after chunk data -/

/-- A poll after a chunk's data: its `CR`, and its `LF` when in view. -/
theorem pollChunkDataEnd_dataCr (h : ChunkedInv libs T maxLen r .dataCr rem) (hspace : 0 < space) :
    ∃ res, pollChunkDataEnd r space 13 = some res ∧ StepOk libs T maxLen r .dataCr rem space res := by
  obtain ⟨⟨htype, hcache, htl⟩, hbt, hfin, hmax, hsrc, hacc⟩ := h
  obtain ⟨rest, rfl, hacc'⟩ := run_dataCr_done hacc
  have hinv : ChunkedInv libs T maxLen r .dataCr (13 :: 10 :: rest) :=
    ⟨⟨htype, hcache, htl⟩, hbt, hfin, hmax, hsrc, hacc⟩
  rcases hsrc.fill (by simp) with ⟨s', hfill, hsrc', hev⟩ | ⟨s', hfill, hne, hpre, hsrc', hev, -⟩
  · exact ⟨_, by simp [pollChunkDataEnd, hfill], stepOk_pending hinv hsrc' hev⟩
  · obtain ⟨t, hview, ht, htsp, htlen⟩ := take_cons_of_prefix hne hpre hspace
    simp only [pollChunkDataEnd, hfill, List.isEmpty_eq_false_iff.2 hne, Bool.false_eq_true, if_false,
      view_eq]
    rw [hview]
    rcases List.prefix_cons_iff.1 ht with rfl | ⟨t', rfl, -⟩
    · -- the view ends with the `CR`
      refine ⟨_, rfl, rfl, Nat.one_pos, hspace, hev, 10 :: rest, .dataLf, rfl, by simp [run, step],
        ⟨⟨rfl, hcache, htl⟩, hbt, hfin, hmax, ?_, by simpa [run, step] using hacc'⟩⟩
      exact (show SrcInv T s' ([13] ++ 10 :: rest) from hsrc').consume (by simp; omega)
    · -- the `LF` is in view too
      refine ⟨_, rfl, rfl, by omega, by simp at htsp; omega, hev, rest, .sizeLine [], rfl, by simp [run, step],
        ⟨⟨rfl, hcache, List.not_mem_nil, htl⟩, hbt, hfin, hmax, ?_, hacc'⟩⟩
      exact (show SrcInv T s' ([13, 10] ++ rest) from hsrc').consume (by simp at htlen ⊢; omega)

/-- A poll after the `CR` that ends a chunk's data: its `LF`. -/
theorem pollChunkDataEnd_dataLf (h : ChunkedInv libs T maxLen r .dataLf rem) (hspace : 0 < space) :
    ∃ res, pollChunkDataEnd r space 10 = some res ∧ StepOk libs T maxLen r .dataLf rem space res := by
  obtain ⟨⟨htype, hcache, htl⟩, hbt, hfin, hmax, hsrc, hacc⟩ := h
  obtain ⟨rest, rfl, hacc'⟩ := run_dataLf_done hacc
  have hinv : ChunkedInv libs T maxLen r .dataLf (10 :: rest) :=
    ⟨⟨htype, hcache, htl⟩, hbt, hfin, hmax, hsrc, hacc⟩
  rcases hsrc.fill (by simp) with ⟨s', hfill, hsrc', hev⟩ | ⟨s', hfill, hne, hpre, hsrc', hev, -⟩
  · exact ⟨_, by simp [pollChunkDataEnd, hfill], stepOk_pending hinv hsrc' hev⟩
  · obtain ⟨t, hview, -, -, htlen⟩ := take_cons_of_prefix hne hpre hspace
    simp only [pollChunkDataEnd, hfill, List.isEmpty_eq_false_iff.2 hne, Bool.false_eq_true, if_false,
      view_eq]
    rw [hview]
    refine ⟨_, rfl, rfl, Nat.one_pos, hspace, hev, rest, .sizeLine [], rfl, by simp [run, step],
      ⟨⟨rfl, hcache, List.not_mem_nil, htl⟩, hbt, hfin, hmax, ?_, hacc'⟩⟩
    exact (show SrcInv T s' ([10] ++ rest) from hsrc').consume (by simp; omega)

/-! ### Trailer lines -/

/-- The `LF` of a trailer line of `j` bytes: the body ends at an empty line,
    and another trailer line follows any other. -/
theorem checkTrailerHeaderLastChar_lf {j : Nat} (htl : r.trailerLineLength = j) :
    ∃ r', checkTrailerHeaderLastChar r 10 = .ok r' ∧ Tracks r' (if j = 0 then .done else .trailer 0) ∧
      r'.stream = r.stream ∧ r'.bodyType = r.bodyType ∧ r'.finished = r.finished ∧
      r'.bodyLineMaxLen = r.bodyLineMaxLen := by
  simp only [checkTrailerHeaderLastChar, ne_eq, not_true_eq_false, if_false,
    updateNextReadTypeAfterTrailerHeader, htl]
  by_cases hj : j = 0
  · simp only [hj, if_true]
    exact ⟨_, rfl, rfl, rfl, rfl, rfl, rfl⟩
  · simp only [hj, if_false]
    exact ⟨_, rfl, ⟨rfl, rfl, fun h => absurd rfl h⟩, rfl, rfl, rfl, rfl⟩

/-- A poll after the `CR` of a non-empty trailer line: its `LF`. -/
theorem pollTrailer_trailerCr {k : Nat} (h : ChunkedInv libs T maxLen r (.trailerCr k) rem)
    (hspace : 0 < space) :
    ∃ res, pollTrailer r space = some res ∧ StepOk libs T maxLen r (.trailerCr k) rem space res := by
  obtain ⟨⟨htype, htl, hlast, hk⟩, hbt, hfin, hmax, hsrc, hacc⟩ := h
  obtain ⟨rest, rfl, hacc'⟩ := run_trailerCr_done hacc
  rw [if_neg hk] at hacc'
  have hinv : ChunkedInv libs T maxLen r (.trailerCr k) (10 :: rest) :=
    ⟨⟨htype, htl, hlast, hk⟩, hbt, hfin, hmax, hsrc, hacc⟩
  rcases hsrc.fill (by simp) with ⟨s', hfill, hsrc', hev⟩ | ⟨s', hfill, hne, hpre, hsrc', hev, -⟩
  · exact ⟨_, by simp [pollTrailer, hfill], stepOk_pending hinv hsrc' hev⟩
  · obtain ⟨t, hview, -, -, htlen⟩ := take_cons_of_prefix hne hpre hspace
    obtain ⟨r', hcheck, htr, hstream, hbt', hfin', hmax'⟩ :=
      checkTrailerHeaderLastChar_lf (r := { r with stream := s'.consume 1 }) htl
    rw [if_neg hk] at htr
    have hcond : r.trailerLineLength ≠ 0 ∧ r.trailerLastChar = 13 := ⟨htl ▸ hk, hlast⟩
    simp only [pollTrailer, hfill, List.isEmpty_eq_false_iff.2 hne, Bool.false_eq_true, if_false,
      view_eq]
    rw [if_pos hcond, hview]
    dsimp only
    rw [hcheck]
    refine ⟨_, rfl, rfl, Nat.one_pos, hspace, by simpa [hstream] using hev, rest, .trailer 0, rfl,
      by simp [run, step, hk], ⟨htr, hbt' ▸ hbt, hfin' ▸ hfin, hmax' ▸ hmax, ?_, hacc'⟩⟩
    rw [hstream]
    exact (show SrcInv T s' ([10] ++ rest) from hsrc').consume (by simp; omega)

/-- A poll inside a trailer line: it copies the line's bytes in view, up to
    its `CR` and the `LF` after it.  The one step it does not track is the
    `CR` of the final empty line alone in view: a caller with one byte of
    room left right before the message's last byte. -/
theorem pollTrailer_trailer {k : Nat} (h : ChunkedInv libs T maxLen r (.trailer k) rem)
    (hspace : 0 < space) :
    ∃ res, pollTrailer r space = some res ∧
      (StepOk libs T maxLen r (.trailer k) rem space res ∨
        (rem = [13, 10] ∧ space = 1 ∧ res.1 = .ready (.ok 1) ∧ res.2.1 = [13])) := by
  obtain ⟨⟨htype, htl, hlast⟩, hbt, hfin, hmax, hsrc, hacc⟩ := h
  obtain ⟨xs, rest1, rfl, hxs, hfit, hacc1⟩ := run_trailer_done hacc
  obtain ⟨rest2, rfl, hacc2⟩ := run_trailerCr_done hacc1
  have hx13 : 13 ∉ xs := fun hm => (hxs 13 hm).1 rfl
  have hcond : ¬ (r.trailerLineLength ≠ 0 ∧ r.trailerLastChar = 13) := fun ⟨h1, h2⟩ => hlast (htl ▸ h1) h2
  have hinv : ChunkedInv libs T maxLen r (.trailer k) (xs ++ 13 :: 10 :: rest2) :=
    ⟨⟨htype, htl, hlast⟩, hbt, hfin, hmax, hsrc, hacc⟩
  rcases hsrc.fill (by simp) with ⟨s', hfill, hsrc', hev⟩ | ⟨s', hfill, hne, hpre, hsrc', hev, hcut⟩
  · exact ⟨_, by simp [pollTrailer, hfill], .inl (stepOk_pending hinv hsrc' hev)⟩
  · have hv : s'.buf.take space <+: xs ++ 13 :: (10 :: rest2 ++ T) :=
      (List.take_prefix _ _).trans (by simpa using hpre)
    have hvne : s'.buf.take space ≠ [] := by simp [hne]; omega
    have hvlen : (s'.buf.take space).length ≤ s'.buf.length := List.length_take_le' _ _
    simp only [pollTrailer, hfill, List.isEmpty_eq_false_iff.2 hne, Bool.false_eq_true, if_false, view_eq]
    rw [if_neg hcond]
    rcases prefix_cr_cases hx13 hv with ⟨hn, hvx⟩ | ⟨v', hveq, hv'⟩
    · -- the view ends inside the line: copy it all
      obtain ⟨xs', hxs'⟩ := hvx
      have hfit' : k + (s'.buf.take space).length < maxLen := by
        have := congrArg List.length hxs'
        simp only [List.length_append] at this
        omega
      have hvxs : NoLineEnd (s'.buf.take space) := fun b hb => hxs b (hxs' ▸ List.mem_append_left _ hb)
      obtain ⟨last, hlastv⟩ : ∃ last, (s'.buf.take space).getLast? = some last :=
        Option.isSome_iff_exists.1 (List.getLast?_isSome.2 hvne)
      rw [List.idxOf?_eq_none_iff.2 hn]
      simp only [htl, hmax, ge_iff_le, not_le.2 hfit', if_false, hlastv]
      refine ⟨_, rfl, .inl ⟨rfl, List.length_pos_iff.2 hvne, List.length_take_le _ _, hev,
        xs' ++ 13 :: 10 :: rest2, .trailer (k + (s'.buf.take space).length), by simp [← hxs'],
        run_trailer_bytes hvxs hfit', ⟨⟨htype, rfl, fun _ h13 => hn (h13 ▸ List.mem_of_getLast? hlastv)⟩,
          hbt, hfin, rfl, ?_, ?_⟩⟩⟩
      · apply SrcInv.consume _ hvlen
        simpa [← hxs'] using hsrc'
      · rw [← hxs', List.append_assoc, run_append_of_eq _ _ (run_trailer_bytes hvxs hfit')] at hacc
        exact hacc
    · -- the view holds the line's `CR`
      have hfit' : ¬ k + (xs.length + 1) ≥ maxLen := by omega
      have hsplit : xs ++ 13 :: v' = (xs ++ [13]) ++ v' := by simp
      have htake : (xs ++ 13 :: v').take (xs.length + 1) = xs ++ [13] := by
        rw [hsplit, List.take_left' (by simp)]
      have hdrop : (xs ++ 13 :: v').drop (xs.length + 1) = v' := by
        rw [hsplit, List.drop_left' (by simp)]
      have hlenv := congrArg List.length hveq
      simp only [List.length_take, List.length_append, List.length_cons] at hlenv
      have hline : run maxLen (lineSize libs) (.trailer k) (xs ++ [13]) = some (.trailerCr (k + xs.length)) :=
        run_trailerLine hxs hfit
      have hsrc'' : SrcInv T s' ((xs ++ [13]) ++ 10 :: rest2) := by simpa using hsrc'
      rw [hveq, List.idxOf?_append_cons_of_not_mem hx13]
      simp only [htl, hmax, hfit', if_false, htake, hdrop]
      rcases List.prefix_cons_iff.1 hv' with rfl | ⟨t, rfl, -⟩
      · -- the view ends with the `CR`
        by_cases hk0 : k + xs.length = 0
        · -- the `CR` of the final empty line, alone in view
          obtain ⟨rfl, rfl⟩ : k = 0 ∧ xs = [] := ⟨by omega, List.eq_nil_of_length_eq_zero (by omega)⟩
          obtain rfl : rest2 = [] := by
            rcases rest2 with _ | ⟨b, rest2⟩
            · rfl
            · simp at hacc2
          have hsp : space = 1 := by
            have := hcut (by simp)
            simp at hlenv this
            omega
          exact ⟨_, rfl, .inr ⟨rfl, hsp, rfl, rfl⟩⟩
        · refine ⟨_, rfl, .inl ⟨by simp, by simp, by simp at hlenv ⊢; omega, hev, 10 :: rest2, _, by simp,
            hline, ⟨⟨htype, rfl, rfl, hk0⟩, hbt, hfin, rfl, ?_, hacc1⟩⟩⟩
          simpa using hsrc''.consume (by simp at hlenv ⊢; omega)
      · -- the `LF` is in view too: the line ends
        obtain ⟨r', hcheck, htr, hstream, hbt', hfin', hmax'⟩ :=
          checkTrailerHeaderLastChar_lf (r := { r with stream := s'.consume (xs.length + 1 + 1),
                                                       trailerLastChar := 13, trailerLineLength := k + xs.length,
                                                       bodyLineMaxLen := maxLen }) rfl
        dsimp only
        rw [hcheck]
        have hend : run maxLen (lineSize libs) (.trailer k) ((xs ++ [13]) ++ [10]) =
            some (if k + xs.length = 0 then .done else .trailer 0) := by
          rw [run_append_of_eq _ _ hline]
          generalize k + xs.length = j
          by_cases hj : j = 0 <;> simp [run, step, hj]
        refine ⟨_, rfl, .inl ⟨by simp, by simp, by simp at hlenv ⊢; omega, by simpa [hstream] using hev,
          rest2, _, by simp, hend, ⟨htr, hbt' ▸ hbt, hfin' ▸ hfin, hmax', ?_, hacc2⟩⟩⟩
        have hsrc3 : SrcInv T s' ((xs ++ [13, 10]) ++ rest2) := by simpa using hsrc'
        rw [hstream]
        simpa using hsrc3.consume (by simp at hlenv ⊢; omega)

/-! ### A state poll, and the loop of `poll_chunked` -/

/-- The state poll of a reader that tracks `φ`, short of the end. -/
theorem pollState_step {φ : Phase} (h : ChunkedInv libs T maxLen r φ rem) (hφ : φ ≠ .done)
    (hspace : 0 < space) :
    ∃ res, pollState libs r space = some res ∧
      (StepOk libs T maxLen r φ rem space res ∨
        (rem = [13, 10] ∧ space = 1 ∧ res.1 = .ready (.ok 1) ∧ res.2.1 = [13])) := by
  have htype := h.tracks.nextReadType
  cases φ with
  | sizeLine l =>
    obtain ⟨res, hres, hok⟩ := pollChunkSize_sizeLine h hspace
    exact ⟨res, by simp [pollState, htype, readType, hres], .inl hok⟩
  | sizeLineCr l =>
    obtain ⟨res, hres, hok⟩ := pollChunkSize_sizeLineCr h hspace
    exact ⟨res, by simp [pollState, htype, readType, hres], .inl hok⟩
  | data n =>
    obtain ⟨res, hres, hok⟩ := pollState_data h hspace
    exact ⟨res, hres, .inl hok⟩
  | dataCr =>
    obtain ⟨res, hres, hok⟩ := pollChunkDataEnd_dataCr h hspace
    exact ⟨res, by simp [pollState, htype, readType, hres], .inl hok⟩
  | dataLf =>
    obtain ⟨res, hres, hok⟩ := pollChunkDataEnd_dataLf h hspace
    exact ⟨res, by simp [pollState, htype, readType, hres], .inl hok⟩
  | trailer k =>
    obtain ⟨res, hres, hok⟩ := pollTrailer_trailer h hspace
    exact ⟨res, by simp [pollState, htype, readType, hres], hok⟩
  | trailerCr k =>
    obtain ⟨res, hres, hok⟩ := pollTrailer_trailerCr h hspace
    exact ⟨res, by simp [pollState, htype, readType, hres], .inl hok⟩
  | done => exact absurd rfl hφ

/-- A loop that has filled the caller's buffer returns. -/
theorem pollChunkedLoop_full {expectLen fuel offset : Nat} {out : List UInt8} (hoff : expectLen ≤ offset) :
    pollChunkedLoop libs expectLen (fuel + 1) offset out r = some (.ready (.ok ()), out, r) := by
  simp [pollChunkedLoop, hoff]

/-- Bytes `d` given out by a state poll, then a loop that does not wait:
    the loop from before the poll gives out `d` first. -/
theorem LoopOk.cons {φ φ' : Phase} {d rem' c : List UInt8} {r₁ r' : HttpBodyReader}
    {p : Poll (Except IoError Unit)} (hrem : rem = d ++ rem') (hd : d ≠ [])
    (hev : r₁.stream.events.length ≤ r.stream.events.length)
    (hok : LoopOk libs T maxLen r₁ φ' rem' (p, c, r')) (hp : p ≠ .pending) :
    LoopOk libs T maxLen r φ rem (p, d ++ c, r') := by
  have hlen : 0 < d.length := List.length_pos_iff.2 hd
  rcases p with ⟨e | ⟨⟩⟩ | _
  · exact hok.elim
  · rcases hok with ⟨rfl, hfin, hrest⟩ | ⟨rem'', φ'', rfl, hinv, hmeasure⟩ | rfl
    · exact .inl ⟨hrem.symm, hfin, hrest⟩
    · refine .inr (.inl ⟨rem'', φ'', by simp [hrem], hinv, ?_⟩)
      rw [hrem]
      simp only [List.length_append] at hmeasure ⊢
      omega
    · exact .inr (.inr (by simp [hrem]))
  · exact absurd rfl hp

/-- A round of the loop whose state poll gives out `m + 1` bytes `d`. -/
theorem pollChunkedLoop_ready {expectLen fuel offset m : Nat} {out d : List UInt8} {r₁ : HttpBodyReader}
    (hoff : offset < expectLen) (he : r.nextReadType ≠ .endOfFile) (hu : r.nextReadType ≠ .untilEnd)
    (hres : pollState libs r (expectLen - offset) = some (.ready (.ok (m + 1)), d, r₁)) :
    pollChunkedLoop libs expectLen (fuel + 1) offset out r =
      pollChunkedLoop libs expectLen fuel (offset + (m + 1)) (out ++ d) r₁ := by
  rw [pollChunkedLoop, if_neg (not_le.2 hoff)]
  split
  · contradiction
  · contradiction
  · rw [hres]
    rfl

/-- A round of the loop whose state poll waits: the loop returns what it
    has filled, and waits when that is nothing. -/
theorem pollChunkedLoop_pending {expectLen fuel offset : Nat} {out d : List UInt8} {r₁ : HttpBodyReader}
    (hoff : offset < expectLen) (he : r.nextReadType ≠ .endOfFile) (hu : r.nextReadType ≠ .untilEnd)
    (hres : pollState libs r (expectLen - offset) = some (.pending, d, r₁)) :
    pollChunkedLoop libs expectLen (fuel + 1) offset out r =
      if offset ≠ 0 then some (.ready (.ok ()), out, r₁) else some (.pending, out, r₁) := by
  rw [pollChunkedLoop, if_neg (not_le.2 hoff)]
  split
  · contradiction
  · contradiction
  · rw [hres]

/-- The loop of `poll_chunked` from a reader that tracks `φ`, with room
    left in the caller's buffer and fuel for every byte of it. -/
theorem pollChunkedLoop_spec (out : List UInt8) {expectLen fuel offset : Nat} {φ : Phase}
    (h : ChunkedInv libs T maxLen r φ rem) (hoff : offset < expectLen) (hfuel : expectLen - offset < fuel) :
    ∃ p c r', pollChunkedLoop libs expectLen fuel offset out r = some (p, out ++ c, r') ∧
      (p = .pending → offset = 0) ∧ LoopOk libs T maxLen r φ rem (p, c, r') := by
  -- induction on the fuel, one round of the loop at a time
  induction fuel generalizing offset out r φ rem with
  | zero => omega
  | succ fuel ih =>
    have htype := h.tracks.nextReadType
    by_cases hφ : φ = .done
    · -- the end of the message: the reader finishes
      subst hφ
      have hrem : rem = [] := by
        rcases rem with _ | ⟨b, rem⟩
        · rfl
        · simpa using h.accepts
      subst hrem
      refine ⟨.ready (.ok ()), [], { r with finished := true }, ?_, nofun, .inl ⟨rfl, rfl, ?_⟩⟩
      · simp [pollChunkedLoop, not_le.2 hoff, htype, readType]
      · simpa using h.src.rest
    obtain ⟨he, hu⟩ : r.nextReadType ≠ .endOfFile ∧ r.nextReadType ≠ .untilEnd := htype ▸ readType_ne hφ
    obtain ⟨⟨p, d, r₁⟩, hres, hok⟩ := pollState_step h hφ (by omega : 0 < expectLen - offset)
    rcases hok with hok | ⟨rfl, hsp, rfl, rfl⟩
    · rcases p with ⟨e | n⟩ | _
      · exact hok.elim
      · -- bytes `d` of the message, then the rest of the loop
        obtain ⟨rfl, hpos, hle, hev, rem', φ', hrem, -, hinv⟩ := hok
        obtain ⟨m, hm⟩ : ∃ m, d.length = m + 1 := Nat.exists_eq_succ_of_ne_zero (by omega)
        have hd : d ≠ [] := List.length_pos_iff.1 hpos
        rw [hm] at hres
        rw [pollChunkedLoop_ready hoff he hu hres]
        obtain ⟨fuel', rfl⟩ : ∃ fuel', fuel = fuel' + 1 := Nat.exists_eq_succ_of_ne_zero (by omega)
        by_cases hfull : expectLen ≤ offset + (m + 1)
        · rw [pollChunkedLoop_full hfull]
          refine ⟨.ready (.ok ()), d, r₁, by simp, nofun, .inr (.inl ⟨rem', φ', hrem, hinv, ?_⟩)⟩
          rw [hrem, List.length_append]
          omega
        · obtain ⟨p', c', r', hloop, hpend, hok'⟩ :=
            ih (out ++ d) hinv (not_le.1 hfull) (by omega)
          have hp : p' ≠ .pending := fun h => by have := hpend h; omega
          refine ⟨p', d ++ c', r', by simpa using hloop, fun h => absurd h hp, ?_⟩
          exact LoopOk.cons hrem hd hev hok' hp
      · -- the stream is not ready: wait, or return what is filled
        obtain ⟨hinv, hev⟩ := hok
        rw [pollChunkedLoop_pending hoff he hu hres]
        by_cases h0 : offset = 0
        · exact ⟨.pending, [], r₁, by simp [h0], fun _ => h0, rfl, hinv, hev⟩
        · exact ⟨.ready (.ok ()), [], r₁, by simp [h0], nofun, .inr (.inl ⟨rem, φ, rfl, hinv, by omega⟩)⟩
    · -- the `CR` of the final empty line alone: the buffer is full
      obtain ⟨fuel', rfl⟩ : ∃ fuel', fuel = fuel' + 1 := Nat.exists_eq_succ_of_ne_zero (by omega)
      rw [pollChunkedLoop_ready (m := 0) hoff he hu hres, pollChunkedLoop_full (by omega)]
      exact ⟨.ready (.ok ()), [13], r₁, rfl, nofun, .inr (.inr rfl)⟩

/-! ### Reading a whole message -/

theorem pollRead_chunked (hbt : r.bodyType = .chunked) :
    pollRead libs r space = pollChunkedLoop libs space (space + 1) 0 [] r := by
  simp [pollRead, pollChunked, hbt]

/-- A caller reading a message the recognizer accepts, with buffers of room
    for at least one byte and enough of them: the ready polls give out the
    message, the reader finishes and the stream holds what follows the
    message, unless some poll stops one byte short of the message's end. -/
theorem readAll_spec {spaces : List Nat} {φ : Phase} {outs : List (List UInt8)} {r' : HttpBodyReader}
    (h : ChunkedInv libs T maxLen r φ rem) (hsp : ∀ n ∈ spaces, 0 < n)
    (hlen : rem.length + r.stream.events.length < spaces.length)
    (hrun : readAll libs spaces r = some (outs, r'))
    (hslip : ∀ j, (outs.take j).flatten.length + 1 ≠ rem.length) :
    outs.flatten = rem ∧ r'.finished = true ∧ r'.stream.rest = T := by
  -- induction on the buffers, one poll at a time; `rem` and the stream's
  -- answers left get fewer at each poll that does not end the message
  induction spaces generalizing r φ rem outs with
  | nil => simp at hlen
  | cons space spaces ih =>
    have hspace : 0 < space := hsp space (List.mem_cons_self ..)
    have hsp' : ∀ n ∈ spaces, 0 < n := fun n hn => hsp n (List.mem_cons_of_mem _ hn)
    obtain ⟨p, c, r₁, hloop, -, hok⟩ := pollChunkedLoop_spec [] h hspace (by omega : space - 0 < space + 1)
    simp only [List.nil_append] at hloop
    rw [readAll, pollRead_chunked h.chunked, hloop] at hrun
    rcases p with ⟨e | ⟨⟩⟩ | _
    · exact hok.elim
    · -- a ready poll gives out `c`
      dsimp only at hrun
      have hhead : ∀ outs', outs = c :: outs' → c.length + 1 ≠ rem.length := by
        rintro outs' rfl
        simpa using hslip 1
      rcases hok with ⟨rfl, hfin, hrest⟩ | ⟨rem', φ', rfl, hinv, hmeasure⟩ | rfl
      · simp only [hfin, if_true, Option.some.injEq, Prod.mk.injEq] at hrun
        obtain ⟨rfl, rfl⟩ := hrun
        exact ⟨by simp, hfin, hrest⟩
      · simp only [hinv.not_finished, Bool.false_eq_true, if_false] at hrun
        obtain ⟨⟨outs', r''⟩, hrun', heq⟩ := Option.map_eq_some_iff.1 hrun
        simp only [Prod.mk.injEq] at heq
        obtain ⟨rfl, rfl⟩ := heq
        have hslip' : ∀ j, (outs'.take j).flatten.length + 1 ≠ rem'.length := by
          intro j hj
          apply hslip (j + 1)
          rw [List.take_succ_cons, List.flatten_cons, List.length_append, List.length_append]
          omega
        have hlen' : rem'.length + r₁.stream.events.length < spaces.length := by
          simp only [List.length_append, List.length_cons] at hlen hmeasure
          omega
        obtain ⟨hflat, hfin, hrest⟩ := ih hinv hsp' hlen' hrun' hslip'
        exact ⟨by simp [hflat], hfin, hrest⟩
      · -- one byte short of the end
        exfalso
        split at hrun
        · simp only [Option.some.injEq, Prod.mk.injEq] at hrun
          exact hhead [] hrun.1.symm (by simp)
        · obtain ⟨⟨outs', r''⟩, -, heq⟩ := Option.map_eq_some_iff.1 hrun
          simp only [Prod.mk.injEq] at heq
          exact hhead outs' heq.1.symm (by simp)
    · -- a pending poll: the stream answered
      obtain ⟨rfl, hinv, hev⟩ := hok
      exact ih hinv hsp' (by simp at hlen; omega) hrun hslip

/-! ### A message read by a new reader -/

/-- The parser reads a size line of hexadecimal digits and an extension it
    takes as the digits' value. -/
theorem lineSize_eq (hlibs : libs.Spec) {size ext : List UInt8} (hs : ∀ d ∈ size, isHexDigit d = true)
    (hne : size ≠ []) (hv : hexValue size < 2 ^ 64) (hext : ExtRead libs ext) :
    lineSize libs (size ++ ext) = some (hexValue size) := by
  have hhead : ∀ b ∈ (ext ++ crlf).head?, isHexDigit b = false := by
    rcases hext with rfl | ⟨rest, rfl, -⟩ <;> simp [crlf] <;> decide
  have htw : (size ++ (ext ++ crlf)).takeWhile isHexDigit = size := takeWhile_hex_append hs hhead
  have hfr : libs.fromRadix16 (size ++ ext ++ crlf) = (hexValue size, size.length) := by
    rw [List.append_assoc, hlibs.fromRadix16 _ (by rw [htw]; exact hv), hexPrefixValue, htw]
  have h0 : size.length ≠ 0 := by simpa using hne
  unfold lineSize HttpChunkedLine.parse
  rw [hfr]
  rcases hext with rfl | ⟨rest, rfl, hu⟩
  · simp [h0, crlf]
  · simp only [crlf] at hu
    simp [h0, crlf, hu]

/-- The parser reads the size lines of a well-formed message whose lines it
    takes. -/
theorem sizesRead_of_linesRead (hlibs : libs.Spec) {m : Message} (hwf : m.Wf) (hread : LinesRead libs m) :
    SizesRead (lineSize libs) m := by
  constructor
  · intro c hc
    have hcw := hwf.chunks_wf c hc
    have hne : c.size ≠ [] := by
      rintro hnil
      have h0 := hcw.size_eq
      rw [hnil, hexValue_nil] at h0
      exact hcw.data_ne_nil (List.length_eq_zero_iff.1 h0.symm)
    rw [Chunk.line, lineSize_eq hlibs hcw.size_hex hne (hcw.size_eq ▸ hread.chunk_size c hc)
      (hread.chunk_ext c hc), hcw.size_eq]
  · have hzero := hexValue_zeros hwf.lastSize_zero
    have hhex : ∀ d ∈ m.lastSize, isHexDigit d = true := fun d hd => by
      rw [hwf.lastSize_zero d hd]
      decide
    rw [Message.lastLine, lineSize_eq hlibs hhex hwf.lastSize_ne_nil (by rw [hzero]; norm_num) hread.last_ext,
      hzero]

/-- `new_chunked` over a stream that holds a message the recognizer accepts,
    then `T`, tracks the start of a size line. -/
theorem chunkedInv_newChunked {m : Message} (hwf : m.Wf) (hfit : LinesFit maxLen m)
    (hsize : SizesRead (lineSize libs) m) {s : Source} (hrest : s.rest = m.encode ++ T) (hseg : s.Segmented)
    (hcut : m.encode.length - 1 ∉ s.ends) :
    ChunkedInv libs T maxLen (newChunked s maxLen) (.sizeLine []) m.encode := by
  rw [newChunked, updateNextReadSize_of_zero _ rfl]
  exact ⟨⟨rfl, rfl, List.not_mem_nil, rfl⟩, rfl, rfl, rfl, ⟨hrest, hseg, fun _ => hcut⟩,
    run_encode hwf hfit hsize⟩

/-- A chunked reader made by `new_chunked` reads a well-formed message whose
    size lines it parses and whose lines fit its limit, followed by any
    bytes `T`, from any stream that answers with bytes or not ready and
    whose answers do not end right after the message's last `CR`, with
    enough buffers of any non-zero sizes.  It returns, and unless a poll
    stops one byte short of the message's end, its ready polls give out
    exactly the message, it finishes, and `T` is left in the stream. -/
theorem newChunked_reads_message (hlibs : libs.Spec) {m : Message} (hwf : m.Wf) (hread : LinesRead libs m)
    (hfit : LinesFit maxLen m) {s : Source} (hrest : s.rest = m.encode ++ T) (hseg : s.Segmented)
    (hcut : m.encode.length - 1 ∉ s.ends) {spaces : List Nat} (hsp : ∀ n ∈ spaces, 0 < n)
    (hlen : m.encode.length + s.events.length < spaces.length) :
    ∃ outs r, readAll libs spaces (newChunked s maxLen) = some (outs, r) ∧
      ((∀ j, (outs.take j).flatten.length + 1 ≠ m.encode.length) →
        outs.flatten = m.encode ∧ r.finished = true ∧ r.stream.rest = T) := by
  have h := chunkedInv_newChunked hwf hfit (sizesRead_of_linesRead hlibs hwf hread) hrest hseg hcut
  obtain ⟨⟨outs, r'⟩, hrun⟩ : ∃ res, readAll libs spaces (newChunked s maxLen) = some res :=
    readAll_total (newChunked_chunkedState s maxLen)
  have hlen' : m.encode.length + (newChunked s maxLen).stream.events.length < spaces.length := by
    simpa [newChunked] using hlen
  exact ⟨outs, r', hrun, readAll_spec h hsp hlen' hrun⟩

/-- The message `1\r\na\r\n0\r\n\r\n`: one chunk of one byte, no trailer. -/
def oneByteMessage : Message := ⟨[⟨[49], [], [97]⟩], [48], [], []⟩

theorem oneByteMessage_wf : oneByteMessage.Wf where
  chunks_wf c hc := by
    simp only [oneByteMessage, List.mem_singleton] at hc
    subst hc
    refine ⟨?_, .inl rfl, by decide, by simp⟩
    simp only [List.mem_singleton, forall_eq]
    decide
  lastSize_ne_nil := by simp [oneByteMessage]
  lastSize_zero := by simp [oneByteMessage]
  lastExt_wf := .inl rfl
  trailers_wf := by simp [oneByteMessage]

theorem newChunked_reads_oneByteMessage :
    ∃ outs r, readAll ⟨hexPrefixValue, fun _ => true⟩ (List.replicate 13 4)
        (newChunked ⟨[], [.data (oneByteMessage.encode ++ [72])]⟩ 16) = some (outs, r) ∧
      ((∀ j, (outs.take j).flatten.length + 1 ≠ oneByteMessage.encode.length) →
        outs.flatten = oneByteMessage.encode ∧ r.finished = true ∧ r.stream.rest = [72]) := by
  have hread : LinesRead ⟨hexPrefixValue, fun _ => true⟩ oneByteMessage := by
    refine ⟨fun c hc => ?_, .inl rfl, fun c hc => ?_⟩ <;>
      simp only [oneByteMessage, List.mem_singleton] at hc <;> subst hc
    · exact .inl rfl
    · simp
  have hseg : Source.Segmented ⟨[], [.data (oneByteMessage.encode ++ [72])]⟩ := by
    intro e he
    simp only [List.mem_singleton] at he
    exact .inr ⟨_, he, by simp⟩
  exact newChunked_reads_message ⟨fromRadix16_hexPrefixValue⟩ oneByteMessage_wf hread
    ⟨by simp [oneByteMessage, Chunk.line], by decide, by simp [oneByteMessage]⟩
    (by simp [Source.rest, ReadEvent.bytes]) hseg
    (by decide) (by simp) (by decide)

/-- With a line limit of `2`, `new_chunked` rejects the first size line of a
    well-formed message as too long: the reader fails at once and never
    finishes. -/
theorem newChunked_short_limit_rejects :
    ∃ r, readAll ⟨hexPrefixValue, fun _ => true⟩ [64]
        (newChunked ⟨[], [.data oneByteMessage.encode]⟩ 2) = some ([], r) ∧ r.finished = false := by
  refine ⟨_, rfl, ?_⟩
  decide

end Chunked

/-! ## Sizes of `2^64` and more -/

section Wrapping

variable {fromUtf8 : List UInt8 → Bool}

/-- The size line of `2^64`, `10000000000000000`, parses as the size `0`:
    the reader takes the chunk for the last one and goes on to the trailer. -/
theorem parse_two_pow_64_last_chunk (r : HttpBodyReader) :
    HttpChunkedLine.parse ⟨fromRadix16Wrapping, fromUtf8⟩ (49 :: List.replicate 16 48 ++ [13, 10]) = .ok ⟨0⟩ ∧
      (parseChunkSizeAndUpdateNextReadType ⟨fromRadix16Wrapping, fromUtf8⟩
        { r with chunkSizeLineCache := 49 :: List.replicate 16 48 ++ [13, 10] }).map (·.nextReadType) =
        .ok .trailer := by
  have htw : (49 :: List.replicate 16 48 ++ [13, 10] : List UInt8).takeWhile isHexDigit =
      49 :: List.replicate 16 48 := by
    decide
  -- the seventeen digits read `2^64`, which wraps to `0`
  have hfr : fromRadix16Wrapping (49 :: List.replicate 16 48 ++ [13, 10]) = (0, 17) := by
    refine Prod.ext ?_ ?_
    · rw [fromRadix16Wrapping_fst, htw]
      decide
    · simp only [fromRadix16Wrapping, htw]
      rfl
  have hparse : HttpChunkedLine.parse ⟨fromRadix16Wrapping, fromUtf8⟩ (49 :: List.replicate 16 48 ++ [13, 10]) =
      .ok ⟨0⟩ := by
    simp only [HttpChunkedLine.parse, hfr]
    rfl
  refine ⟨hparse, ?_⟩
  rw [parseChunkSizeAndUpdateNextReadType, hparse]
  rfl

end Wrapping

end HttpBodyReader

end G3Proxy
