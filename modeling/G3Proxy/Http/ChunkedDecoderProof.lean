/-
  The chunked decoder follows the chunked-coding recognizer through the data
  part of a message, and the trailer reader reads an empty trailer section.

  * `Tracks d φ` says which decoder states stand for the recognizer's phase
    `φ` in the data part (for the line limit `body_line_max_size + 1` with
    the `CR`, and the size-line parser `lineSize`).  `DecInv` adds that the
    reader holds the rest `rem` of the data part, then `S`, and that the
    recognizer reaches the trailer section only at the end of `rem`
    (`FirstArrival`), so that the decoder stops exactly there.
  * `Reads s φ rem s' φ' rem'` is a move along the message: the bytes
    consumed are its next bytes, and their data bytes are put in the
    caller's buffer.  One lemma per branch of the loop (`chunkEndStep_spec`,
    `chunkEndNStep_spec`, `chunkEndRStep_spec`, `dataStep_spec`,
    `headerPass_spec`), then the loop (`pollDecode_spec`), the reader's
    `poll_read` (`pollRead_spec`) and a caller reading until a read gives
    nothing (`readAll_chunked`).
  * `trailer_empty`: the trailer reader reads the empty trailer section as
    an empty map, however it is split into reads, and leaves what follows.
-/
import G3Proxy.Http.ChunkedDecoder
import G3Proxy.Http.BodyReaderProof
import G3Proxy.Core.ChunkedCoding

namespace G3Proxy

open AsyncIo Machine ChunkedCoding Hex

/-- The parser reads a size line as the recognizer does. -/
theorem parse_of_lineSize {libs : ByteLibs} {L : List UInt8} {k : Nat}
    (h : HttpBodyReader.lineSize libs L = some k) : HttpChunkedLine.parse libs (L ++ crlf) = .ok ⟨k⟩ := by
  unfold HttpBodyReader.lineSize at h
  split at h
  · rename_i chunk hchunk
    cases h
    exact hchunk
  · cases h

/-- A window of the line end after a chunk's data. -/
theorem window_crlf_cases {w ys : List UInt8} (hne : w ≠ []) (hw : w <+: 13 :: 10 :: ys) :
    w = [13] ∨ ∃ t, w = 13 :: 10 :: t := by
  rcases List.prefix_cons_iff.1 hw with rfl | ⟨t, rfl, ht⟩
  · exact absurd rfl hne
  · rcases List.prefix_cons_iff.1 ht with rfl | ⟨t', rfl, -⟩
    · exact .inl rfl
    · exact .inr ⟨t', rfl⟩

/-- A window of a size line continued past its `CR LF`: inside the line,
    the line and its `CR`, or through the `LF`. -/
theorem window_lf_cases {w xs ys : List UInt8} (hx : NoLineEnd xs) (hw : w <+: xs ++ 13 :: 10 :: ys) :
    (∃ xs', xs = w ++ xs') ∨ w = xs ++ [13] ∨ ∃ t, w = xs ++ 13 :: 10 :: t := by
  have hx13 : 13 ∉ xs := fun h => (hx 13 h).1 rfl
  rcases prefix_cr_cases hx13 hw with ⟨-, xs', hxs'⟩ | ⟨v, rfl, hv⟩
  · exact .inl ⟨xs', hxs'.symm⟩
  · rcases List.prefix_cons_iff.1 hv with rfl | ⟨t, rfl, -⟩
    · exact .inr (.inl rfl)
    · exact .inr (.inr ⟨t, rfl⟩)

theorem idxOf?_lf_of_noLineEnd {xs : List UInt8} (hx : NoLineEnd xs) : xs.idxOf? 10 = none :=
  List.idxOf?_eq_none_iff.2 fun h => (hx 10 h).2 rfl

namespace ChunkedDecodeRound

section Decode

variable (libs : ByteLibs) (max : Nat)

/-- The decoder states that stand for each phase of the data part. -/
def Tracks (d : ChunkedDataDecodeReaderInternal) : Phase → Prop
  | .sizeLine l => d.leftChunkSize = 0 ∧ d.chunkHeader = l ∧
    ((d.pollChunkEnd = false ∧ d.pollChunkEndN = false ∧ d.pollChunkEndR = false) ∨
      (d.pollChunkEnd = true ∧ d.thisChunkSize ≠ 0 ∧ l = []))
  | .sizeLineCr l => d.leftChunkSize = 0 ∧ d.chunkHeader = l ++ [13] ∧
    d.pollChunkEnd = false ∧ d.pollChunkEndN = false ∧ d.pollChunkEndR = false
  | .data n => d.leftChunkSize = n ∧ 0 < n ∧ d.thisChunkSize ≠ 0 ∧ d.chunkHeader = [] ∧
    d.pollChunkEnd = false ∧ d.pollChunkEndN = false ∧ d.pollChunkEndR = false
  | .dataCr => d.leftChunkSize = 0 ∧ d.thisChunkSize ≠ 0 ∧ d.chunkHeader = [] ∧
    d.pollChunkEnd = false ∧ d.pollChunkEndN = false ∧ d.pollChunkEndR = true
  | .dataLf => d.leftChunkSize = 0 ∧ d.thisChunkSize ≠ 0 ∧ d.chunkHeader = [] ∧
    d.pollChunkEnd = false ∧ d.pollChunkEndN = true
  | .trailer k => k = 0 ∧ d.pollChunkEnd = true ∧ d.thisChunkSize = 0
  | _ => False

/-- A decoder part way through the data part of a message it accepts: it
    tracks the phase `φ` reached, the reader holds the rest `rem` of the
    data part and then `S`, and the recognizer reaches the trailer section
    at the end of `rem` and not before. -/
structure DecInv (S : List UInt8) (d : ChunkedDataDecodeReaderInternal) (r : Source) (φ : Phase)
    (rem : List UInt8) : Prop where
  tracks : Tracks d φ
  max_eq : d.bodyLineMaxSize = max
  holds : r.Holds S rem
  accepts : run (max + 1) (HttpBodyReader.lineSize libs) φ rem = some (.trailer 0)
  first : FirstArrival (max + 1) (HttpBodyReader.lineSize libs) φ rem

/-- The round `s'` follows `s` by reading the next bytes `c` of the message:
    the recognizer goes from `φ` to `φ'` over them, their data bytes are put
    in the caller's buffer, and `s'` is part way through the rest `rem'`. -/
def Reads (S : List UInt8) (s : ChunkedDecodeRound) (φ : Phase) (rem : List UInt8)
    (s' : ChunkedDecodeRound) (φ' : Phase) (rem' : List UInt8) : Prop :=
  ∃ c, rem = c ++ rem' ∧ run (max + 1) (HttpBodyReader.lineSize libs) φ c = some φ' ∧
    s'.out = s.out ++ decoded (max + 1) (HttpBodyReader.lineSize libs) φ c ∧
    s'.remaining + (decoded (max + 1) (HttpBodyReader.lineSize libs) φ c).length = s.remaining ∧
    s'.reader.events.length ≤ s.reader.events.length ∧ DecInv libs max S s'.dec s'.reader φ' rem'

/-- The work left: the bytes of the message and the answers of the reader,
    and a pass more at the end of a chunk. -/
def measure (s : ChunkedDecodeRound) (rem : List UInt8) : Nat :=
  2 * (rem.length + s.reader.events.length) + if s.dec.pollChunkEnd then 2 else 1

/-- How a poll of the decoder can end from `s`: waiting, having taken an
    answer of the reader, or ready, with the caller's buffer full or the
    data part read; in each case having read along the message. -/
def PollOk (S : List UInt8) (s : ChunkedDecodeRound) (φ : Phase) (rem : List UInt8)
    (x : Option (Flow ChunkedDecodeRound DecodePoll)) : Prop :=
  ∃ s' φ' rem', Reads libs max S s φ rem s' φ' rem' ∧
    ((x = some (.exit .pending s') ∧ s'.reader.events.length < s.reader.events.length) ∨
      (x = some (.exit (.ready (.ok ())) s') ∧ (s'.remaining = 0 ∨ φ' = .trailer 0)))

/-- How a pass of the loop can end: as a poll does, or going on having read
    along the message with less work left. -/
def PassOk (S : List UInt8) (s : ChunkedDecodeRound) (φ : Phase) (rem : List UInt8)
    (x : Option (Flow ChunkedDecodeRound DecodePoll)) : Prop :=
  PollOk libs max S s φ rem x ∨
  ∃ s' φ' rem', x = some (.next s') ∧ Reads libs max S s φ rem s' φ' rem' ∧ measure s' rem' < measure s rem

/-- How the loop over the windows of a chunk-size line can end from `s`:
    waiting, having read along the line; or with the rest of the line read
    through its `LF` into `chunk_header`, the rest of the decoder as it was. -/
def HeaderOk (S : List UInt8) (s : ChunkedDecodeRound) (φ : Phase) (rem : List UInt8)
    (x : Option (Flow ChunkedDecodeRound DecodePoll)) : Prop :=
  (∃ s' φ' rem', Reads libs max S s φ rem s' φ' rem' ∧ x = some (.exit .pending s') ∧
      s'.reader.events.length < s.reader.events.length) ∨
    ∃ s' L c rem', x = some (.next s') ∧ rem = c ++ 10 :: rem' ∧
      run (max + 1) (HttpBodyReader.lineSize libs) φ c = some (.sizeLineCr L) ∧
      decoded (max + 1) (HttpBodyReader.lineSize libs) φ c = [] ∧
      s'.dec = { s.dec with chunkHeader := L ++ [13, 10] } ∧ s'.out = s.out ∧ s'.remaining = s.remaining ∧
      s'.reader.Holds S rem' ∧ s'.reader.events.length ≤ s.reader.events.length

variable {libs max} {S : List UInt8}

theorem Reads.refl {s : ChunkedDecodeRound} {φ : Phase} {rem : List UInt8}
    (h : DecInv libs max S s.dec s.reader φ rem) : Reads libs max S s φ rem s φ rem :=
  ⟨[], by simp, rfl, by simp, by simp, le_rfl, h⟩

theorem Reads.trans {s s₁ s₂ : ChunkedDecodeRound} {φ φ₁ φ₂ : Phase} {rem rem₁ rem₂ : List UInt8}
    (h₁ : Reads libs max S s φ rem s₁ φ₁ rem₁) (h₂ : Reads libs max S s₁ φ₁ rem₁ s₂ φ₂ rem₂) :
    Reads libs max S s φ rem s₂ φ₂ rem₂ := by
  obtain ⟨c₁, rfl, hr₁, ho₁, hm₁, he₁, -⟩ := h₁
  obtain ⟨c₂, rfl, hr₂, ho₂, hm₂, he₂, hi₂⟩ := h₂
  refine ⟨c₁ ++ c₂, by simp, by rw [run_append_of_eq _ _ hr₁]; exact hr₂, ?_, ?_, by omega, hi₂⟩
  · rw [ho₂, ho₁, decoded_append _ _ hr₁, List.append_assoc]
  · rw [decoded_append _ _ hr₁, List.length_append]
    omega

/-- The bytes left once the trailer section is reached: none. -/
theorem DecInv.rem_eq_nil {d : ChunkedDataDecodeReaderInternal} {r : Source} {rem : List UInt8}
    (h : DecInv libs max S d r (.trailer 0) rem) : rem = [] := by
  by_contra hne
  exact h.first 0 (List.length_pos_iff.2 hne) rfl

/-- With the flags that are set, the phase tracked. -/
theorem Tracks.chunkEnd {d : ChunkedDataDecodeReaderInternal} {φ : Phase} (h : Tracks d φ)
    (he : d.pollChunkEnd = true) : (φ = .sizeLine [] ∧ d.thisChunkSize ≠ 0) ∨ (φ = .trailer 0 ∧ d.thisChunkSize = 0) := by
  cases φ <;> simp only [Tracks] at h
  case sizeLine l =>
    rcases h with ⟨-, -, ⟨he', -⟩ | ⟨-, hthis, rfl⟩⟩
    · rw [he] at he'
      cases he'
    · exact .inl ⟨rfl, hthis⟩
  case trailer k =>
    obtain ⟨rfl, -, hthis⟩ := h
    exact .inr ⟨rfl, hthis⟩
  all_goals simp_all

theorem Tracks.chunkEndN {d : ChunkedDataDecodeReaderInternal} {φ : Phase} (h : Tracks d φ)
    (he : d.pollChunkEnd = false) (hn : d.pollChunkEndN = true) : φ = .dataLf := by
  cases φ <;> simp only [Tracks] at h
  case sizeLine l =>
    rcases h with ⟨-, -, ⟨-, hn', -⟩ | ⟨he', -⟩⟩ <;> simp_all
  case dataLf => rfl
  all_goals simp_all

theorem Tracks.chunkEndR {d : ChunkedDataDecodeReaderInternal} {φ : Phase} (h : Tracks d φ)
    (he : d.pollChunkEnd = false) (hn : d.pollChunkEndN = false) (hr : d.pollChunkEndR = true) :
    φ = .dataCr := by
  cases φ <;> simp only [Tracks] at h
  case sizeLine l =>
    rcases h with ⟨-, -, ⟨-, -, hr'⟩ | ⟨he', -⟩⟩ <;> simp_all
  case dataCr => rfl
  all_goals simp_all

/-- With no flag set, the start of a chunk's data or a chunk-size line. -/
theorem Tracks.noFlag {d : ChunkedDataDecodeReaderInternal} {φ : Phase} (h : Tracks d φ)
    (he : d.pollChunkEnd = false) (hn : d.pollChunkEndN = false) (hr : d.pollChunkEndR = false) :
    (∃ n, φ = .data n ∧ 0 < d.leftChunkSize) ∨ (∃ l, φ = .sizeLine l ∧ d.leftChunkSize = 0) ∨
      (∃ l, φ = .sizeLineCr l ∧ d.leftChunkSize = 0) := by
  cases φ <;> simp only [Tracks] at h
  case sizeLine l => exact .inr (.inl ⟨l, rfl, h.1⟩)
  case sizeLineCr l => exact .inr (.inr ⟨l, rfl, h.1⟩)
  case data n =>
    obtain ⟨hl, hpos, -⟩ := h
    exact .inl ⟨n, rfl, hl ▸ hpos⟩
  all_goals simp_all

section Lemmas

variable {s s' : ChunkedDecodeRound} {φ φ' : Phase} {rem rem' : List UInt8}

/-- The decoder moved past the bytes `c` into a state that tracks where the
    recognizer stands after them. -/
theorem DecInv.advance {d d' : ChunkedDataDecodeReaderInternal} {r r' : Source} {c : List UInt8}
    (h : DecInv libs max S d r φ (c ++ rem')) (hrun : run (max + 1) (HttpBodyReader.lineSize libs) φ c = some φ')
    (ht : Tracks d' φ') (hmax : d'.bodyLineMaxSize = max) (hr : r'.Holds S rem') :
    DecInv libs max S d' r' φ' rem' where
  tracks := ht
  max_eq := hmax
  holds := hr
  accepts := by rw [← run_append_of_eq _ _ hrun]; exact h.accepts
  first := (h.first.drop hrun).1

theorem Reads.inv (h : Reads libs max S s φ rem s' φ' rem') : DecInv libs max S s'.dec s'.reader φ' rem' := by
  obtain ⟨-, -, -, -, -, -, hinv⟩ := h
  exact hinv

theorem Reads.events_le (h : Reads libs max S s φ rem s' φ' rem') :
    s'.reader.events.length ≤ s.reader.events.length := by
  obtain ⟨-, -, -, -, -, hev, -⟩ := h
  exact hev

theorem Reads.length_le (h : Reads libs max S s φ rem s' φ' rem') : rem'.length ≤ rem.length := by
  obtain ⟨c, rfl, -⟩ := h
  simp

/-- A fill that is not ready: nothing read. -/
theorem Reads.wait {r : Source} (h : DecInv libs max S s.dec s.reader φ rem) (hr : r.Holds S rem)
    (hev : r.events.length ≤ s.reader.events.length) : Reads libs max S s φ rem { s with reader := r } φ rem :=
  ⟨[], by simp, rfl, by simp, by simp, hev, ⟨h.tracks, h.max_eq, hr, h.accepts, h.first⟩⟩

theorem PollOk.wait {r : Source} (h : DecInv libs max S s.dec s.reader φ rem) (hr : r.Holds S rem)
    (hev : r.events.length < s.reader.events.length) :
    PollOk libs max S s φ rem (some (.exit .pending { s with reader := r })) :=
  ⟨_, φ, rem, .wait h hr hev.le, .inl ⟨rfl, hev⟩⟩

theorem PollOk.of_reads {s₁ : ChunkedDecodeRound} {φ₁ : Phase} {rem₁ : List UInt8}
    {x : Option (Flow ChunkedDecodeRound DecodePoll)} (h₁ : Reads libs max S s φ rem s₁ φ₁ rem₁)
    (h₂ : PollOk libs max S s₁ φ₁ rem₁ x) : PollOk libs max S s φ rem x := by
  obtain ⟨s', φ', rem', hr, hend⟩ := h₂
  have hev := h₁.events_le
  refine ⟨s', φ', rem', h₁.trans hr, hend.imp (fun ⟨hx, hlt⟩ => ⟨hx, by omega⟩) id⟩

/-- A poll that has ended is not continued. -/
theorem PollOk.andThen {x : Option (Flow ChunkedDecodeRound DecodePoll)}
    {k : ChunkedDecodeRound → Option (Flow ChunkedDecodeRound DecodePoll)} (h : PollOk libs max S s φ rem x) :
    PollOk libs max S s φ rem (Flow.andThen x k) := by
  obtain ⟨s', φ', rem', hr, ⟨rfl, hlt⟩ | ⟨rfl, hend⟩⟩ := h
  · exact ⟨s', φ', rem', hr, .inl ⟨rfl, hlt⟩⟩
  · exact ⟨s', φ', rem', hr, .inr ⟨rfl, hend⟩⟩

end Lemmas

/-! ## The branches of a pass -/

section Branches

variable {s : ChunkedDecodeRound} {φ : Phase} {rem : List UInt8}

/-- `poll_chunk_end`: after the last chunk's line the poll is ready; after a
    data chunk the flags are reset for the next size line. -/
theorem chunkEndStep_spec (h : DecInv libs max S s.dec s.reader φ rem) (he : s.dec.pollChunkEnd = true) :
    PassOk libs max S s φ rem (chunkEndStep s) := by
  rcases h.tracks.chunkEnd he with ⟨rfl, hthis⟩ | ⟨rfl, hthis⟩
  · -- a data chunk ended: no byte read, one pass less to go
    obtain ⟨hl, hh, -⟩ := h.tracks
    rw [chunkEndStep, if_neg hthis]
    refine .inr ⟨_, .sizeLine [], rem, rfl, ⟨[], by simp, rfl, by simp, by simp, le_rfl, ?_⟩, ?_⟩
    · exact ⟨⟨hl, hh, .inl ⟨rfl, rfl, rfl⟩⟩, h.max_eq, h.holds, h.accepts, h.first⟩
    · simp [measure, he]
  · rw [chunkEndStep, if_pos hthis]
    exact .inl ⟨s, .trailer 0, rem, .refl h, .inr ⟨rfl, .inr rfl⟩⟩

/-- `poll_chunk_end_n`: the `LF` after a chunk's `CR`. -/
theorem chunkEndNStep_spec (h : DecInv libs max S s.dec s.reader φ rem) (he : s.dec.pollChunkEnd = false)
    (hn : s.dec.pollChunkEndN = true) : PassOk libs max S s φ rem (chunkEndNStep s) := by
  obtain rfl := h.tracks.chunkEndN he hn
  obtain ⟨hl, hthis, hh, -, -⟩ := h.tracks
  obtain ⟨rest, rfl, -⟩ := run_dataLf_to rfl h.accepts
  rcases h.holds.fill (by simp) with ⟨r, hf, hr, hev⟩ | ⟨r, hf, hne, hpre, hr, hev⟩
  · rw [chunkEndNStep, hf]
    exact .inl (.wait h hr hev)
  · -- the window starts with the `LF`
    obtain ⟨t, hbuf⟩ : ∃ t, r.buf = 10 :: t := by
      rcases List.prefix_cons_iff.1 hpre with h0 | ⟨t, ht, -⟩
      · exact absurd h0 hne
      · exact ⟨t, ht⟩
    have hlen : [(10 : UInt8)].length ≤ r.buf.length := by simp [hbuf]
    simp only [chunkEndNStep, hf, hbuf, if_true]
    refine .inr ⟨_, .sizeLine [], rest, rfl, ⟨[10], rfl, rfl, (List.append_nil _).symm, rfl, hev, ?_⟩, ?_⟩
    · exact DecInv.advance (c := [10]) h rfl ⟨hl, hh, .inr ⟨rfl, hthis, rfl⟩⟩ h.max_eq (hr.consume hlen)
    · simp [measure, he]
      omega

/-- `poll_chunk_end_r`: the line end after a chunk's data, seen in a window
    of one byte or more. -/
theorem chunkEndRStep_spec (h : DecInv libs max S s.dec s.reader φ rem) (he : s.dec.pollChunkEnd = false)
    (hn : s.dec.pollChunkEndN = false) (hr' : s.dec.pollChunkEndR = true) :
    PassOk libs max S s φ rem (chunkEndRStep s) := by
  obtain rfl := h.tracks.chunkEndR he hn hr'
  obtain ⟨hl, hthis, hh, -, -, -⟩ := h.tracks
  obtain ⟨rest, rfl, -⟩ := run_dataCr_to rfl h.accepts
  rcases h.holds.fill (by simp) with ⟨r, hf, hr, hev⟩ | ⟨r, hf, hne, hpre, hr, hev⟩
  · rw [chunkEndRStep, hf]
    exact .inl (.wait h hr hev)
  · rcases window_crlf_cases hne hpre with hbuf | ⟨t, hbuf⟩
    · -- only the `CR` in view: its `LF` is next
      have hlen : [(13 : UInt8)].length ≤ r.buf.length := by simp [hbuf]
      simp only [chunkEndRStep, hf, hbuf, if_true]
      refine .inr ⟨_, .dataLf, 10 :: rest, rfl, ⟨[13], rfl, rfl, (List.append_nil _).symm, rfl, hev, ?_⟩, ?_⟩
      · exact DecInv.advance (c := [13]) h rfl ⟨hl, hthis, hh, he, rfl⟩ h.max_eq (hr.consume hlen)
      · simp [measure, he]
        omega
    · -- the whole `CR LF` in view
      have hlen : [(13 : UInt8), 10].length ≤ r.buf.length := by simp [hbuf]
      simp only [chunkEndRStep, hf, hbuf, if_true, ne_eq, not_true_eq_false, if_false]
      refine .inr ⟨_, .sizeLine [], rest, rfl, ⟨[13, 10], rfl, rfl, (List.append_nil _).symm, rfl, hev, ?_⟩, ?_⟩
      · exact DecInv.advance (c := [13, 10]) h rfl ⟨hl, hh, .inr ⟨rfl, hthis, rfl⟩⟩ h.max_eq (hr.consume hlen)
      · simp [measure, he]
        omega

/-- The data of a chunk: a full buffer returns; otherwise the bytes read are
    the next bytes of the chunk, and go to the caller's buffer. -/
theorem dataStep_spec (h : DecInv libs max S s.dec s.reader φ rem) (he : s.dec.pollChunkEnd = false)
    (hn : s.dec.pollChunkEndN = false) (hr' : s.dec.pollChunkEndR = false) (hleft : 0 < s.dec.leftChunkSize) :
    PassOk libs max S s φ rem (dataStep s) := by
  obtain ⟨n, rfl, -⟩ : ∃ n, φ = .data n ∧ 0 < s.dec.leftChunkSize := by
    rcases h.tracks.noFlag he hn hr' with hd | ⟨l, -, hl⟩ | ⟨l, -, hl⟩
    · exact hd
    all_goals omega
  obtain ⟨hl, hpos, hthis, hh, -, -, -⟩ := h.tracks
  have hnrem : n ≤ rem.length := (run_data_to hpos rfl h.accepts).2
  by_cases hz : s.remaining = 0
  · -- the caller's buffer is full
    rw [dataStep, if_pos hz]
    exact .inl ⟨s, .data n, rem, .refl h, .inr ⟨rfl, .inl hz⟩⟩
  have hmin : 0 < min s.dec.leftChunkSize s.remaining := by omega
  have hne : rem ≠ [] := by
    rintro rfl
    simp at hnrem
    omega
  rcases h.holds.read hne hmin with ⟨r, hrd, hr, hev⟩ | ⟨d, r, hrd, hd, hdn, hpre, hr, hev⟩
  · rw [dataStep, if_neg hz, hrd]
    exact .inl (.wait h hr hev)
  · -- the bytes read are the next bytes of the chunk
    have hdpos : 0 < d.length := List.length_pos_iff.2 hd
    obtain ⟨rem', rfl⟩ : d <+: rem := List.prefix_of_prefix_length_le hpre (List.prefix_append _ _) (by omega)
    have hdec : decoded (max + 1) (HttpBodyReader.lineSize libs) (.data n) d = d := decoded_data_le (by omega)
    rw [dataStep, if_neg hz, hrd]
    simp only [if_neg (Nat.pos_iff_ne_zero.1 hdpos)]
    rcases Nat.lt_or_ge d.length n with hlt | hge
    · -- the chunk goes on
      refine .inr ⟨_, .data (n - d.length), rem', rfl,
        ⟨d, rfl, run_data_short hlt, by rw [hdec], by rw [hdec]; dsimp only; omega, hev, ?_⟩, ?_⟩
      · refine h.advance (run_data_short hlt) ⟨by simp [hl], by omega, hthis, hh, he, hn, ?_⟩ h.max_eq (hr rem' rfl)
        simp [hl, hr']
        omega
      · simp [measure, he]
        omega
    · -- the chunk's last bytes: its line end is next
      have hdn' : d.length = n := by omega
      refine .inr ⟨_, .dataCr, rem', rfl, ⟨d, rfl, run_data hdn' hpos, by rw [hdec], by rw [hdec]; dsimp only; omega, hev, ?_⟩, ?_⟩
      · exact h.advance (run_data hdn' hpos) ⟨by simp [hl, hdn'], hthis, hh, he, hn, by simp [hl, hdn']⟩ h.max_eq
          (hr rem' rfl)
      · simp [measure, he]
        omega

/-- A window without the line's `LF` taken whole: the loop goes on from
    there. -/
theorem HeaderOk.cons {t : ChunkedDecodeRound} {φ₁ : Phase} {w rem₁ hdr : List UInt8}
    {x : Option (Flow ChunkedDecodeRound DecodePoll)} (h₁ : DecInv libs max S t.dec t.reader φ₁ rem₁)
    (hrun : run (max + 1) (HttpBodyReader.lineSize libs) φ w = some φ₁)
    (hdec : decoded (max + 1) (HttpBodyReader.lineSize libs) φ w = [])
    (hd : t.dec = { s.dec with chunkHeader := hdr }) (ho : t.out = s.out) (hm : t.remaining = s.remaining)
    (hev : t.reader.events.length ≤ s.reader.events.length) (hx : HeaderOk libs max S t φ₁ rem₁ x) :
    HeaderOk libs max S s φ (w ++ rem₁) x := by
  have hr : Reads libs max S s φ (w ++ rem₁) t φ₁ rem₁ :=
    ⟨w, rfl, hrun, by rw [hdec, List.append_nil, ho], by rw [hdec, List.length_nil, Nat.add_zero, hm], hev, h₁⟩
  rcases hx with ⟨s', φ', rem', hr', hx, hlt⟩ | ⟨s', L, c, rem', hx, rfl, hrunc, hdecc, hd', ho', hm', hh', hev'⟩
  · exact .inl ⟨s', φ', rem', hr.trans hr', hx, by omega⟩
  · refine .inr ⟨s', L, w ++ c, rem', hx, by simp, by rw [run_append_of_eq _ _ hrun]; exact hrunc, ?_,
      by rw [hd', hd], ho'.trans ho, hm'.trans hm, hh', by omega⟩
    rw [decoded_append _ _ hrun, hdec, hdecc]
    rfl

/-- The loop over the windows of a chunk-size line, from inside the line
    (`l` read, in `chunk_header`) or after its `CR`: each window of the
    line without its `LF` fits in `body_line_max_size`, since the line does. -/
theorem readChunkHeader_spec {fuel : Nat} (h : DecInv libs max S s.dec s.reader φ rem)
    (he : s.dec.pollChunkEnd = false) (hn : s.dec.pollChunkEndN = false) (hr' : s.dec.pollChunkEndR = false)
    (hφ : (∃ l, φ = .sizeLine l) ∨ ∃ l, φ = .sizeLineCr l) (hfuel : rem.length < fuel) :
    HeaderOk libs max S s φ rem (readChunkHeader fuel s) := by
  induction fuel generalizing s φ rem with
  | zero => omega
  | succ f ih =>
    rcases hφ with ⟨l, rfl⟩ | ⟨l, rfl⟩
    · -- inside the line: its rest, its `CR` and its `LF` are next
      obtain ⟨hl, hh, -⟩ := h.tracks
      obtain ⟨xs, rest₁, rfl, hxs, hlen, hcr⟩ := run_sizeLine_to rfl h.accepts
      obtain ⟨rest, ψ, rfl, -, -⟩ := run_sizeLineCr_to rfl hcr
      rcases h.holds.fill (by simp) with ⟨r, hf, hr, hev⟩ | ⟨r, hf, hne, hpre, hr, hev⟩
      · rw [readChunkHeader, hf]
        exact .inl ⟨_, _, _, .wait h hr hev.le, rfl, hev⟩
      rw [List.append_assoc, List.cons_append, List.cons_append] at hpre
      have hpos : 0 < r.buf.length := List.length_pos_iff.2 hne
      simp only [readChunkHeader, hf, if_neg hne]
      simp only [List.length_append] at hlen
      rcases window_lf_cases hxs hpre with ⟨xs', rfl⟩ | hw | ⟨t, hw⟩
      · -- a window inside the line: taken whole
        have hw' : NoLineEnd r.buf := fun b hb => hxs b (List.mem_append_left _ hb)
        simp only [List.length_append] at hlen
        rw [idxOf?_lf_of_noLineEnd hw', if_neg (by rw [h.max_eq, hh]; omega)]
        have hrun : run (max + 1) (HttpBodyReader.lineSize libs) (.sizeLine l) r.buf =
            some (.sizeLine (l ++ r.buf)) := run_sizeLine_bytes hw' (by simp; omega)
        rw [List.append_assoc] at h hr ⊢
        have h₁ : DecInv libs max S { s.dec with chunkHeader := s.dec.chunkHeader ++ r.buf }
            (r.consume r.buf.length) (.sizeLine (l ++ r.buf)) (xs' ++ 13 :: 10 :: rest) :=
          h.advance hrun ⟨hl, by simp [hh], .inl ⟨he, hn, hr'⟩⟩ h.max_eq (hr.consume le_rfl)
        exact HeaderOk.cons (t := { s with reader := r.consume r.buf.length, dec := { s.dec with chunkHeader := s.dec.chunkHeader ++ r.buf } }) h₁ hrun
          (decoded_sizeLine_bytes hw' (by simp; omega)) rfl rfl rfl hev
          (ih h₁ he hn hr' (.inl ⟨_, rfl⟩) (by simp at hfuel ⊢; omega))
      · -- the window ends with the line's `CR`
        have h10 : r.buf.idxOf? 10 = none := by
          rw [hw]
          refine List.idxOf?_eq_none_iff.2 fun hm => ?_
          rcases List.mem_append.1 hm with hm | hm
          · exact (hxs 10 hm).2 rfl
          · simp at hm
        rw [h10, if_neg (by rw [h.max_eq, hh, hw, List.length_append]; simp; omega)]
        have hrun : run (max + 1) (HttpBodyReader.lineSize libs) (.sizeLine l) (xs ++ [13]) =
            some (.sizeLineCr (l ++ xs)) := run_sizeLine hxs (by simp; omega)
        have hrem : xs ++ 13 :: 10 :: rest = r.buf ++ 10 :: rest := by simp [hw]
        rw [hrem] at h hr ⊢
        rw [← hw] at hrun
        have hdec : decoded (max + 1) (HttpBodyReader.lineSize libs) (.sizeLine l) r.buf = [] := by
          rw [hw, decoded_append _ _ (run_sizeLine_bytes hxs (by simp; omega)), decoded_sizeLine_bytes hxs (by simp; omega),
            decoded_single (by simp)]
          rfl
        have h₁ : DecInv libs max S { s.dec with chunkHeader := s.dec.chunkHeader ++ r.buf }
            (r.consume r.buf.length) (.sizeLineCr (l ++ xs)) (10 :: rest) :=
          h.advance hrun ⟨hl, by simp [hh, hw], he, hn, hr'⟩ h.max_eq (hr.consume le_rfl)
        exact HeaderOk.cons (t := { s with reader := r.consume r.buf.length, dec := { s.dec with chunkHeader := s.dec.chunkHeader ++ r.buf } }) h₁ hrun hdec rfl rfl
          rfl hev
          (ih h₁ he hn hr' (.inr ⟨_, rfl⟩) (by simp at hfuel ⊢; omega))
      · -- the window holds the line's `LF`: the line is read
        have h10 : r.buf.idxOf? 10 = some (xs.length + 1) := by
          rw [hw, List.idxOf?_append_of_not_mem fun hm => (hxs 10 hm).2 rfl]
          simp [List.idxOf?_cons, Nat.add_comm]
        rw [h10]
        have hc : (xs ++ [13, 10]).length ≤ r.buf.length := by simp [hw]
        have hr₁ := Source.Holds.consume (c := xs ++ [13, 10]) (by simpa using hr) hc
        refine .inr ⟨_, l ++ xs, xs ++ [13], rest, rfl, by simp, run_sizeLine hxs (by simp; omega), ?_, ?_, rfl, rfl,
          by simpa using hr₁, hev⟩
        · rw [decoded_append _ _ (run_sizeLine_bytes hxs (by simp; omega)), decoded_sizeLine_bytes hxs (by simp; omega),
            decoded_single (by simp)]
          rfl
        · rw [hh, hw, List.take_append, List.take_of_length_le (by omega),
            show xs.length + 1 + 1 - xs.length = 2 by omega]
          simp
    · -- after the line's `CR`: its `LF` is next
      obtain ⟨hl, hh, -⟩ := h.tracks
      obtain ⟨rest, ψ, rfl, -, -⟩ := run_sizeLineCr_to rfl h.accepts
      rcases h.holds.fill (by simp) with ⟨r, hf, hr, hev⟩ | ⟨r, hf, hne, hpre, hr, hev⟩
      · rw [readChunkHeader, hf]
        exact .inl ⟨_, _, _, .wait h hr hev.le, rfl, hev⟩
      obtain ⟨t, hbuf⟩ : ∃ t, r.buf = 10 :: t := by
        rcases List.prefix_cons_iff.1 hpre with h0 | ⟨t, ht, -⟩
        · exact absurd h0 hne
        · exact ⟨t, ht⟩
      have hc : [(10 : UInt8)].length ≤ r.buf.length := by simp [hbuf]
      simp only [readChunkHeader, hf, hbuf, List.idxOf?_cons, beq_self_eq_true]
      refine .inr ⟨_, l, [], rest, rfl, rfl, rfl, rfl, by simp [hh], rfl, rfl, ?_, hev⟩
      simpa [hbuf] using hr.consume (c := [10]) hc

/-- A pass that reads a chunk-size line: waiting, or the line read and
    parsed, ending the data part at the last chunk's line or starting a
    chunk. -/
theorem headerPass_spec {fuel : Nat} (h : DecInv libs max S s.dec s.reader φ rem)
    (he : s.dec.pollChunkEnd = false) (hn : s.dec.pollChunkEndN = false) (hr' : s.dec.pollChunkEndR = false)
    (hφ : (∃ l, φ = .sizeLine l) ∨ ∃ l, φ = .sizeLineCr l) (hfuel : rem.length < fuel) :
    PassOk libs max S s φ rem (Flow.andThen (readChunkHeader fuel s) (parseChunkHeader libs)) := by
  rcases readChunkHeader_spec h he hn hr' hφ hfuel with
    ⟨s', φ', rem', hr, hx, hlt⟩ | ⟨s', L, c, rem', hx, rfl, hrun, hdec, hd, ho, hm, hh, hev⟩
  · rw [hx, Flow.andThen_exit]
    exact .inl ⟨s', φ', rem', hr, .inl ⟨rfl, hlt⟩⟩
  rw [hx, Flow.andThen_next]
  -- the recognizer reads the line's `LF` and goes where the size says
  have hacc := h.accepts
  rw [run_append_of_eq _ _ hrun, run_cons] at hacc
  obtain ⟨ψ, hstep, hψ⟩ := Option.bind_eq_some_iff.1 hacc
  have hrunψ : run (max + 1) (HttpBodyReader.lineSize libs) φ (c ++ [10]) = some ψ := by
    rw [run_append_of_eq _ _ hrun, run_cons, hstep]
    rfl
  have hdecψ : decoded (max + 1) (HttpBodyReader.lineSize libs) φ (c ++ [10]) = [] := by
    rw [decoded_append _ _ hrun, hdec, decoded_single (by simp)]
    rfl
  have hfirst : FirstArrival (max + 1) (HttpBodyReader.lineSize libs) φ ((c ++ [10]) ++ rem') := by
    rw [List.append_assoc, List.singleton_append]
    exact h.first
  have hrem : c ++ 10 :: rem' = (c ++ [10]) ++ rem' := by simp
  have hmax : s'.dec.bodyLineMaxSize = max := by rw [hd]; exact h.max_eq
  cases hk : HttpBodyReader.lineSize libs L with
  | none => simp [step, hk] at hstep
  | some k =>
    have hparse : HttpChunkedLine.parse libs s'.dec.chunkHeader = .ok ⟨k⟩ := by
      rw [hd]
      exact parse_of_lineSize hk
    rcases k with _ | n
    · -- the last chunk's line: the data part ends here
      obtain rfl : ψ = .trailer 0 := by simp [step, hk] at hstep; exact hstep.symm
      obtain rfl : rem' = [] := by
        by_contra hne
        exact (hfirst.drop hrunψ).2 hne rfl
      simp only [parseChunkHeader, hparse, ↓reduceIte]
      refine .inl ⟨{ s' with dec := { s'.dec with thisChunkSize := 0, leftChunkSize := 0, pollChunkEnd := true } },
        .trailer 0, [], ⟨c ++ [10], hrem, hrunψ, by simp [ho, hdecψ], by simp [hm, hdecψ], hev,
        ⟨⟨rfl, rfl, rfl⟩, hmax, hh, hψ, (hfirst.drop hrunψ).1⟩⟩, .inr ⟨rfl, .inr rfl⟩⟩
    · -- a chunk of `n + 1` bytes starts
      obtain rfl : ψ = .data (n + 1) := by simp [step, hk] at hstep; exact hstep.symm
      simp only [parseChunkHeader, hparse, Nat.add_one_ne_zero, ↓reduceIte]
      refine .inr ⟨_, .data (n + 1), rem', rfl, ⟨c ++ [10], hrem, hrunψ, by simp [ho, hdecψ],
        by simp [hm, hdecψ], hev, ⟨⟨rfl, n.succ_pos, n.succ_ne_zero, rfl, ?_⟩, hmax, hh, hψ, (hfirst.drop hrunψ).1⟩⟩, ?_⟩
      · simp [hd, he, hn, hr']
      · have hlen : rem'.length < (c ++ 10 :: rem').length := by
          simp only [List.length_append, List.length_cons]
          omega
        simp only [measure, hd, he]
        simp
        omega

end Branches

/-! ## The loop -/

section Loop

variable {s : ChunkedDecodeRound} {φ : Phase} {rem : List UInt8}

/-- One pass: the branch the flags select. -/
theorem decodeStep_spec {fuel : Nat} (h : DecInv libs max S s.dec s.reader φ rem) (hfuel : rem.length < fuel) :
    PassOk libs max S s φ rem (decodeStep libs fuel s) := by
  unfold decodeStep
  cases he : s.dec.pollChunkEnd
  case true => exact chunkEndStep_spec h he
  rw [if_neg Bool.false_ne_true]
  cases hn : s.dec.pollChunkEndN
  case true => exact chunkEndNStep_spec h he hn
  rw [if_neg Bool.false_ne_true]
  cases hr : s.dec.pollChunkEndR
  case true => exact chunkEndRStep_spec h he hn hr
  rw [if_neg Bool.false_ne_true]
  split_ifs with hleft
  · exact dataStep_spec h he hn hr hleft
  · -- no chunk data left: a size line, from its start or after its `CR`
    have hφ : (∃ l, φ = .sizeLine l) ∨ ∃ l, φ = .sizeLineCr l := by
      rcases h.tracks.noFlag he hn hr with ⟨n, -, hpos⟩ | ⟨l, rfl, -⟩ | ⟨l, rfl, -⟩
      · exact absurd hpos hleft
      · exact .inl ⟨l, rfl⟩
      · exact .inr ⟨l, rfl⟩
    exact headerPass_spec h he hn hr hφ hfuel

/-- The loop of `poll_decode`, with more fuel than work left. -/
theorem pollDecode_spec {fuel : Nat} (h : DecInv libs max S s.dec s.reader φ rem) (hfuel : measure s rem < fuel) :
    PollOk libs max S s φ rem (pollDecode libs fuel s) := by
  induction fuel generalizing s φ rem with
  | zero => omega
  | succ f ih =>
    have hrem : rem.length < f := by
      unfold measure at hfuel
      split at hfuel <;> omega
    rw [pollDecode]
    rcases decodeStep_spec h hrem with hend | ⟨s', φ', rem', hx, hr, hlt⟩
    · exact hend.andThen
    · rw [hx, Flow.andThen_next]
      exact .of_reads hr (ih hr.inv (by omega))

end Loop



end Decode

end ChunkedDecodeRound

/-! ## The empty trailer section -/

namespace TrailerReaderInternal

variable {M : Type} {L : HttpLibs M} {utf8 : List UInt8 → Option (List Char)} {T : List UInt8}

/-- The trailer reader part way through the empty trailer section `CR LF`:
    nothing of it read, or its `CR` in the cached line; the reader holds the
    rest of it and then `T`. -/
def EmptyAt (L : HttpLibs M) (T : List UInt8) (t : TrailerReaderInternal M) (r : Source) : Prop :=
  t.headers = L.empty ∧ 2 ≤ t.trailerMaxSize ∧
    ((t.cachedLine = [] ∧ t.headerSize = 0 ∧ r.Holds T [13, 10]) ∨
      (t.cachedLine = [13] ∧ t.headerSize = 1 ∧ r.Holds T [10]))

/-- How a poll there can end: waiting, having taken an answer of the
    reader, or with the empty map, the reader left at `T`. -/
def EmptyOk (L : HttpLibs M) (T : List UInt8) (r : Source)
    (x : Option (TrailerPoll M × TrailerReaderInternal M × Source)) : Prop :=
  (∃ t' r', x = some (.pending, t', r') ∧ EmptyAt L T t' r' ∧ r'.events.length < r.events.length) ∨
    ∃ t' r', x = some (.ready (.ok L.empty), t', r') ∧ r'.Holds T []

theorem EmptyOk.mono {r r₁ : Source} {x : Option (TrailerPoll M × TrailerReaderInternal M × Source)}
    (hev : r₁.events.length ≤ r.events.length) (h : EmptyOk L T r₁ x) : EmptyOk L T r x := by
  rcases h with ⟨t', r', hx, ht, hlt⟩ | hready
  · exact .inl ⟨t', r', hx, ht, by omega⟩
  · exact .inr hready

/-- After the `CR`: the `LF` ends the empty line. -/
theorem pollRead_afterCr {t : TrailerReaderInternal M} {r : Source} {fuel : Nat}
    (ht : t.headers = L.empty) (hmax : 2 ≤ t.trailerMaxSize) (hc : t.cachedLine = [13])
    (hs : t.headerSize = 1) (hr : r.Holds T [10]) (hf : 0 < fuel) :
    EmptyOk L T r (pollRead L utf8 fuel t r) := by
  obtain ⟨f, rfl⟩ := Nat.exists_eq_add_of_lt hf
  rcases hr.fill (by simp) with ⟨r', hfill, hr', hev⟩ | ⟨r', hfill, hne, hpre, hr', hev⟩
  · rw [zero_add, pollRead, hfill]
    exact .inl ⟨t, r', rfl, ⟨ht, hmax, .inr ⟨hc, hs, hr'⟩⟩, hev⟩
  obtain ⟨u, hbuf⟩ : ∃ u, r'.buf = 10 :: u := by
    rcases List.prefix_cons_iff.1 hpre with h0 | ⟨u, hu, -⟩
    · exact absurd h0 hne
    · exact ⟨u, hu⟩
  have hlen : [(10 : UInt8)].length ≤ r'.buf.length := by simp [hbuf]
  have hr'' : (r'.consume 1).Holds T [] := hr'.consume (c := [10]) hlen
  have hx : pollRead L utf8 (0 + f + 1) t r = some (.ready (.ok L.empty),
      { t with active := true, headerSize := 2, cachedLine := [13, 10], headers := L.empty },
        r'.consume 1) := by
    simp [pollRead, hfill, hbuf, hc, hs, ht, isEmptyLine, List.idxOf?_cons]
    omega
  exact .inr ⟨_, _, hx, hr''⟩

/-- A poll anywhere in the empty trailer section. -/
theorem pollRead_empty {t : TrailerReaderInternal M} {r : Source} {fuel : Nat} (h : EmptyAt L T t r)
    (hf : 2 ≤ fuel) : EmptyOk L T r (pollRead L utf8 fuel t r) := by
  obtain ⟨ht, hmax, ⟨hc, hs, hr⟩ | ⟨hc, hs, hr⟩⟩ := h
  · obtain ⟨f, rfl⟩ := Nat.exists_eq_add_of_lt (show 0 < fuel by omega)
    rcases hr.fill (by simp) with ⟨r', hfill, hr', hev⟩ | ⟨r', hfill, hne, hpre, hr', hev⟩
    · rw [zero_add, pollRead, hfill]
      exact .inl ⟨t, r', rfl, ⟨ht, hmax, .inl ⟨hc, hs, hr'⟩⟩, hev⟩
    rcases window_crlf_cases hne hpre with hbuf | ⟨u, hbuf⟩
    · -- only the `CR` in view: it is cached and the loop goes on
      have hlen : [(13 : UInt8)].length ≤ r'.buf.length := by simp [hbuf]
      have hnext : EmptyOk L T (r'.consume 1)
          (pollRead L utf8 f { t with active := true, headerSize := 1, cachedLine := [13] }
            (r'.consume 1)) :=
        pollRead_afterCr ht hmax rfl rfl (hr'.consume (c := [13]) hlen) (by omega)
      rw [zero_add, pollRead, hfill]
      simp only [hbuf, hc, hs, reduceCtorEq, if_false, List.idxOf?_cons, List.idxOf?_nil]
      simp only [List.length_singleton, zero_add, show ¬ 1 > t.trailerMaxSize by omega, if_false,
        List.nil_append]
      exact hnext.mono (by simp; exact hev)
    · -- the whole `CR LF` in view
      have hlen : [(13 : UInt8), 10].length ≤ r'.buf.length := by simp [hbuf]
      have hr'' : (r'.consume 2).Holds T [] := hr'.consume (c := [13, 10]) hlen
      have hx : pollRead L utf8 (0 + f + 1) t r = some (.ready (.ok L.empty),
          { t with active := true, headerSize := 2, cachedLine := [13, 10], headers := L.empty },
            r'.consume 2) := by
        simp [pollRead, hfill, hbuf, hc, hs, ht, isEmptyLine, List.idxOf?_cons]
        omega
      exact .inr ⟨_, _, hx, hr''⟩
  · exact pollRead_afterCr ht hmax hc hs hr (by omega)

end TrailerReaderInternal

namespace TrailerReader

variable {M : Type} {L : HttpLibs M} {utf8 : List UInt8 → Option (List Char)} {T : List UInt8}

/-- With enough polls the trailer reader reads the empty trailer section as
    the empty map. -/
theorem run_empty {t : TrailerReader M} {fuel polls : Nat}
    (h : TrailerReaderInternal.EmptyAt L T t.internal t.reader) (hf : 2 ≤ fuel)
    (hpolls : t.reader.events.length < polls) :
    ∃ t', run L utf8 fuel polls t = some (.ready (.ok L.empty), t') ∧ t'.reader.Holds T [] := by
  induction polls generalizing t with
  | zero => omega
  | succ p ih =>
    have hpoll : TrailerReaderInternal.EmptyOk L T t.reader (t.internal.pollRead L utf8 fuel t.reader) :=
      TrailerReaderInternal.pollRead_empty h hf
    rcases hpoll with ⟨i, r, hx, hi, hlt⟩ | ⟨i, r, hx, hr⟩
    · obtain ⟨t', hrun, ht'⟩ := ih (t := ⟨r, i⟩) hi (by simp only; omega)
      refine ⟨t', ?_, ht'⟩
      simp only [run, poll, hx, Option.map_some]
      exact hrun
    · exact ⟨⟨r, i⟩, by simp [run, poll, hx], hr⟩

end TrailerReader

namespace HttpBodyDecodeReader

/-- Once the data is read, `trailer` over the empty trailer section: no
    trailer, and the stream left at what follows. -/
theorem trailer_empty {M : Type} {L : HttpLibs M} (hL : L.Spec)
    {utf8 : List UInt8 → Option (List Char)} {T : List UInt8} {c : ChunkedDataDecodeReader}
    {maxSize fuel polls : Nat} (h : c.reader.Holds T [13, 10]) (hmax : 2 ≤ maxSize) (hf : 2 ≤ fuel)
    (hpolls : c.reader.events.length < polls) :
    ∃ r, trailer L utf8 maxSize fuel polls ⟨true, false, some (.chunked c)⟩ =
      some (.ready (.ok none), ⟨true, true, none⟩, some r) ∧ r.Holds T [] := by
  have hrun : ∃ t', TrailerReader.run L utf8 fuel polls (.new L c.reader maxSize) =
      some (.ready (.ok L.empty), t') ∧ t'.reader.Holds T [] :=
    TrailerReader.run_empty ⟨rfl, hmax, .inl ⟨rfl, rfl, h⟩⟩ hf hpolls
  obtain ⟨t', hrun, ht'⟩ := hrun
  have hempty : L.isEmpty L.empty = true := (hL.isEmpty_iff _).2 hL.fields_empty
  exact ⟨t'.reader, by simp [trailer, hrun, hempty], ht'⟩

end HttpBodyDecodeReader

/-! ## The reader and its caller -/

namespace ChunkedDataDecodeReader

open ChunkedDecodeRound

variable {libs : ByteLibs} {max : Nat} {S : List UInt8}

/-- A `poll_read` into a buffer with room: it reads along the message and
    gives the data bytes it read; it waits having taken an answer of the
    reader and given nothing, or it is ready, having given some bytes or
    read the whole data part. -/
theorem pollRead_spec {c : ChunkedDataDecodeReader} {φ : Phase} {rem : List UInt8} {fuel space : Nat}
    (h : DecInv libs max S c.internal c.reader φ rem) (hspace : 0 < space)
    (hfuel : 2 * (rem.length + c.reader.events.length) + 2 < fuel) :
    ∃ res out c' φ' xs rem', c.pollRead libs fuel space = some (res, out, c') ∧ rem = xs ++ rem' ∧
      run (max + 1) (HttpBodyReader.lineSize libs) φ xs = some φ' ∧
      out = decoded (max + 1) (HttpBodyReader.lineSize libs) φ xs ∧
      DecInv libs max S c'.internal c'.reader φ' rem' ∧
      ((res = .pending ∧ out = [] ∧ c'.reader.events.length < c.reader.events.length) ∨
        (res = .ready (.ok ()) ∧ (out ≠ [] ∨ φ' = .trailer 0) ∧
          c'.reader.events.length ≤ c.reader.events.length)) := by
  have hm : measure ⟨c.internal, c.reader, space, []⟩ rem < fuel := by
    simp only [ChunkedDecodeRound.measure]
    split <;> omega
  obtain ⟨s', φ', rem', ⟨xs, rfl, hrun, ho, hrm, hev, hinv⟩, hend⟩ := pollDecode_spec h hm
  simp only [List.nil_append] at ho
  have hlen : s'.out.length + s'.remaining = space := by rw [ho]; simpa [Nat.add_comm] using hrm
  rcases hend with ⟨hx, hlt⟩ | ⟨hx, hfin⟩
  · -- the loop waits: ready if it put bytes in the buffer
    simp only [pollRead, hx]
    by_cases hsp : s'.remaining < space
    · refine ⟨_, _, _, φ', xs, rem', by rw [if_pos hsp], rfl, hrun, ho, hinv, .inr ⟨rfl, .inl ?_, hev⟩⟩
      intro hnil
      simp [hnil] at hlen
      omega
    · refine ⟨_, _, _, φ', xs, rem', by rw [if_neg hsp], rfl, hrun, ho, hinv, .inl ⟨rfl, ?_, hlt⟩⟩
      exact List.eq_nil_of_length_eq_zero (by omega)
  · simp only [pollRead, hx]
    refine ⟨_, _, _, φ', xs, rem', rfl, rfl, hrun, ho, hinv, .inr ⟨rfl, ?_, hev⟩⟩
    rcases hfin with h0 | htr
    · left
      intro hnil
      simp [hnil] at hlen
      omega
    · exact .inr htr

end ChunkedDataDecodeReader

namespace HttpBodyDecodeReader

open ChunkedDecodeRound

variable {libs : ByteLibs} {max : Nat} {S : List UInt8}

/-- A caller reading a chunked body with buffers of any sizes, enough of
    them: the reads give the data bytes of the rest of the data part, in
    order; the read that gives nothing notes the end of the data, and the
    reader is left at the trailer section. -/
theorem readAll_chunked {c : ChunkedDataDecodeReader} {φ : Phase} {rem : List UInt8} {fuel : Nat}
    {spaces : List Nat} (h : DecInv libs max S c.internal c.reader φ rem) (hsp : ∀ n ∈ spaces, 0 < n)
    (hlen : rem.length + c.reader.events.length < spaces.length)
    (hfuel : 2 * (rem.length + c.reader.events.length) + 2 < fuel) :
    ∃ outs c', readAll libs fuel spaces ⟨false, false, some (.chunked c)⟩ =
        some (outs, ⟨true, false, some (.chunked c')⟩) ∧
      outs.flatten = decoded (max + 1) (HttpBodyReader.lineSize libs) φ rem ∧ c'.reader.Holds S [] ∧
      c'.reader.events.length ≤ c.reader.events.length := by
  induction spaces generalizing c φ rem with
  | nil => simp at hlen
  | cons space spaces ih =>
    obtain ⟨res, out, c', φ', xs, rem', hpoll, rfl, hrun, hout, hinv, hend⟩ :=
      ChunkedDataDecodeReader.pollRead_spec h (hsp space (by simp)) hfuel
    have hdec := decoded_append (max + 1) (HttpBodyReader.lineSize libs) hrun rem'
    have hsp' : ∀ n ∈ spaces, 0 < n := fun n hn => hsp n (by simp [hn])
    simp only [List.length_append, List.length_cons] at hlen hfuel
    rcases hend with ⟨rfl, rfl, hlt⟩ | ⟨rfl, hend, hev⟩
    · -- a wait: nothing given, an answer of the reader taken
      obtain ⟨outs, c'', hra, hflat, hrest, hev'⟩ := ih hinv hsp' (by omega) (by omega)
      refine ⟨outs, c'', ?_, by rw [hflat, hdec, ← hout, List.nil_append], hrest, by omega⟩
      simp only [readAll, pollRead, hpoll, Option.map_some]
      exact hra
    by_cases hnil : out = []
    · -- a ready read that gives nothing: the data part is read
      subst hnil
      have htr : φ' = .trailer 0 := hend.resolve_left (fun h => h rfl)
      subst htr
      obtain rfl := hinv.rem_eq_nil
      refine ⟨[], c', ?_, by rw [hdec, ← hout]; rfl, hinv.holds, hev⟩
      simp [readAll, pollRead, hpoll]
    · -- a ready read that gives bytes: they are the next data bytes
      have hxs : 0 < xs.length := by
        rcases xs with _ | ⟨b, xs⟩
        · simp [decoded] at hout
          exact absurd hout hnil
        · simp
      obtain ⟨outs, c'', hra, hflat, hrest, hev'⟩ := ih hinv hsp' (by omega) (by omega)
      refine ⟨out :: outs, c'', ?_, by rw [List.flatten_cons, hflat, hout, hdec], hrest, by omega⟩
      simp [readAll, pollRead, hpoll, hnil, hra]

/-- `new_chunked` over a message whose size lines, with their `CR`, fit in
    `body_line_max_size` and whose sizes its parser reads, the stream holding
    the data part and then `S`: reading with enough buffers of any sizes
    gives the message's data, notes the end of the data, and leaves the
    stream at `S`. -/
theorem newChunked_reads_dataPart {m : Message} (hwf : m.Wf) (hfit : LinesFit (max + 1) m)
    (hsize : SizesRead (HttpBodyReader.lineSize libs) m) {s : Source} (hs : s.Holds S m.dataPart) {fuel : Nat}
    {spaces : List Nat} (hsp : ∀ n ∈ spaces, 0 < n) (hlen : m.dataPart.length + s.events.length < spaces.length)
    (hfuel : 2 * (m.dataPart.length + s.events.length) + 2 < fuel) :
    ∃ outs c, readAll libs fuel spaces (newChunked s max) = some (outs, ⟨true, false, some (.chunked c)⟩) ∧
      outs.flatten = m.body ∧ c.reader.Holds S [] ∧ c.reader.events.length ≤ s.events.length := by
  have h : DecInv libs max S (ChunkedDataDecodeReaderInternal.new max) s (.sizeLine []) m.dataPart :=
    ⟨⟨rfl, rfl, .inl ⟨rfl, rfl, rfl⟩⟩, rfl, hs, run_dataPart hwf hfit hsize, firstArrival_dataPart hwf hfit hsize⟩
  obtain ⟨outs, c, hra, hflat, hc, hev⟩ := readAll_chunked (c := ⟨s, .new max⟩) h hsp hlen hfuel
  exact ⟨outs, c, hra, hflat.trans (decoded_dataPart hwf hfit hsize), hc, hev⟩

end HttpBodyDecodeReader

end G3Proxy
