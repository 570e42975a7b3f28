/-
  The trailer reader over a whole trailer section: header lines, each up to
  its only `LF`, then the empty line.

  * `lineHeader` is the chain of `poll_read` from a complete line to the
    header it appends, `HeaderLine` a line it accepts, and `appendAll` the
    map that headers appended in order make.
  * `pollRead_seek` takes the windows before a line's `LF`, each cached and
    consumed whole; `pollRead_endLine` and `pollRead_headerLine` the window
    that holds the `LF`.
  * `Reading` is the reader part way through a section; `pollRead_section`
    says what one poll does there, by induction on the header lines to go,
    and `TrailerReader.new_reads_trailer_section` what the polls until ready
    return: the headers of the section, the stream left at what follows.
  * `pollRead_counts`: short of `HeaderTooLarge`, every byte a poll consumes
    is counted in the header size, which stays within the limit; so a run
    from a new reader takes at most `trailer_max_size` bytes of any stream
    (`TrailerReader.new_consumes_within_limit`).
-/
import G3Proxy.Http.ChunkedDecoderProof
import G3Proxy.Core.Bytes

namespace G3Proxy

open AsyncIo

namespace TrailerReaderInternal

variable {M : Type} {L : HttpLibs M} {utf8 : List UInt8 → Option (List Char)}

/-! ## The lines of a section -/

/-- The header that `poll_read` appends for a complete line that is not
    empty: the text of the line, `HttpHeaderLine::parse`, then
    `HeaderName::from_str` and `HttpHeaderValue::from_str`. -/
def lineHeader (L : HttpLibs M) (utf8 : List UInt8 → Option (List Char)) (l : List UInt8) :
    Option (HeaderName × HttpHeaderValue) :=
  match utf8 l with
  | none => none
  | some line =>
    match HttpHeaderLine.parse line with
    | .error _ => none
    | .ok header =>
      match L.headerNameFromStr header.name, HttpHeaderValue.fromStr header.value with
      | some name, some value => some (name, value)
      | _, _ => none

theorem lineHeader_eq_some {l : List UInt8} {name : HeaderName} {value : HttpHeaderValue}
    (h : lineHeader L utf8 l = some (name, value)) :
    ∃ line header, utf8 l = some line ∧ HttpHeaderLine.parse line = .ok header ∧
      L.headerNameFromStr header.name = some name ∧ HttpHeaderValue.fromStr header.value = some value := by
  unfold lineHeader at h
  split at h
  · cases h
  · rename_i line hline
    split at h
    · cases h
    · rename_i header hheader
      split at h
      · rename_i name' value' hname hvalue
        cases h
        exact ⟨line, header, hline, hheader, hname, hvalue⟩
      · cases h

/-- A line ends at its only `LF`. -/
def LineEnds (l : List UInt8) : Prop :=
  ∃ body, l = body ++ [10] ∧ (10 : UInt8) ∉ body

/-- A header line of a trailer section, giving the header `h`. -/
structure HeaderLine (L : HttpLibs M) (utf8 : List UInt8 → Option (List Char)) (l : List UInt8)
    (h : HeaderName × HttpHeaderValue) : Prop where
  ends : LineEnds l
  not_empty : isEmptyLine l = false
  header : lineHeader L utf8 l = some h

/-- The empty line that ends a trailer section: `LF` or `CR LF`. -/
structure EndLine (e : List UInt8) : Prop where
  ends : LineEnds e
  empty : isEmptyLine e = true

/-- The map that the headers `hs`, appended in order to `m`, make. -/
def appendAll (L : HttpLibs M) (m : M) (hs : List (HeaderName × HttpHeaderValue)) : M :=
  hs.foldl (fun m h => L.append m h.1 h.2) m

@[simp] theorem appendAll_nil (m : M) : appendAll L m [] = m := rfl

@[simp] theorem appendAll_cons (m : M) (h : HeaderName × HttpHeaderValue) hs :
    appendAll L m (h :: hs) = appendAll L (L.append m h.1 h.2) hs := rfl

/-- The bytes the reader holds from a point of the current line on: when
    the cached line holds no `LF`, the rest of that line, its `LF`, and
    what follows the line. -/
theorem cached_split {c x body R : List UInt8} (hc : (10 : UInt8) ∉ c) (hbody : (10 : UInt8) ∉ body)
    (h : c ++ x = body ++ 10 :: R) : ∃ d, body = c ++ d ∧ x = d ++ 10 :: R := by
  obtain ⟨d, rfl⟩ : c <+: body := List.IsPrefix.of_append_cons ⟨x, h⟩ hc
  refine ⟨d, rfl, ?_⟩
  simpa using h

/-! ## One line -/

/-- The reader state `t'` is `t` with the bytes `d` added to the cached line
    and counted in the header size; the limit and the headers are kept. -/
structure Extends (t : TrailerReaderInternal M) (d : List UInt8) (t' : TrailerReaderInternal M) : Prop where
  max : t'.trailerMaxSize = t.trailerMaxSize
  headers : t'.headers = t.headers
  cached : t'.cachedLine = t.cachedLine ++ d
  size : t'.headerSize = t.headerSize + d.length

theorem Extends.refl (t : TrailerReaderInternal M) : Extends t [] t :=
  ⟨rfl, rfl, by simp, by simp⟩

theorem Extends.trans {t t₁ t₂ : TrailerReaderInternal M} {d₁ d₂ : List UInt8} (h₁ : Extends t d₁ t₁)
    (h₂ : Extends t₁ d₂ t₂) : Extends t (d₁ ++ d₂) t₂ :=
  ⟨h₂.max.trans h₁.max, h₂.headers.trans h₁.headers, by rw [h₂.cached, h₁.cached, List.append_assoc],
    by rw [h₂.size, h₁.size, List.length_append, Nat.add_assoc]⟩

variable {t : TrailerReaderInternal M} {r : Source} {f : Nat}

/-- A fill that shows a window changes nothing `poll_read` looks at: it
    would show the same window again. -/
theorem pollRead_fill {r' : Source} {fuel : Nat} (h : r.fillBuf = (.ready (.ok r'.buf), r')) (hne : r'.buf ≠ []) :
    pollRead L utf8 fuel t r = pollRead L utf8 fuel t r' := by
  cases fuel with
  | zero => rfl
  | succ f => simp only [pollRead, h, Source.fillBuf_of_buf_ne_nil hne]

/-- A window without `LF` is cached and consumed whole. -/
theorem pollRead_noLf (hbuf : r.buf ≠ []) (hlf : (10 : UInt8) ∉ r.buf)
    (hsize : t.headerSize + r.buf.length ≤ t.trailerMaxSize) :
    pollRead L utf8 (f + 1) t r =
      pollRead L utf8 f
        { t with
          active := true
          headerSize := t.headerSize + r.buf.length
          cachedLine := t.cachedLine ++ r.buf }
        (r.consume r.buf.length) := by
  have hidx : r.buf.idxOf? 10 = none := List.idxOf?_eq_none_iff.2 hlf
  simp only [pollRead, Source.fillBuf_of_buf_ne_nil hbuf, hbuf, if_false, hidx]
  rw [if_neg (by simpa using hsize)]

/-- The window that ends the empty line: the map is returned and the line
    consumed through its `LF`. -/
theorem pollRead_endLine {d u : List UInt8} (hbuf : r.buf = d ++ 10 :: u) (hd : (10 : UInt8) ∉ d)
    (hsize : t.headerSize + (d.length + 1) ≤ t.trailerMaxSize)
    (hempty : isEmptyLine (t.cachedLine ++ d ++ [10]) = true) :
    ∃ t', pollRead L utf8 (f + 1) t r = some (.ready (.ok t.headers), t', r.consume (d.length + 1)) := by
  have hne : r.buf ≠ [] := by simp [hbuf]
  have htake : (d ++ 10 :: u).take (d.length + 1) = d ++ [10] := by simp [List.take_append]
  simp only [pollRead, Source.fillBuf_of_buf_ne_nil hne, hne, if_false]
  rw [hbuf, List.idxOf?_append_cons_of_not_mem hd]
  simp only [htake, ← List.append_assoc, hempty, if_true]
  rw [if_neg (by simpa using hsize)]
  exact ⟨_, rfl⟩

/-- The window that ends a header line: the header is appended, the cached
    line cleared, and the loop goes on after the `LF`. -/
theorem pollRead_headerLine {d u : List UInt8} {h : HeaderName × HttpHeaderValue} (hbuf : r.buf = d ++ 10 :: u)
    (hd : (10 : UInt8) ∉ d) (hsize : t.headerSize + (d.length + 1) ≤ t.trailerMaxSize)
    (hline : HeaderLine L utf8 (t.cachedLine ++ d ++ [10]) h) :
    pollRead L utf8 (f + 1) t r =
      pollRead L utf8 f
        { t with
          active := true
          headerSize := t.headerSize + (d.length + 1)
          cachedLine := []
          headers := L.append t.headers h.1 h.2 }
        (r.consume (d.length + 1)) := by
  have hne : r.buf ≠ [] := by simp [hbuf]
  have htake : (d ++ 10 :: u).take (d.length + 1) = d ++ [10] := by simp [List.take_append]
  obtain ⟨line, header, hutf8, hparse, hname, hvalue⟩ := lineHeader_eq_some hline.header
  simp only [pollRead, Source.fillBuf_of_buf_ne_nil hne, hne, if_false]
  rw [hbuf, List.idxOf?_append_cons_of_not_mem hd]
  simp only [htake, ← List.append_assoc, hline.not_empty, Bool.false_eq_true, if_false, hutf8, hparse,
    hname, hvalue]
  rw [if_neg (by simpa using hsize)]

/-- Before the window that holds a line's `LF`: each window is cached and
    consumed, until a poll waits or the window holds the `LF`.  By induction
    on the fuel, one window a step. -/
theorem pollRead_seek {d R S : List UInt8} {fuel : Nat} (hd : (10 : UInt8) ∉ d)
    (hr : r.Holds S (d ++ 10 :: R)) (hsize : t.headerSize + d.length < t.trailerMaxSize)
    (hfuel : d.length < fuel) :
    (∃ d₁ d₂ t' r', d = d₁ ++ d₂ ∧ pollRead L utf8 fuel t r = some (.pending, t', r') ∧ Extends t d₁ t' ∧
      r'.Holds S (d₂ ++ 10 :: R) ∧ r'.events.length < r.events.length) ∨
    (∃ d₁ d₂ u t' r' f', d = d₁ ++ d₂ ∧ pollRead L utf8 fuel t r = pollRead L utf8 (f' + 1) t' r' ∧
      Extends t d₁ t' ∧ r'.buf = d₂ ++ 10 :: u ∧ r'.Holds S (d₂ ++ 10 :: R) ∧
      r'.events.length ≤ r.events.length ∧ fuel ≤ f' + 1 + d₁.length) := by
  induction fuel generalizing t r d with
  | zero => omega
  | succ f ih =>
    rcases hr.fill (by simp) with ⟨r', hfill, hr', hev⟩ | ⟨r', hfill, hne, hpre, hr', hev⟩
    · -- not ready: nothing cached
      refine .inl ⟨[], d, t, r', rfl, by simp only [pollRead, hfill], Extends.refl t, hr', hev⟩
    rw [List.append_assoc, List.cons_append] at hpre
    rcases List.IsPrefix.cases_append_cons hd hpre with ⟨hlf, d₁, rfl⟩ | ⟨u, hbuf, -⟩
    · -- the window stops before the `LF`: cached whole, then the next one
      have hsz : t.headerSize + r'.buf.length ≤ t.trailerMaxSize := by
        rw [List.length_append] at hsize; omega
      have hr'' : (r'.consume r'.buf.length).Holds S (d₁ ++ 10 :: R) := by
        have hr₁ : r'.Holds S (r'.buf ++ (d₁ ++ 10 :: R)) := by simpa using hr'
        exact hr₁.consume le_rfl
      have hlen : 0 < r'.buf.length := List.length_pos_iff.2 hne
      let t₁ : TrailerReaderInternal M :=
        { t with
          active := true
          headerSize := t.headerSize + r'.buf.length
          cachedLine := t.cachedLine ++ r'.buf }
      have hext : Extends t r'.buf t₁ := ⟨rfl, rfl, rfl, rfl⟩
      rw [List.length_append] at hsize hfuel
      rcases ih (t := t₁) (fun h => hd (List.mem_append_right _ h)) hr'' (by simp [t₁]; omega) (by omega) with
        ⟨d₂, d₃, t', r'', rfl, hx, ht', hr''', hev'⟩ | ⟨d₂, d₃, u, t', r'', f', rfl, hx, ht', hbuf, hr''', hev', hf⟩
      · refine .inl ⟨r'.buf ++ d₂, d₃, t', r'', by simp, ?_, hext.trans ht',
          hr''', by simp at hev'; omega⟩
        exact (pollRead_fill hfill hne).trans ((pollRead_noLf hne hlf hsz).trans hx)
      · refine .inr ⟨r'.buf ++ d₂, d₃, u, t', r'', f', by simp, ?_,
          hext.trans ht', hbuf, hr''', by simp at hev'; omega, ?_⟩
        · exact (pollRead_fill hfill hne).trans ((pollRead_noLf hne hlf hsz).trans hx)
        · simp only [List.length_append]; omega
    · -- the window holds the `LF`
      exact .inr ⟨[], d, u, t, r', f, rfl, pollRead_fill hfill hne, Extends.refl t, hbuf, hr', hev, by simp⟩

/-! ## A section -/

variable {e T : List UInt8}

/-- The reader at a point of a trailer section of the header lines `ls`,
    giving the headers `hs`, and the empty line `e`, followed by `T`: the
    cached line, without `LF`, and the bytes `x` the reader holds before `T`
    make the section from the current line on, under the limit. -/
structure At (L : HttpLibs M) (utf8 : List UInt8 → Option (List Char)) (e T : List UInt8) (ls : List (List UInt8))
    (hs : List (HeaderName × HttpHeaderValue)) (x : List UInt8) (t : TrailerReaderInternal M) (r : Source) :
    Prop where
  lines : List.Forall₂ (HeaderLine L utf8) ls hs
  cached : (10 : UInt8) ∉ t.cachedLine
  section_eq : t.cachedLine ++ x = ls.flatten ++ e
  holds : r.Holds T x
  size : t.headerSize + x.length ≤ t.trailerMaxSize

/-- Bytes of the current line moved from the reader to the cached line. -/
theorem At.extend {ls : List (List UInt8)} {hs : List (HeaderName × HttpHeaderValue)} {d₁ x : List UInt8}
    {t' : TrailerReaderInternal M} {r' : Source} (h : At L utf8 e T ls hs (d₁ ++ x) t r) (ht : Extends t d₁ t')
    (hc : (10 : UInt8) ∉ t.cachedLine ++ d₁) (hr : r'.Holds T x) : At L utf8 e T ls hs x t' r' where
  lines := h.lines
  cached := by rw [ht.cached]; exact hc
  section_eq := by rw [ht.cached, List.append_assoc, h.section_eq]
  holds := hr
  size := by
    have hsize := h.size
    rw [List.length_append] at hsize
    rw [ht.size, ht.max]
    omega

/-- Part way through a section whose headers make the map `H`, under the
    limit `maxSize`, with at most `n` bytes of it left in the reader. -/
def Reading (L : HttpLibs M) (utf8 : List UInt8 → Option (List Char)) (maxSize n : Nat) (e T : List UInt8) (H : M)
    (t : TrailerReaderInternal M) (r : Source) : Prop :=
  t.trailerMaxSize = maxSize ∧ ∃ ls hs x, At L utf8 e T ls hs x t r ∧ appendAll L t.headers hs = H ∧ x.length ≤ n

/-- How a poll part way through a section can end: waiting, having taken an
    answer of the reader, or with the section's headers, the stream left at
    `T`. -/
def SectionOk (L : HttpLibs M) (utf8 : List UInt8 → Option (List Char)) (maxSize n : Nat) (e T : List UInt8) (H : M)
    (r : Source) (x : Option (TrailerPoll M × TrailerReaderInternal M × Source)) : Prop :=
  (∃ t' r', x = some (.pending, t', r') ∧ Reading L utf8 maxSize n e T H t' r' ∧
      r'.events.length < r.events.length) ∨
    ∃ t' r', x = some (.ready (.ok H), t', r') ∧ r'.Holds T []

theorem SectionOk.mono {maxSize n₁ n : Nat} {H : M} {r₁ : Source}
    {x : Option (TrailerPoll M × TrailerReaderInternal M × Source)} (hn : n₁ ≤ n)
    (hev : r₁.events.length ≤ r.events.length)
    (h : SectionOk L utf8 maxSize n₁ e T H r₁ x) : SectionOk L utf8 maxSize n e T H r x := by
  rcases h with ⟨t', r', hx, ⟨hmax, ls, hs, x', hat, hM, hx'⟩, hlt⟩ | hready
  · exact .inl ⟨t', r', hx, ⟨hmax, ls, hs, x', hat, hM, by omega⟩, by omega⟩
  · exact .inr hready

/-- A poll that waits before the `LF` of the current line leaves the reader
    in the same line. -/
theorem sectionOk_pending {ls : List (List UInt8)} {hs : List (HeaderName × HttpHeaderValue)}
    {d₁ x : List UInt8} {n : Nat} {t' : TrailerReaderInternal M} {r' : Source}
    {res : Option (TrailerPoll M × TrailerReaderInternal M × Source)} (h : At L utf8 e T ls hs (d₁ ++ x) t r)
    (hres : res = some (.pending, t', r')) (ht : Extends t d₁ t') (hc : (10 : UInt8) ∉ t.cachedLine ++ d₁)
    (hr : r'.Holds T x) (hev : r'.events.length < r.events.length) (hn : x.length ≤ n) :
    SectionOk L utf8 t.trailerMaxSize n e T (appendAll L t.headers hs) r res :=
  .inl ⟨t', r', hres, ⟨ht.max, ls, hs, x, h.extend ht hc hr, by rw [ht.headers], hn⟩, hev⟩

/-- One poll part way through a section: it waits in some line, or it reads
    the rest of the section, appending the headers of its lines in order.
    By recursion on the header lines to go; in each, `pollRead_seek` takes
    the windows before the `LF`. -/
theorem pollRead_section (he : EndLine e) :
    ∀ {ls : List (List UInt8)} {hs : List (HeaderName × HttpHeaderValue)} {x : List UInt8}
      {t : TrailerReaderInternal M} {r : Source} {fuel : Nat}, At L utf8 e T ls hs x t r → x.length < fuel →
      SectionOk L utf8 t.trailerMaxSize x.length e T (appendAll L t.headers hs) r (pollRead L utf8 fuel t r)
  | [], hs, x, t, r, fuel, h, hfuel => by
    -- the current line is the empty one
    obtain rfl : hs = [] := List.forall₂_nil_left_iff.1 h.lines
    obtain ⟨body, rfl, hbody⟩ := he.ends
    obtain ⟨d, hbd, rfl⟩ := cached_split h.cached hbody (by simpa using h.section_eq)
    have hsize := h.size
    simp only [List.length_append, List.length_singleton] at hsize hfuel
    rcases pollRead_seek (t := t) (by rw [hbd] at hbody; exact fun h' => hbody (List.mem_append_right _ h'))
        h.holds (by omega) (show d.length < fuel by omega) with
      ⟨d₁, d₂, t', r', rfl, hres, ht', hr', hev⟩ | ⟨d₁, d₂, u, t', r', f', rfl, hres, ht', hbuf, hr', hev, hf⟩
    · exact sectionOk_pending (by simpa using h) hres ht'
        (by rw [hbd] at hbody; exact fun h' => hbody (by simp_all)) hr' hev (by simp)
    · -- the window ends the empty line
      have hline : t'.cachedLine ++ d₂ = body := by rw [ht'.cached, hbd, List.append_assoc]
      have hsize' : t'.headerSize + (d₂.length + 1) ≤ t'.trailerMaxSize := by
        rw [ht'.size, ht'.max]
        simp only [List.length_append] at hsize
        omega
      obtain ⟨t'', hx⟩ : ∃ t'', pollRead L utf8 (f' + 1) t' r' =
          some (.ready (.ok t'.headers), t'', r'.consume (d₂.length + 1)) :=
        pollRead_endLine hbuf (by rw [hbd] at hbody; exact fun h' => hbody (by simp_all)) hsize'
          (by rw [hline]; exact he.empty)
      have hr'' : (r'.consume (d₂ ++ [10]).length).Holds T [] :=
        (by simpa using hr' : r'.Holds T ((d₂ ++ [10]) ++ [])).consume (by simp [hbuf])
      refine .inr ⟨t'', _, ?_, hr''⟩
      rw [hres, hx, ht'.headers, appendAll_nil, List.length_append, List.length_singleton]
  | l :: ls, hs, x, t, r, fuel, h, hfuel => by
    -- the current line is the header line `l`, the section goes on with `ls`
    obtain ⟨h₀, hs', hl, hls, rfl⟩ := List.forall₂_cons_left_iff.1 h.lines
    obtain ⟨body, rfl, hbody⟩ := hl.ends
    obtain ⟨d, hbd, rfl⟩ := cached_split h.cached hbody (by simpa using h.section_eq)
    have hsize := h.size
    simp only [List.length_append, List.length_cons] at hsize hfuel
    rcases pollRead_seek (t := t) (by rw [hbd] at hbody; exact fun h' => hbody (List.mem_append_right _ h'))
        h.holds (by omega) (show d.length < fuel by omega) with
      ⟨d₁, d₂, t', r', rfl, hres, ht', hr', hev⟩ | ⟨d₁, d₂, u, t', r', f', rfl, hres, ht', hbuf, hr', hev, hf⟩
    · exact sectionOk_pending (by simpa using h) hres ht'
        (by rw [hbd] at hbody; exact fun h' => hbody (by simp_all)) hr' hev (by simp)
    · -- the window ends the header line: its header is appended and the
      -- rest of the section read from the next line
      have hline : t'.cachedLine ++ d₂ = body := by rw [ht'.cached, hbd, List.append_assoc]
      have hsize' : t'.headerSize + (d₂.length + 1) ≤ t'.trailerMaxSize := by
        rw [ht'.size, ht'.max]
        simp only [List.length_append] at hsize
        omega
      let t₂ : TrailerReaderInternal M :=
        { t' with
          active := true
          headerSize := t'.headerSize + (d₂.length + 1)
          cachedLine := []
          headers := L.append t'.headers h₀.1 h₀.2 }
      have hnext : pollRead L utf8 (f' + 1) t' r' = pollRead L utf8 f' t₂ (r'.consume (d₂.length + 1)) :=
        pollRead_headerLine hbuf (by rw [hbd] at hbody; exact fun h' => hbody (by simp_all)) hsize'
          (by rw [hline]; exact hl)
      have hr'' : (r'.consume (d₂ ++ [10]).length).Holds T (ls.flatten ++ e) :=
        (by simpa using hr' : r'.Holds T ((d₂ ++ [10]) ++ (ls.flatten ++ e))).consume (by simp [hbuf])
      have hat : At L utf8 e T ls hs' (ls.flatten ++ e) t₂ (r'.consume (d₂.length + 1)) :=
        { lines := hls
          cached := List.not_mem_nil
          section_eq := List.nil_append _
          holds := by simpa using hr''
          size := by
            simp only [t₂, List.length_append] at hsize ⊢
            rw [ht'.size, ht'.max]
            omega }
      have hrest := pollRead_section he hat (show (ls.flatten ++ e).length < f' by
        simp only [List.length_append] at hfuel hf ⊢; omega)
      have hmax : t₂.trailerMaxSize = t.trailerMaxSize := ht'.max
      have hM : appendAll L t₂.headers hs' = appendAll L t.headers (h₀ :: hs') := by
        simp only [t₂, ht'.headers, appendAll_cons]
      rw [hmax, hM] at hrest
      rw [hres, hnext]
      exact hrest.mono (by simp; omega) (by simpa using hev)

/-! ## The limit -/

/-- Consuming `n` bytes of the window takes the first `n` bytes of the rest. -/
theorem rest_eq_take_consume {s : Source} {n : Nat} (hn : n ≤ s.buf.length) :
    s.rest = s.buf.take n ++ (s.consume n).rest := by
  rw [Source.rest_consume _ _ hn]
  conv_lhs => rw [← List.take_append_drop n s.rest]
  simp [Source.rest, List.take_append_of_le_length hn]

/-- Whatever a poll returns, short of `HeaderTooLarge`, the bytes it
    consumed are counted in the header size, which stays within the limit.
    By induction on the fuel, one window a step. -/
theorem pollRead_counts : ∀ {fuel : Nat} {t t' : TrailerReaderInternal M} {r r' : Source} {res : TrailerPoll M},
    pollRead L utf8 fuel t r = some (res, t', r') → t.headerSize ≤ t.trailerMaxSize →
    res ≠ .ready (.error .headerTooLarge) →
    t'.trailerMaxSize = t.trailerMaxSize ∧ t'.headerSize ≤ t'.trailerMaxSize ∧
      ∃ c, r.rest = c ++ r'.rest ∧ t'.headerSize = t.headerSize + c.length
  | 0, _, _, _, _, _, h, _, _ => by cases h
  | f + 1, t, t', r, r', res, h, hle, hres => by
    have hrest₁ := Source.rest_fillBuf r
    rcases hfill : r.fillBuf with ⟨(e | buf) | _, r₁⟩
    all_goals rw [hfill] at hrest₁; simp only [pollRead, hfill] at h
    · -- a read error
      obtain ⟨rfl, rfl, rfl⟩ := h
      exact ⟨rfl, hle, [], by simpa using hrest₁.symm, rfl⟩
    · -- a window
      have hbuf : r₁.buf = buf := Source.fillBuf_ok_buf hfill
      by_cases hb : buf = []
      · -- end of stream
        rw [if_pos hb] at h
        obtain ⟨rfl, rfl, rfl⟩ := h
        exact ⟨rfl, hle, [], by simpa using hrest₁.symm, rfl⟩
      rw [if_neg hb] at h
      rcases hidx : buf.idxOf? 10 with _ | p
      all_goals simp only [hidx] at h
      · -- no `LF`: the window is cached whole and counted
        by_cases hover : t.headerSize + buf.length > t.trailerMaxSize
        · rw [if_pos hover] at h
          obtain ⟨rfl, -, -⟩ := h
          exact absurd rfl hres
        rw [if_neg hover] at h
        obtain ⟨hmax, hsz, c, hc, hsize⟩ := pollRead_counts h (by simp only; omega) hres
        have hrest₂ : r.rest = buf ++ (r₁.consume buf.length).rest := by
          rw [← hrest₁, rest_eq_take_consume (by rw [hbuf]), hbuf, List.take_length]
        refine ⟨hmax, hsz, buf ++ c, by rw [hrest₂, hc, List.append_assoc], ?_⟩
        rw [hsize, List.length_append, Nat.add_assoc]
      · -- the `LF` at `p`: the line up to it is counted, whatever follows
        by_cases hover : t.headerSize + (p + 1) > t.trailerMaxSize
        · rw [if_pos hover] at h
          obtain ⟨rfl, -, -⟩ := h
          exact absurd rfl hres
        rw [if_neg hover] at h
        have hp : p + 1 ≤ buf.length := (List.idxOf?_eq_some_iff.1 hidx).1
        have hrest₂ : r.rest = buf.take (p + 1) ++ (r₁.consume (p + 1)).rest := by
          rw [← hrest₁, ← hbuf]
          exact rest_eq_take_consume (hbuf ▸ hp)
        have hlen : (buf.take (p + 1)).length = p + 1 := by simp; omega
        -- a poll that ends with the line
        have hdone : ∀ {res₁ : TrailerPoll M} {t₁ : TrailerReaderInternal M},
            some (res₁, t₁, r₁.consume (p + 1)) = some (res, t', r') → t₁.trailerMaxSize = t.trailerMaxSize →
            t₁.headerSize = t.headerSize + (p + 1) →
            t'.trailerMaxSize = t.trailerMaxSize ∧ t'.headerSize ≤ t'.trailerMaxSize ∧
              ∃ c, r.rest = c ++ r'.rest ∧ t'.headerSize = t.headerSize + c.length := by
          intro res₁ t₁ h' hmax hsize
          obtain ⟨-, rfl, rfl⟩ := h'
          exact ⟨hmax, by omega, _, hrest₂, by rw [hsize, hlen]⟩
        split at h
        · exact hdone h rfl rfl
        split at h
        · exact hdone h rfl rfl
        split at h
        · exact hdone h rfl rfl
        split at h
        · exact hdone h rfl rfl
        split at h
        · exact hdone h rfl rfl
        -- a header line: appended, and the loop goes on after it
        obtain ⟨hmax, hsz, c, hc, hsize⟩ := pollRead_counts h (by simp only; omega) hres
        refine ⟨hmax, hsz, buf.take (p + 1) ++ c, by rw [hrest₂, hc, List.append_assoc], ?_⟩
        rw [hsize, List.length_append, hlen, Nat.add_assoc]
    · -- not ready
      obtain ⟨rfl, rfl, rfl⟩ := h
      exact ⟨rfl, hle, [], by simpa using hrest₁.symm, rfl⟩

end TrailerReaderInternal

namespace TrailerReader

open TrailerReaderInternal

variable {M : Type} {L : HttpLibs M} {utf8 : List UInt8 → Option (List Char)} {e T : List UInt8}

/-- Polled until ready part way through a section, the trailer reader
    returns the section's headers and leaves the stream at what follows.
    By induction on the polls: each one that waits takes an answer of the
    reader. -/
theorem run_reading (he : EndLine e) {maxSize n fuel polls : Nat} {H : M} {t : TrailerReader M}
    (h : Reading L utf8 maxSize n e T H t.internal t.reader) (hfuel : n < fuel)
    (hpolls : t.reader.events.length < polls) :
    ∃ t', run L utf8 fuel polls t = some (.ready (.ok H), t') ∧ t'.reader.Holds T [] := by
  induction polls generalizing t with
  | zero => omega
  | succ p ih =>
    obtain ⟨hmax, ls, hs, x, hat, hM, hx⟩ := h
    have hpoll := pollRead_section he hat (show x.length < fuel by omega)
    rw [hmax, hM] at hpoll
    rcases hpoll.mono hx le_rfl with ⟨i, r, hres, hi, hlt⟩ | ⟨i, r, hres, hr⟩
    · obtain ⟨t', hrun, ht'⟩ := ih (t := ⟨r, i⟩) hi (by simp only; omega)
      refine ⟨t', ?_, ht'⟩
      simp only [run, poll, hres, Option.map_some]
      exact hrun
    · exact ⟨⟨r, i⟩, by simp [run, poll, hres], hr⟩

/-- A trailer section of header lines and the empty line, within the limit
    and split over the reader's answers in any way, is read to the map of
    the lines' headers appended in order, the stream left at what follows
    the section. -/
theorem new_reads_trailer_section (he : EndLine e) {ls : List (List UInt8)}
    {hs : List (HeaderName × HttpHeaderValue)} {r : Source} {maxSize fuel polls : Nat}
    (hls : List.Forall₂ (HeaderLine L utf8) ls hs) (hr : r.Holds T (ls.flatten ++ e))
    (hsize : (ls.flatten ++ e).length ≤ maxSize) (hfuel : (ls.flatten ++ e).length < fuel)
    (hpolls : r.events.length < polls) :
    ∃ t', run L utf8 fuel polls (new L r maxSize) = some (.ready (.ok (appendAll L L.empty hs)), t') ∧
      t'.reader.rest = T := by
  have hat : At L utf8 e T ls hs (ls.flatten ++ e) (.new L maxSize) r :=
    { lines := hls
      cached := List.not_mem_nil
      section_eq := rfl
      holds := hr
      size := by simpa [TrailerReaderInternal.new] using hsize }
  obtain ⟨t', hrun, ht'⟩ := run_reading (t := new L r maxSize) he ⟨rfl, ls, hs, _, hat, rfl, le_rfl⟩ hfuel hpolls
  exact ⟨t', hrun, by simpa using ht'.rest⟩

/-- The section `A: B CR LF CR LF`, then `X`, over three answers that cut
    the header line and the empty line. -/
theorem new_reads_trailer_section_split :
    ∃ t', run HttpLibs.ofLists Bytes.fromUtf8 9 4
        (new HttpLibs.ofLists (.ofSegments [[65, 58], [32, 66, 13, 10, 13], [10, 88]]) 1024) =
      some (.ready (.ok (appendAll HttpLibs.ofLists HttpLibs.ofLists.empty
        [(⟨"a".toList⟩, ⟨"B".toList, none⟩)])), t') ∧ t'.reader.rest = [88] := by
  have hbytes : ([65, 58, 32, 66, 13, 10] : List UInt8) = Bytes.asBytes "A: B\r\n".toList := by decide
  have hline : HeaderLine HttpLibs.ofLists Bytes.fromUtf8 [65, 58, 32, 66, 13, 10]
      (⟨"a".toList⟩, ⟨"B".toList, none⟩) :=
    { ends := ⟨[65, 58, 32, 66, 13], rfl, by decide⟩
      not_empty := by decide
      header := by rw [hbytes, lineHeader, Bytes.fromUtf8_asBytes]; decide }
  exact new_reads_trailer_section (e := [13, 10]) ⟨⟨[13], rfl, by decide⟩, by decide⟩
    (List.Forall₂.cons hline .nil) ⟨by decide, by simp [Source.Segmented, Source.ofSegments]⟩ (by decide)
    (by decide) (by decide)

/-- Polls of the trailer reader that do not stop with `HeaderTooLarge`
    take a prefix of the stream and count it in the header size, which stays
    within the limit.  By induction on the polls, `pollRead_counts` for each. -/
theorem run_counts {fuel polls : Nat} {t t' : TrailerReader M} {res : TrailerPoll M}
    (h : run L utf8 fuel polls t = some (res, t')) (hle : t.internal.headerSize ≤ t.internal.trailerMaxSize)
    (hres : res ≠ .ready (.error .headerTooLarge)) :
    t'.internal.trailerMaxSize = t.internal.trailerMaxSize ∧ t'.internal.headerSize ≤ t'.internal.trailerMaxSize ∧
      ∃ c, t.reader.rest = c ++ t'.reader.rest ∧ t'.internal.headerSize = t.internal.headerSize + c.length := by
  induction polls generalizing t with
  | zero =>
    obtain ⟨-, rfl⟩ : Poll.pending = res ∧ t = t' := by simpa [run] using h
    exact ⟨rfl, hle, [], rfl, rfl⟩
  | succ p ih =>
    rcases hpoll : t.internal.pollRead L utf8 fuel t.reader with _ | ⟨res₁, i, r₁⟩
    · simp [run, poll, hpoll] at h
    by_cases hpend : res₁ = .pending
    · -- a poll that waits, then the polls after it
      subst hpend
      have hrun : run L utf8 fuel p ⟨r₁, i⟩ = some (res, t') := by simpa [run, poll, hpoll] using h
      obtain ⟨hmax₁, hle₁, c₁, hc₁, hsize₁⟩ := pollRead_counts hpoll hle (by simp)
      obtain ⟨hmax, hsz, c, hc, hsize⟩ := ih hrun hle₁
      refine ⟨hmax.trans hmax₁, hsz, c₁ ++ c, by rw [hc₁, hc, List.append_assoc], ?_⟩
      rw [hsize, hsize₁, List.length_append, Nat.add_assoc]
    · -- the poll that returns
      obtain ⟨rfl, rfl⟩ : res₁ = res ∧ (⟨r₁, i⟩ : TrailerReader M) = t' := by
        rcases res₁ with _ | _ <;> simp_all [run, poll]
      exact pollRead_counts hpoll hle hres

/-- Whatever the stream, a trailer reader that does not stop with
    `HeaderTooLarge` has taken at most `trailer_max_size` bytes of it: with
    the trailer section read, or having failed on it, or still waiting. -/
theorem new_consumes_within_limit {r : Source} {maxSize fuel polls : Nat} {res : TrailerPoll M}
    {t' : TrailerReader M} (h : run L utf8 fuel polls (new L r maxSize) = some (res, t'))
    (hres : res ≠ .ready (.error .headerTooLarge)) :
    ∃ c, r.rest = c ++ t'.reader.rest ∧ c.length ≤ maxSize := by
  obtain ⟨hmax, hsz, c, hc, hsize⟩ := run_counts h (by simp [new, TrailerReaderInternal.new]) hres
  refine ⟨c, hc, ?_⟩
  simp only [new, TrailerReaderInternal.new, zero_add] at hmax hsize
  omega

/-- A line the reader cannot take as text fails the section after its two
    bytes, within the limit of eight. -/
theorem new_consumes_within_limit_invalid :
    ∃ t', run HttpLibs.ofLists (fun _ => none) 4 2
        (new HttpLibs.ofLists (.ofSegments [[65, 10], [13, 10]]) 8) =
        some (.ready (.error (.invalidHeaderLine .invalidUtf8Encoding)), t') ∧
      ∃ c, (Source.ofSegments [[65, 10], [13, 10]]).rest = c ++ t'.reader.rest ∧ c.length ≤ 8 := by
  obtain ⟨t', hrun⟩ : ∃ t', run HttpLibs.ofLists (fun _ => none) 4 2
      (new HttpLibs.ofLists (.ofSegments [[65, 10], [13, 10]]) 8) =
      some (.ready (.error (.invalidHeaderLine .invalidUtf8Encoding)), t') := ⟨_, rfl⟩
  exact ⟨t', hrun, new_consumes_within_limit hrun (by decide)⟩

end TrailerReader

end G3Proxy
