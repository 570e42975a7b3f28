/-
  Framing of the response body.

  RFC 9112 §6.3 frames a response body by its `Transfer-Encoding` fields,
  chunked exactly when the final coding of their combined list is
  `chunked` and read to the end of the connection otherwise, and only
  without them by its `Content-Length` fields.  What the parser records
  instead, for every head it accepts (`parse_framingInv`):

  * `chunkedTransfer` says that some coding value ends with `chunked`, not
    that the last one does (`FramingInv.chunked_field`);
  * a `Content-Length` seen before the first `Transfer-Encoding` leaves
    `has_content_length` set with a length of 0, so such a body counts as
    empty (`FramingInv.bodyType_te_not_chunked`);
  * with no `Transfer-Encoding` the `Content-Length` fields all read as the
    length (`FramingInv.bodyType_contentLength`), and with neither header
    the body runs to the end (`FramingInv.bodyType_unframed`).

  `parse_final_coding_gzip_misframed` gives two heads whose final coding is
  `gzip`, one read as chunked and one as having no body.
-/
import G3Proxy.Http.Response
import G3Proxy.Http.RequestFraming

namespace G3Proxy

namespace HttpForwardRemoteResponse

open HttpProxyClientRequest (connectionName keepAliveName upgradeName transferEncodingName
  contentLengthName valuesOf finalTransferCoding valuesOf_eq_map_getAll)

variable {M : Type} {L : HttpLibs M}

/-! ## What every header keeps -/

/-- The framing facts the flags and the two header maps keep between headers. -/
structure FramingInv (L : HttpLibs M) (rsp : HttpForwardRemoteResponse M) : Prop where
  /-- `Transfer-Encoding` fields go only to the hop-by-hop map -/
  e2e_no_te : ∀ f ∈ L.fields rsp.endToEndHeaders, f.1 ≠ transferEncodingName
  /-- `Content-Length` fields go only to the end-to-end map -/
  hbh_no_cl : ∀ f ∈ L.fields rsp.hopByHopHeaders, f.1 ≠ contentLengthName
  te_field : rsp.hasTransferEncoding = true ↔
    ∃ f ∈ L.fields rsp.hopByHopHeaders, f.1 = transferEncodingName
  /-- some coding value, not necessarily the last, ends with `chunked` -/
  chunked_field : rsp.chunkedTransfer = true ↔
    ∃ f ∈ L.fields rsp.hopByHopHeaders, f.1 = transferEncodingName ∧
      "chunked".toList.isSuffixOf (toLowercase f.2.inner)
  te_no_length : rsp.hasTransferEncoding = true →
    rsp.contentLength = 0 ∧ ∀ f ∈ L.fields rsp.endToEndHeaders, f.1 ≠ contentLengthName
  no_cl_zero : rsp.hasContentLength = false → rsp.contentLength = 0
  cl_value : ∀ f ∈ L.fields rsp.endToEndHeaders, f.1 = contentLengthName →
    rsp.hasContentLength = true ∧ u64FromStr f.2.inner = some rsp.contentLength
  cl_field : rsp.hasContentLength = true → rsp.hasTransferEncoding = false →
    ∃ f ∈ L.fields rsp.endToEndHeaders, f.1 = contentLengthName
  /-- a coding after a length closes the connection (RFC 9112 §6.1) -/
  te_cl_close : rsp.hasTransferEncoding = true → rsp.hasContentLength = true →
    rsp.keepAlive = false

/-- `rsp'` agrees with `rsp` on everything the invariant reads, and keeps
    the connection alive only if `rsp` does. -/
structure SameFraming (rsp rsp' : HttpForwardRemoteResponse M) : Prop where
  e2e : rsp'.endToEndHeaders = rsp.endToEndHeaders
  hbh : rsp'.hopByHopHeaders = rsp.hopByHopHeaders
  te : rsp'.hasTransferEncoding = rsp.hasTransferEncoding
  chunked : rsp'.chunkedTransfer = rsp.chunkedTransfer
  length : rsp'.contentLength = rsp.contentLength
  hasLength : rsp'.hasContentLength = rsp.hasContentLength
  keepAlive : rsp'.keepAlive = true → rsp.keepAlive = true

theorem SameFraming.refl (rsp : HttpForwardRemoteResponse M) : SameFraming rsp rsp :=
  ⟨rfl, rfl, rfl, rfl, rfl, rfl, id⟩

theorem SameFraming.trans {r r' r'' : HttpForwardRemoteResponse M} (h : SameFraming r r')
    (h' : SameFraming r' r'') : SameFraming r r'' :=
  ⟨h'.1.trans h.1, h'.2.trans h.2, h'.3.trans h.3, h'.4.trans h.4, h'.5.trans h.5,
    h'.6.trans h.6, fun hk => h.7 (h'.7 hk)⟩

theorem framingInv_of_same {rsp rsp' : HttpForwardRemoteResponse M} (hi : FramingInv L rsp)
    (h : SameFraming rsp rsp') : FramingInv L rsp' := by
  obtain ⟨h1, h2, h3, h4, h5, h6, h7⟩ := h
  obtain ⟨i1, i2, i3, i4, i5, i6, i7, i8, i9⟩ := hi
  refine ⟨?_, ?_, ?_, ?_, ?_, ?_, ?_, ?_, ?_⟩ <;> simp only [h1, h2, h3, h4, h5, h6]
  all_goals try assumption
  -- keep-alive may only have been turned off
  intro hte hcl
  cases hk : rsp'.keepAlive
  · rfl
  · simp [i9 hte hcl] at h7
    exact absurd hk (by simp [h7])

theorem framingInv_new (hL : L.Spec) (v : Version) (code : Nat) (reason : List Char)
    (keepAlive : Bool) : FramingInv L { new L v code reason with keepAlive } := by
  constructor <;> simp [new, hL.fields_empty]

theorem headerValue_inner {header : HttpHeaderLine} {v : HttpHeaderValue}
    (h : headerValue header = .ok v) : v.inner = header.value := by
  unfold headerValue HttpHeaderValue.fromStr at h
  split at h
  · cases h
  · next v' hv =>
    split_ifs at hv
    cases hv; cases h; rfl

theorem appendHeader_ok {rsp rsp' : HttpForwardRemoteResponse M} {name : HeaderName}
    {header : HttpHeaderLine} (h : appendHeader L rsp name header = .ok rsp') :
    ∃ v : HttpHeaderValue, v.inner = header.value ∧
      rsp' = { rsp with endToEndHeaders := L.append rsp.endToEndHeaders name v } := by
  unfold appendHeader at h
  split at h
  · cases h
  · next v hv => cases h; exact ⟨v, headerValue_inner hv, rfl⟩

theorem insertHopByHopHeader_ok {rsp rsp' : HttpForwardRemoteResponse M} {name : HeaderName}
    {header : HttpHeaderLine} (h : insertHopByHopHeader L rsp name header = .ok rsp') :
    ∃ v : HttpHeaderValue, v.inner = header.value ∧
      rsp' = { rsp with hopByHopHeaders := L.append rsp.hopByHopHeaders name v } := by
  unfold insertHopByHopHeader at h
  split at h
  · cases h
  · next v hv => cases h; exact ⟨v, headerValue_inner hv, rfl⟩

theorem sameFraming_connectionToken (rsp : HttpForwardRemoteResponse M) (v : List Char) :
    SameFraming rsp (connectionToken L rsp v) := by
  unfold connectionToken
  split_ifs
  · exact .refl rsp
  · exact .refl rsp
  · -- `close`
    exact ⟨rfl, rfl, rfl, rfl, rfl, rfl, fun h => by cases h⟩
  · split
    · exact ⟨rfl, rfl, rfl, rfl, rfl, rfl, id⟩
    · exact .refl rsp

/-- `Connection` only turns keep-alive off and records extra connection headers. -/
theorem sameFraming_connection (rsp : HttpForwardRemoteResponse M) (header : HttpHeaderLine) :
    SameFraming rsp { (splitOn ',' (toLowercase header.value)).foldl (connectionToken L) rsp with
      originalConnectionName := Connection.fromOriginal header.name } := by
  -- the fold over the comma-separated tokens
  generalize splitOn ',' (toLowercase header.value) = vs
  induction vs generalizing rsp with
  | nil => exact ⟨rfl, rfl, rfl, rfl, rfl, rfl, id⟩
  | cons v vs ih => exact (sameFraming_connectionToken rsp v).trans (ih _)

/-- A header appended to the end-to-end map under another name keeps the invariant. -/
theorem framingInv_appendHeader {rsp rsp' : HttpForwardRemoteResponse M} {name : HeaderName}
    {header : HttpHeaderLine} (hL : L.Spec) (hi : FramingInv L rsp)
    (hte : name ≠ transferEncodingName)
    (hcl : name ≠ contentLengthName) (h : appendHeader L rsp name header = .ok rsp') :
    FramingInv L rsp' := by
  obtain ⟨v, -, rfl⟩ := appendHeader_ok h
  constructor <;> simp only [hL.mem_fields_append]
  · rintro f (hf | ⟨rfl, -⟩)
    · exact hi.e2e_no_te f hf
    · exact hte
  · exact hi.hbh_no_cl
  · exact hi.te_field
  · exact hi.chunked_field
  · intro ht
    refine ⟨(hi.te_no_length ht).1, ?_⟩
    rintro f (hf | ⟨rfl, -⟩)
    · exact (hi.te_no_length ht).2 f hf
    · exact hcl
  · exact hi.no_cl_zero
  · rintro f (hf | ⟨rfl, -⟩) hf'
    · exact hi.cl_value f hf hf'
    · exact absurd hf' hcl
  · intro hc ht
    obtain ⟨f, hf, hn⟩ := hi.cl_field hc ht
    exact ⟨f, .inl hf, hn⟩
  · exact hi.te_cl_close

/-- A header inserted into the hop-by-hop map under another name keeps the invariant. -/
theorem framingInv_insertHopByHopHeader {rsp rsp' : HttpForwardRemoteResponse M}
    {name : HeaderName} {header : HttpHeaderLine} (hL : L.Spec) (hi : FramingInv L rsp)
    (hte : name ≠ transferEncodingName) (hcl : name ≠ contentLengthName)
    (h : insertHopByHopHeader L rsp name header = .ok rsp') : FramingInv L rsp' := by
  obtain ⟨v, -, rfl⟩ := insertHopByHopHeader_ok h
  constructor <;> simp only [hL.mem_fields_append]
  · exact hi.e2e_no_te
  · rintro f (hf | ⟨rfl, -⟩)
    · exact hi.hbh_no_cl f hf
    · exact hcl
  · rw [hi.te_field]
    constructor
    · rintro ⟨f, hf, hn⟩; exact ⟨f, .inl hf, hn⟩
    · rintro ⟨f, hf | ⟨rfl, -⟩, hn⟩
      · exact ⟨f, hf, hn⟩
      · exact absurd hn hte
  · rw [hi.chunked_field]
    constructor
    · rintro ⟨f, hf, hn⟩; exact ⟨f, .inl hf, hn⟩
    · rintro ⟨f, hf | ⟨rfl, -⟩, hn⟩
      · exact ⟨f, hf, hn⟩
      · exact absurd hn.1 hte
  · exact hi.te_no_length
  · exact hi.no_cl_zero
  · exact hi.cl_value
  · exact hi.cl_field
  · exact hi.te_cl_close

@[simp] theorem transferEncodingSeen_hopByHopHeaders (rsp : HttpForwardRemoteResponse M) :
    (transferEncodingSeen L rsp).hopByHopHeaders = rsp.hopByHopHeaders := by
  unfold transferEncodingSeen; dsimp only; split_ifs <;> rfl

@[simp] theorem transferEncodingSeen_hasTransferEncoding (rsp : HttpForwardRemoteResponse M) :
    (transferEncodingSeen L rsp).hasTransferEncoding = true := by
  unfold transferEncodingSeen; dsimp only; split_ifs <;> rfl

@[simp] theorem transferEncodingSeen_chunkedTransfer (rsp : HttpForwardRemoteResponse M) :
    (transferEncodingSeen L rsp).chunkedTransfer = rsp.chunkedTransfer := by
  unfold transferEncodingSeen; dsimp only; split_ifs <;> rfl

@[simp] theorem transferEncodingSeen_hasContentLength (rsp : HttpForwardRemoteResponse M) :
    (transferEncodingSeen L rsp).hasContentLength = rsp.hasContentLength := by
  unfold transferEncodingSeen; dsimp only; split_ifs <;> rfl

/-- A coding only turns keep-alive off, and does so after a length. -/
theorem transferEncodingSeen_keepAlive (rsp : HttpForwardRemoteResponse M) :
    ((transferEncodingSeen L rsp).keepAlive = true → rsp.keepAlive = true) ∧
    (rsp.hasContentLength = true → (transferEncodingSeen L rsp).keepAlive = false) := by
  unfold transferEncodingSeen
  dsimp only
  split_ifs with hc
  · exact ⟨(fun h => by cases h), fun _ => rfl⟩
  · exact ⟨id, fun h => absurd h hc⟩

/-- After a coding is seen the end-to-end map holds no length and no coding,
    and the length is zero. -/
theorem transferEncodingSeen_no_length {rsp : HttpForwardRemoteResponse M} (hL : L.Spec)
    (hi : FramingInv L rsp) :
    (transferEncodingSeen L rsp).contentLength = 0 ∧
    ∀ f ∈ L.fields (transferEncodingSeen L rsp).endToEndHeaders,
      f.1 ≠ transferEncodingName ∧ f.1 ≠ contentLengthName := by
  unfold transferEncodingSeen
  dsimp only
  split_ifs with hc
  · -- an earlier length is removed
    refine ⟨rfl, fun f hf => ?_⟩
    dsimp only at hf
    rw [hL.mem_fields_remove] at hf
    exact ⟨hi.e2e_no_te f hf.1, hf.2⟩
  · -- no earlier length: none is in the map, by `cl_value`
    refine ⟨hi.no_cl_zero (by simpa using hc), fun f hf => ?_⟩
    exact ⟨hi.e2e_no_te f hf, fun hn => hc (hi.cl_value f hf hn).1⟩

/-- An accepted `Transfer-Encoding` header keeps the invariant: the length
    seen before is gone, and the response is chunked if it was or if this
    value ends with `chunked`. -/
theorem framingInv_transferEncoding {rsp rsp' : HttpForwardRemoteResponse M}
    {header : HttpHeaderLine} {c : Bool} (hL : L.Spec) (hi : FramingInv L rsp)
    (hc : c = (rsp.chunkedTransfer || "chunked".toList.isSuffixOf (toLowercase header.value)))
    (h : insertHopByHopHeader L { transferEncodingSeen L rsp with chunkedTransfer := c }
      transferEncodingName header = .ok rsp') : FramingInv L rsp' := by
  obtain ⟨v, hv, rfl⟩ := insertHopByHopHeader_ok h
  obtain ⟨hl, he⟩ := transferEncodingSeen_no_length hL hi
  constructor <;>
    simp only [hL.mem_fields_append, transferEncodingSeen_hopByHopHeaders,
      transferEncodingSeen_hasTransferEncoding, transferEncodingSeen_hasContentLength]
  · exact fun f hf => (he f hf).1
  · rintro f (hf | ⟨rfl, -⟩)
    · exact hi.hbh_no_cl f hf
    · exact (by decide : transferEncodingName ≠ contentLengthName)
  · simp
  · -- the recorded values, then this one
    rw [hc, Bool.or_eq_true, hi.chunked_field]
    constructor
    · rintro (⟨f, hf, hn⟩ | hs)
      · exact ⟨f, .inl hf, hn⟩
      · exact ⟨_, .inr rfl, rfl, by rw [hv]; exact hs⟩
    · rintro ⟨f, hf | rfl, hn⟩
      · exact .inl ⟨f, hf, hn⟩
      · exact .inr (by rw [← hv]; exact hn.2)
  · exact fun _ => ⟨hl, fun f hf => (he f hf).2⟩
  · intro; exact hl
  · exact fun f hf hn => absurd hn (he f hf).2
  · intro _ h; cases h
  · exact fun _ hcl => (transferEncodingSeen_keepAlive rsp).2 hcl

/-- An accepted `Content-Length` header before any coding keeps the
    invariant: its value reads as the length, as every earlier one does. -/
theorem framingInv_contentLength {rsp rsp' : HttpForwardRemoteResponse M}
    {header : HttpHeaderLine} {n : Nat} (hL : L.Spec) (hi : FramingInv L rsp)
    (hte : rsp.hasTransferEncoding = false) (hn : u64FromStr header.value = some n)
    (hsame : rsp.hasContentLength = true → rsp.contentLength = n)
    (h : appendHeader L { rsp with hasContentLength := true, contentLength := n }
      contentLengthName header = .ok rsp') : FramingInv L rsp' := by
  obtain ⟨v, hv, rfl⟩ := appendHeader_ok h
  constructor <;> simp only [hL.mem_fields_append]
  · rintro f (hf | ⟨rfl, -⟩)
    · exact hi.e2e_no_te f hf
    · exact (by decide : contentLengthName ≠ transferEncodingName)
  · exact hi.hbh_no_cl
  · exact hi.te_field
  · exact hi.chunked_field
  · simp [hte]
  · simp
  · rintro f (hf | ⟨rfl, rfl⟩) hf'
    · obtain ⟨hc, hval⟩ := hi.cl_value f hf hf'
      exact ⟨by simp, by rw [hval, hsame hc]⟩
    · exact ⟨by simp, by rw [hv, hn]⟩
  · exact fun _ _ => ⟨_, .inr rfl, rfl⟩
  · simp [hte]

/-! ## One header line -/

/-- What one header line can do to the response: leave the framing as it
    was (`Connection`, or a length after a coding), insert another
    hop-by-hop header, record a coding, record a length before any coding,
    or append any other header. -/
theorem handleHeader_cases {rsp rsp' : HttpForwardRemoteResponse M} {header : HttpHeaderLine}
    (h : handleHeader L rsp header = .ok rsp') :
    ∃ name, L.headerNameFromStr header.name = some name ∧
      (SameFraming rsp rsp' ∨
       (name ≠ transferEncodingName ∧ name ≠ contentLengthName ∧
          ∃ r, SameFraming rsp r ∧ insertHopByHopHeader L r name header = .ok rsp') ∨
       (name = transferEncodingName ∧ ∃ c,
          c = (rsp.chunkedTransfer || "chunked".toList.isSuffixOf (toLowercase header.value)) ∧
          insertHopByHopHeader L { transferEncodingSeen L rsp with chunkedTransfer := c } name header =
            .ok rsp') ∨
       (name = contentLengthName ∧ rsp.hasTransferEncoding = false ∧
          ∃ n, u64FromStr header.value = some n ∧ (rsp.hasContentLength = true → rsp.contentLength = n) ∧
            appendHeader L { rsp with hasContentLength := true, contentLength := n } name header =
              .ok rsp') ∨
       (name ≠ transferEncodingName ∧ name ≠ contentLengthName ∧
          appendHeader L rsp name header = .ok rsp')) := by
  unfold handleHeader at h
  rcases hn : L.headerNameFromStr header.name with _ | name
  · rw [hn] at h; cases h
  rw [hn] at h
  dsimp only at h
  refine ⟨name, rfl, ?_⟩
  by_cases h1 : name = connectionName ∨ name = proxyConnectionName
  · rw [if_pos h1] at h
    cases h
    exact .inl (sameFraming_connection rsp header)
  rw [if_neg h1] at h
  by_cases h2 : name = upgradeName
  · rw [if_pos h2] at h
    subst h2
    exact .inr (.inl ⟨by decide, by decide, rsp, .refl rsp, h⟩)
  rw [if_neg h2] at h
  by_cases h3 : name = keepAliveName
  · rw [if_pos h3] at h
    subst h3
    exact .inr (.inl ⟨by decide, by decide, { rsp with hasKeepAlive := true },
      ⟨rfl, rfl, rfl, rfl, rfl, rfl, id⟩, h⟩)
  rw [if_neg h3] at h
  by_cases h4 : name = transferEncodingName
  · rw [if_pos h4] at h
    refine .inr (.inr (.inl ⟨h4, ?_⟩))
    -- the value ends with `chunked`, or does not hold it at all
    split_ifs at h with hs
    · exact ⟨true, by rw [hs, Bool.or_true], h⟩
    · refine ⟨(transferEncodingSeen L rsp).chunkedTransfer, ?_, h⟩
      rw [transferEncodingSeen_chunkedTransfer, Bool.eq_false_iff.2 hs, Bool.or_false]
  rw [if_neg h4] at h
  by_cases h5 : name = contentLengthName
  · rw [if_pos h5] at h
    -- a length after a coding is ignored; otherwise it must agree with earlier ones
    by_cases hte : rsp.hasTransferEncoding = true
    · rw [if_pos hte] at h
      cases h
      exact .inl ⟨rfl, rfl, rfl, rfl, rfl, rfl, fun h => by cases h⟩
    rw [if_neg hte] at h
    split at h
    · cases h
    · next n hv =>
      split_ifs at h with hd
      refine .inr (.inr (.inr (.inl ⟨h5, by simpa using hte, n, hv, fun hc => ?_, h⟩)))
      by_contra hne
      exact hd ⟨hc, hne⟩
  rw [if_neg h5] at h
  exact .inr (.inr (.inr (.inr ⟨h4, h5, h⟩)))

/-- Every accepted header line keeps the framing invariant, and never turns
    keep-alive on. -/
theorem handleHeader_inv {rsp rsp' : HttpForwardRemoteResponse M} {header : HttpHeaderLine}
    (hL : L.Spec) (hi : FramingInv L rsp) (h : handleHeader L rsp header = .ok rsp') :
    FramingInv L rsp' ∧ (rsp'.keepAlive = true → rsp.keepAlive = true) := by
  obtain ⟨name, -, hcase⟩ := handleHeader_cases h
  rcases hcase with hs | ⟨hte, hcl, r, hs, h⟩ | ⟨rfl, c, hc, h⟩ | ⟨rfl, hte, n, hn, hsame, h⟩ |
      ⟨hte, hcl, h⟩
  · exact ⟨framingInv_of_same hi hs, hs.keepAlive⟩
  · obtain ⟨v, -, rfl⟩ := insertHopByHopHeader_ok h
    exact ⟨framingInv_insertHopByHopHeader hL (framingInv_of_same hi hs) hte hcl h, hs.keepAlive⟩
  · obtain ⟨v, -, rfl⟩ := insertHopByHopHeader_ok h
    exact ⟨framingInv_transferEncoding hL hi hc h, (transferEncodingSeen_keepAlive rsp).1⟩
  · obtain ⟨v, -, rfl⟩ := appendHeader_ok h
    exact ⟨framingInv_contentLength hL hi hte hn hsame h, id⟩
  · obtain ⟨v, -, rfl⟩ := appendHeader_ok h
    exact ⟨framingInv_appendHeader hL hi hte hcl h, id⟩

theorem parseHeaderLine_inv {rsp rsp' : HttpForwardRemoteResponse M} {line : List Char}
    (hL : L.Spec) (hi : FramingInv L rsp) (h : parseHeaderLine L rsp line = .ok rsp') :
    FramingInv L rsp' ∧ (rsp'.keepAlive = true → rsp.keepAlive = true) := by
  unfold parseHeaderLine at h
  split at h
  · cases h
  · exact handleHeader_inv hL hi h

/-! ## The header loop -/

/-- What one round of the header loop can do on the way to a result: end the
    head at the empty line, only recording its size, or handle one header
    line and go on. -/
theorem parseHeaders_succ_ok {maxHeaderSize fuel headerSize : Nat}
    {rsp rsp' : HttpForwardRemoteResponse M} {input rest : List Char}
    (h : parseHeaders L maxHeaderSize (fuel + 1) rsp headerSize input = .ok (rsp', rest)) :
    (∃ n, rsp' = { rsp with originHeaderSize := n }) ∨
    ∃ line rsp₁ nr input', parseHeaderLine L rsp line = .ok rsp₁ ∧
      parseHeaders L maxHeaderSize fuel rsp₁ (headerSize + nr) input' = .ok (rsp', rest) := by
  unfold parseHeaders at h
  rcases hl : limitedReadUntil input (maxHeaderSize - headerSize) with ⟨⟨found, nr⟩, line, input'⟩
  simp only [hl] at h
  split_ifs at h
  · -- the empty line
    cases h
    exact .inl ⟨_, rfl⟩
  · split at h
    · cases h
    · next rsp₁ h₁ => exact .inr ⟨line, rsp₁, nr, input', h₁, h⟩

/-- The loop reaches a result only by handling lines, so an invariant of
    every handled line and of the size update holds of its result. -/
theorem parseHeaders_induction (P : HttpForwardRemoteResponse M → Prop)
    (hsize : ∀ r n, P r → P { r with originHeaderSize := n })
    (hline : ∀ r r₁ line, P r → parseHeaderLine L r line = .ok r₁ → P r₁)
    {maxHeaderSize fuel headerSize : Nat} {rsp rsp' : HttpForwardRemoteResponse M}
    {input rest : List Char} (hi : P rsp)
    (h : parseHeaders L maxHeaderSize fuel rsp headerSize input = .ok (rsp', rest)) : P rsp' := by
  induction fuel generalizing rsp headerSize input with
  | zero => cases h
  | succ fuel ih =>
    rcases parseHeaders_succ_ok h with ⟨n, rfl⟩ | ⟨line, rsp₁, nr, input', h₁, h⟩
    · exact hsize rsp n hi
    · exact ih (hline rsp rsp₁ line hi h₁) h

/-! ## The parsed response -/

/-- An accepted status line yields a fresh response. -/
theorem buildFromStatusLine_ok {line : List Char} {rsp : HttpForwardRemoteResponse M}
    (h : buildFromStatusLine L line = .ok rsp) : ∃ v code reason, rsp = new L v code reason := by
  unfold buildFromStatusLine at h
  split at h
  · cases h
  · split_ifs at h
    · cases h; exact ⟨_, _, _, rfl⟩
    · cases h; exact ⟨_, _, _, rfl⟩

/-- `post_check_and_fix` changes keep-alive only, and only to off. -/
theorem sameFraming_postCheckAndFix (rsp : HttpForwardRemoteResponse M) (method : List Char) :
    SameFraming rsp (rsp.postCheckAndFix method) := by
  unfold postCheckAndFix
  split_ifs
  · exact .refl rsp
  · exact ⟨rfl, rfl, rfl, rfl, rfl, rfl, fun h => by cases h⟩
  · exact .refl rsp
  · exact .refl rsp

@[simp] theorem postCheckAndFix_hopByHopHeaders (rsp : HttpForwardRemoteResponse M)
    (method : List Char) : (rsp.postCheckAndFix method).hopByHopHeaders = rsp.hopByHopHeaders :=
  (sameFraming_postCheckAndFix rsp method).hbh

/-- What `parse` returns: a response the header loop left satisfying the
    invariant and kept alive only as the caller allowed, after
    `post_check_and_fix`. -/
theorem parse_ok (hL : L.Spec) {method input rest : List Char} {keepAlive : Bool}
    {maxHeaderSize : Nat} {rsp : HttpForwardRemoteResponse M}
    (h : parse L method keepAlive maxHeaderSize input = .ok (rsp, rest)) :
    ∃ rsp₀, FramingInv L rsp₀ ∧ (rsp₀.keepAlive = true → keepAlive = true) ∧
      rsp = rsp₀.postCheckAndFix method := by
  unfold parse at h
  rcases hl : limitedReadUntil input maxHeaderSize with ⟨⟨found, nr⟩, line, input'⟩
  simp only [hl] at h
  split_ifs at h
  split at h
  · cases h
  · next rsp₁ h₁ =>
    obtain ⟨v, code, reason, rfl⟩ := buildFromStatusLine_ok h₁
    split at h
    · cases h
    · next rsp₀ rest₀ h₀ =>
      cases h
      -- the loop keeps the invariant and never turns keep-alive on
      refine (parseHeaders_induction (fun r => FramingInv L r ∧ (r.keepAlive = true → keepAlive = true))
        (fun r n hr => ⟨framingInv_of_same hr.1 ⟨rfl, rfl, rfl, rfl, rfl, rfl, id⟩, hr.2⟩)
        (fun r r₁ line hr h₁ => ?_) ⟨framingInv_new hL v code reason keepAlive, id⟩ h₀).elim
        fun hi hk => ⟨rsp₀, hi, hk, rfl⟩
      obtain ⟨hi₁, hk₁⟩ := parseHeaderLine_inv hL hr.1 h₁
      exact ⟨hi₁, fun hk => hr.2 (hk₁ hk)⟩

/-- Every response `parse` accepts satisfies the framing invariant. -/
theorem parse_framingInv (hL : L.Spec) {method input rest : List Char} {keepAlive : Bool}
    {maxHeaderSize : Nat} {rsp : HttpForwardRemoteResponse M}
    (h : parse L method keepAlive maxHeaderSize input = .ok (rsp, rest)) :
    FramingInv L rsp := by
  obtain ⟨rsp₀, hi, -, rfl⟩ := parse_ok hL h
  exact framingInv_of_same hi (sameFraming_postCheckAndFix rsp₀ method)

/-- A response with a length. -/
theorem parse_framingInv_length :
    ∃ rsp, parse HttpLibs.ofLists "GET".toList true 4096
        "HTTP/1.1 200 OK\r\nContent-Length: 5\r\n\r\n".toList = .ok (rsp, []) ∧
      FramingInv HttpLibs.ofLists rsp :=
  ⟨_, rfl, @parse_framingInv _ _ HttpLibs.ofLists_spec "GET".toList
    "HTTP/1.1 200 OK\r\nContent-Length: 5\r\n\r\n".toList [] true 4096 _ rfl⟩

/-! ## The body type of a response satisfying the invariant -/

section BodyType

variable {rsp : HttpForwardRemoteResponse M} (hi : FramingInv L rsp) (method : List Char)
include hi

/-- The body is chunked exactly when one is expected and some coding value,
    not necessarily the last, ends with `chunked`. -/
theorem FramingInv.bodyType_chunked_iff :
    rsp.bodyType method = some .chunked ↔ rsp.expectNoBody method = false ∧
      ∃ f ∈ L.fields rsp.hopByHopHeaders, f.1 = transferEncodingName ∧
        "chunked".toList.isSuffixOf (toLowercase f.2.inner) := by
  rw [← hi.chunked_field]
  unfold bodyType
  split_ifs with hn hc hl hp <;> simp_all

/-- With no coding and some length, every length field reads as one value
    `n`, and the body is `n` bytes long, or absent when `n` is 0. -/
theorem FramingInv.bodyType_contentLength
    (hte : ∀ f ∈ L.fields rsp.hopByHopHeaders, f.1 ≠ transferEncodingName)
    {f : HeaderName × HttpHeaderValue} (hf : f ∈ L.fields rsp.endToEndHeaders)
    (hcl : f.1 = contentLengthName) (hn : rsp.expectNoBody method = false) :
    ∃ n, (∀ f ∈ L.fields rsp.endToEndHeaders, f.1 = contentLengthName → u64FromStr f.2.inner = some n) ∧
      rsp.bodyType method = if 0 < n then some (.contentLength n) else none := by
  have hnc : rsp.chunkedTransfer = false := by
    by_contra hc
    obtain ⟨g, hg, hgn, -⟩ := hi.chunked_field.1 (by simpa using hc)
    exact hte g hg hgn
  refine ⟨rsp.contentLength, fun g hg hgn => (hi.cl_value g hg hgn).2, ?_⟩
  simp [bodyType, hn, hnc, (hi.cl_value f hf hcl).1]

/-- With neither header the body runs to the end of the connection. -/
theorem FramingInv.bodyType_unframed
    (hte : ∀ f ∈ L.fields rsp.hopByHopHeaders, f.1 ≠ transferEncodingName)
    (hcl : ∀ f ∈ L.fields rsp.endToEndHeaders, f.1 ≠ contentLengthName)
    (hn : rsp.expectNoBody method = false) :
    rsp.bodyType method = some .readUntilEnd := by
  have hnte : rsp.hasTransferEncoding = false := by
    by_contra ht
    obtain ⟨g, hg, hgn⟩ := hi.te_field.1 (by simpa using ht)
    exact hte g hg hgn
  have hnc : rsp.chunkedTransfer = false := by
    by_contra hc
    obtain ⟨g, hg, hgn, -⟩ := hi.chunked_field.1 (by simpa using hc)
    exact hte g hg hgn
  have hnl : rsp.hasContentLength = false := by
    by_contra hl
    obtain ⟨g, hg, hgn⟩ := hi.cl_field (by simpa using hl) hnte
    exact hcl g hg hgn
  simp [bodyType, hn, hnc, hnl]

/-- With codings none of which ends with `chunked`, the body runs to the
    end, unless a length came before the first coding: then it counts as
    empty. -/
theorem FramingInv.bodyType_te_not_chunked
    (hte : ∃ f ∈ L.fields rsp.hopByHopHeaders, f.1 = transferEncodingName)
    (hnc : ∀ f ∈ L.fields rsp.hopByHopHeaders, f.1 = transferEncodingName →
      "chunked".toList.isSuffixOf (toLowercase f.2.inner) = false)
    (hn : rsp.expectNoBody method = false) :
    rsp.bodyType method = if rsp.hasContentLength then none else some .readUntilEnd := by
  have hc : rsp.chunkedTransfer = false := by
    by_contra hc
    obtain ⟨g, hg, hgn, hs⟩ := hi.chunked_field.1 (by simpa using hc)
    rw [hnc g hg hgn] at hs
    cases hs
  have hl : rsp.contentLength = 0 := (hi.te_no_length (hi.te_field.2 hte)).1
  simp [bodyType, hn, hc, hl]

end BodyType

/-! ## Running a head line by line

Each lemma takes one step of `parse` on what the step reads, so that a given
head can be run under any realisation of the crates' laws. -/

section Run

/-- An `HTTP/1.1` status line: a code of at least three digits that fits a
    `u16`, one character that is not a digit, then the reason. -/
theorem statusLine_http11 (hL : L.Spec) {ds reason : List Char} {c : Char} {n : Nat}
    (hd : decimalValue ds = some n) (hn : n < 2 ^ 16) (h3 : 3 ≤ ds.length)
    (hc : c.isDigit = false) :
    HttpStatusLine.parse L ("HTTP/1.1 ".toList ++ (ds ++ c :: reason)) =
      .ok ⟨1, n, trim reason⟩ := by
  have hlen : ¬byteLen ("HTTP/1.1 ".toList ++ (ds ++ c :: reason)) < 13 := by
    have h9 : byteLen "HTTP/1.1 ".toList = 9 := rfl
    have := length_le_byteLen (ds ++ c :: reason)
    rw [byteLen_append, h9]
    simp only [List.length_append, List.length_cons] at this
    omega
  have hr : L.u16FromRadix10 (ds ++ c :: reason) = (n, ds.length) :=
    hL.u16FromRadix10_digits ds (c :: reason) n hd hn (by simp [hc])
  rw [HttpStatusLine.parse, if_neg hlen]
  simp [List.idxOf?, List.findIdx?_cons, hr, Nat.not_lt.2 h3]

theorem buildFromStatusLine_http11 {line reason : List Char} {code : Nat}
    (h : HttpStatusLine.parse L line = .ok ⟨1, code, reason⟩) :
    buildFromStatusLine L line = .ok (new L .http11 code reason) := by
  simp [buildFromStatusLine, h]

/-- A status line read whole and accepted, then a header loop that ends. -/
theorem parse_of_statusLine {method input line rest rest' : List Char} {keepAlive : Bool}
    {maxHeaderSize nr : Nat} {rsp rsp' : HttpForwardRemoteResponse M}
    (hl : limitedReadUntil input maxHeaderSize = ((true, nr), line, rest)) (hnr : nr ≠ 0)
    (hb : buildFromStatusLine L line = .ok rsp)
    (hh : parseHeaders L maxHeaderSize (rest.length + 1) { rsp with keepAlive } nr rest =
      .ok (rsp', rest')) :
    parse L method keepAlive maxHeaderSize input = .ok (rsp'.postCheckAndFix method, rest') := by
  simp [parse, hl, hnr, hb, hh]

/-- A header line read whole within the limit is handled, and the loop goes on. -/
theorem parseHeaders_of_headerLine {maxHeaderSize fuel headerSize nr : Nat}
    {rsp rsp₁ : HttpForwardRemoteResponse M} {input line rest : List Char}
    {header : HttpHeaderLine} (hsize : headerSize < maxHeaderSize)
    (hl : limitedReadUntil input (maxHeaderSize - headerSize) = ((true, nr), line, rest))
    (hnr : nr ≠ 0) (hline : line ≠ "\n".toList ∧ line ≠ "\r\n".toList)
    (hp : HttpHeaderLine.parse line = .ok header) (hh : handleHeader L rsp header = .ok rsp₁) :
    parseHeaders L maxHeaderSize (fuel + 1) rsp headerSize input =
      parseHeaders L maxHeaderSize fuel rsp₁ (headerSize + nr) rest := by
  have hline' : ¬(line = "\n".toList ∨ line = "\r\n".toList) := not_or.2 hline
  simp only [parseHeaders, hl, if_neg (Nat.not_le.2 hsize), if_neg hnr, Bool.not_true,
    Bool.false_eq_true, if_false, if_neg hline', parseHeaderLine, hp, hh]

/-- The empty line ends the head. -/
theorem parseHeaders_of_emptyLine {maxHeaderSize fuel headerSize nr : Nat}
    {rsp : HttpForwardRemoteResponse M} {input rest : List Char}
    (hsize : headerSize < maxHeaderSize)
    (hl : limitedReadUntil input (maxHeaderSize - headerSize) =
      ((true, nr), "\r\n".toList, rest)) (hnr : nr ≠ 0) :
    parseHeaders L maxHeaderSize (fuel + 1) rsp headerSize input =
      .ok ({ rsp with originHeaderSize := headerSize + nr }, rest) := by
  simp [parseHeaders, hl, hnr, Nat.not_le.2 hsize]

theorem appendHeader_of_valid {rsp : HttpForwardRemoteResponse M} {name : HeaderName}
    {header : HttpHeaderLine} (hv : header.value.all HttpHeaderValue.isValid = true) :
    appendHeader L rsp name header = .ok { rsp with
      endToEndHeaders := L.append rsp.endToEndHeaders name ⟨header.value, some header.name⟩ } := by
  simp [appendHeader, headerValue, HttpHeaderValue.fromStr, HttpHeaderValue.setOriginalName, hv]

theorem insertHopByHopHeader_of_valid {rsp : HttpForwardRemoteResponse M} {name : HeaderName}
    {header : HttpHeaderLine} (hv : header.value.all HttpHeaderValue.isValid = true) :
    insertHopByHopHeader L rsp name header = .ok { rsp with
      hopByHopHeaders := L.append rsp.hopByHopHeaders name ⟨header.value, some header.name⟩ } := by
  simp [insertHopByHopHeader, headerValue, HttpHeaderValue.fromStr,
    HttpHeaderValue.setOriginalName, hv]

/-- The `Transfer-Encoding` branch of `handle_header`, whatever the value. -/
theorem handleHeader_transferEncoding {rsp : HttpForwardRemoteResponse M}
    {header : HttpHeaderLine} (hn : L.headerNameFromStr header.name = some transferEncodingName) :
    handleHeader L rsp header =
      if "chunked".toList.isSuffixOf (toLowercase header.value) then
        insertHopByHopHeader L { transferEncodingSeen L rsp with chunkedTransfer := true }
          transferEncodingName header
      else if "chunked".toList <:+: toLowercase header.value then
        .error .invalidChunkedTransferEncoding
      else insertHopByHopHeader L (transferEncodingSeen L rsp) transferEncodingName header := by
  simp only [handleHeader, hn]
  rw [if_neg (by decide), if_neg (by decide), if_neg (by decide), if_pos trivial]

/-- A valid coding ending with `chunked` sets the flag. -/
theorem handleHeader_transferEncoding_chunked {rsp : HttpForwardRemoteResponse M}
    {header : HttpHeaderLine} (hn : L.headerNameFromStr header.name = some transferEncodingName)
    (hs : "chunked".toList.isSuffixOf (toLowercase header.value) = true)
    (hv : header.value.all HttpHeaderValue.isValid = true) :
    handleHeader L rsp header = .ok { { transferEncodingSeen L rsp with chunkedTransfer := true } with
      hopByHopHeaders := L.append (transferEncodingSeen L rsp).hopByHopHeaders transferEncodingName
        ⟨header.value, some header.name⟩ } := by
  rw [handleHeader_transferEncoding hn, if_pos hs, insertHopByHopHeader_of_valid hv]

/-- A valid coding that does not hold `chunked` leaves the flag as it was. -/
theorem handleHeader_transferEncoding_other {rsp : HttpForwardRemoteResponse M}
    {header : HttpHeaderLine} (hn : L.headerNameFromStr header.name = some transferEncodingName)
    (hs : ¬"chunked".toList <:+: toLowercase header.value)
    (hv : header.value.all HttpHeaderValue.isValid = true) :
    handleHeader L rsp header = .ok { transferEncodingSeen L rsp with
      hopByHopHeaders := L.append (transferEncodingSeen L rsp).hopByHopHeaders transferEncodingName
        ⟨header.value, some header.name⟩ } := by
  have hs' : ¬"chunked".toList.isSuffixOf (toLowercase header.value) = true :=
    fun h => hs (List.isSuffixOf_iff_suffix.1 h).isInfix
  rw [handleHeader_transferEncoding hn, if_neg hs', if_neg hs, insertHopByHopHeader_of_valid hv]

/-- A `Content-Length` line before any coding, read by `u64::from_str` as the
    length seen so far, records the length and goes to the end-to-end map. -/
theorem handleHeader_contentLength {rsp : HttpForwardRemoteResponse M}
    {header : HttpHeaderLine} {n : Nat}
    (hn : L.headerNameFromStr header.name = some contentLengthName)
    (hte : rsp.hasTransferEncoding = false) (hv : u64FromStr header.value = some n)
    (hsame : rsp.hasContentLength = true → rsp.contentLength = n) :
    handleHeader L rsp header =
      appendHeader L { rsp with hasContentLength := true, contentLength := n }
        contentLengthName header := by
  have hd : ¬(rsp.hasContentLength = true ∧ rsp.contentLength ≠ n) :=
    fun ⟨hc, hne⟩ => hne (hsame hc)
  simp only [handleHeader, hn]
  rw [if_neg (by decide), if_neg (by decide), if_neg (by decide), if_neg (by decide), if_pos trivial]
  simp only [hte, Bool.false_eq_true, if_false, hv, if_neg hd]

/-- The first `Content-Length` line, before any coding. -/
theorem handleHeader_contentLength_first {rsp : HttpForwardRemoteResponse M}
    {header : HttpHeaderLine} {n : Nat}
    (hn : L.headerNameFromStr header.name = some contentLengthName)
    (hte : rsp.hasTransferEncoding = false) (hcl : rsp.hasContentLength = false)
    (hv : u64FromStr header.value = some n)
    (hval : header.value.all HttpHeaderValue.isValid = true) :
    handleHeader L rsp header = .ok { { rsp with hasContentLength := true, contentLength := n } with
      endToEndHeaders := L.append rsp.endToEndHeaders contentLengthName
        ⟨header.value, some header.name⟩ } := by
  rw [handleHeader_contentLength hn hte hv (fun h => absurd (hcl ▸ h) Bool.false_ne_true),
    appendHeader_of_valid hval]

end Run

/-! ## Two heads whose final coding is not `chunked` -/

/-- A head with the codings `chunked` then `gzip`. -/
def chunkedThenGzipHead : List Char :=
  "HTTP/1.1 200 OK\r\nTransfer-Encoding: chunked\r\nTransfer-Encoding: gzip\r\n\r\n".toList

/-- A head with a length, then the coding `gzip`. -/
def lengthThenGzipHead : List Char :=
  "HTTP/1.1 200 OK\r\nContent-Length: 5\r\nTransfer-Encoding: gzip\r\n\r\n".toList

/-- The status line both heads start with. -/
theorem statusLine_200_ok (hL : L.Spec) :
    HttpStatusLine.parse L "HTTP/1.1 200 OK\r\n".toList = .ok ⟨1, 200, "OK".toList⟩ :=
  @statusLine_http11 _ _ hL "200".toList "OK\r\n".toList ' ' 200 (by decide) (by decide)
    (by decide) (by decide)

/-- The parser reads `chunkedThenGzipHead` as chunked: the second coding
    leaves the flag the first one set. -/
theorem parse_chunkedThenGzipHead (hL : L.Spec) :
    ∃ rsp, parse L "GET".toList true 4096 chunkedThenGzipHead = .ok (rsp, []) ∧
      finalTransferCoding (valuesOf transferEncodingName (L.fields rsp.hopByHopHeaders)) =
        some "gzip".toList ∧
      rsp.bodyType "GET".toList = some .chunked := by
  have hn : L.headerNameFromStr "Transfer-Encoding".toList = some transferEncodingName :=
    hL.headerNameFromStr_token _ (by decide) (by decide) (by decide)
  -- the status line, the two coding lines and the empty line
  have hl₁ : limitedReadUntil chunkedThenGzipHead 4096 = ((true, 17),
      "HTTP/1.1 200 OK\r\n".toList,
      "Transfer-Encoding: chunked\r\nTransfer-Encoding: gzip\r\n\r\n".toList) := rfl
  have hl₂ : limitedReadUntil "Transfer-Encoding: chunked\r\nTransfer-Encoding: gzip\r\n\r\n".toList
      (4096 - 17) = ((true, 28), "Transfer-Encoding: chunked\r\n".toList,
        "Transfer-Encoding: gzip\r\n\r\n".toList) := rfl
  have hl₃ : limitedReadUntil "Transfer-Encoding: gzip\r\n\r\n".toList (4096 - (17 + 28)) =
      ((true, 25), "Transfer-Encoding: gzip\r\n".toList, "\r\n".toList) := rfl
  have hl₄ : limitedReadUntil "\r\n".toList (4096 - (17 + 28 + 25)) =
      ((true, 2), "\r\n".toList, []) := rfl
  -- `chunked` sets the flag, `gzip` leaves it
  refine ⟨_, parse_of_statusLine hl₁ (by decide) (buildFromStatusLine_http11 (statusLine_200_ok hL))
    ((parseHeaders_of_headerLine (by decide) hl₂ (by decide) (by decide) rfl
      (handleHeader_transferEncoding_chunked hn (by decide) (by decide))).trans
    ((parseHeaders_of_headerLine (by decide) hl₃ (by decide) (by decide) rfl
      (handleHeader_transferEncoding_other hn (by decide) (by decide))).trans
    (parseHeaders_of_emptyLine (by decide) hl₄ (by decide)))), ?_, rfl⟩
  simp only [postCheckAndFix_hopByHopHeaders, valuesOf_eq_map_getAll, hL.getAll_append,
    hL.fields_empty, getAll_nil, transferEncodingSeen, new, Bool.false_eq_true, if_false]
  decide

/-- The parser reads `lengthThenGzipHead` as having no body: the coding
    zeroes the length and leaves `has_content_length` set. -/
theorem parse_lengthThenGzipHead (hL : L.Spec) :
    ∃ rsp, parse L "GET".toList true 4096 lengthThenGzipHead = .ok (rsp, []) ∧
      finalTransferCoding (valuesOf transferEncodingName (L.fields rsp.hopByHopHeaders)) =
        some "gzip".toList ∧
      rsp.bodyType "GET".toList = none := by
  have hte : L.headerNameFromStr "Transfer-Encoding".toList = some transferEncodingName :=
    hL.headerNameFromStr_token _ (by decide) (by decide) (by decide)
  have hcl : L.headerNameFromStr "Content-Length".toList = some contentLengthName :=
    hL.headerNameFromStr_token _ (by decide) (by decide) (by decide)
  -- the status line, the length line, the coding line and the empty line
  have hl₁ : limitedReadUntil lengthThenGzipHead 4096 = ((true, 17),
      "HTTP/1.1 200 OK\r\n".toList,
      "Content-Length: 5\r\nTransfer-Encoding: gzip\r\n\r\n".toList) := rfl
  have hl₂ : limitedReadUntil "Content-Length: 5\r\nTransfer-Encoding: gzip\r\n\r\n".toList
      (4096 - 17) = ((true, 19), "Content-Length: 5\r\n".toList,
        "Transfer-Encoding: gzip\r\n\r\n".toList) := rfl
  have hl₃ : limitedReadUntil "Transfer-Encoding: gzip\r\n\r\n".toList (4096 - (17 + 19)) =
      ((true, 25), "Transfer-Encoding: gzip\r\n".toList, "\r\n".toList) := rfl
  have hl₄ : limitedReadUntil "\r\n".toList (4096 - (17 + 19 + 25)) =
      ((true, 2), "\r\n".toList, []) := rfl
  -- the length is recorded, then zeroed by the coding
  refine ⟨_, parse_of_statusLine hl₁ (by decide) (buildFromStatusLine_http11 (statusLine_200_ok hL))
    ((parseHeaders_of_headerLine (by decide) hl₂ (by decide) (by decide) rfl
      (handleHeader_contentLength_first (n := 5) hcl (by rfl) (by rfl) (by decide) (by decide))).trans
    ((parseHeaders_of_headerLine (by decide) hl₃ (by decide) (by decide) rfl
      (handleHeader_transferEncoding_other hte (by decide) (by decide))).trans
    (parseHeaders_of_emptyLine (by decide) hl₄ (by decide)))), ?_, rfl⟩
  simp only [postCheckAndFix_hopByHopHeaders, valuesOf_eq_map_getAll, hL.getAll_append,
    hL.fields_empty, getAll_nil, transferEncodingSeen, new, if_true]
  decide

/-- Both heads end their codings with `gzip`, so RFC 9112 reads either body
    to the end of the connection; under any realisation of the crates' laws,
    the parser reads the first as chunked and the second as having no body. -/
theorem parse_final_coding_gzip_misframed (hL : L.Spec) :
    (∃ rsp, parse L "GET".toList true 4096 chunkedThenGzipHead = .ok (rsp, []) ∧
      finalTransferCoding (valuesOf transferEncodingName (L.fields rsp.hopByHopHeaders)) =
        some "gzip".toList ∧
      rsp.bodyType "GET".toList = some .chunked) ∧
    (∃ rsp, parse L "GET".toList true 4096 lengthThenGzipHead = .ok (rsp, []) ∧
      finalTransferCoding (valuesOf transferEncodingName (L.fields rsp.hopByHopHeaders)) =
        some "gzip".toList ∧
      rsp.bodyType "GET".toList = none) :=
  ⟨parse_chunkedThenGzipHead hL, parse_lengthThenGzipHead hL⟩

/-- The two heads over the list realisation of the header maps. -/
theorem parse_final_coding_gzip_misframed_lists :
    (∃ rsp, parse HttpLibs.ofLists "GET".toList true 4096 chunkedThenGzipHead = .ok (rsp, []) ∧
      finalTransferCoding (valuesOf transferEncodingName rsp.hopByHopHeaders) =
        some "gzip".toList ∧
      rsp.bodyType "GET".toList = some .chunked) ∧
    (∃ rsp, parse HttpLibs.ofLists "GET".toList true 4096 lengthThenGzipHead = .ok (rsp, []) ∧
      finalTransferCoding (valuesOf transferEncodingName rsp.hopByHopHeaders) =
        some "gzip".toList ∧
      rsp.bodyType "GET".toList = none) :=
  parse_final_coding_gzip_misframed HttpLibs.ofLists_spec

end HttpForwardRemoteResponse

end G3Proxy
