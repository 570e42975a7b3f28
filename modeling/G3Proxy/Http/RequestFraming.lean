/-
  Framing of the forwarded request head.

  RFC 9112 §6.3 frames a request by its `Transfer-Encoding` fields (the final
  coding of their combined list must be `chunked`) or else by its
  `Content-Length` fields (`1*DIGIT`).  `framedAs fields bt` is that framing
  for the body type `bt` the proxy reads the body with.

  The proxy keeps the forwarded fields in step with `body_type` only up to
  its own tests: `handle_header` takes any `Transfer-Encoding` value that
  ends with `chunked` for the chunked coding, and any value `u64::from_str`
  reads for a length, a leading `+` included.  `parseBasic_forwarded_framing`
  proves exactly that much for every accepted head, through the invariant
  `FramingInv` that every header keeps (`handleHeader_inv`, `parseHeaders_inv`);
  `parseBasic_xchunked_unframed` and `parseBasic_plus_length_unframed` are
  heads on which the forwarded fields are not framed as the body is read.
-/
import G3Proxy.Http.Request

namespace G3Proxy

namespace HttpProxyClientRequest

variable {U A M : Type} {L : HttpLibs M}

/-! ## The framing RFC 9112 asks for -/

/-- The values of the fields with name `n`. -/
def valuesOf (n : HeaderName) (fields : List (HeaderName × HttpHeaderValue)) :
    List (List Char) :=
  fields.filterMap fun f => if f.1 = n then some f.2.inner else none

/-- The final transfer coding of a list of `Transfer-Encoding` values: the
    coding (parameters dropped, lowercase) of the last element of their
    combined comma-separated list. -/
def finalTransferCoding (values : List (List Char)) : Option (List Char) :=
  let elems := ((values.flatMap (splitOn ',')).map trim).filter (· ≠ [])
  elems.getLast?.map fun e => toLowercase (trim (e.takeWhile (· ≠ ';')))

/-- The forwarded fields are framed as the body type says: chunked fields end
    in the `chunked` coding and carry no length; a length is carried only by
    `Content-Length` fields spelling it in decimal digits. -/
def framedAs (fields : List (HeaderName × HttpHeaderValue)) : Option HttpBodyType → Bool
  | some .chunked =>
    valuesOf transferEncodingName fields ≠ [] &&
      finalTransferCoding (valuesOf transferEncodingName fields) = some "chunked".toList &&
      valuesOf contentLengthName fields = []
  | some (.contentLength n) =>
    valuesOf transferEncodingName fields = [] &&
      (valuesOf contentLengthName fields).all (decimalValue · = some n)
  | some .readUntilEnd => false
  | none =>
    valuesOf transferEncodingName fields = [] &&
      (valuesOf contentLengthName fields).all (decimalValue · = some 0)

/-- The framing `handle_header` itself checks: the coding values end with
    `chunked` once lowercased, and a length is what `u64::from_str` reads. -/
def framedAsChecked (fields : List (HeaderName × HttpHeaderValue)) :
    Option HttpBodyType → Bool
  | some .chunked =>
    valuesOf transferEncodingName fields ≠ [] &&
      (valuesOf transferEncodingName fields).all
        (fun v => "chunked".toList.isSuffixOf (toLowercase v)) &&
      valuesOf contentLengthName fields = []
  | some (.contentLength n) =>
    valuesOf transferEncodingName fields = [] &&
      (valuesOf contentLengthName fields).all (u64FromStr · = some n)
  | some .readUntilEnd => false
  | none =>
    valuesOf transferEncodingName fields = [] &&
      (valuesOf contentLengthName fields).all (u64FromStr · = some 0)

theorem mem_valuesOf {n : HeaderName} {fields : List (HeaderName × HttpHeaderValue)}
    {v : List Char} : v ∈ valuesOf n fields ↔ ∃ f ∈ fields, f.1 = n ∧ f.2.inner = v := by
  simp [valuesOf]

theorem valuesOf_eq_nil {n : HeaderName} {fields : List (HeaderName × HttpHeaderValue)} :
    valuesOf n fields = [] ↔ ∀ f ∈ fields, f.1 ≠ n := by
  simp [valuesOf, List.filterMap_eq_nil_iff]

theorem all_valuesOf {n : HeaderName} {fields : List (HeaderName × HttpHeaderValue)}
    {p : List Char → Bool} :
    (valuesOf n fields).all p = true ↔ ∀ f ∈ fields, f.1 = n → p f.2.inner = true := by
  simp only [List.all_eq_true, mem_valuesOf]
  constructor
  · exact fun h f hf hn => h _ ⟨f, hf, hn, rfl⟩
  · rintro h v ⟨f, hf, hn, rfl⟩; exact h f hf hn

/-! ## What every header keeps -/

/-- The framing facts the flags and the two header maps keep between headers. -/
structure FramingInv (L : HttpLibs M) (req : HttpProxyClientRequest U A M) : Prop where
  /-- `Transfer-Encoding` fields go only to the hop-by-hop map -/
  e2e_no_te : ∀ f ∈ L.fields req.endToEndHeaders, f.1 ≠ transferEncodingName
  /-- `Content-Length` fields go only to the end-to-end map -/
  hbh_no_cl : ∀ f ∈ L.fields req.hopByHopHeaders, f.1 ≠ contentLengthName
  te_field : req.hasTransferEncoding = true ↔
    ∃ f ∈ L.fields req.hopByHopHeaders, f.1 = transferEncodingName
  te_chunked : req.chunkedTransfer = req.hasTransferEncoding
  te_suffix : ∀ f ∈ L.fields req.hopByHopHeaders, f.1 = transferEncodingName →
    "chunked".toList.isSuffixOf (toLowercase f.2.inner)
  te_no_length : req.hasTransferEncoding = true →
    req.contentLength = 0 ∧ ∀ f ∈ L.fields req.endToEndHeaders, f.1 ≠ contentLengthName
  no_cl_zero : req.hasContentLength = false → req.contentLength = 0
  cl_value : ∀ f ∈ L.fields req.endToEndHeaders, f.1 = contentLengthName →
    req.hasContentLength = true ∧ u64FromStr f.2.inner = some req.contentLength

/-- Two requests agree on everything the invariant reads: the two maps and
    four framing fields. -/
structure SameFraming (r r' : HttpProxyClientRequest U A M) : Prop where
  e2e : r.endToEndHeaders = r'.endToEndHeaders
  hbh : r.hopByHopHeaders = r'.hopByHopHeaders
  te : r.hasTransferEncoding = r'.hasTransferEncoding
  chunked : r.chunkedTransfer = r'.chunkedTransfer
  length : r.contentLength = r'.contentLength
  hasLength : r.hasContentLength = r'.hasContentLength

theorem SameFraming.trans {r r' r'' : HttpProxyClientRequest U A M} (h : SameFraming r r')
    (h' : SameFraming r' r'') : SameFraming r r'' :=
  ⟨h.1.trans h'.1, h.2.trans h'.2, h.3.trans h'.3, h.4.trans h'.4, h.5.trans h'.5,
    h.6.trans h'.6⟩

theorem framingInv_of_same {r r' : HttpProxyClientRequest U A M} (hi : FramingInv L r')
    (h : SameFraming r r') : FramingInv L r := by
  obtain ⟨h1, h2, h3, h4, h5, h6⟩ := h
  cases hi
  constructor <;> simp only [h1, h2, h3, h4, h5, h6] <;> assumption

theorem framingInv_new (hL : L.Spec) (m : List Char) (u : U) (v : Version) :
    FramingInv L (new L m u v : HttpProxyClientRequest U A M) := by
  constructor <;> simp [HttpProxyClientRequest.new, hL.fields_empty]

theorem headerValue_inner {header : HttpHeaderLine} {v : HttpHeaderValue}
    (h : headerValue header = .ok v) : v.inner = header.value := by
  unfold headerValue HttpHeaderValue.fromStr at h
  split at h
  · cases h
  · next v' hv =>
    split_ifs at hv
    cases hv; cases h; rfl

theorem appendHeader_ok {req req' : HttpProxyClientRequest U A M} {name : HeaderName}
    {header : HttpHeaderLine} (h : appendHeader L req name header = .ok req') :
    ∃ v : HttpHeaderValue, v.inner = header.value ∧
      req' = { req with endToEndHeaders := L.append req.endToEndHeaders name v } := by
  unfold appendHeader at h
  split at h
  · cases h
  · next v hv => cases h; exact ⟨v, headerValue_inner hv, rfl⟩

theorem insertHopByHopHeader_ok {req req' : HttpProxyClientRequest U A M} {name : HeaderName}
    {header : HttpHeaderLine} (h : insertHopByHopHeader L req name header = .ok req') :
    ∃ v : HttpHeaderValue, v.inner = header.value ∧
      req' = { req with hopByHopHeaders := L.append req.hopByHopHeaders name v } := by
  unfold insertHopByHopHeader at h
  split at h
  · cases h
  · next v hv => cases h; exact ⟨v, headerValue_inner hv, rfl⟩

theorem sameFraming_connectionToken (r : HttpProxyClientRequest U A M) (v : List Char) :
    SameFraming (connectionToken L r v) r := by
  unfold connectionToken
  split_ifs
  · exact ⟨rfl, rfl, rfl, rfl, rfl, rfl⟩
  · exact ⟨rfl, rfl, rfl, rfl, rfl, rfl⟩
  · exact ⟨rfl, rfl, rfl, rfl, rfl, rfl⟩
  · split <;> exact ⟨rfl, rfl, rfl, rfl, rfl, rfl⟩

/-- `Connection` only touches keep-alive and the extra connection headers. -/
theorem parseHeaderConnection_same {req req' : HttpProxyClientRequest U A M}
    {header : HttpHeaderLine} (h : parseHeaderConnection L req header = .ok req') :
    SameFraming req' req := by
  unfold parseHeaderConnection at h
  cases h
  -- the fold over the comma-separated tokens
  generalize splitOn ',' (toLowercase header.value) = vs
  induction vs generalizing req with
  | nil => exact ⟨rfl, rfl, rfl, rfl, rfl, rfl⟩
  | cons v vs ih => exact ih.trans (sameFraming_connectionToken req v)

/-- A header appended to the end-to-end map under another name keeps the invariant. -/
theorem framingInv_appendHeader {req req' : HttpProxyClientRequest U A M} {name : HeaderName}
    {header : HttpHeaderLine} (hL : L.Spec) (hi : FramingInv L req) (hte : name ≠ transferEncodingName)
    (hcl : name ≠ contentLengthName) (h : appendHeader L req name header = .ok req') :
    FramingInv L req' := by
  obtain ⟨v, -, rfl⟩ := appendHeader_ok h
  constructor <;> simp only [hL.mem_fields_append]
  · rintro f (hf | ⟨rfl, -⟩)
    · exact hi.e2e_no_te f hf
    · exact hte
  · exact hi.hbh_no_cl
  · exact hi.te_field
  · exact hi.te_chunked
  · exact hi.te_suffix
  · intro ht
    refine ⟨(hi.te_no_length ht).1, ?_⟩
    rintro f (hf | ⟨rfl, -⟩)
    · exact (hi.te_no_length ht).2 f hf
    · exact hcl
  · exact hi.no_cl_zero
  · rintro f (hf | ⟨rfl, -⟩) hf'
    · exact hi.cl_value f hf hf'
    · exact absurd hf' hcl

/-- A header inserted into the hop-by-hop map under another name keeps the invariant. -/
theorem framingInv_insertHopByHopHeader {req req' : HttpProxyClientRequest U A M}
    {name : HeaderName} {header : HttpHeaderLine} (hL : L.Spec) (hi : FramingInv L req)
    (hte : name ≠ transferEncodingName) (hcl : name ≠ contentLengthName)
    (h : insertHopByHopHeader L req name header = .ok req') : FramingInv L req' := by
  obtain ⟨v, -, rfl⟩ := insertHopByHopHeader_ok h
  constructor <;> simp only [hL.mem_fields_append]
  · exact hi.e2e_no_te
  · rintro f (hf | ⟨rfl, -⟩)
    · exact hi.hbh_no_cl f hf
    · exact hcl
  · rw [hi.te_field]
    constructor
    · rintro ⟨f, hf, hn⟩; exact ⟨f, .inl hf, hn⟩
    · rintro ⟨f, hf | ⟨rfl, -⟩, hn⟩
      · exact ⟨f, hf, hn⟩
      · exact absurd hn hte
  · exact hi.te_chunked
  · rintro f (hf | ⟨rfl, -⟩) hn
    · exact hi.te_suffix f hf hn
    · exact absurd hn hte
  · exact hi.te_no_length
  · exact hi.no_cl_zero
  · exact hi.cl_value

@[simp] theorem transferEncodingSeen_hopByHopHeaders (req : HttpProxyClientRequest U A M) :
    (transferEncodingSeen L req).hopByHopHeaders = req.hopByHopHeaders := by
  unfold transferEncodingSeen; dsimp only; split_ifs <;> rfl

@[simp] theorem transferEncodingSeen_hasTransferEncoding (req : HttpProxyClientRequest U A M) :
    (transferEncodingSeen L req).hasTransferEncoding = true := by
  unfold transferEncodingSeen; dsimp only; split_ifs <;> rfl

/-- After a coding is seen the end-to-end map holds no length and no coding,
    and the length is zero. -/
theorem transferEncodingSeen_no_length {req : HttpProxyClientRequest U A M} (hL : L.Spec)
    (hi : FramingInv L req) :
    (transferEncodingSeen L req).contentLength = 0 ∧
    ∀ f ∈ L.fields (transferEncodingSeen L req).endToEndHeaders,
      f.1 ≠ transferEncodingName ∧ f.1 ≠ contentLengthName := by
  unfold transferEncodingSeen
  dsimp only
  split_ifs with hc
  · -- an earlier length is removed
    refine ⟨rfl, fun f hf => ?_⟩
    dsimp only at hf
    rw [hL.mem_fields_remove] at hf
    exact ⟨hi.e2e_no_te f hf.1, hf.2⟩
  · -- no earlier length: none is in the map, by `cl_value`
    refine ⟨hi.no_cl_zero (by simpa using hc), fun f hf => ?_⟩
    exact ⟨hi.e2e_no_te f hf, fun hn => hc (hi.cl_value f hf hn).1⟩

/-- An accepted `Transfer-Encoding` header keeps the invariant: the length
    seen before is gone, and the value ends with `chunked`. -/
theorem framingInv_transferEncoding {req req' : HttpProxyClientRequest U A M}
    {header : HttpHeaderLine} (hL : L.Spec) (hi : FramingInv L req)
    (hs : "chunked".toList.isSuffixOf (toLowercase header.value))
    (h : insertHopByHopHeader L { transferEncodingSeen L req with chunkedTransfer := true }
      transferEncodingName header = .ok req') : FramingInv L req' := by
  obtain ⟨v, hv, rfl⟩ := insertHopByHopHeader_ok h
  obtain ⟨hl, he⟩ := transferEncodingSeen_no_length hL hi
  constructor <;>
    simp only [hL.mem_fields_append, transferEncodingSeen_hopByHopHeaders]
  · exact fun f hf => (he f hf).1
  · rintro f (hf | ⟨rfl, -⟩)
    · exact hi.hbh_no_cl f hf
    · exact (by decide : transferEncodingName ≠ contentLengthName)
  · simp
  · simp
  · rintro f (hf | ⟨rfl, rfl⟩) hn
    · exact hi.te_suffix f hf hn
    · rwa [hv]
  · exact fun _ => ⟨hl, fun f hf => (he f hf).2⟩
  · intro; exact hl
  · exact fun f hf hn => absurd hn (he f hf).2

/-- An accepted `Content-Length` header keeps the invariant: its value reads
    as the length, as every earlier one does. -/
theorem framingInv_contentLength {req req' : HttpProxyClientRequest U A M}
    {header : HttpHeaderLine} {n : Nat} (hL : L.Spec) (hi : FramingInv L req)
    (hte : req.hasTransferEncoding = false) (hn : u64FromStr header.value = some n)
    (hsame : req.hasContentLength = true → req.contentLength = n)
    (h : appendHeader L { req with hasContentLength := true, contentLength := n }
      contentLengthName header = .ok req') : FramingInv L req' := by
  obtain ⟨v, hv, rfl⟩ := appendHeader_ok h
  constructor <;> simp only [hL.mem_fields_append]
  · rintro f (hf | ⟨rfl, -⟩)
    · exact hi.e2e_no_te f hf
    · exact (by decide : contentLengthName ≠ transferEncodingName)
  · exact hi.hbh_no_cl
  · exact hi.te_field
  · exact hi.te_chunked
  · exact hi.te_suffix
  · simp [hte]
  · simp
  · rintro f (hf | ⟨rfl, rfl⟩) hf'
    · obtain ⟨hc, hval⟩ := hi.cl_value f hf hf'
      exact ⟨by simp, by rw [hval, hsame hc]⟩
    · exact ⟨by simp, by rw [hv, hn]⟩

/-- An accepted request line yields a fresh request. -/
theorem buildFromMethodLine_ok {uri : UriOps U} {line : List Char}
    {req : HttpProxyClientRequest U A M} (h : buildFromMethodLine L uri line = .ok req) :
    ∃ m u v, req = new L m u v := by
  unfold buildFromMethodLine at h
  split at h
  · cases h
  · next ml _ =>
    -- whichever version the line names, the request is built the same way
    generalize (if ml.version = 0 then Version.http10 else if ml.version = 1 then .http11
      else .http2) = v at h
    dsimp only at h
    split_ifs at h
    split at h
    · cases h
    · split at h
      · cases h
      · cases h; exact ⟨_, _, _, rfl⟩

section Handle

variable (upstreamAddrFromStr : List Char → Option A)
  (parseMoreHeader : HttpProxyClientRequest U A M → HeaderName → HttpHeaderLine →
    Except HttpRequestParseError (HttpProxyClientRequest U A M))

/-- What one header line can do to the request: which branch of
    `handle_header` it takes, and with what. -/
theorem handleHeader_cases {req req' : HttpProxyClientRequest U A M} {header : HttpHeaderLine}
    (h : handleHeader L upstreamAddrFromStr parseMoreHeader req header = .ok req') :
    ∃ name, L.headerNameFromStr header.name = some name ∧
      ((name = hostName ∧ ∃ r : HttpProxyClientRequest U A M,
          (r = req ∨ ∃ a, r = { req with host := some a }) ∧ parseMoreHeader r name header = .ok req') ∨
       (name = connectionName ∧ parseHeaderConnection L req header = .ok req') ∨
       (name = keepAliveName ∧ req' = req) ∨
       (name = teName ∧ insertHopByHopHeader L req name header = .ok req') ∨
       (name = transferEncodingName ∧ "chunked".toList.isSuffixOf (toLowercase header.value) ∧
          insertHopByHopHeader L { transferEncodingSeen L req with chunkedTransfer := true } name header =
            .ok req') ∨
       (name = contentLengthName ∧ req.hasTransferEncoding = true ∧
          req' = { req with keepAlive := false }) ∨
       (name = contentLengthName ∧ req.hasTransferEncoding = false ∧
          ∃ n, u64FromStr header.value = some n ∧ (req.hasContentLength = true → req.contentLength = n) ∧
            parseMoreHeader { req with hasContentLength := true, contentLength := n } name header =
              .ok req') ∨
       (name ≠ hostName ∧ name ≠ connectionName ∧ name ≠ keepAliveName ∧ name ≠ teName ∧
          name ≠ upgradeName ∧ name ≠ transferEncodingName ∧ name ≠ contentLengthName ∧
          parseMoreHeader req name header = .ok req')) := by
  unfold handleHeader at h
  rcases hn : L.headerNameFromStr header.name with _ | name
  · rw [hn] at h; cases h
  rw [hn] at h
  dsimp only at h
  refine ⟨name, rfl, ?_⟩
  by_cases h1 : name = hostName
  · rw [if_pos h1] at h
    refine .inl ⟨h1, ?_⟩
    by_cases hs : req.host.isSome = true
    · rw [if_pos hs] at h; cases h
    rw [if_neg hs] at h
    by_cases he : header.value = []
    · rw [if_pos he] at h; exact ⟨req, .inl rfl, h⟩
    rw [if_neg he] at h
    split at h
    · cases h
    · next a _ => exact ⟨_, .inr ⟨a, rfl⟩, h⟩
  rw [if_neg h1] at h
  by_cases h2 : name = connectionName
  · rw [if_pos h2] at h; exact .inr (.inl ⟨h2, h⟩)
  rw [if_neg h2] at h
  by_cases h3 : name = keepAliveName
  · rw [if_pos h3] at h; cases h; exact .inr (.inr (.inl ⟨h3, rfl⟩))
  rw [if_neg h3] at h
  by_cases h4 : name = teName
  · rw [if_pos h4] at h; exact .inr (.inr (.inr (.inl ⟨h4, h⟩)))
  rw [if_neg h4] at h
  by_cases h5 : name = upgradeName
  · rw [if_pos h5] at h; cases h
  rw [if_neg h5] at h
  by_cases h6 : name = transferEncodingName
  · rw [if_pos h6] at h
    split_ifs at h with hs
    · exact .inr (.inr (.inr (.inr (.inl ⟨h6, hs, h⟩))))
  rw [if_neg h6] at h
  by_cases h7 : name = contentLengthName
  · rw [if_pos h7] at h
    -- a length after a coding is ignored; otherwise it must agree with earlier ones
    by_cases hte : req.hasTransferEncoding = true
    · rw [if_pos hte] at h; cases h
      exact .inr (.inr (.inr (.inr (.inr (.inl ⟨h7, hte, rfl⟩)))))
    rw [if_neg hte] at h
    split at h
    · cases h
    · next n hv =>
      split_ifs at h with hd
      refine .inr (.inr (.inr (.inr (.inr (.inr (.inl ⟨h7, by simpa using hte, n, hv,
        fun hc => ?_, h⟩))))))
      by_contra hne; exact hd ⟨hc, hne⟩
  rw [if_neg h7] at h
  exact .inr (.inr (.inr (.inr (.inr (.inr (.inr ⟨h1, h2, h3, h4, h5, h6, h7, h⟩))))))

end Handle

/-! ## The header loop -/

section Loop

variable (upstreamAddrFromStr : List Char → Option A)
  (parseMoreHeader : HttpProxyClientRequest U A M → HeaderName → HttpHeaderLine →
    Except HttpRequestParseError (HttpProxyClientRequest U A M))

/-- What one round of the header loop can do on the way to a result: end the
    head at the empty line, only recording its size, or handle one header
    line and go on. -/
theorem parseHeaders_succ_ok {maxHeaderSize fuel headerSize : Nat}
    {req req' : HttpProxyClientRequest U A M} {input rest : List Char}
    (h : parseHeaders L upstreamAddrFromStr parseMoreHeader maxHeaderSize (fuel + 1) req
      headerSize input = .ok (req', rest)) :
    (∃ n, req' = { req with originHeaderSize := n }) ∨
    ∃ line req₁ nr input', parseHeaderLine L upstreamAddrFromStr parseMoreHeader req line = .ok req₁ ∧
      parseHeaders L upstreamAddrFromStr parseMoreHeader maxHeaderSize fuel req₁ (headerSize + nr)
        input' = .ok (req', rest) := by
  unfold parseHeaders at h
  rcases hl : limitedReadUntil input (maxHeaderSize - headerSize) with ⟨⟨found, nr⟩, line, input'⟩
  simp only [hl] at h
  split_ifs at h
  · -- the empty line
    cases h
    exact .inl ⟨_, rfl⟩
  · split at h
    · cases h
    · next req₁ h₁ => exact .inr ⟨line, req₁, nr, input', h₁, h⟩

/-- The loop reaches a result only by handling lines, so an invariant of
    every handled line and of the size update holds of its result. -/
theorem parseHeaders_induction (P : HttpProxyClientRequest U A M → Prop)
    (hsize : ∀ r n, P r → P { r with originHeaderSize := n })
    (hline : ∀ r r₁ line, P r →
      parseHeaderLine L upstreamAddrFromStr parseMoreHeader r line = .ok r₁ → P r₁)
    {maxHeaderSize fuel headerSize : Nat} {req req' : HttpProxyClientRequest U A M}
    {input rest : List Char} (hi : P req)
    (h : parseHeaders L upstreamAddrFromStr parseMoreHeader maxHeaderSize fuel req headerSize
      input = .ok (req', rest)) : P req' := by
  induction fuel generalizing req headerSize input with
  | zero => cases h
  | succ fuel ih =>
    rcases parseHeaders_succ_ok upstreamAddrFromStr parseMoreHeader h with
      ⟨n, rfl⟩ | ⟨line, req₁, nr, input', h₁, h⟩
    · exact hsize req n hi
    · exact ih (hline req req₁ line hi h₁) h

end Loop

/-! ## The framing kept over a whole head -/

section Framing

variable (upstreamAddrFromStr : List Char → Option A) (hL : L.Spec)
include hL

/-- Every header line `parse_basic` accepts keeps the framing invariant. -/
theorem handleHeader_inv {req req' : HttpProxyClientRequest U A M} {header : HttpHeaderLine}
    (hi : FramingInv L req)
    (h : handleHeader L upstreamAddrFromStr (appendHeader L) req header = .ok req') :
    FramingInv L req' := by
  obtain ⟨name, -, hcase⟩ := handleHeader_cases upstreamAddrFromStr (appendHeader L) h
  rcases hcase with ⟨rfl, r, hr, h⟩ | ⟨rfl, h⟩ | ⟨rfl, rfl⟩ | ⟨rfl, h⟩ | ⟨rfl, hs, h⟩ |
      ⟨rfl, -, rfl⟩ | ⟨rfl, hte, n, hn, hsame, h⟩ | ⟨-, -, -, -, -, hte, hcl, h⟩
  · -- `Host`: recording the host leaves the framing as it was
    have hr' : FramingInv L r := by
      rcases hr with rfl | ⟨a, rfl⟩
      · exact hi
      · exact framingInv_of_same hi ⟨rfl, rfl, rfl, rfl, rfl, rfl⟩
    exact framingInv_appendHeader hL hr' (by decide) (by decide) h
  · exact framingInv_of_same hi (parseHeaderConnection_same h)
  · exact hi
  · exact framingInv_insertHopByHopHeader hL hi (by decide) (by decide) h
  · exact framingInv_transferEncoding hL hi hs h
  · -- a length after a coding is dropped
    exact framingInv_of_same hi ⟨rfl, rfl, rfl, rfl, rfl, rfl⟩
  · exact framingInv_contentLength hL hi hte hn hsame h
  · exact framingInv_appendHeader hL hi hte hcl h

theorem parseHeaderLine_inv {req req' : HttpProxyClientRequest U A M} {line : List Char}
    (hi : FramingInv L req)
    (h : parseHeaderLine L upstreamAddrFromStr (appendHeader L) req line = .ok req') :
    FramingInv L req' := by
  unfold parseHeaderLine at h
  split at h
  · cases h
  · exact handleHeader_inv upstreamAddrFromStr hL hi h

/-- The request `parse_basic` returns satisfies the framing invariant. -/
theorem parseBasic_inv (uri : UriOps U) {maxHeaderSize : Nat} {input rest : List Char}
    {req : HttpProxyClientRequest U A M}
    (h : parseBasic L uri upstreamAddrFromStr maxHeaderSize input = .ok (req, rest)) :
    FramingInv L req := by
  unfold parseBasic parse at h
  rcases hl : limitedReadUntil input maxHeaderSize with ⟨⟨found, nr⟩, line, input'⟩
  simp only [hl] at h
  split_ifs at h
  split at h
  · cases h
  · next req₀ h₀ =>
    -- the request line yields a fresh request; the loop keeps the invariant
    obtain ⟨m, u, v, rfl⟩ := buildFromMethodLine_ok h₀
    refine parseHeaders_induction upstreamAddrFromStr (appendHeader L) (FramingInv L)
      (fun r n hr => framingInv_of_same hr ⟨rfl, rfl, rfl, rfl, rfl, rfl⟩)
      (fun r r₁ line hr h₁ => parseHeaderLine_inv upstreamAddrFromStr hL hr h₁) ?_ h
    exact framingInv_of_same (framingInv_new hL m u v) ⟨rfl, rfl, rfl, rfl, rfl, rfl⟩

end Framing

/-! ## The forwarded head -/

theorem mem_forwardedFields {req : HttpProxyClientRequest U A M}
    {f : HeaderName × HttpHeaderValue} :
    f ∈ forwardedFields L req ↔ f ∈ L.fields req.endToEndHeaders ∨ f ∈ L.fields req.hopByHopHeaders :=
  List.mem_append

/-- Under the invariant the forwarded fields carry the body type up to the
    tests `handle_header` makes. -/
theorem framedAsChecked_of_inv {req : HttpProxyClientRequest U A M} (hi : FramingInv L req) :
    framedAsChecked (forwardedFields L req) req.bodyType = true := by
  unfold bodyType
  by_cases hc : req.chunkedTransfer = true
  · -- chunked: coding fields only in the hop-by-hop map, no length field
    have hte : req.hasTransferEncoding = true := hi.te_chunked ▸ hc
    obtain ⟨f, hf, hn⟩ := hi.te_field.1 hte
    simp only [hc, if_true, framedAsChecked, Bool.and_eq_true, decide_eq_true_eq, ne_eq,
      valuesOf_eq_nil, all_valuesOf, mem_forwardedFields]
    refine ⟨⟨fun h => h f (.inr hf) hn, ?_⟩, ?_⟩
    · rintro g (hg | hg) hgn
      · exact absurd hgn (hi.e2e_no_te g hg)
      · exact hi.te_suffix g hg hgn
    · rintro g (hg | hg)
      · exact (hi.te_no_length hte).2 g hg
      · exact hi.hbh_no_cl g hg
  · -- not chunked: no coding was seen, and every length field reads as the length
    have hte : req.hasTransferEncoding = false := by
      rw [← hi.te_chunked]; simpa using hc
    have hno : ∀ g ∈ forwardedFields L req, g.1 ≠ transferEncodingName := by
      intro g hg hgn
      rcases mem_forwardedFields.1 hg with hg | hg
      · exact hi.e2e_no_te g hg hgn
      · exact absurd (hi.te_field.2 ⟨g, hg, hgn⟩) (by simp [hte])
    have hcl : ∀ g ∈ forwardedFields L req, g.1 = contentLengthName →
        u64FromStr g.2.inner = some req.contentLength := by
      intro g hg hgn
      rcases mem_forwardedFields.1 hg with hg | hg
      · exact (hi.cl_value g hg hgn).2
      · exact absurd hgn (hi.hbh_no_cl g hg)
    rw [if_neg hc]
    split_ifs with hpos
    · simp only [framedAsChecked, Bool.and_eq_true, decide_eq_true_eq, valuesOf_eq_nil,
        all_valuesOf]
      exact ⟨hno, hcl⟩
    · have h0 : req.contentLength = 0 := by omega
      simp only [framedAsChecked, Bool.and_eq_true, decide_eq_true_eq, valuesOf_eq_nil,
        all_valuesOf]
      exact ⟨hno, fun g hg hgn => h0 ▸ hcl g hg hgn⟩

/-- Every head `parse_basic` accepts is forwarded with fields framed as the
    body is read, up to the tests `handle_header` makes. -/
theorem parseBasic_forwarded_framing (hL : L.Spec) (uri : UriOps U)
    (upstreamAddrFromStr : List Char → Option A) {maxHeaderSize : Nat} {input rest : List Char}
    {req : HttpProxyClientRequest U A M}
    (h : parseBasic L uri upstreamAddrFromStr maxHeaderSize input = .ok (req, rest)) :
    framedAsChecked (forwardedFields L req) req.bodyType = true :=
  framedAsChecked_of_inv (parseBasic_inv upstreamAddrFromStr hL uri h)

/-- A head with a body of three bytes, for a URI parser that takes every
    target as the path `/`. -/
theorem parseBasic_forwarded_framing_length :
    ∃ req rest, parseBasic HttpLibs.ofLists
        ⟨fun _ => some (), fun _ => none, fun _ => some ("/".toList, none)⟩
        (fun _ => (none : Option Unit)) 4096 "POST / HTTP/1.1\r\nContent-Length: 3\r\n\r\n".toList =
        .ok (req, rest) ∧
      framedAsChecked (forwardedFields HttpLibs.ofLists req) req.bodyType = true := by
  obtain ⟨req, rest, h⟩ : ∃ req rest,
      parseBasic HttpLibs.ofLists ⟨fun _ => some (), fun _ => none, fun _ => some ("/".toList, none)⟩
        (fun _ => (none : Option Unit)) 4096 "POST / HTTP/1.1\r\nContent-Length: 3\r\n\r\n".toList =
        .ok (req, rest) := ⟨_, _, rfl⟩
  exact ⟨req, rest, h, parseBasic_forwarded_framing HttpLibs.ofLists_spec _ _ h⟩

/-! ## Running a head line by line

Each lemma takes one step of `parse` on what the step reads, so that a given
head can be run under any realisation of the `http` crate's laws. -/

section Run

variable (uri : UriOps U) (upstreamAddrFromStr : List Char → Option A)
  (parseMoreHeader : HttpProxyClientRequest U A M → HeaderName → HttpHeaderLine →
    Except HttpRequestParseError (HttpProxyClientRequest U A M))

/-- An `HTTP/1.1` request line with a method and target the parsers accept. -/
theorem buildFromMethodLine_http11 {line m : List Char} {ml : HttpMethodLine} {u : U}
    (hml : HttpMethodLine.parse line = .ok ml) (hv : ml.version = 1)
    (hm : L.methodFromStr ml.method = some m) (hu : uri.fromStr ml.uri = some u) :
    buildFromMethodLine L uri line = .ok (new L m u .http11 : HttpProxyClientRequest U A M) := by
  simp [buildFromMethodLine, hml, hv, hm, hu]

/-- A request line read whole and accepted starts the header loop. -/
theorem parse_of_requestLine {maxHeaderSize nr : Nat} {input line rest : List Char}
    {req : HttpProxyClientRequest U A M}
    (hl : limitedReadUntil input maxHeaderSize = ((true, nr), line, rest)) (hnr : nr ≠ 0)
    (hb : buildFromMethodLine L uri line = .ok req) :
    parse L uri upstreamAddrFromStr parseMoreHeader maxHeaderSize input =
      parseHeaders L upstreamAddrFromStr parseMoreHeader maxHeaderSize (rest.length + 1)
        { req with keepAlive := req.version = .http11 } nr rest := by
  simp [parse, hl, hnr, hb]

/-- A header line read whole within the limit is handled, and the loop goes on. -/
theorem parseHeaders_of_headerLine {maxHeaderSize fuel headerSize nr : Nat}
    {req req₁ : HttpProxyClientRequest U A M} {input line rest : List Char}
    {header : HttpHeaderLine} (hsize : headerSize < maxHeaderSize)
    (hl : limitedReadUntil input (maxHeaderSize - headerSize) = ((true, nr), line, rest))
    (hnr : nr ≠ 0) (hline : line ≠ "\n".toList ∧ line ≠ "\r\n".toList)
    (hp : HttpHeaderLine.parse line = .ok header)
    (hh : handleHeader L upstreamAddrFromStr parseMoreHeader req header = .ok req₁) :
    parseHeaders L upstreamAddrFromStr parseMoreHeader maxHeaderSize (fuel + 1) req headerSize
        input =
      parseHeaders L upstreamAddrFromStr parseMoreHeader maxHeaderSize fuel req₁
        (headerSize + nr) rest := by
  have hline' : ¬(line = "\n".toList ∨ line = "\r\n".toList) := not_or.2 hline
  simp only [parseHeaders, hl, if_neg (Nat.not_le.2 hsize), if_neg hnr, Bool.not_true,
    Bool.false_eq_true, if_false, if_neg hline', parseHeaderLine, hp, hh]

/-- The empty line ends the head. -/
theorem parseHeaders_of_emptyLine {maxHeaderSize fuel headerSize nr : Nat}
    {req : HttpProxyClientRequest U A M} {input rest : List Char}
    (hsize : headerSize < maxHeaderSize)
    (hl : limitedReadUntil input (maxHeaderSize - headerSize) =
      ((true, nr), "\r\n".toList, rest)) (hnr : nr ≠ 0) :
    parseHeaders L upstreamAddrFromStr parseMoreHeader maxHeaderSize (fuel + 1) req headerSize
        input =
      .ok ({ req with originHeaderSize := headerSize + nr }, rest) := by
  simp [parseHeaders, hl, hnr, Nat.not_le.2 hsize]

/-- A valid value goes to the map with the name as received. -/
theorem headerValue_of_valid {header : HttpHeaderLine}
    (hv : header.value.all HttpHeaderValue.isValid = true) :
    headerValue header = .ok ⟨header.value, some header.name⟩ := by
  simp [headerValue, HttpHeaderValue.fromStr, HttpHeaderValue.setOriginalName, hv]

theorem appendHeader_of_valid {req : HttpProxyClientRequest U A M} {name : HeaderName}
    {header : HttpHeaderLine} (hv : header.value.all HttpHeaderValue.isValid = true) :
    appendHeader L req name header = .ok { req with
      endToEndHeaders := L.append req.endToEndHeaders name ⟨header.value, some header.name⟩ } := by
  simp only [appendHeader, headerValue_of_valid hv]

theorem insertHopByHopHeader_of_valid {req : HttpProxyClientRequest U A M} {name : HeaderName}
    {header : HttpHeaderLine} (hv : header.value.all HttpHeaderValue.isValid = true) :
    insertHopByHopHeader L req name header = .ok { req with
      hopByHopHeaders := L.append req.hopByHopHeaders name ⟨header.value, some header.name⟩ } := by
  simp only [insertHopByHopHeader, headerValue_of_valid hv]

/-- A `Transfer-Encoding` line whose value ends with `chunked` marks the body
    chunked and goes to the hop-by-hop map. -/
theorem handleHeader_transferEncoding {req : HttpProxyClientRequest U A M}
    {header : HttpHeaderLine} (hn : L.headerNameFromStr header.name = some transferEncodingName)
    (hs : "chunked".toList.isSuffixOf (toLowercase header.value) = true) :
    handleHeader L upstreamAddrFromStr parseMoreHeader req header =
      insertHopByHopHeader L { transferEncodingSeen L req with chunkedTransfer := true }
        transferEncodingName header := by
  simp only [handleHeader, hn, if_neg (show transferEncodingName ≠ hostName by decide),
    if_neg (show transferEncodingName ≠ connectionName by decide),
    if_neg (show transferEncodingName ≠ keepAliveName by decide),
    if_neg (show transferEncodingName ≠ teName by decide),
    if_neg (show transferEncodingName ≠ upgradeName by decide), if_true, hs]

/-- A `Content-Length` line before any coding, read by `u64::from_str` as the
    length seen so far, records the length and goes on to `parse_more_header`. -/
theorem handleHeader_contentLength {req : HttpProxyClientRequest U A M}
    {header : HttpHeaderLine} {n : Nat}
    (hn : L.headerNameFromStr header.name = some contentLengthName)
    (hte : req.hasTransferEncoding = false) (hv : u64FromStr header.value = some n)
    (hsame : req.hasContentLength = true → req.contentLength = n) :
    handleHeader L upstreamAddrFromStr parseMoreHeader req header =
      parseMoreHeader { req with hasContentLength := true, contentLength := n }
        contentLengthName header := by
  have hd : ¬(req.hasContentLength = true ∧ req.contentLength ≠ n) :=
    fun ⟨hc, hne⟩ => hne (hsame hc)
  simp only [handleHeader, hn, if_neg (show contentLengthName ≠ hostName by decide),
    if_neg (show contentLengthName ≠ connectionName by decide),
    if_neg (show contentLengthName ≠ keepAliveName by decide),
    if_neg (show contentLengthName ≠ teName by decide),
    if_neg (show contentLengthName ≠ upgradeName by decide),
    if_neg (show contentLengthName ≠ transferEncodingName by decide), if_true, hte, hv,
    Bool.false_eq_true, if_false, if_neg hd]

end Run

theorem valuesOf_eq_map_getAll (n : HeaderName) (fields : List (HeaderName × HttpHeaderValue)) :
    valuesOf n fields = (getAll n fields).map HttpHeaderValue.inner := by
  simp only [valuesOf, getAll, List.map_filterMap]
  congr 1
  funext f
  split_ifs <;> rfl

/-- The forwarded values of a name: those of the end-to-end map, then those of
    the hop-by-hop map. -/
theorem valuesOf_forwardedFields (n : HeaderName) (req : HttpProxyClientRequest U A M) :
    valuesOf n (forwardedFields L req) =
      (getAll n (L.fields req.endToEndHeaders) ++ getAll n (L.fields req.hopByHopHeaders)).map
        HttpHeaderValue.inner := by
  rw [valuesOf_eq_map_getAll, forwardedFields, getAll_append]

/-! ## Heads the proxy misframes -/

/-- The request target `/` as `http::Uri` parses it: path `/`, no query. -/
def rootUri : UriOps Unit :=
  ⟨fun s => if s = "/".toList then some () else none, fun _ => none,
    fun _ => some ("/".toList, none)⟩

/-- A request whose only coding is `xchunked`. -/
def xchunkedHead : List Char :=
  "POST / HTTP/1.1\r\nTransfer-Encoding: xchunked\r\n\r\n".toList

/-- Under any realisation of the `http` crate's laws, the proxy reads the body
    of `xchunkedHead` as chunked, while the forwarded head's final coding is
    `xchunked`. -/
theorem parseBasic_xchunked_unframed (hL : L.Spec) :
    ∃ req rest, parseBasic L rootUri (fun _ => (none : Option Unit)) 4096 xchunkedHead =
        .ok (req, rest) ∧
      req.bodyType = some .chunked ∧
      finalTransferCoding (valuesOf transferEncodingName (forwardedFields L req)) =
        some "xchunked".toList ∧
      framedAs (forwardedFields L req) req.bodyType = false := by
  have hm : L.methodFromStr "POST".toList = some "POST".toList :=
    hL.methodFromStr_token _ (by decide) (by decide)
  have hn : L.headerNameFromStr "Transfer-Encoding".toList = some transferEncodingName :=
    hL.headerNameFromStr_token _ (by decide) (by decide) (by decide)
  -- the request line, the coding line and the empty line, as `limited_read_until` reads them
  have hl₁ : limitedReadUntil xchunkedHead 4096 = ((true, 17), "POST / HTTP/1.1\r\n".toList,
      "Transfer-Encoding: xchunked\r\n\r\n".toList) := rfl
  have hl₂ : limitedReadUntil "Transfer-Encoding: xchunked\r\n\r\n".toList (4096 - 17) =
      ((true, 29), "Transfer-Encoding: xchunked\r\n".toList, "\r\n".toList) := rfl
  have hl₃ : limitedReadUntil "\r\n".toList (4096 - (17 + 29)) = ((true, 2), "\r\n".toList, []) :=
    rfl
  have hb := buildFromMethodLine_http11 (A := Unit) rootUri
    (show HttpMethodLine.parse "POST / HTTP/1.1\r\n".toList = .ok ⟨1, "POST".toList, "/".toList⟩
      from rfl) rfl hm rfl
  have hh : handleHeader L (fun _ => (none : Option Unit)) (appendHeader L)
      { (new L "POST".toList () .http11 : HttpProxyClientRequest Unit Unit M) with
        keepAlive := true } ⟨"Transfer-Encoding".toList, "xchunked".toList⟩ = _ :=
    handleHeader_transferEncoding _ _ hn (by decide)
  rw [insertHopByHopHeader_of_valid (by decide)] at hh
  refine ⟨?req, ?rest, ?run, ?chunked, ?coding, ?framed⟩
  case run =>
    rw [parseBasic, parse_of_requestLine rootUri _ _ hl₁ (by decide) hb,
      show "Transfer-Encoding: xchunked\r\n\r\n".toList.length = 30 + 1 from rfl]
    refine (parseHeaders_of_headerLine _ _ (by decide) hl₂ (by decide) (by decide) rfl hh).trans ?_
    exact parseHeaders_of_emptyLine _ _ (by decide) hl₃ (by decide)
  case chunked => rfl
  all_goals
    simp only [bodyType, framedAs, valuesOf_forwardedFields, hL.getAll_append, hL.fields_empty,
      getAll_nil, transferEncodingSeen, new, Bool.false_eq_true, if_false, if_true]
    decide

/-- The same head over the list realisation of the header map. -/
theorem parseBasic_xchunked_unframed_lists :
    ∃ req rest, parseBasic HttpLibs.ofLists rootUri (fun _ => (none : Option Unit)) 4096
        xchunkedHead = .ok (req, rest) ∧
      req.bodyType = some .chunked ∧
      finalTransferCoding (valuesOf transferEncodingName (forwardedFields HttpLibs.ofLists req)) =
        some "xchunked".toList ∧
      framedAs (forwardedFields HttpLibs.ofLists req) req.bodyType = false :=
  parseBasic_xchunked_unframed HttpLibs.ofLists_spec

/-- A request whose length is written `+5`. -/
def plusLengthHead : List Char :=
  "POST / HTTP/1.1\r\nContent-Length: +5\r\n\r\n".toList

/-- Under any realisation of the `http` crate's laws, the proxy reads five
    body bytes, while the forwarded `Content-Length` is `+5`, which is not
    `1*DIGIT`. -/
theorem parseBasic_plus_length_unframed (hL : L.Spec) :
    ∃ req rest, parseBasic L rootUri (fun _ => (none : Option Unit)) 4096 plusLengthHead =
        .ok (req, rest) ∧
      req.bodyType = some (.contentLength 5) ∧
      valuesOf contentLengthName (forwardedFields L req) = ["+5".toList] ∧
      framedAs (forwardedFields L req) req.bodyType = false := by
  have hm : L.methodFromStr "POST".toList = some "POST".toList :=
    hL.methodFromStr_token _ (by decide) (by decide)
  have hn : L.headerNameFromStr "Content-Length".toList = some contentLengthName :=
    hL.headerNameFromStr_token _ (by decide) (by decide) (by decide)
  have hl₁ : limitedReadUntil plusLengthHead 4096 = ((true, 17), "POST / HTTP/1.1\r\n".toList,
      "Content-Length: +5\r\n\r\n".toList) := rfl
  have hl₂ : limitedReadUntil "Content-Length: +5\r\n\r\n".toList (4096 - 17) =
      ((true, 20), "Content-Length: +5\r\n".toList, "\r\n".toList) := rfl
  have hl₃ : limitedReadUntil "\r\n".toList (4096 - (17 + 20)) = ((true, 2), "\r\n".toList, []) :=
    rfl
  have hb := buildFromMethodLine_http11 (A := Unit) rootUri
    (show HttpMethodLine.parse "POST / HTTP/1.1\r\n".toList = .ok ⟨1, "POST".toList, "/".toList⟩
      from rfl) rfl hm rfl
  have hh : handleHeader L (fun _ => (none : Option Unit)) (appendHeader L)
      { (new L "POST".toList () .http11 : HttpProxyClientRequest Unit Unit M) with
        keepAlive := true } ⟨"Content-Length".toList, "+5".toList⟩ = _ :=
    handleHeader_contentLength _ _ hn rfl rfl (fun h => nomatch h)
  rw [appendHeader_of_valid (by decide)] at hh
  refine ⟨?req, ?rest, ?run, ?length, ?value, ?framed⟩
  case run =>
    rw [parseBasic, parse_of_requestLine rootUri _ _ hl₁ (by decide) hb,
      show "Content-Length: +5\r\n\r\n".toList.length = 21 + 1 from rfl]
    refine (parseHeaders_of_headerLine _ _ (by decide) hl₂ (by decide) (by decide) rfl hh).trans ?_
    exact parseHeaders_of_emptyLine _ _ (by decide) hl₃ (by decide)
  case length => rfl
  all_goals
    simp only [bodyType, framedAs, valuesOf_forwardedFields, hL.getAll_append, hL.fields_empty,
      getAll_nil, new, Bool.false_eq_true, if_false, if_true]
    decide

end HttpProxyClientRequest

end G3Proxy
