/-
  The response head parser of the HTTP client side (`client/response.rs`,
  `parse/status_line.rs`).

  `HttpForwardRemoteResponse::parse` reads the status line, then header
  lines until the empty line, each routed by `handleHeader`: `Connection`
  can only turn keep-alive off, `Upgrade`, `Keep-Alive` and
  `Transfer-Encoding` go to the hop-by-hop map, a `Content-Length` is
  checked against earlier ones and ignored after a `Transfer-Encoding`, and
  every other header goes to the end-to-end map.  `postCheckAndFix` then
  turns keep-alive off for a body that runs to the end of the connection.
  `bodyType` reads the framing from the status, the request method and four
  fields.

  The reader is the whole remaining input, as for the request parser
  (`limitedReadUntil`).  The `http` and `atoi` crates are the parameter
  `HttpLibs`, as there.
-/
import G3Proxy.Http.Request

namespace G3Proxy

/-- `HttpResponseParseError` (`client/error.rs`), the variants the parser uses. -/
inductive HttpResponseParseError where
  | remoteClosed
  | tooLargeHeader (max : Nat)
  | invalidVersion (v : Version)
  | invalidStatusLine (e : HttpLineParseError)
  | invalidHeaderLine (e : HttpLineParseError)
  | invalidChunkedTransferEncoding
  | invalidContentLength
  deriving Repr, DecidableEq

/-! ## The status line -/

/-- `HttpStatusLine`: the version digit, the status code and the reason. -/
structure HttpStatusLine where
  version : Nat
  code : Nat
  reason : List Char
  deriving Repr, DecidableEq

variable {M : Type} (L : HttpLibs M)

/-- `HttpStatusLine::parse`: the version up to the first space, at least
    three digits of code, one separating character, then the trimmed
    reason.  The line is text here, so that character is one character. -/
def HttpStatusLine.parse (line : List Char) : Except HttpLineParseError HttpStatusLine :=
  -- `HTTP/1.x XYZ\n` is the shortest line
  if byteLen line < 13 then .error .notLongEnough
  else match line.idxOf? ' ' with
    | none => .error (.noDelimiterFound ' ')
    | some p =>
      let v := line.take p
      let version : Option Nat :=
        if v = "HTTP/1.0".toList then some 0
        else if v = "HTTP/1.1".toList then some 1
        else if v = "HTTP/2.0".toList ∨ v = "HTTP/2".toList then some 2
        else none
      match version with
      | none => .error .invalidVersion
      | some version =>
        let left := line.drop (p + 1)
        let (code, len) := L.u16FromRadix10 left
        if len < 3 then .error .invalidStatusCode
        -- the digits are ASCII, so comparing characters compares bytes
        else if left.length < len + 1 then .error .notLongEnough
        else .ok ⟨version, code, trim (left.drop (len + 1))⟩

example : HttpStatusLine.parse HttpLibs.ofLists "HTTP/1.1 200 OK\r\n".toList =
    .ok ⟨1, 200, "OK".toList⟩ := by
  decide

/-! ## The response -/

/-- `HttpForwardRemoteResponse`, with header maps of type `M`. -/
structure HttpForwardRemoteResponse (M : Type) where
  version : Version
  code : Nat
  reason : List Char
  endToEndHeaders : M
  hopByHopHeaders : M
  originalConnectionName : Connection
  extraConnectionHeaders : List HeaderName
  originHeaderSize : Nat
  keepAlive : Bool
  contentLength : Nat
  chunkedTransfer : Bool
  hasTransferEncoding : Bool
  hasContentLength : Bool
  hasKeepAlive : Bool

namespace HttpForwardRemoteResponse

open HttpProxyClientRequest (connectionName keepAliveName upgradeName transferEncodingName
  contentLengthName)

/-- `HttpForwardRemoteResponse::new`. -/
def new (version : Version) (code : Nat) (reason : List Char) : HttpForwardRemoteResponse M :=
  ⟨version, code, reason, L.empty, L.empty, .camelCase, [], 0, false, 0, false, false, false, false⟩

/-- `expect_no_body`: informational, `204` and `304` responses, and any
    response to `HEAD`. -/
def expectNoBody (rsp : HttpForwardRemoteResponse M) (method : List Char) : Bool :=
  rsp.code < 200 || rsp.code = 204 || rsp.code = 304 || method = "HEAD".toList

/-- `body_type`. -/
def bodyType (rsp : HttpForwardRemoteResponse M) (method : List Char) : Option HttpBodyType :=
  if rsp.expectNoBody method then none
  else if rsp.chunkedTransfer then some .chunked
  else if rsp.hasContentLength then
    if rsp.contentLength > 0 then some (.contentLength rsp.contentLength) else none
  else some .readUntilEnd

/-- `post_check_and_fix`: a body read to the end closes the connection. -/
def postCheckAndFix (rsp : HttpForwardRemoteResponse M) (method : List Char) :
    HttpForwardRemoteResponse M :=
  if !rsp.chunkedTransfer then
    if rsp.expectNoBody method then rsp
    else if !rsp.hasContentLength then { rsp with keepAlive := false }
    else rsp
  else rsp

/-- `build_from_status_line`. -/
def buildFromStatusLine (line : List Char) : Except HttpResponseParseError (HttpForwardRemoteResponse M) :=
  match HttpStatusLine.parse L line with
  | .error e => .error (.invalidStatusLine e)
  | .ok sl =>
    -- the status line parser only yields the digits 0, 1 and 2
    if sl.version = 0 then .ok (new L .http10 sl.code sl.reason)
    else if sl.version = 1 then .ok (new L .http11 sl.code sl.reason)
    else .error (.invalidVersion .http2)

/-- The non-standard `Proxy-Connection`, handled as `Connection`. -/
def proxyConnectionName : HeaderName := ⟨"proxy-connection".toList⟩

/-- One comma-separated token of a lowercased `Connection` value: `close`
    turns keep-alive off, `keep-alive` keeps what the caller chose, and any
    other name is an extra connection header. -/
def connectionToken (rsp : HttpForwardRemoteResponse M) (v : List Char) : HttpForwardRemoteResponse M :=
  if v = [] then rsp
  else if trim v = "keep-alive".toList then rsp
  else if trim v = "close".toList then { rsp with keepAlive := false }
  else match L.headerNameFromStr (trim v) with
    | some h => { rsp with extraConnectionHeaders := rsp.extraConnectionHeaders ++ [h] }
    | none => rsp

/-- The value of a header line, with its received name (`HttpHeaderValue::from_str`
    and `set_original_name`). -/
def headerValue (header : HttpHeaderLine) : Except HttpResponseParseError HttpHeaderValue :=
  match HttpHeaderValue.fromStr header.value with
  | none => .error (.invalidHeaderLine .invalidHeaderValue)
  | some v => .ok (v.setOriginalName header.name)

/-- The end of `handle_header`: the header goes to the end-to-end map. -/
def appendHeader (rsp : HttpForwardRemoteResponse M) (name : HeaderName) (header : HttpHeaderLine) :
    Except HttpResponseParseError (HttpForwardRemoteResponse M) :=
  match headerValue header with
  | .error e => .error e
  | .ok v => .ok { rsp with endToEndHeaders := L.append rsp.endToEndHeaders name v }

/-- `insert_hop_by_hop_header`: the header goes to the hop-by-hop map. -/
def insertHopByHopHeader (rsp : HttpForwardRemoteResponse M) (name : HeaderName)
    (header : HttpHeaderLine) : Except HttpResponseParseError (HttpForwardRemoteResponse M) :=
  match headerValue header with
  | .error e => .error e
  | .ok v => .ok { rsp with hopByHopHeaders := L.append rsp.hopByHopHeaders name v }

/-- The `Transfer-Encoding` branch of `handle_header` before the coding is
    read: a `Content-Length` seen before is dropped with its value, while
    `has_content_length` stays set. -/
def transferEncodingSeen (rsp : HttpForwardRemoteResponse M) : HttpForwardRemoteResponse M :=
  let rsp := { rsp with hasTransferEncoding := true }
  if rsp.hasContentLength then
    { rsp with endToEndHeaders := L.remove rsp.endToEndHeaders contentLengthName,
               contentLength := 0, keepAlive := false }
  else rsp

/-- `handle_header`. -/
def handleHeader (rsp : HttpForwardRemoteResponse M) (header : HttpHeaderLine) :
    Except HttpResponseParseError (HttpForwardRemoteResponse M) :=
  match L.headerNameFromStr header.name with
  | none => .error (.invalidHeaderLine .invalidHeaderName)
  | some name =>
    if name = connectionName ∨ name = proxyConnectionName then
      .ok { (splitOn ',' (toLowercase header.value)).foldl (connectionToken L) rsp with
        originalConnectionName := Connection.fromOriginal header.name }
    else if name = upgradeName then insertHopByHopHeader L rsp name header
    else if name = keepAliveName then
      insertHopByHopHeader L { rsp with hasKeepAlive := true } name header
    else if name = transferEncodingName then
      let rsp := transferEncodingSeen L rsp
      let v := toLowercase header.value
      -- only a coding list ending in `chunked` is chunked; `chunked` elsewhere is refused
      if "chunked".toList.isSuffixOf v then
        insertHopByHopHeader L { rsp with chunkedTransfer := true } name header
      else if "chunked".toList <:+: v then .error .invalidChunkedTransferEncoding
      else insertHopByHopHeader L rsp name header
    else if name = contentLengthName then
      if rsp.hasTransferEncoding then .ok { rsp with keepAlive := false }
      else match u64FromStr header.value with
        | none => .error .invalidContentLength
        | some n =>
          if rsp.hasContentLength ∧ rsp.contentLength ≠ n then .error .invalidContentLength
          else appendHeader L { rsp with hasContentLength := true, contentLength := n } name header
    else appendHeader L rsp name header

/-- `parse_header_line`. -/
def parseHeaderLine (rsp : HttpForwardRemoteResponse M) (line : List Char) :
    Except HttpResponseParseError (HttpForwardRemoteResponse M) :=
  match HttpHeaderLine.parse line with
  | .error e => .error (.invalidHeaderLine e)
  | .ok header => handleHeader L rsp header

/-- The header loop of `parse`: read a line, stop at the empty line, else
    handle the header.  Every round reads at least one character, so
    `input.length + 1` rounds of fuel never run out. -/
def parseHeaders (maxHeaderSize : Nat) :
    Nat → HttpForwardRemoteResponse M → Nat → List Char →
      Except HttpResponseParseError (HttpForwardRemoteResponse M × List Char)
  | 0, _, _, _ => .error .remoteClosed
  | fuel + 1, rsp, headerSize, input =>
    if headerSize ≥ maxHeaderSize then .error (.tooLargeHeader maxHeaderSize)
    else
      let maxLen := maxHeaderSize - headerSize
      let ((found, nr), line, rest) := limitedReadUntil input maxLen
      if nr = 0 then .error .remoteClosed
      else if !found then
        .error (if nr < maxLen then .remoteClosed else .tooLargeHeader maxHeaderSize)
      else if line = "\n".toList ∨ line = "\r\n".toList then
        .ok ({ rsp with originHeaderSize := headerSize + nr }, rest)
      else match parseHeaderLine L rsp line with
        | .error e => .error e
        | .ok rsp => parseHeaders maxHeaderSize fuel rsp (headerSize + nr) rest

/-- `HttpForwardRemoteResponse::parse`: the response to a request with
    `method`, kept alive only as far as `keepAlive` allows, and the input
    after its head. -/
def parse (method : List Char) (keepAlive : Bool) (maxHeaderSize : Nat) (input : List Char) :
    Except HttpResponseParseError (HttpForwardRemoteResponse M × List Char) :=
  let ((found, nr), line, rest) := limitedReadUntil input maxHeaderSize
  if nr = 0 then .error .remoteClosed
  else if !found then
    .error (if nr < maxHeaderSize then .remoteClosed else .tooLargeHeader maxHeaderSize)
  else match buildFromStatusLine L line with
    | .error e => .error e
    | .ok rsp =>
      match parseHeaders L maxHeaderSize (rest.length + 1) { rsp with keepAlive } nr rest with
      | .error e => .error e
      | .ok (rsp, rest) => .ok (rsp.postCheckAndFix method, rest)

end HttpForwardRemoteResponse

end G3Proxy
