/-
  The client request parser of the HTTP proxy (`server/request.rs`,
  `parse/method_line.rs`, `header/connection.rs`).

  `HttpProxyClientRequest.parse` reads the request line and then header lines
  until the empty line; `handleHeader` routes each header: `Host` is checked,
  `Connection` sets keep-alive, `TE` and `Transfer-Encoding` go to the
  hop-by-hop map, `Content-Length` is checked against earlier ones, and every
  other header goes to `parse_more_header` (`appendHeader` for `parse_basic`).
  `bodyType` reads the framing from four flags; the forwarded head is written
  from the two header maps (`serializeForOrigin`, `partialSerializeForProxy`).

  The `http` crate's URI parser and g3-types' `UpstreamAddr::from_str` are
  parameters (`UriOps`, `upstreamAddrFromStr`): they decide which request
  targets and hosts are accepted and nothing else here.  So are the crate's
  header name and method parsers and its header map (`HttpLibs`).  The reader is the
  whole remaining input; `limitedReadUntil` reads up to the first `\n`.
-/
import G3Proxy.Http.Header

namespace G3Proxy

/-- `http::Version` as the parser produces it. -/
inductive Version where
  | http10
  | http11
  | http2
  deriving Repr, DecidableEq

/-- `{:?}` of a version. -/
def Version.debugStr : Version → List Char
  | .http10 => "HTTP/1.0".toList
  | .http11 => "HTTP/1.1".toList
  | .http2 => "HTTP/2.0".toList

/-- `HttpBodyType`. -/
inductive HttpBodyType where
  | contentLength (n : Nat)
  | chunked
  | readUntilEnd
  deriving Repr, DecidableEq

/-- `HttpRequestParseError` (`server/error.rs`), the variants the parser uses. -/
inductive HttpRequestParseError where
  | clientClosed
  | tooLargeHeader (max : Nat)
  | invalidMethodLine (e : HttpLineParseError)
  | unsupportedMethod (m : List Char)
  | unsupportedVersion (v : Version)
  | invalidRequestTarget
  | invalidHeaderLine (e : HttpLineParseError)
  | invalidHost
  | invalidChunkedTransferEncoding
  | invalidContentLength
  | upgradeIsNotSupported
  deriving Repr, DecidableEq

/-! ## The request line -/

/-- `HttpMethodLine`: the version digit, the method and the request target. -/
structure HttpMethodLine where
  version : Nat
  method : List Char
  uri : List Char
  deriving Repr, DecidableEq

/-- `HttpMethodLine::parse`: split at the first two spaces, trim the target
    and the version. -/
def HttpMethodLine.parse (line : List Char) : Except HttpLineParseError HttpMethodLine :=
  match line.idxOf? ' ' with
  | none => .error (.noDelimiterFound ' ')
  | some p1 =>
    let left := line.drop (p1 + 1)
    match left.idxOf? ' ' with
    | none => .error (.noDelimiterFound ' ')
    | some p2 =>
      let v := trim (left.drop (p2 + 1))
      if v = "HTTP/1.0".toList then .ok ⟨0, line.take p1, trim (left.take p2)⟩
      else if v = "HTTP/1.1".toList then .ok ⟨1, line.take p1, trim (left.take p2)⟩
      else if v = "HTTP/2.0".toList ∨ v = "HTTP/2".toList then
        .ok ⟨2, line.take p1, trim (left.take p2)⟩
      else .error .invalidVersion

/-- What the request code uses of `http::Uri`: parsing a request target, its
    scheme, and its path with the optional query. -/
structure UriOps (U : Type) where
  fromStr : List Char → Option U
  scheme : U → Option (List Char)
  pathAndQuery : U → Option (List Char × Option (List Char))

/-! ## Connection -/

/-- `Connection`: the spelling of the received `Connection` header name. -/
inductive Connection where
  | camelCase
  | lowerCase
  | upperCase
  deriving Repr, DecidableEq

namespace Connection

/-- `Connection::from_original`. -/
def fromOriginal (s : List Char) : Connection :=
  if s = "Connection".toList ∨ s = "Proxy-Connection".toList then .camelCase
  else if s = "connection".toList ∨ s = "proxy-connection".toList then .lowerCase
  else if s = "CONNECTION".toList ∨ s = "PROXY-CONNECTION".toList then .upperCase
  else .camelCase

/-- `Connection::as_str`. -/
def asStr : Connection → List Char
  | .camelCase => "Connection".toList
  | .lowerCase => "connection".toList
  | .upperCase => "CONNECTION".toList

/-- `Connection::write_to_buf`. -/
def writeToBuf (c : Connection) (close : Bool) (headers : List HeaderName) : List Char :=
  c.asStr ++ ": ".toList ++ (if close then "Close".toList else "Keep-Alive".toList) ++
    headers.flatMap (fun h => ", ".toList ++ h.str) ++ "\r\n".toList

end Connection

/-! ## The request -/

/-- `HttpProxyClientRequest`, with a request target of type `U`, a host of
    type `A` and header maps of type `M`.  (`auth_info` is set only by the
    callers' closures and is left out.) -/
structure HttpProxyClientRequest (U A M : Type) where
  version : Version
  method : List Char
  uri : U
  endToEndHeaders : M
  hopByHopHeaders : M
  host : Option A
  originalConnectionName : Connection
  extraConnectionHeaders : List HeaderName
  originHeaderSize : Nat
  keepAlive : Bool
  contentLength : Nat
  chunkedTransfer : Bool
  hasTransferEncoding : Bool
  hasContentLength : Bool

namespace HttpProxyClientRequest

variable {U A M : Type} (L : HttpLibs M)

/-- `HttpProxyClientRequest::new`. -/
def new (method : List Char) (uri : U) (version : Version) : HttpProxyClientRequest U A M :=
  ⟨version, method, uri, L.empty, L.empty, none, .camelCase, [], 0, false, 0, false, false, false⟩

/-- `body_type`. -/
def bodyType (req : HttpProxyClientRequest U A M) : Option HttpBodyType :=
  if req.chunkedTransfer then some .chunked
  else if req.contentLength > 0 then some (.contentLength req.contentLength)
  else none

/-- `build_from_method_line`. -/
def buildFromMethodLine (uri : UriOps U) (line : List Char) :
    Except HttpRequestParseError (HttpProxyClientRequest U A M) :=
  match HttpMethodLine.parse line with
  | .error e => .error (.invalidMethodLine e)
  | .ok ml =>
    -- the method line parser only yields the digits 0, 1 and 2
    let version := if ml.version = 0 then Version.http10 else if ml.version = 1 then .http11
      else .http2
    if version = .http2 then .error (.unsupportedVersion .http2)
    else match L.methodFromStr ml.method with
      | none => .error (.unsupportedMethod ml.method)
      | some m => match uri.fromStr ml.uri with
        | none => .error .invalidRequestTarget
        | some u => .ok (new L m u version)

/-- The header names `handle_header` treats specially. -/
def hostName : HeaderName := ⟨"host".toList⟩
def connectionName : HeaderName := ⟨"connection".toList⟩
def keepAliveName : HeaderName := ⟨"keep-alive".toList⟩
def teName : HeaderName := ⟨"te".toList⟩
def upgradeName : HeaderName := ⟨"upgrade".toList⟩
def transferEncodingName : HeaderName := ⟨"transfer-encoding".toList⟩
def contentLengthName : HeaderName := ⟨"content-length".toList⟩

/-- One comma-separated token of a lowercased `Connection` value:
    `keep-alive`, `close`, or the name of an extra connection header. -/
def connectionToken (req : HttpProxyClientRequest U A M) (v : List Char) :
    HttpProxyClientRequest U A M :=
  if v = [] then req
  else if trim v = "keep-alive".toList then { req with keepAlive := true }
  else if trim v = "close".toList then { req with keepAlive := false }
  else match L.headerNameFromStr (trim v) with
    | some h => { req with extraConnectionHeaders := req.extraConnectionHeaders ++ [h] }
    | none => req

/-- `parse_header_connection`. -/
def parseHeaderConnection (req : HttpProxyClientRequest U A M) (header : HttpHeaderLine) :
    Except HttpRequestParseError (HttpProxyClientRequest U A M) :=
  .ok { (splitOn ',' (toLowercase header.value)).foldl (connectionToken L) req with
    originalConnectionName := Connection.fromOriginal header.name }

/-- The value of a header line, with its received name (`HttpHeaderValue::from_str`
    and `set_original_name`). -/
def headerValue (header : HttpHeaderLine) : Except HttpRequestParseError HttpHeaderValue :=
  match HttpHeaderValue.fromStr header.value with
  | none => .error (.invalidHeaderLine .invalidHeaderValue)
  | some v => .ok (v.setOriginalName header.name)

/-- `append_header`: the header goes to the end-to-end map. -/
def appendHeader (req : HttpProxyClientRequest U A M) (name : HeaderName) (header : HttpHeaderLine) :
    Except HttpRequestParseError (HttpProxyClientRequest U A M) :=
  match headerValue header with
  | .error e => .error e
  | .ok v => .ok { req with endToEndHeaders := L.append req.endToEndHeaders name v }

/-- `insert_hop_by_hop_header`: the header goes to the hop-by-hop map. -/
def insertHopByHopHeader (req : HttpProxyClientRequest U A M) (name : HeaderName)
    (header : HttpHeaderLine) : Except HttpRequestParseError (HttpProxyClientRequest U A M) :=
  match headerValue header with
  | .error e => .error e
  | .ok v => .ok { req with hopByHopHeaders := L.append req.hopByHopHeaders name v }

section Handle

variable (upstreamAddrFromStr : List Char → Option A)
  (parseMoreHeader : HttpProxyClientRequest U A M → HeaderName → HttpHeaderLine →
    Except HttpRequestParseError (HttpProxyClientRequest U A M))

/-- The `Transfer-Encoding` branch of `handle_header` before the coding is
    checked: a `Content-Length` seen before is dropped, with its value. -/
def transferEncodingSeen (req : HttpProxyClientRequest U A M) : HttpProxyClientRequest U A M :=
  let req := { req with hasTransferEncoding := true }
  if req.hasContentLength then
    { req with endToEndHeaders := L.remove req.endToEndHeaders contentLengthName,
               contentLength := 0, keepAlive := false }
  else req

/-- `handle_header`. -/
def handleHeader (req : HttpProxyClientRequest U A M) (header : HttpHeaderLine) :
    Except HttpRequestParseError (HttpProxyClientRequest U A M) :=
  match L.headerNameFromStr header.name with
  | none => .error (.invalidHeaderLine .invalidHeaderName)
  | some name =>
    if name = hostName then
      if req.host.isSome then .error .invalidHost
      else if header.value = [] then parseMoreHeader req name header
      else match upstreamAddrFromStr header.value with
        | none => .error .invalidHost
        | some h => parseMoreHeader { req with host := some h } name header
    else if name = connectionName then parseHeaderConnection L req header
    else if name = keepAliveName then .ok req
    else if name = teName then insertHopByHopHeader L req name header
    else if name = upgradeName then .error .upgradeIsNotSupported
    else if name = transferEncodingName then
      if "chunked".toList.isSuffixOf (toLowercase header.value) then
        insertHopByHopHeader L { transferEncodingSeen L req with chunkedTransfer := true } name header
      else .error .invalidChunkedTransferEncoding
    else if name = contentLengthName then
      if req.hasTransferEncoding then .ok { req with keepAlive := false }
      else match u64FromStr header.value with
        | none => .error .invalidContentLength
        | some n =>
          if req.hasContentLength ∧ req.contentLength ≠ n then .error .invalidContentLength
          else parseMoreHeader { req with hasContentLength := true, contentLength := n } name header
    else parseMoreHeader req name header

/-- `parse_header_line`. -/
def parseHeaderLine (req : HttpProxyClientRequest U A M) (line : List Char) :
    Except HttpRequestParseError (HttpProxyClientRequest U A M) :=
  match HttpHeaderLine.parse line with
  | .error e => .error (.invalidHeaderLine e)
  | .ok header => handleHeader L upstreamAddrFromStr parseMoreHeader req header

end Handle

end HttpProxyClientRequest

/-- `limited_read_until(b'\n', limit)` on the remaining input: whether a whole
    line within the limit was read, the bytes read, the line and the rest.
    (Its outcome does not depend on how the reader splits the input.) -/
def limitedReadUntil (input : List Char) (limit : Nat) :
    (Bool × Nat) × List Char × List Char :=
  match input.idxOf? '\n' with
  | some i =>
    let line := input.take (i + 1)
    ((decide (byteLen line ≤ limit), byteLen line), line, input.drop (i + 1))
  | none => ((false, byteLen input), input, [])

namespace HttpProxyClientRequest

variable {U A M : Type} (L : HttpLibs M) (uri : UriOps U) (upstreamAddrFromStr : List Char → Option A)
  (parseMoreHeader : HttpProxyClientRequest U A M → HeaderName → HttpHeaderLine →
    Except HttpRequestParseError (HttpProxyClientRequest U A M))

/-- The header loop of `parse`: read a line, stop at the empty line, else
    handle the header.  Every round reads at least one character, so
    `input.length + 1` rounds of fuel never run out. -/
def parseHeaders (maxHeaderSize : Nat) :
    Nat → HttpProxyClientRequest U A M → Nat → List Char →
      Except HttpRequestParseError (HttpProxyClientRequest U A M × List Char)
  | 0, _, _, _ => .error .clientClosed
  | fuel + 1, req, headerSize, input =>
    if headerSize ≥ maxHeaderSize then .error (.tooLargeHeader maxHeaderSize)
    else
      let maxLen := maxHeaderSize - headerSize
      let ((found, nr), line, rest) := limitedReadUntil input maxLen
      if nr = 0 then .error .clientClosed
      else if !found then
        .error (if nr < maxLen then .clientClosed else .tooLargeHeader maxHeaderSize)
      else if line = "\n".toList ∨ line = "\r\n".toList then
        .ok ({ req with originHeaderSize := headerSize + nr }, rest)
      else match parseHeaderLine L upstreamAddrFromStr parseMoreHeader req line with
        | .error e => .error e
        | .ok req => parseHeaders maxHeaderSize fuel req (headerSize + nr) rest

/-- `HttpProxyClientRequest::parse`: the request and the input after its head. -/
def parse (maxHeaderSize : Nat) (input : List Char) :
    Except HttpRequestParseError (HttpProxyClientRequest U A M × List Char) :=
  let ((found, nr), line, rest) := limitedReadUntil input maxHeaderSize
  if nr = 0 then .error .clientClosed
  else if !found then
    .error (if nr < maxHeaderSize then .clientClosed else .tooLargeHeader maxHeaderSize)
  else match buildFromMethodLine L uri line with
    | .error e => .error e
    | .ok req =>
      let req := { req with keepAlive := req.version = .http11 }
      parseHeaders L upstreamAddrFromStr parseMoreHeader maxHeaderSize (rest.length + 1) req nr rest

/-- `parse_basic`: every other header is appended to the end-to-end map. -/
def parseBasic (maxHeaderSize : Nat) (input : List Char) :
    Except HttpRequestParseError (HttpProxyClientRequest U A M × List Char) :=
  parse L uri upstreamAddrFromStr (appendHeader L) maxHeaderSize input

/-! ## The forwarded head -/

/-- The request line `serialize_for_origin` writes. -/
def originRequestLine (req : HttpProxyClientRequest U A M) : List Char :=
  let options := req.method = "OPTIONS".toList
  match uri.pathAndQuery req.uri with
  | some (path, query) =>
    if options ∧ query = none ∧ path = "/".toList then
      "OPTIONS * ".toList ++ req.version.debugStr ++ "\r\n".toList
    else req.method ++ " ".toList ++ path ++ (query.map ('?' :: ·)).getD [] ++ " ".toList ++
      req.version.debugStr ++ "\r\n".toList
  | none =>
    if options then "OPTIONS * ".toList ++ req.version.debugStr ++ "\r\n".toList
    else req.method ++ " / ".toList ++ req.version.debugStr ++ "\r\n".toList

/-- The header lines both serializations write after the request line. -/
def headerBlock (req : HttpProxyClientRequest U A M) : List Char :=
  L.writeAll req.endToEndHeaders ++ L.writeAll req.hopByHopHeaders ++
    req.originalConnectionName.writeToBuf (!req.keepAlive) req.extraConnectionHeaders

/-- `serialize_for_origin`. -/
def serializeForOrigin (req : HttpProxyClientRequest U A M) : List Char :=
  originRequestLine uri req ++ headerBlock L req ++ "\r\n".toList

/-- `partial_serialize_for_proxy`: the request line in absolute form, without
    the final empty line. -/
def partialSerializeForProxy (display : A → List Char) (req : HttpProxyClientRequest U A M)
    (upstream : A) : List Char :=
  let scheme := (uri.scheme req.uri).getD "http".toList
  (match uri.pathAndQuery req.uri with
    | some (path, query) =>
      req.method ++ " ".toList ++ scheme ++ "://".toList ++ display upstream ++ path ++
        (query.map ('?' :: ·)).getD [] ++ " ".toList ++ req.version.debugStr ++ "\r\n".toList
    | none => req.method ++ " / ".toList ++ req.version.debugStr ++ "\r\n".toList) ++
  headerBlock L req

/-- The header fields of the forwarded head, as `(name, value)` pairs: the
    end-to-end then the hop-by-hop ones; the `Connection` line follows them. -/
def forwardedFields (req : HttpProxyClientRequest U A M) : List (HeaderName × HttpHeaderValue) :=
  L.fields req.endToEndHeaders ++ L.fields req.hopByHopHeaders

end HttpProxyClientRequest

end G3Proxy
