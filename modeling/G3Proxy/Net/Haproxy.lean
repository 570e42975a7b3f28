/-
  The PROXY protocol header of g3-types (`net/haproxy`), which g3proxy sends
  ahead of a proxied connection, and the readers of g3-io-ext
  (`haproxy/v1.rs`, `haproxy/v2.rs`) that take it off an accepted one.

  * `SocketAddr` keeps what `std::net::SocketAddr` compares: an IPv6 socket
    address has a flow label and a scope id besides its address and port.
    Neither version of the header carries them; `SocketAddr.carried` is the
    address a reader can give back.
  * Version 1 is the text line `PROXY TCP4 src dst sport dport\r\n`.  The
    address text is the standard library's `Display` of `Ipv4Addr` and
    `Ipv6Addr`, read back by their `FromStr`: the parameter `IpText`, whose
    fields are what the standard library guarantees of the two.
    `ProxyProtocolV1Reader.parseBuf` is `parse_buf`: past the first six
    bytes it splits at spaces, and it trims the end of the last field only.
  * Version 2 is binary: a 16-byte header whose last two bytes are the
    length of what follows, the addresses at fixed offsets, then TLVs.
    `ProxyProtocolV2Encoder` keeps the bytes below `len`: every one of them
    was written by the call that moved `len` over it, so the rest of the
    fixed buffer is never read.  `pushTlv` moves `len` back when the TLV does
    not fit.  `ProxyProtocolV2Reader.readProxyProtocolV2ForTcp` reads the
    header, the data it announces, and the addresses, from the bytes of the
    stream, and gives back what is left of it.
-/
import G3Proxy.Net.Host
import G3Proxy.Http.Header
import G3Proxy.Core.Bytes
import G3Proxy.Core.Panic
import G3Proxy.Core.Lists

namespace G3Proxy

/-- `SocketAddr`. -/
inductive SocketAddr where
  | v4 (ip : Vector UInt8 4) (port : UInt16)
  | v6 (ip : Vector UInt8 16) (port : UInt16) (flowinfo : UInt32) (scopeId : UInt32)
  deriving DecidableEq, Repr

namespace SocketAddr

/-- `SocketAddr::ip`. -/
def ip : SocketAddr → IpAddr
  | .v4 a _ => .v4 a
  | .v6 a _ _ _ => .v6 a

/-- `SocketAddr::port`. -/
def port : SocketAddr → UInt16
  | .v4 _ p => p
  | .v6 _ p _ _ => p

/-- `SocketAddr::new`: an IPv6 address gets flow label and scope id `0`. -/
def new : IpAddr → UInt16 → SocketAddr
  | .v4 a, p => .v4 a p
  | .v6 a, p => .v6 a p 0 0

/-- What a header carries of an address: the address and the port. -/
def carried (a : SocketAddr) : SocketAddr := new a.ip a.port

/-- The two addresses are of one family. -/
def SameFamily : SocketAddr → SocketAddr → Prop
  | .v4 .., .v4 .. => True
  | .v6 .., .v6 .. => True
  | _, _ => False

instance : ∀ a b, Decidable (SameFamily a b)
  | .v4 .., .v4 .. => isTrue trivial
  | .v6 .., .v6 .. => isTrue trivial
  | .v4 .., .v6 .. => isFalse id
  | .v6 .., .v4 .. => isFalse id

end SocketAddr

/-- `ProxyAddr`. -/
structure ProxyAddr where
  srcAddr : SocketAddr
  dstAddr : SocketAddr
  deriving DecidableEq, Repr

/-- `ProxyProtocolEncodeError`. -/
inductive ProxyProtocolEncodeError where
  | addressFamilyNotMatch
  | invalidU16Length
  | totalLengthOverflow
  | tooLongTagValue (tag : UInt8) (len : Nat)
  deriving DecidableEq, Repr

/-- `ProxyProtocolReadError`.  `readFailed` is an `io::Error` of the stream:
    here the end of the stream inside `read_exact`. -/
inductive ProxyProtocolReadError where
  | readFailed
  | closedUnexpected
  | readTimeout
  | invalidMagicHeader
  | invalidVersion (v : UInt8)
  | invalidCommand (c : UInt8)
  | invalidFamily (f : UInt8)
  | invalidProtocol (p : UInt8)
  | invalidDataLength (len : Nat)
  | invalidSrcAddr
  | invalidDstAddr
  deriving DecidableEq, Repr

/-! ## Version 1 -/

/-- What version 1 uses of the standard library's address text: `Display`
    and `FromStr` of `Ipv4Addr` and `Ipv6Addr`, with what the standard
    library guarantees of them.  The text reads back as the address, and it
    is ASCII without spaces (the characters are digits, hexadecimal letters,
    `.` and `:`), of at most 15 and 39 characters. -/
structure IpText where
  ipv4Display : Vector UInt8 4 → List Char
  ipv4FromStr : List Char → Option (Vector UInt8 4)
  ipv6Display : Vector UInt8 16 → List Char
  ipv6FromStr : List Char → Option (Vector UInt8 16)
  ipv4FromStr_display : ∀ a, ipv4FromStr (ipv4Display a) = some a
  ipv6FromStr_display : ∀ a, ipv6FromStr (ipv6Display a) = some a
  ipv4Display_chars : ∀ a, ∀ c ∈ ipv4Display a, c.toNat < 128 ∧ c ≠ ' '
  ipv6Display_chars : ∀ a, ∀ c ∈ ipv6Display a, c.toNat < 128 ∧ c ≠ ' '
  ipv4Display_length : ∀ a, (ipv4Display a).length ≤ 15
  ipv6Display_length : ∀ a, (ipv6Display a).length ≤ 39

/-- `IpAddr`'s `Display`. -/
def IpText.display (txt : IpText) : IpAddr → List Char
  | .v4 a => txt.ipv4Display a
  | .v6 a => txt.ipv6Display a

/-- `u16`'s `Display`: decimal digits, no leading zero. -/
def u16Display (n : UInt16) : List Char := Nat.toDigits 10 n.toNat

/-- `u16::from_str`: as `u64::from_str`, below `2^16`. -/
def u16FromStr (s : List Char) : Option UInt16 :=
  (u64FromStr s).bind fun n => if n < 2 ^ 16 then some n.toUInt16 else none

/-- `str::trim_end`. -/
def trimEnd (s : List Char) : List Char :=
  (s.reverse.dropWhile isRustWhitespace).reverse

/-- `ProxyProtocolV1Encoder::encode_tcp`: the line it writes. -/
def ProxyProtocolV1Encoder.encodeTcp (txt : IpText) (clientAddr serverAddr : SocketAddr) :
    Except ProxyProtocolEncodeError (List UInt8) := do
  let head ← match clientAddr, serverAddr with
    | .v4 .., .v4 .. => pure "PROXY TCP4 ".toList
    | .v6 .., .v6 .. => pure "PROXY TCP6 ".toList
    | _, _ => throw .addressFamilyNotMatch
  pure (Bytes.asBytes (head ++ txt.display clientAddr.ip ++ ' ' :: txt.display serverAddr.ip ++
    ' ' :: u16Display clientAddr.port ++ ' ' :: u16Display serverAddr.port ++ ['\r', '\n']))

namespace ProxyProtocolV1Reader

/-- `PROXY_DATA_V1_MAX_LEN`. -/
def proxyDataV1MaxLen : Nat := 108

/-- `COMMON_DATA`. -/
def commonData : List UInt8 := Bytes.asBytes "PROXY ".toList

/-- `parse_buf` once the family was read as `TCP` and `familyC`: the
    fields after it, in the order the iterator hands them out. -/
def parseAddrs (txt : IpText) (familyC : UInt8) (fields : List (List UInt8)) :
    ExceptT ProxyProtocolReadError Option (Option ProxyAddr) := do
  let some srcIp := fields[0]? | throw .invalidSrcAddr
  let some srcIp := Bytes.fromUtf8 srcIp | throw .invalidSrcAddr
  let some dstIp := fields[1]? | throw .invalidDstAddr
  let some dstIp := Bytes.fromUtf8 dstIp | throw .invalidDstAddr
  let some srcPort := fields[2]? | throw .invalidSrcAddr
  let some srcPort := Bytes.fromUtf8 srcPort | throw .invalidSrcAddr
  let some dstPort := fields[3]? | throw .invalidDstAddr
  let some dstPort := Bytes.fromUtf8 dstPort | throw .invalidDstAddr
  let ips ← (if familyC = 52 then do
      let some s := txt.ipv4FromStr srcIp | throw .invalidSrcAddr
      let some d := txt.ipv4FromStr dstIp | throw .invalidDstAddr
      pure (IpAddr.v4 s, IpAddr.v4 d)
    else if familyC = 54 then do
      let some s := txt.ipv6FromStr srcIp | throw .invalidSrcAddr
      let some d := txt.ipv6FromStr dstIp | throw .invalidDstAddr
      pure (IpAddr.v6 s, IpAddr.v6 d)
    else throw (.invalidFamily familyC) : ExceptT ProxyProtocolReadError Option (IpAddr × IpAddr))
  let some srcPort := u16FromStr srcPort | throw .invalidSrcAddr
  -- only the last field is trimmed, of the `\r\n` that ends the line
  let some dstPort := u16FromStr (trimEnd dstPort) | throw .invalidDstAddr
  pure (some ⟨.new ips.1 srcPort, .new ips.2 dstPort⟩)

/-- `parse_buf`: `UNKNOWN` is no address; `TCP4` and `TCP6` are followed by
    the addresses and the ports. -/
def parseBuf (txt : IpText) (data : List UInt8) :
    ExceptT ProxyProtocolReadError Option (Option ProxyAddr) := do
  let left ← (data.sliceFrom? commonData.length : Option _)
  let fields := left.splitOn 32
  let some family := fields[0]? | throw (.invalidFamily 0)
  if h : family.length = 4 then
    if family.take 3 = Bytes.asBytes "TCP".toList then
      parseAddrs txt (family.get ⟨3, by omega⟩) fields.tail
    else throw (.invalidFamily 0)
  else if family.length = 7 then
    if family = Bytes.asBytes "UNKNOWN".toList then pure none else throw (.invalidFamily 0)
  else throw (.invalidFamily 0)

end ProxyProtocolV1Reader

/-! ## Version 2 -/

/-- `V2_MAGIC_HEADER`. -/
def v2MagicHeader : List UInt8 :=
  [0x0d, 0x0a, 0x0d, 0x0a, 0x00, 0x0d, 0x0a, 0x51, 0x55, 0x49, 0x54, 0x0a]

/-- `V2_BUF_CAP`. -/
def v2BufCap : Nat := 536

/-- `V2_HDR_LEN`. -/
def v2HdrLen : Nat := 16

/-- `BYTE_13_PROXY`: version 2, command `PROXY`. -/
def byte13Proxy : UInt8 := 0x20 ||| 0x01

/-- `BYTE14_TCP4`: `AF_INET`, `PROTO_STREAM`. -/
def byte14Tcp4 : UInt8 := 0x10 ||| 0x01

/-- `BYTE14_TCP6`: `AF_INET6`, `PROTO_STREAM`. -/
def byte14Tcp6 : UInt8 := 0x20 ||| 0x01

/-- `ProxyProtocolV2Encoder`: `buf[..len]`. -/
structure ProxyProtocolV2Encoder where
  data : List UInt8
  length_le : data.length ≤ v2BufCap

namespace ProxyProtocolV2Encoder

/-- `ProxyProtocolV2Encoder::new`. -/
def new : ProxyProtocolV2Encoder := ⟨[], by decide⟩

/-- The bytes `encode_tcp` writes for two addresses of one family. -/
def tcpHeader : SocketAddr → SocketAddr → Option (List UInt8)
  | .v4 c cp, .v4 s sp =>
    some (v2MagicHeader ++ [byte13Proxy, byte14Tcp4, 0, 12] ++ c.toList ++ s.toList ++
      Bytes.u16Bytes cp ++ Bytes.u16Bytes sp)
  | .v6 c cp _ _, .v6 s sp _ _ =>
    some (v2MagicHeader ++ [byte13Proxy, byte14Tcp6, 0, 36] ++ c.toList ++ s.toList ++
      Bytes.u16Bytes cp ++ Bytes.u16Bytes sp)
  | _, _ => none

theorem tcpHeader_length_le {c s : SocketAddr} {d : List UInt8} (h : tcpHeader c s = some d) :
    d.length ≤ v2BufCap := by
  unfold tcpHeader at h
  split at h
  · cases h; simp [v2MagicHeader, Bytes.u16Bytes, v2BufCap]
  · cases h; simp [v2MagicHeader, Bytes.u16Bytes, v2BufCap]
  · cases h

/-- `encode_tcp`: the magic header goes into the first twelve bytes before
    the families are compared; on a mismatch `len` stays. -/
def encodeTcp (e : ProxyProtocolV2Encoder) (clientAddr serverAddr : SocketAddr) :
    Except ProxyProtocolEncodeError (List UInt8) × ProxyProtocolV2Encoder :=
  match h : tcpHeader clientAddr serverAddr with
  | some d => (.ok d, ⟨d, tcpHeader_length_le h⟩)
  | none =>
    (.error .addressFamilyNotMatch,
      ⟨(v2MagicHeader ++ e.data.drop 12).take e.data.length, (List.length_take_le _ _).trans e.length_le⟩)

/-- `new_tcp`. -/
def newTcp (clientAddr serverAddr : SocketAddr) :
    Except ProxyProtocolEncodeError ProxyProtocolV2Encoder :=
  match new.encodeTcp clientAddr serverAddr with
  | (.ok _, e) => .ok e
  | (.error err, _) => .error err

/-- `push_tlv`: the result, and the encoder after. -/
def pushTlv (e : ProxyProtocolV2Encoder) (key : UInt8) (value : List UInt8) :
    Except ProxyProtocolEncodeError Unit × ProxyProtocolV2Encoder :=
  if value.length ≥ 2 ^ 16 then (.error .invalidU16Length, e)
  else if h : e.data.length + 3 + value.length > v2BufCap then
    -- `len` is moved back to where it was
    (.error .totalLengthOverflow, e)
  else
    (.ok (), ⟨e.data ++ key :: Bytes.u16Bytes value.length.toUInt16 ++ value, by simp; omega⟩)

/-- `finalize`: the length of what follows the header goes into bytes 14
    and 15.  `self.len - V2_HDR_LEN` panics below the header's length. -/
def finalize (e : ProxyProtocolV2Encoder) : Option (List UInt8) :=
  if e.data.length < v2HdrLen then none
  else some (e.data.take 14 ++ Bytes.u16Bytes (e.data.length - v2HdrLen).toUInt16 ++ e.data.drop 16)

end ProxyProtocolV2Encoder

namespace ProxyProtocolV2Reader

/-- `PROXY_HDR_V2_LEN`. -/
def proxyHdrV2Len : Nat := 16

/-- `PROXY_DATA_V2_MAX_LEN`. -/
def proxyDataV2MaxLen : Nat := 536

/-- `read_in_data`: the header, the data it announces, and what the stream
    holds after them. -/
def readInData (input : List UInt8) :
    Except ProxyProtocolReadError (List UInt8 × List UInt8 × List UInt8) := do
  let some (hdr, input) := Bytes.readExact proxyHdrV2Len input | throw .readFailed
  if hdr.take v2MagicHeader.length ≠ v2MagicHeader then throw .invalidMagicHeader
  -- `version()`
  let v := hdr.getD 12 0 >>> 4
  if v ≠ 2 then throw (.invalidVersion v)
  let dataLen := (Bytes.beU16 (hdr.getD 14 0) (hdr.getD 15 0)).toNat
  if dataLen > proxyDataV2MaxLen then throw (.invalidDataLength dataLen)
  let some (data, rest) := Bytes.readExact dataLen input | throw .readFailed
  pure (hdr, data, rest)

/-- `get_inet_addr`. -/
def getInetAddr (data : List UInt8) : Except ProxyProtocolReadError ProxyAddr :=
  if data.length < 12 then .error (.invalidDataLength data.length)
  else
    .ok ⟨.new (.v4 (Bytes.slice data 0 4)) (Bytes.beU16 (data.getD 8 0) (data.getD 9 0)),
      .new (.v4 (Bytes.slice data 4 4)) (Bytes.beU16 (data.getD 10 0) (data.getD 11 0))⟩

/-- `get_inet6_addr`. -/
def getInet6Addr (data : List UInt8) : Except ProxyProtocolReadError ProxyAddr :=
  if data.length < 36 then .error (.invalidDataLength data.length)
  else
    .ok ⟨.new (.v6 (Bytes.slice data 0 16)) (Bytes.beU16 (data.getD 32 0) (data.getD 33 0)),
      .new (.v6 (Bytes.slice data 16 16)) (Bytes.beU16 (data.getD 34 0) (data.getD 35 0))⟩

/-- `read_proxy_protocol_v2_for_tcp`: the addresses, and what the stream
    holds after the header and its data. -/
def readProxyProtocolV2ForTcp (input : List UInt8) :
    Except ProxyProtocolReadError (Option ProxyAddr × List UInt8) := do
  let (hdr, data, rest) ← readInData input
  -- `command()`: `COMMAND_PROXY` goes on, `COMMAND_LOCAL` carries no address
  let command := hdr.getD 12 0 &&& 0x0F
  if command = 0x00 then return (none, rest)
  if command ≠ 0x01 then throw (.invalidCommand command)
  -- `protocol()`: only `PROTOCOL_STREAM` goes on
  let protocol := hdr.getD 13 0 &&& 0x0F
  if protocol = 0x00 then return (none, rest)
  if protocol ≠ 0x01 then throw (.invalidProtocol protocol)
  -- `family()`
  let family := hdr.getD 13 0 >>> 4
  if family = 0x00 then return (none, rest)
  if family = 0x01 then return (some (← getInetAddr data), rest)
  if family = 0x02 then return (some (← getInet6Addr data), rest)
  throw (.invalidFamily family)

end ProxyProtocolV2Reader

end G3Proxy
