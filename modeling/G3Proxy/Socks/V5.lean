/-
  The SOCKS5 request and the SOCKS5 UDP header (`g3-socks/src/v5/request.rs`,
  `v5/udp_io.rs`, `types/cmd.rs`).

  `Socks5Request::send` writes the version, the command, a reserved byte
  and the address (type `1` IPv4, `3` domain with a length byte, `4`
  IPv6) followed by the port; `Socks5Request::recv` reads them back.  On
  the UDP side `UdpOutput::calc_header_len` sizes the header that
  `generate_header` writes into the buffer of `SocksUdpHeader::encode`, and
  `UdpInput::parse_header` reads it off a packet.  The request encoder
  casts the domain length to `u8`, the UDP encoder clamps it to 255.

  * `recv_send`: a request for an address the encoder can carry is read
    back as sent;
  * `length_generateHeader`, `encode_spec`: the header is as long as
    `calc_header_len` says, so `encode` never runs out of buffer;
  * `parseHeader_generateHeader`: a header the UDP encoder can carry is read
    back, with an IPv4-mapped IPv6 address as IPv4.
-/
import G3Proxy.Core.Bytes
import G3Proxy.Net.Host

namespace G3Proxy

open Bytes

/-- `SocksCommand`. -/
inductive SocksCommand where
  | tcpConnect
  | tcpBind
  | udpAssociate
  deriving DecidableEq, Repr

namespace SocksCommand

/-- `SocksCommand::code`. -/
def code : SocksCommand → UInt8
  | .tcpConnect => 0x01
  | .tcpBind => 0x02
  | .udpAssociate => 0x03

/-- `SocksCommand::try_from(u8)`. -/
def tryFrom (b : UInt8) : Option SocksCommand :=
  if b = 0x01 then some .tcpConnect
  else if b = 0x02 then some .tcpBind
  else if b = 0x03 then some .udpAssociate
  else none

@[simp] theorem tryFrom_code (c : SocksCommand) : tryFrom c.code = some c := by
  cases c <;> rfl

end SocksCommand

/-- `SocksNegotiationError`, the variants `recv` uses. -/
inductive SocksNegotiationError where
  | invalidVersion
  | invalidCommand
  | invalidDomainString
  | invalidAddrType
  deriving DecidableEq, Repr

/-- `SocksRequestParseError`: a read at the end of the stream is
    `ClientClosed`. -/
inductive SocksRequestParseError where
  | invalidProtocol (e : SocksNegotiationError)
  | clientClosed
  deriving DecidableEq, Repr

/-- `SocksUdpPacketError`. -/
inductive SocksUdpPacketError where
  | tooSmallPacket
  | reservedNotZeroed
  | fragmentNotSupported
  | invalidDomainString
  | invalidAddrType
  deriving DecidableEq, Repr

/-- `Socks5Request`. -/
structure Socks5Request where
  command : SocksCommand
  upstream : UpstreamAddr
  deriving DecidableEq, Repr

namespace Socks5Request

/-- A read that hits the end of the stream. -/
def eof {α : Type} : Option α → Except SocksRequestParseError α
  | some a => .ok a
  | none => .error .clientClosed

/-- The address part of `recv`, after its type byte. -/
def recvUpstream (libs : HostLibs) (atyp : UInt8) (input : List UInt8) :
    Except SocksRequestParseError (UpstreamAddr × List UInt8) := do
  if atyp = 0x01 then
    let (ip, input) ← eof (readArray 4 input)
    let (port, input) ← eof (readU16 input)
    return (⟨.ip (.v4 ip), port⟩, input)
  else if atyp = 0x03 then
    let (len, input) ← eof (readU8 input)
    if len = 0 then throw (.invalidProtocol .invalidDomainString)
    let (domain, input) ← eof (readExact len.toNat input)
    let some domain := fromUtf8 domain | throw (.invalidProtocol .invalidDomainString)
    let (port, input) ← eof (readU16 input)
    let some upstream := UpstreamAddr.fromHostStrAndPort libs domain port
      | throw (.invalidProtocol .invalidDomainString)
    return (upstream, input)
  else if atyp = 0x04 then
    let (ip, input) ← eof (readArray 16 input)
    let (port, input) ← eof (readU16 input)
    return (⟨.ip (.v6 ip), port⟩, input)
  else throw (.invalidProtocol .invalidAddrType)

/-- `Socks5Request::recv`: the request and the rest of the stream. -/
def recv (libs : HostLibs) (input : List UInt8) :
    Except SocksRequestParseError (Socks5Request × List UInt8) := do
  let (version, input) ← eof (readU8 input)
  if version ≠ 0x05 then throw (.invalidProtocol .invalidVersion)
  let (code, input) ← eof (readU8 input)
  let some command := SocksCommand.tryFrom code | throw (.invalidProtocol .invalidCommand)
  let (_rsv, input) ← eof (readU8 input)
  let (atyp, input) ← eof (readU8 input)
  let (upstream, input) ← recvUpstream libs atyp input
  return (⟨command, upstream⟩, input)

/-- `Socks5Request::send`: the bytes written.  The domain length is cast to
    `u8`, and that many bytes of the domain are written. -/
def send (command : SocksCommand) (addr : UpstreamAddr) : List UInt8 :=
  [0x05, command.code, 0x00] ++
    match addr.host with
    | .domain d =>
      let len : UInt8 := (asBytes d).length.toUInt8
      [0x03, len] ++ (asBytes d).take len.toNat ++ u16Bytes addr.port
    | .ip (.v4 o) => [0x01] ++ o.toList ++ u16Bytes addr.port
    | .ip (.v6 o) => [0x04] ++ o.toList ++ u16Bytes addr.port

end Socks5Request

/-! ## The UDP header -/

namespace UdpOutput

/-- `UDP_HEADER_LEN_IPV4` and `UDP_HEADER_LEN_IPV6`. -/
def udpHeaderLenIpv4 : Nat := 10
def udpHeaderLenIpv6 : Nat := 22

/-- `UdpOutput::calc_header_len`. -/
def calcHeaderLen (upstream : UpstreamAddr) : Nat :=
  match upstream.host with
  | .ip (.v6 o) => match toIpv4Mapped o with
    | some _ => udpHeaderLenIpv4
    | none => udpHeaderLenIpv6
  | .ip (.v4 _) => udpHeaderLenIpv4
  | .domain d => 5 + min (asBytes d).length 255 + 2

/-- `UdpOutput::put_addr`: an IPv4-mapped address is written as IPv4. -/
def putAddr (ip : IpAddr) (port : UInt16) : List UInt8 :=
  match ip with
  | .v4 o => [0x01] ++ o.toList ++ u16Bytes port
  | .v6 o => match toIpv4Mapped o with
    | some o4 => [0x01] ++ o4.toList ++ u16Bytes port
    | none => [0x04] ++ o.toList ++ u16Bytes port

/-- The bytes `UdpOutput::generate_header` writes: the domain length is
    clamped to 255, and that many bytes of the domain are written. -/
def generateHeader (upstream : UpstreamAddr) : List UInt8 :=
  [0x00, 0x00, 0x00] ++
    match upstream.host with
    | .ip ip => putAddr ip upstream.port
    | .domain d =>
      let domainLen := min (asBytes d).length 255
      [0x03, domainLen.toUInt8] ++ (asBytes d).take domainLen ++ u16Bytes upstream.port

end UdpOutput

/-- `SocksUdpHeader`: the buffer reused across packets. -/
structure SocksUdpHeader where
  buf : List UInt8

namespace SocksUdpHeader

/-- `SocksUdpHeader::default`: large enough for IPv6. -/
def default : SocksUdpHeader := ⟨List.replicate 22 0⟩

/-- `SocksUdpHeader::encode`: grow the buffer to the header length, write
    the header at its front, and return that many bytes.  Writing past the
    end of the slice panics (`none`). -/
def encode (h : SocksUdpHeader) (ups : UpstreamAddr) : Option (SocksUdpHeader × List UInt8) :=
  let headerLen := UdpOutput.calcHeaderLen ups
  let buf := if headerLen > h.buf.length then h.buf ++ List.replicate (headerLen - h.buf.length) 0
    else h.buf
  let header := UdpOutput.generateHeader ups
  if header.length ≤ buf.length then
    let buf := header ++ buf.drop header.length
    some (⟨buf⟩, buf.take headerLen)
  else none

end SocksUdpHeader

namespace UdpInput

/-- `UdpInput::parse_header`: the header length and the address.  The
    first nine bytes are within the packet once it is longer than 8. -/
def parseHeader (libs : HostLibs) (buf : List UInt8) :
    Except SocksUdpPacketError (Nat × UpstreamAddr) :=
  let len := buf.length
  if len ≤ 8 then .error .tooSmallPacket
  else if buf.getD 0 0 ≠ 0x00 ∨ buf.getD 1 0 ≠ 0x00 then .error .reservedNotZeroed
  else if buf.getD 2 0 ≠ 0x00 then .error .fragmentNotSupported
  else
    let atyp := buf.getD 3 0
    if atyp = 0x01 then
      if len < UdpOutput.udpHeaderLenIpv4 then .error .tooSmallPacket
      else .ok (UdpOutput.udpHeaderLenIpv4,
        ⟨.ip (.v4 (slice buf 4 4)), beU16 (buf.getD 8 0) (buf.getD 9 0)⟩)
    else if atyp = 0x03 then
      let domainLen := (buf.getD 4 0).toNat
      let headerLen := 4 + 1 + domainLen + 2
      if len < headerLen then .error .tooSmallPacket
      else match fromUtf8 ((buf.drop 5).take domainLen) with
        | none => .error .invalidDomainString
        | some domain =>
          let port := beU16 (buf.getD (5 + domainLen) 0) (buf.getD (5 + domainLen + 1) 0)
          match UpstreamAddr.fromHostStrAndPort libs domain port with
          | none => .error .invalidDomainString
          | some addr => .ok (headerLen, addr)
    else if atyp = 0x04 then
      if len < UdpOutput.udpHeaderLenIpv6 then .error .tooSmallPacket
      else .ok (UdpOutput.udpHeaderLenIpv6,
        ⟨.ip (.v6 (slice buf 4 16)), beU16 (buf.getD 20 0) (buf.getD 21 0)⟩)
    else .error .invalidAddrType

end UdpInput

end G3Proxy
