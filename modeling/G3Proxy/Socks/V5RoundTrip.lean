/-
  What the SOCKS5 parsers read back of what the encoders write.

  Both encoders write the first bytes of a domain and a length byte for
  them: `send` the length cast to `u8`, that is modulo 256, and
  `generate_header` the length clamped to 255.  So what is read back is
  the domain whose bytes those are, if `Host::from_str` reads them as a
  domain (`recv_send_domain`, `parseHeader_generateHeader_domain`); an IP
  address is read back as written, on the UDP side with an IPv4-mapped
  IPv6 address as IPv4.  For the addresses both carry whole, a domain of 1
  to 255 bytes read as itself (`UpstreamAddr.Encodable`), these give the
  round trips `recv_send` and `parseHeader_generateHeader`.

  `send_long_domain_truncated` is a domain of 259 bytes, which IDNA
  accepts, read back as a different one on both sides.
-/
import G3Proxy.Socks.V5

namespace G3Proxy

open Bytes

/-- The addresses both encoders carry whole: every IP address, and a
    domain of 1 to 255 bytes that `Host::from_str` reads as itself. -/
def UpstreamAddr.Encodable (libs : HostLibs) (u : UpstreamAddr) : Prop :=
  match u.host with
  | .ip _ => True
  | .domain d => 0 < (asBytes d).length ∧ (asBytes d).length ≤ 255 ∧
      Host.fromStr libs d = some (.domain d)

/-- The address with an IPv4-mapped IPv6 address read as IPv4, as
    `put_addr` writes it. -/
def UpstreamAddr.unmapped (u : UpstreamAddr) : UpstreamAddr :=
  ⟨match u.host with
    | .ip (.v6 o) => Host.fromMaybeMappedIp6 o
    | h => h, u.port⟩

theorem toNat_toUInt8_of_lt {n : Nat} (h : n < 256) : n.toUInt8.toNat = n := by
  rw [Nat.toUInt8_eq, UInt8.toNat_ofNat']
  omega

/-! ## The request -/

namespace Socks5Request

/-- `recv` reads back the command and an IP address as `send` wrote them. -/
theorem recv_send_ip (libs : HostLibs) (c : SocksCommand) (a : IpAddr) (port : UInt16)
    (rest : List UInt8) : recv libs (send c ⟨.ip a, port⟩ ++ rest) = .ok (⟨c, ⟨.ip a, port⟩⟩, rest) := by
  cases a <;> simp [send, recv, recvUpstream, eof, bind, Except.bind, pure, Except.pure]

/-- `recv` reads a domain as the string whose bytes `send` wrote: the first
    `len % 256` bytes of the domain. -/
theorem recv_send_domain (libs : HostLibs) (c : SocksCommand) (d d' : List Char) (port : UInt16)
    (hd' : asBytes d' = (asBytes d).take ((asBytes d).length % 256))
    (hpos : 0 < (asBytes d).length % 256) (hstr : Host.fromStr libs d' = some (.domain d'))
    (rest : List UInt8) :
    recv libs (send c ⟨.domain d, port⟩ ++ rest) = .ok (⟨c, ⟨.domain d', port⟩⟩, rest) := by
  -- the length byte is the length modulo 256
  have hlen : (asBytes d).length.toUInt8.toNat = (asBytes d).length % 256 := by
    rw [Nat.toUInt8_eq, UInt8.toNat_ofNat']
  have hne : (asBytes d).length.toUInt8 ≠ 0 := by
    intro h
    have h0 := congrArg UInt8.toNat h
    rw [hlen, UInt8.toNat_zero] at h0
    omega
  have hlen' : (asBytes d').length = (asBytes d).length % 256 := by
    rw [hd', List.length_take]
    omega
  simp [send, recv, recvUpstream, eof, bind, Except.bind, pure, Except.pure, hlen, hne, ← hd',
    readExact_append hlen', fromUtf8_asBytes, UpstreamAddr.fromHostStrAndPort, hstr]

/-- A request for an address `send` carries whole is read back as sent. -/
theorem recv_send (libs : HostLibs) (c : SocksCommand) {u : UpstreamAddr}
    (hu : u.Encodable libs) (rest : List UInt8) :
    recv libs (send c u ++ rest) = .ok (⟨c, u⟩, rest) := by
  obtain ⟨host, port⟩ := u
  cases host with
  | ip a => exact recv_send_ip libs c a port rest
  | domain d =>
    obtain ⟨hpos, hle, hstr⟩ := hu
    have hmod : (asBytes d).length % 256 = (asBytes d).length := Nat.mod_eq_of_lt (by omega)
    exact recv_send_domain libs c d d port (by rw [hmod, List.take_length]) (by omega) hstr rest

/-- A connect request for the domain `xy`, with an IDNA that keeps it, and
    one byte after it. -/
theorem recv_send_xy :
    recv ⟨fun _ => none, fun _ => none, some⟩ (send .tcpConnect ⟨.domain "xy".toList, 1080⟩ ++ [7]) =
      .ok (⟨.tcpConnect, ⟨.domain "xy".toList, 1080⟩⟩, [7]) :=
  recv_send _ .tcpConnect (by unfold UpstreamAddr.Encodable; exact ⟨by decide, by decide, by decide⟩) [7]

end Socks5Request

/-! ## The UDP header -/

namespace UdpOutput

/-- `generate_header` writes as many bytes as `calc_header_len` counts. -/
theorem length_generateHeader (u : UpstreamAddr) : (generateHeader u).length = calcHeaderLen u := by
  obtain ⟨host, port⟩ := u
  cases host with
  | ip a =>
    cases a with
    | v4 o => simp [generateHeader, putAddr, calcHeaderLen, udpHeaderLenIpv4]
    | v6 o =>
      cases h : toIpv4Mapped o <;>
        simp [generateHeader, putAddr, calcHeaderLen, h, udpHeaderLenIpv4, udpHeaderLenIpv6]
  | domain d =>
    simp only [generateHeader, calcHeaderLen, List.length_append, List.length_cons,
      List.length_nil, List.length_take, length_u16Bytes]
    omega

end UdpOutput

/-- `encode`, from any buffer, never runs past the buffer and returns the
    header `generate_header` writes; the buffer only grows. -/
theorem SocksUdpHeader.encode_spec (h : SocksUdpHeader) (ups : UpstreamAddr) :
    ∃ h', h.encode ups = some (h', UdpOutput.generateHeader ups) ∧
      UdpOutput.calcHeaderLen ups ≤ h'.buf.length ∧ h.buf.length ≤ h'.buf.length := by
  have hgen := UdpOutput.length_generateHeader ups
  unfold encode
  dsimp only
  -- the grown buffer holds the header
  generalize hbuf : (if UdpOutput.calcHeaderLen ups > h.buf.length then
    h.buf ++ List.replicate (UdpOutput.calcHeaderLen ups - h.buf.length) 0 else h.buf) = buf
  have hfit : UdpOutput.calcHeaderLen ups ≤ buf.length ∧ h.buf.length ≤ buf.length := by
    rw [← hbuf]
    split_ifs <;> simp <;> omega
  rw [if_pos (by omega)]
  refine ⟨⟨UdpOutput.generateHeader ups ++ buf.drop (UdpOutput.generateHeader ups).length⟩, ?_, ?_, ?_⟩
  · rw [← hgen, List.take_left' rfl]
  · simp only [List.length_append, List.length_drop]
    omega
  · simp only [List.length_append, List.length_drop]
    omega

namespace UdpInput

/-- The fields of an address header at their offsets: three zero bytes,
    the type, the address bytes from offset 4, and the port after them. -/
theorem addrHeader_fields {n : Nat} (t : UInt8) (o : Vector UInt8 n) (port : UInt16)
    (p : List UInt8) :
    ([0, 0, 0, t] ++ o.toList ++ u16Bytes port ++ p).getD 0 0 = 0 ∧
      ([0, 0, 0, t] ++ o.toList ++ u16Bytes port ++ p).getD 1 0 = 0 ∧
      ([0, 0, 0, t] ++ o.toList ++ u16Bytes port ++ p).getD 2 0 = 0 ∧
      ([0, 0, 0, t] ++ o.toList ++ u16Bytes port ++ p).getD 3 0 = t ∧
      slice ([0, 0, 0, t] ++ o.toList ++ u16Bytes port ++ p) 4 n = o ∧
      beU16 (([0, 0, 0, t] ++ o.toList ++ u16Bytes port ++ p).getD (4 + n) 0)
        (([0, 0, 0, t] ++ o.toList ++ u16Bytes port ++ p).getD (4 + n + 1) 0) = port := by
  have hpre : ([0, 0, 0, t] ++ o.toList).length = 4 + n := by simp; omega
  have hslice : slice ([0, 0, 0, t] ++ o.toList ++ u16Bytes port ++ p) 4 n = o := by
    have h := slice_append_length [0, 0, 0, t] (o.toList ++ u16Bytes port ++ p) 0 n
    simp only [List.append_assoc, slice_append_zero] at h
    simpa only [List.append_assoc, List.length_cons, List.length_nil] using h
  refine ⟨rfl, rfl, rfl, rfl, hslice, ?_⟩
  rw [← hpre, getD_u16Bytes_hi, getD_u16Bytes_lo, beU16_u16Bytes]

/-- `parse_header` reads back an IP address as `generate_header` wrote it:
    an IPv4-mapped one as IPv4. -/
theorem parseHeader_generateHeader_ip (libs : HostLibs) (a : IpAddr) (port : UInt16)
    {p : List UInt8} (hp : p ≠ []) :
    parseHeader libs (UdpOutput.generateHeader ⟨.ip a, port⟩ ++ p) =
      .ok (UdpOutput.calcHeaderLen ⟨.ip a, port⟩, UpstreamAddr.unmapped ⟨.ip a, port⟩) := by
  have hlen : 0 < p.length := List.length_pos_iff.2 hp
  -- an address written as IPv4: type 1, four bytes, the port
  have hv4 : ∀ o : Vector UInt8 4,
      parseHeader libs ([0, 0, 0, 0x01] ++ o.toList ++ u16Bytes port ++ p) =
        .ok (UdpOutput.udpHeaderLenIpv4, ⟨.ip (.v4 o), port⟩) := by
    intro o
    obtain ⟨h0, h1, h2, h3, hslice, hport⟩ := addrHeader_fields 0x01 o port p
    have hbuf : ([0, 0, 0, 0x01] ++ o.toList ++ u16Bytes port ++ p).length = 10 + p.length := by
      simp; omega
    rw [parseHeader]
    simp only [hbuf, h0, h1, h2, h3, hslice, hport, ne_eq, not_true_eq_false, or_self, if_false,
      UdpOutput.udpHeaderLenIpv4, if_true]
    rw [if_neg (by omega), if_neg (by omega)]
  cases a with
  | v4 o =>
    simpa [UdpOutput.generateHeader, UdpOutput.putAddr, UdpOutput.calcHeaderLen,
      UpstreamAddr.unmapped] using hv4 o
  | v6 o =>
    cases h : toIpv4Mapped o with
    | some o4 =>
      -- a mapped address is written, and read, as IPv4
      simpa [UdpOutput.generateHeader, UdpOutput.putAddr, UdpOutput.calcHeaderLen,
        UpstreamAddr.unmapped, Host.fromMaybeMappedIp6, h] using hv4 o4
    | none =>
      obtain ⟨h0, h1, h2, h3, hslice, hport⟩ := addrHeader_fields 0x04 o port p
      have hbuf : ([0, 0, 0, 0x04] ++ o.toList ++ u16Bytes port ++ p).length = 22 + p.length := by
        simp; omega
      have hgen : UdpOutput.generateHeader ⟨.ip (.v6 o), port⟩ ++ p =
          [0, 0, 0, 0x04] ++ o.toList ++ u16Bytes port ++ p := by
        simp [UdpOutput.generateHeader, UdpOutput.putAddr, h]
      rw [hgen, parseHeader]
      simp only [hbuf, h0, h1, h2, h3, hslice, hport, ne_eq, not_true_eq_false, or_self, if_false,
        UdpOutput.udpHeaderLenIpv6, if_true]
      rw [if_neg (by omega), if_neg (by decide), if_neg (by decide), if_neg (by omega)]
      simp [UdpOutput.calcHeaderLen, UdpOutput.udpHeaderLenIpv6, UpstreamAddr.unmapped,
        Host.fromMaybeMappedIp6, h]

/-- `parse_header` reads a domain as the string whose bytes
    `generate_header` wrote: the first `min len 255` bytes of the domain. -/
theorem parseHeader_generateHeader_domain (libs : HostLibs) (d d' : List Char) (port : UInt16)
    (hd' : asBytes d' = (asBytes d).take (min (asBytes d).length 255)) (hpos : 0 < (asBytes d).length)
    (hstr : Host.fromStr libs d' = some (.domain d')) {p : List UInt8} (hp : p ≠ []) :
    parseHeader libs (UdpOutput.generateHeader ⟨.domain d, port⟩ ++ p) =
      .ok (UdpOutput.calcHeaderLen ⟨.domain d, port⟩, ⟨.domain d', port⟩) := by
  have hlen : 0 < p.length := List.length_pos_iff.2 hp
  have hlen' : (asBytes d').length = min (asBytes d).length 255 := by
    rw [hd', List.length_take]
    omega
  -- the header is the length byte, the bytes of `d'` and the port
  have hgen : UdpOutput.generateHeader ⟨.domain d, port⟩ =
      [0, 0, 0, 3, (asBytes d').length.toUInt8] ++ asBytes d' ++ u16Bytes port := by
    simp only [UdpOutput.generateHeader, hd']
    simp
  have hcalc : UdpOutput.calcHeaderLen ⟨.domain d, port⟩ = 5 + (asBytes d').length + 2 := by
    simp only [UdpOutput.calcHeaderLen, hlen']
  have hL : (asBytes d').length.toUInt8.toNat = (asBytes d').length :=
    toNat_toUInt8_of_lt (by omega)
  rw [hgen, hcalc]
  simp [parseHeader, hL, List.getElem?_append_right, List.getElem?_cons, u16Bytes, beU16_u16Bytes,
    fromUtf8_asBytes, UpstreamAddr.fromHostStrAndPort, hstr]
  rw [if_neg (by omega), if_neg (by omega)]

/-- A header for an address the UDP encoder carries whole, followed by a
    payload, is read back with its length. -/
theorem parseHeader_generateHeader (libs : HostLibs) {u : UpstreamAddr} (hu : u.Encodable libs)
    {p : List UInt8} (hp : p ≠ []) :
    parseHeader libs (UdpOutput.generateHeader u ++ p) = .ok (UdpOutput.calcHeaderLen u, u.unmapped) := by
  obtain ⟨host, port⟩ := u
  cases host with
  | ip a => exact parseHeader_generateHeader_ip libs a port hp
  | domain d =>
    obtain ⟨hpos, hle, hstr⟩ := hu
    have hmin : min (asBytes d).length 255 = (asBytes d).length := Nat.min_eq_left hle
    exact parseHeader_generateHeader_domain libs d d port (by rw [hmin, List.take_length]) hpos hstr hp

/-- The UDP header for `127.0.0.1:53`, with a two-byte payload. -/
theorem parseHeader_generateHeader_loopback :
    parseHeader ⟨fun _ => none, fun _ => none, some⟩
        (UdpOutput.generateHeader ⟨.ip (.v4 ⟨#[127, 0, 0, 1], rfl⟩), 53⟩ ++ [1, 2]) =
      .ok (UdpOutput.calcHeaderLen ⟨.ip (.v4 ⟨#[127, 0, 0, 1], rfl⟩), 53⟩,
        UpstreamAddr.unmapped ⟨.ip (.v4 ⟨#[127, 0, 0, 1], rfl⟩), 53⟩) :=
  parseHeader_generateHeader _ (by unfold UpstreamAddr.Encodable; trivial) (List.cons_ne_nil 1 [2])

end UdpInput

/-! ## A domain longer than 255 bytes -/

/-- A domain of 259 bytes: four labels of 63 letters, then `xxx`. -/
def longDomain : List Char :=
  (List.replicate 4 (List.replicate 63 'x' ++ ['.'])).flatten ++ List.replicate 3 'x'

theorem longDomain_ascii : ∀ c ∈ longDomain, c.utf8Size = 1 := by
  intro c hc
  have hx : c = 'x' ∨ c = '.' := by
    simp only [longDomain, List.mem_append, List.mem_flatten, List.mem_replicate] at hc
    rcases hc with ⟨l, ⟨-, rfl⟩, hc⟩ | ⟨-, rfl⟩
    · rcases List.mem_append.1 hc with hc | hc
      · exact .inl (List.mem_replicate.1 hc).2
      · exact .inr (List.mem_singleton.1 hc)
    · exact .inl rfl
  rcases hx with rfl | rfl <;> rfl

/-- `Host::from_str` of a string of letters from `g` on and dots is
    `from_domain_str`. -/
theorem fromStr_x (libs : HostLibs) (s : List Char) :
    Host.fromStr libs ('x' :: s) = Host.fromDomainStr libs ('x' :: s) :=
  Host.fromStr_of_head libs (by decide) (by decide) (by decide) (by decide)

/-- With an IDNA that keeps these lowercase names, the 259-byte domain is a
    host `Host::from_str` yields; `send` writes its length as `3` and `recv`
    reads the domain `xxx`, while `generate_header` writes its first 255
    bytes and `parse_header` reads those. -/
theorem send_long_domain_truncated (libs : HostLibs)
    (hlong : libs.domainToAscii longDomain = some longDomain)
    (hxxx : libs.domainToAscii (List.replicate 3 'x') = some (List.replicate 3 'x'))
    (h255 : libs.domainToAscii (longDomain.take 255) = some (longDomain.take 255))
    (c : SocksCommand) (port : UInt16) {p : List UInt8} (hp : p ≠ []) :
    Host.fromStr libs longDomain = some (.domain longDomain) ∧
      (asBytes longDomain).length = 259 ∧
      Socks5Request.recv libs (Socks5Request.send c ⟨.domain longDomain, port⟩) =
        .ok (⟨c, ⟨.domain (List.replicate 3 'x'), port⟩⟩, []) ∧
      UdpInput.parseHeader libs (UdpOutput.generateHeader ⟨.domain longDomain, port⟩ ++ p) =
        .ok (262, ⟨.domain (longDomain.take 255), port⟩) := by
  have hlen : (asBytes longDomain).length = 259 := by
    rw [length_asBytes_of_ascii longDomain_ascii]
    simp only [longDomain, List.length_append, List.length_flatten, List.map_replicate,
      List.length_replicate, List.length_cons, List.length_nil]
    rfl
  have hfrom : ∀ s, libs.domainToAscii ('x' :: s) = some ('x' :: s) →
      Host.fromStr libs ('x' :: s) = some (.domain ('x' :: s)) := by
    intro s hs
    rw [fromStr_x, Host.fromDomainStr, hs]
    rfl
  refine ⟨hfrom _ hlong, hlen, ?_, ?_⟩
  · -- the length byte is 259 mod 256 = 3: the first three letters are read
    have hxxx' : (List.replicate 3 'x') = longDomain.take 3 := rfl
    have h := Socks5Request.recv_send_domain libs c longDomain (List.replicate 3 'x') port
      (by rw [hxxx', asBytes_take_of_ascii longDomain_ascii, hlen]) (by rw [hlen]; decide)
      (hfrom _ hxxx) []
    rwa [List.append_nil] at h
  · -- the clamp keeps the first 255 bytes
    have h := UdpInput.parseHeader_generateHeader_domain libs longDomain (longDomain.take 255) port
      (by rw [asBytes_take_of_ascii longDomain_ascii, hlen]; rfl) (by rw [hlen]; decide)
      (hfrom _ h255) hp
    rw [h]
    simp [UdpOutput.calcHeaderLen, hlen]

/-- The witness: an IDNA that keeps every string, and a one-byte payload. -/
theorem send_long_domain_truncated_identity :
    ∃ libs : HostLibs, libs.domainToAscii longDomain = some longDomain ∧
      libs.domainToAscii (List.replicate 3 'x') = some (List.replicate 3 'x') ∧
      libs.domainToAscii (longDomain.take 255) = some (longDomain.take 255) ∧
      (Host.fromStr libs longDomain = some (.domain longDomain) ∧
        (asBytes longDomain).length = 259 ∧
        Socks5Request.recv libs (Socks5Request.send .tcpConnect ⟨.domain longDomain, 1080⟩) =
          .ok (⟨.tcpConnect, ⟨.domain (List.replicate 3 'x'), 1080⟩⟩, []) ∧
        UdpInput.parseHeader libs (UdpOutput.generateHeader ⟨.domain longDomain, 1080⟩ ++ [0]) =
          .ok (262, ⟨.domain (longDomain.take 255), 1080⟩)) :=
  ⟨⟨fun _ => none, fun _ => none, some⟩, rfl, rfl, rfl,
    send_long_domain_truncated ⟨fun _ => none, fun _ => none, some⟩ rfl rfl rfl .tcpConnect 1080
      (List.cons_ne_nil 0 [])⟩

end G3Proxy
