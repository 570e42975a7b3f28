/-
  Hosts and upstream addresses (`g3-types/src/net/host.rs`,
  `net/upstream.rs`).

  `Host::from_str` picks a parser by the first character: an IPv6 address
  between brackets or after a colon, an IP address after a digit, an IPv6
  address after a hexadecimal letter; otherwise, or when the parse after a
  digit or a letter fails, a domain through IDNA (`from_domain_str`).  The
  standard library's address parsers and `idna::domain_to_ascii` are
  parameters (`HostLibs`).
-/
import Mathlib

namespace G3Proxy

/-- `IpAddr`, by its octets. -/
inductive IpAddr where
  | v4 (octets : Vector UInt8 4)
  | v6 (octets : Vector UInt8 16)
  deriving DecidableEq, Repr

/-- `Ipv6Addr::to_ipv4_mapped`: the addresses `::ffff:a.b.c.d`. -/
def toIpv4Mapped (o : Vector UInt8 16) : Option (Vector UInt8 4) :=
  match o.toList with
  | [0, 0, 0, 0, 0, 0, 0, 0, 0, 0, 0xff, 0xff, a, b, c, d] => some #v[a, b, c, d]
  | _ => none

/-- `Ipv4Addr::to_ipv6_mapped`: `::ffff:a.b.c.d`. -/
def toIpv6Mapped (o : Vector UInt8 4) : Vector UInt8 16 :=
  #v[0, 0, 0, 0, 0, 0, 0, 0, 0, 0, 0xff, 0xff, o.get 0, o.get 1, o.get 2, o.get 3]

@[simp] theorem toIpv4Mapped_toIpv6Mapped (o : Vector UInt8 4) :
    toIpv4Mapped (toIpv6Mapped o) = some o := by
  obtain ⟨⟨l⟩, hl⟩ := o
  match l, hl with
  | [a, b, c, d], _ => rfl

/-- `Host`. -/
inductive Host where
  | ip (a : IpAddr)
  | domain (d : List Char)
  deriving DecidableEq, Repr

/-- `UpstreamAddr`. -/
structure UpstreamAddr where
  host : Host
  port : UInt16
  deriving DecidableEq, Repr

/-- What `Host::from_str` uses of the standard library and of `idna`. -/
structure HostLibs where
  /-- `Ipv6Addr::from_str` -/
  ipv6FromStr : List Char → Option (Vector UInt8 16)
  /-- `IpAddr::from_str` -/
  ipAddrFromStr : List Char → Option IpAddr
  /-- `idna::domain_to_ascii` -/
  domainToAscii : List Char → Option (List Char)

namespace Host

/-- `Host::from_maybe_mapped_ip6`. -/
def fromMaybeMappedIp6 (o : Vector UInt8 16) : Host :=
  match toIpv4Mapped o with
  | some o4 => .ip (.v4 o4)
  | none => .ip (.v6 o)

variable (libs : HostLibs)

/-- `Host::from_domain_str`. -/
def fromDomainStr (s : List Char) : Option Host :=
  (libs.domainToAscii s).map .domain

/-- `Host::from_str`. -/
def fromStr (s : List Char) : Option Host :=
  match s with
  | [] => none
  | c :: _ =>
    if c = '[' then
      -- the text between the first and the last character
      if s.getLast? = some ']' then (libs.ipv6FromStr s.tail.dropLast).map fromMaybeMappedIp6
      else none
    else if c = ':' then (libs.ipv6FromStr s).map fromMaybeMappedIp6
    else if '0' ≤ c ∧ c ≤ '9' then
      match libs.ipAddrFromStr s with
      | some (.v4 o) => some (.ip (.v4 o))
      | some (.v6 o) => some (fromMaybeMappedIp6 o)
      | none => fromDomainStr libs s
    else if ('a' ≤ c ∧ c ≤ 'f') ∨ ('A' ≤ c ∧ c ≤ 'F') then
      -- an address that starts with a letter is not IPv4-mapped
      match libs.ipv6FromStr s with
      | some o => some (.ip (.v6 o))
      | none => fromDomainStr libs s
    else fromDomainStr libs s

/-- A string whose first character starts no address is a domain. -/
theorem fromStr_of_head {c : Char} {s : List Char} (h1 : c ≠ '[') (h2 : c ≠ ':')
    (h3 : ¬('0' ≤ c ∧ c ≤ '9')) (h4 : ¬(('a' ≤ c ∧ c ≤ 'f') ∨ ('A' ≤ c ∧ c ≤ 'F'))) :
    fromStr libs (c :: s) = fromDomainStr libs (c :: s) := by
  simp only [fromStr, if_neg h1, if_neg h2, if_neg h3, if_neg h4]

end Host

/-- `UpstreamAddr::from_host_str_and_port`. -/
def UpstreamAddr.fromHostStrAndPort (libs : HostLibs) (s : List Char) (port : UInt16) :
    Option UpstreamAddr :=
  (Host.fromStr libs s).map (⟨·, port⟩)

end G3Proxy
