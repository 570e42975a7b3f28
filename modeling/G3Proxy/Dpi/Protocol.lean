/-
  The protocols of g3-dpi (`protocol/mod.rs`) and the port map that says
  which of them to try first for a server port (`protocol/portmap.rs`).

  * `MaybeProtocol` lists the plain protocols, the TLS-wrapped ones, `Ssl`
    and the bound `_MaxSize`; `fromStr` is the name table the YAML port map
    parser uses, `ofAlpn` the conversion from an ALPN protocol, and
    `asUsize` the index of a protocol's bit in the inspector's bit set.
  * `ProtocolPortMapValue.insert` records a protocol for a port: `Ssl` only
    sets `check_ssl`, nine TLS-wrapped protocols set it and record their
    plain protocol, and every other protocol is recorded as it is.
    `DnsOverTls` is not among the nine.
  * `inspectable` is the set of protocols the inspector has a check for.
    `insert_inspectable` is what `insert` keeps of it, and
    `tcpServer_dnsOverTls` is the entry of the default map that breaks it.
-/
import G3Proxy.Http.Header

namespace G3Proxy

/-- `MaybeProtocol`. -/
inductive MaybeProtocol where
  | http | smtp | odmr | ssh | ftp | dns | pop3 | nntp | nnsp | imap | rtsp | mqtt | stomp
  | smpp | rtmp | nats | bitTorrent
  | https | submissions | pop3s | nntps | imaps | rtsps | secureMqtt | ssmpp | rtmps
  | dnsOverTls
  | ssl
  | maxSize
  deriving Repr, DecidableEq

namespace MaybeProtocol

/-- `is_ssl`. -/
def isSsl : MaybeProtocol → Bool
  | ssl | https | submissions | pop3s | nntps | imaps | rtsps | secureMqtt | ssmpp | rtmps
  | dnsOverTls => true
  | _ => false

/-- The protocols the inspector has an arm for other than `unreachable!()`:
    all but the TLS-wrapped ones and `_MaxSize`.  `Ssl` has its own check. -/
def inspectable (p : MaybeProtocol) : Bool :=
  (!p.isSsl || p = ssl) && p ≠ maxSize

/-- The names of `MaybeProtocol::from_str`, in the order of its match. -/
def names : List (String × MaybeProtocol) :=
  [("http", http), ("smtp", smtp), ("odmr", odmr), ("ssh", ssh), ("ftp", ftp), ("pop3", pop3),
    ("nntp", nntp), ("nnsp", nnsp), ("imap", imap), ("rtsp", rtsp), ("mqtt", mqtt),
    ("stomp", stomp), ("smpp", smpp), ("rtmp", rtmp), ("nats", nats),
    ("bittorrent", bitTorrent), ("bt", bitTorrent), ("https", https), ("http+tls", https),
    ("submissions", submissions), ("smtps", submissions), ("pop3s", pop3s),
    ("pop3+tls", pop3s), ("nntps", nntps), ("nntp+tls", nntps), ("snntp", nntps),
    ("imaps", imaps), ("imap+tls", imaps), ("rtsps", rtsps), ("rtsp+tls", rtsps),
    ("secure-mqtt", secureMqtt), ("ssmpp", ssmpp), ("smpps", ssmpp), ("secure smpp", ssmpp),
    ("rtmps", rtmps), ("rtmp+tls", rtmps), ("dot", dnsOverTls), ("dnsovertls", dnsOverTls),
    ("dns-over-tls", dnsOverTls), ("ssl", ssl), ("tls", ssl)]

/-- `MaybeProtocol::from_str`: the lowercase text looked up among the names. -/
def fromStr (s : List Char) : Option MaybeProtocol :=
  (names.find? (·.1.toList = toLowercase s)).map (·.2)

/-- `protocol as usize`: the place of the variant in the declaration, the
    index of its bit in the inspector's set of excluded protocols. -/
def asUsize (p : MaybeProtocol) : Nat := p.ctorIdx

/-- `_MaxSize` is the last variant: every other one has a smaller index. -/
theorem asUsize_lt_maxSize {p : MaybeProtocol} (h : p ≠ maxSize) : p.asUsize < maxSize.asUsize := by
  cases p <;> first | exact absurd rfl h | decide

end MaybeProtocol

/-- `g3_types::net::AlpnProtocol`. -/
inductive AlpnProtocol where
  | http10 | http11 | http2 | http3 | ftp | smtp | imap | pop3 | nntp | nnsp | mqtt
  | dnsOverTls | dnsOverQuic
  deriving Repr, DecidableEq

/-- `From<AlpnProtocol> for MaybeProtocol`. -/
def MaybeProtocol.ofAlpn : AlpnProtocol → MaybeProtocol
  | .http10 | .http11 | .http2 | .http3 => .http
  | .ftp => .ftp
  | .smtp => .smtp
  | .imap => .imap
  | .pop3 => .pop3
  | .nntp => .nntp
  | .nnsp => .nnsp
  | .mqtt => .mqtt
  | .dnsOverTls => .dns
  | .dnsOverQuic => .dns

theorem MaybeProtocol.ofAlpn_inspectable (a : AlpnProtocol) : (ofAlpn a).inspectable = true := by
  cases a <;> rfl

/-! ## The port map -/

/-- `ProtocolPortMapValue`. -/
structure ProtocolPortMapValue where
  checkSsl : Bool
  protocols : List MaybeProtocol
  deriving Repr, DecidableEq

namespace ProtocolPortMapValue

/-- `ProtocolPortMapValue::default`. -/
def default : ProtocolPortMapValue := ⟨false, []⟩

/-- The tail of `insert`: record `p` unless it is there already. -/
def push (v : ProtocolPortMapValue) (p : MaybeProtocol) : ProtocolPortMapValue :=
  if v.protocols.contains p then v else { v with protocols := v.protocols ++ [p] }

/-- `insert`. -/
def insert (v : ProtocolPortMapValue) : MaybeProtocol → ProtocolPortMapValue
  | .ssl => { v with checkSsl := true }
  | .https => { v with checkSsl := true }.push .http
  | .submissions => { v with checkSsl := true }.push .smtp
  | .pop3s => { v with checkSsl := true }.push .pop3
  | .nntps => { v with checkSsl := true }.push .nntp
  | .imaps => { v with checkSsl := true }.push .imap
  | .rtsps => { v with checkSsl := true }.push .rtsp
  | .secureMqtt => { v with checkSsl := true }.push .mqtt
  | .ssmpp => { v with checkSsl := true }.push .smpp
  | .rtmps => { v with checkSsl := true }.push .rtmp
  | p => v.push p

/-- Every recorded protocol has a check. -/
def Inspectable (v : ProtocolPortMapValue) : Prop :=
  ∀ p ∈ v.protocols, p.inspectable = true

theorem default_inspectable : default.Inspectable := by
  simp [Inspectable, default]

theorem push_inspectable {v : ProtocolPortMapValue} {p : MaybeProtocol} (hv : v.Inspectable)
    (hp : p.inspectable = true) : (v.push p).Inspectable := by
  unfold push
  split_ifs
  · exact hv
  · intro q hq
    rcases List.mem_append.1 hq with hq | hq
    · exact hv q hq
    · rw [List.mem_singleton.1 hq]; exact hp

/-- `insert` keeps every recorded protocol inspectable, for every protocol
    but `DnsOverTls` and `_MaxSize`, which it records as they are. -/
theorem insert_inspectable {v : ProtocolPortMapValue} {p : MaybeProtocol} (hv : v.Inspectable)
    (hdot : p ≠ .dnsOverTls) (hmax : p ≠ .maxSize) : (v.insert p).Inspectable := by
  cases p with
  | ssl => exact hv
  | https | submissions | pop3s | nntps | imaps | rtsps | secureMqtt | ssmpp | rtmps =>
    exact push_inspectable hv rfl
  | dnsOverTls => exact absurd rfl hdot
  | maxSize => exact absurd rfl hmax
  | _ => exact push_inspectable hv rfl

end ProtocolPortMapValue

/-- `ProtocolPortMap`: the value of each port that has one. -/
structure ProtocolPortMap where
  inner : UInt16 → Option ProtocolPortMapValue

namespace ProtocolPortMap

/-- `ProtocolPortMap::empty`. -/
def empty : ProtocolPortMap := ⟨fun _ => none⟩

/-- `get`. -/
def get (m : ProtocolPortMap) (port : UInt16) : Option ProtocolPortMapValue := m.inner port

/-- `inner.entry(port).or_default()`, then `f` on the value. -/
def update (m : ProtocolPortMap) (port : UInt16)
    (f : ProtocolPortMapValue → ProtocolPortMapValue) : ProtocolPortMap :=
  ⟨fun q => if q = port then some (f ((m.inner port).getD .default)) else m.inner q⟩

/-- `insert_batch`. -/
def insertBatch (m : ProtocolPortMap) (port : UInt16) (protocols : List MaybeProtocol) :
    ProtocolPortMap :=
  m.update port fun v => protocols.foldl ProtocolPortMapValue.insert v

/-- `insert`. -/
def insert (m : ProtocolPortMap) (port : UInt16) (protocol : MaybeProtocol) : ProtocolPortMap :=
  m.update port (·.insert protocol)

/-- `tcp_server`. -/
def tcpServer : ProtocolPortMap :=
  [(21, .ftp), (22, .ssh), (25, .smtp), (53, .dns), (80, .http), (110, .pop3), (119, .nntp),
    (143, .imap), (322, .rtsps), (366, .odmr), (433, .nnsp), (443, .https),
    (465, .submissions), (554, .rtsp), (563, .nntps), (587, .smtp), (853, .dnsOverTls),
    (993, .imaps), (995, .pop3s), (1883, .mqtt), (1935, .rtmp), (2775, .smpp),
    (3550, .ssmpp), (4222, .nats), (6881, .bitTorrent), (8080, .http), (8554, .rtsp),
    (8883, .secureMqtt)].foldl (fun m e => m.insert e.1 e.2) empty

/-- `tcp_client`. -/
def tcpClient : ProtocolPortMap := empty.insert 6881 .bitTorrent

/-- Every value of the map records only inspectable protocols. -/
def Inspectable (m : ProtocolPortMap) : Prop :=
  ∀ port v, m.get port = some v → v.Inspectable

theorem update_inspectable {m : ProtocolPortMap} {port : UInt16}
    {f : ProtocolPortMapValue → ProtocolPortMapValue} (hm : m.Inspectable)
    (hf : ∀ v, v.Inspectable → (f v).Inspectable) : (m.update port f).Inspectable := by
  intro q v h
  simp only [get, update] at h
  split_ifs at h
  · cases h
    apply hf
    cases hv : m.inner port with
    | none => exact ProtocolPortMapValue.default_inspectable
    | some v => exact hm port v hv
  · exact hm q v h

theorem insert_inspectable {m : ProtocolPortMap} {port : UInt16} {p : MaybeProtocol}
    (hm : m.Inspectable) (hdot : p ≠ .dnsOverTls) (hmax : p ≠ .maxSize) :
    (m.insert port p).Inspectable :=
  update_inspectable hm fun _ hv => ProtocolPortMapValue.insert_inspectable hv hdot hmax

theorem insertBatch_inspectable {m : ProtocolPortMap} {port : UInt16}
    {ps : List MaybeProtocol} (hm : m.Inspectable)
    (hps : ∀ p ∈ ps, p ≠ .dnsOverTls ∧ p ≠ .maxSize) : (m.insertBatch port ps).Inspectable := by
  refine update_inspectable hm fun v hv => ?_
  -- the fold inserts the protocols one by one
  induction ps generalizing v with
  | nil => exact hv
  | cons p ps ih =>
    have hp := hps p List.mem_cons_self
    exact ih (fun q hq => hps q (List.mem_cons_of_mem p hq))
      (v.insert p) (ProtocolPortMapValue.insert_inspectable hv hp.1 hp.2)

/-- The default server map records `DnsOverTls` for port 853 as it is. -/
theorem tcpServer_dnsOverTls :
    tcpServer.get 853 = some ⟨false, [.dnsOverTls]⟩ := by
  decide

end ProtocolPortMap

end G3Proxy
