/-
  The protocol inspector of g3-dpi (`protocol/inspect.rs`).

  `check_client_initial_data` and `check_server_initial_data` try protocols
  one after another on the first data of a connection: the protocol left
  current by the last call, the queue filled by `push_protocol` and by
  `handle_read_pending`, and, on the first round, the protocols the server
  port map records for the port and a fixed list of guesses.  Each try goes
  through `check_*_initial_data_for_protocol`, a match with one arm per
  protocol: a checker, an exclusion, or `unreachable!()` for the
  TLS-wrapped protocols and `_MaxSize`.

  * The checkers themselves (`check_ssh_*`, `check_http_request`, ...) are
    the parameter `checks`: their answer and the exclusions they ask for.
    They touch the state only through `exclude_current` and `exclude_other`,
    which is what `InspectAction` records; the one fact used of them,
    `ChecksInRange`, is that they never exclude `_MaxSize`, whose bit is
    beyond the `FixedBitSet` (its `insert` panics there).
  * The `FixedBitSet` of excluded protocols is the parameter `S`, any
    realisation of the laws `BitSetOps.Spec`; `BitSetOps.ofList` is one.
  * A call returns `none` when it panics.  `InspectorInv` says that every
    protocol the inspector may try is inspectable and that the bit set has
    room for it; `step_inv` proves that every operation keeps it without
    panicking, and `run_inv` extends that to every sequence of operations,
    from a port map whose recorded protocols are inspectable.
  * The default map records `DnsOverTls` for port 853
    (`ProtocolPortMap.tcpServer_dnsOverTls`), and `insert` does not
    translate it, so the first call for that port panics:
    `default_port853_panics`.
-/
import G3Proxy.Dpi.Protocol
import G3Proxy.Core.Machine

namespace G3Proxy

open Machine

/-- The checkers the two `check_*_initial_data_for_protocol` matches call. -/
inductive Checker where
  | sshClientProtocolVersionExchange
  | dnsTcpRequestMessage
  | httpRequest
  | sslClientHello
  | rtspClientSetupRequest
  | mqttClientConnectRequest
  | stompClientConnectRequest
  | smppSessionRequest
  | rtmpTcpClientHandshake
  | bittorrentTcpHandshake
  | ftpServerGreeting
  | sshServerProtocolVersionExchange
  | smtpServerGreeting
  | pop3ServerGreeting
  | nntpServerGreeting
  | imapServerGreeting
  | natsServerInfoMsg
  deriving Repr, DecidableEq

/-- A change a checker makes to the inspection state. -/
inductive InspectAction where
  | excludeCurrent
  | excludeOther (p : MaybeProtocol)
  deriving Repr, DecidableEq

/-- What an arm of a `check_*_initial_data_for_protocol` match does. -/
inductive Route where
  | check (c : Checker)
  | excludeCurrent
  | unreachable
  deriving Repr, DecidableEq

/-- The arms of `check_client_initial_data_for_protocol`. -/
def clientRoute : MaybeProtocol → Route
  | .ssh => .check .sshClientProtocolVersionExchange
  | .dns => .check .dnsTcpRequestMessage
  | .http => .check .httpRequest
  | .ssl => .check .sslClientHello
  | .rtsp => .check .rtspClientSetupRequest
  | .mqtt => .check .mqttClientConnectRequest
  | .stomp => .check .stompClientConnectRequest
  | .smpp => .check .smppSessionRequest
  | .rtmp => .check .rtmpTcpClientHandshake
  | .bitTorrent => .check .bittorrentTcpHandshake
  | .ftp | .smtp | .odmr | .pop3 | .nntp | .nnsp | .imap | .nats => .excludeCurrent
  | .https | .submissions | .pop3s | .nntps | .imaps | .rtsps | .secureMqtt | .ssmpp | .rtmps
  | .dnsOverTls | .maxSize => .unreachable

/-- The arms of `check_server_initial_data_for_protocol`. -/
def serverRoute : MaybeProtocol → Route
  | .ftp => .check .ftpServerGreeting
  | .ssh => .check .sshServerProtocolVersionExchange
  | .smtp | .odmr => .check .smtpServerGreeting
  | .pop3 => .check .pop3ServerGreeting
  | .nntp | .nnsp => .check .nntpServerGreeting
  | .imap => .check .imapServerGreeting
  | .nats => .check .natsServerInfoMsg
  | .bitTorrent => .check .bittorrentTcpHandshake
  | .dns | .ssl | .http | .rtsp | .mqtt | .stomp | .smpp | .rtmp => .excludeCurrent
  | .https | .submissions | .pop3s | .nntps | .imaps | .rtsps | .secureMqtt | .ssmpp | .rtmps
  | .dnsOverTls | .maxSize => .unreachable

/-- Both matches reach `unreachable!()` exactly on the protocols that are not
    inspectable. -/
theorem clientRoute_eq_unreachable (p : MaybeProtocol) :
    clientRoute p = .unreachable ↔ p.inspectable = false := by
  cases p <;> decide

theorem serverRoute_eq_unreachable (p : MaybeProtocol) :
    serverRoute p = .unreachable ↔ p.inspectable = false := by
  cases p <;> decide

/-- `GUESS_PROTOCOL_FOR_CLIENT_INITIAL_DATA`. -/
def guessProtocolForClientInitialData : List MaybeProtocol :=
  [.ssl, .http, .ssh, .smpp, .bitTorrent]

/-- `GUESS_PROTOCOL_FOR_SERVER_INITIAL_DATA`. -/
def guessProtocolForServerInitialData : List MaybeProtocol :=
  [.ssh, .ftp, .nats, .bitTorrent]

/-! ## The bit set of excluded protocols -/

/-- The `fixedbitset` crate's `FixedBitSet` as the inspector uses it, over a
    representation `B`: `with_capacity`, `insert` (`none` is its panic at an
    index past the length), `contains`, `clear` and `len`. -/
structure BitSetOps (B : Type) where
  withCapacity : Nat → B
  insert : B → Nat → Option B
  contains : B → Nat → Bool
  clear : B → B
  len : B → Nat

/-- The laws of `FixedBitSet` the inspector rests on: a new set has the
    length asked for and no bit set, `insert` below the length goes through
    and keeps the length, and `clear` keeps it too. -/
structure BitSetOps.Spec {B : Type} (S : BitSetOps B) : Prop where
  len_withCapacity : ∀ n, S.len (S.withCapacity n) = n
  contains_withCapacity : ∀ n i, S.contains (S.withCapacity n) i = false
  insert_lt : ∀ b i, i < S.len b → ∃ b', S.insert b i = some b' ∧ S.len b' = S.len b
  len_clear : ∀ b, S.len (S.clear b) = S.len b

namespace BitSetOps

/-- `FixedBitSet` as its list of bits. -/
def ofList : BitSetOps (List Bool) where
  withCapacity n := List.replicate n false
  insert b i := if i < b.length then some (b.set i true) else none
  contains b i := b.getD i false
  clear b := List.replicate b.length false
  len b := b.length

theorem ofList_spec : ofList.Spec where
  len_withCapacity _ := List.length_replicate
  contains_withCapacity n i := by simp [ofList]
  insert_lt b i h := ⟨b.set i true, if_pos h, List.length_set⟩
  len_clear _ := List.length_replicate

end BitSetOps

/-! ## The inspection state -/

/-- `ProtocolInspectState`: the protocol being tried and the bit set of the
    excluded ones. -/
structure ProtocolInspectState (B : Type) where
  current : Option MaybeProtocol
  excluded : B

namespace ProtocolInspectState

variable {B : Type} (S : BitSetOps B)

/-- `ProtocolInspectState::default`: a bit for each protocol below `_MaxSize`. -/
def default : ProtocolInspectState B := ⟨none, S.withCapacity MaybeProtocol.maxSize.asUsize⟩

/-- `excluded.insert(protocol as usize)`; `none` is the panic of the bit set. -/
def insertExcluded (st : ProtocolInspectState B) (p : MaybeProtocol) :
    Option (ProtocolInspectState B) :=
  (S.insert st.excluded p.asUsize).map fun b => { st with excluded := b }

/-- `exclude_other`. -/
def excludeOther (st : ProtocolInspectState B) (p : MaybeProtocol) :
    Option (ProtocolInspectState B) :=
  insertExcluded S st p

/-- `exclude_current`. -/
def excludeCurrent (st : ProtocolInspectState B) : Option (ProtocolInspectState B) :=
  match st.current with
  | some p => insertExcluded S { st with current := none } p
  | none => some st

/-- `excluded`. -/
def isExcluded (st : ProtocolInspectState B) (p : MaybeProtocol) : Bool :=
  S.contains st.excluded p.asUsize

/-- `reset_state`. -/
def resetState (st : ProtocolInspectState B) : ProtocolInspectState B :=
  ⟨none, S.clear st.excluded⟩

/-- A checker's changes, in order. -/
def applyAll (st : ProtocolInspectState B) : List InspectAction → Option (ProtocolInspectState B)
  | [] => some st
  | .excludeCurrent :: as => (excludeCurrent S st).bind (applyAll · as)
  | .excludeOther p :: as => (excludeOther S st p).bind (applyAll · as)

/-- The states the inspector keeps: the protocol being tried has a check,
    and the bit set has room for every protocol below `_MaxSize`. -/
structure Wf (st : ProtocolInspectState B) : Prop where
  current : ∀ p, st.current = some p → p.inspectable = true
  len : S.len st.excluded = MaybeProtocol.maxSize.asUsize

theorem inspectable_ne_maxSize {p : MaybeProtocol} (h : p.inspectable = true) :
    p ≠ .maxSize := by
  rintro rfl; cases h

variable {S} (hS : S.Spec)
include hS

/-- Excluding a protocol other than `_MaxSize` does not panic, and keeps the
    current protocol and the length of the bit set. -/
theorem insertExcluded_ok {st : ProtocolInspectState B}
    (hlen : S.len st.excluded = MaybeProtocol.maxSize.asUsize) {p : MaybeProtocol}
    (hp : p ≠ .maxSize) :
    ∃ st', insertExcluded S st p = some st' ∧ st'.current = st.current ∧
      S.len st'.excluded = MaybeProtocol.maxSize.asUsize := by
  obtain ⟨b, hb, hblen⟩ :=
    hS.insert_lt st.excluded p.asUsize (hlen ▸ MaybeProtocol.asUsize_lt_maxSize hp)
  exact ⟨{ st with excluded := b }, by simp [insertExcluded, hb], rfl, hblen.trans hlen⟩

theorem excludeCurrent_ok {st : ProtocolInspectState B} (hst : st.Wf S) :
    ∃ st', excludeCurrent S st = some st' ∧ st'.Wf S ∧ st'.current = none := by
  unfold excludeCurrent
  cases hc : st.current with
  | none => exact ⟨st, rfl, hst, hc⟩
  | some p =>
    obtain ⟨st', h', hc', hlen'⟩ :=
      insertExcluded_ok hS
        (show S.len ({ st with current := none } : ProtocolInspectState B).excluded = _ from hst.len)
        (inspectable_ne_maxSize (hst.current p hc))
    refine ⟨st', h', ⟨fun q hq => ?_, hlen'⟩, hc'⟩
    rw [hc'] at hq
    cases hq

theorem excludeOther_ok {st : ProtocolInspectState B} (hst : st.Wf S) {p : MaybeProtocol}
    (hp : p ≠ .maxSize) : ∃ st', excludeOther S st p = some st' ∧ st'.Wf S := by
  obtain ⟨st', h', hc', hlen'⟩ := insertExcluded_ok hS hst.len hp
  refine ⟨st', h', ⟨fun q hq => ?_, hlen'⟩⟩
  rw [hc'] at hq
  exact hst.current q hq

/-- The changes of a checker that never excludes `_MaxSize` do not panic,
    and keep the state well formed. -/
theorem applyAll_ok {acts : List InspectAction} (hacts : ∀ a ∈ acts, a ≠ .excludeOther .maxSize) :
    ∀ {st : ProtocolInspectState B}, st.Wf S →
      ∃ st', applyAll S st acts = some st' ∧ st'.Wf S := by
  induction acts with
  | nil => intro st hst; exact ⟨st, rfl, hst⟩
  | cons a acts ih =>
    intro st hst
    have hrest : ∀ a' ∈ acts, a' ≠ .excludeOther .maxSize :=
      fun a' ha' => hacts a' (List.mem_cons_of_mem a ha')
    cases a with
    | excludeCurrent =>
      obtain ⟨st₁, h₁, hst₁, -⟩ := excludeCurrent_ok hS hst
      obtain ⟨st₂, h₂, hst₂⟩ := ih hrest hst₁
      exact ⟨st₂, by simp [applyAll, h₁, h₂], hst₂⟩
    | excludeOther p =>
      have hp : p ≠ .maxSize := fun h => hacts _ List.mem_cons_self (by rw [h])
      obtain ⟨st₁, h₁, hst₁⟩ := excludeOther_ok hS hst hp
      obtain ⟨st₂, h₂, hst₂⟩ := ih hrest hst₁
      exact ⟨st₂, by simp [applyAll, h₁, h₂], hst₂⟩

end ProtocolInspectState

section Checks

variable {P L B : Type} (S : BitSetOps B)
  (checks : Checker → L → List UInt8 → Except Nat (Option P) × List InspectAction)

/-- The checkers never exclude `_MaxSize` (they exclude named protocols only). -/
def ChecksInRange : Prop :=
  ∀ c limit data, ∀ a ∈ (checks c limit data).2, a ≠ .excludeOther .maxSize

/-- `check_*_initial_data_for_protocol` with the arms `route`: the checker's
    answer (`Ok(Some)`, `Ok(None)` or `Err(NeedMoreData(len))`) and the
    state; `none` is the panic of `unreachable!()` or of the bit set. -/
def checkForProtocol (route : MaybeProtocol → Route) (limit : L) (data : List UInt8)
    (st : ProtocolInspectState B) (proto : MaybeProtocol) :
    Option (Except Nat (Option P) × ProtocolInspectState B) :=
  if st.isExcluded S proto then some (.ok none, st)
  else
    let st := { st with current := some proto }
    match route proto with
    | .check c =>
      let (r, acts) := checks c limit data
      (st.applyAll S acts).map (r, ·)
    | .excludeCurrent => (st.excludeCurrent S).map (.ok none, ·)
    | .unreachable => none

/-- `check_client_initial_data_for_protocol`. -/
def checkClientInitialDataForProtocol (limit : L) (data : List UInt8) :
    ProtocolInspectState B → MaybeProtocol →
      Option (Except Nat (Option P) × ProtocolInspectState B) :=
  checkForProtocol S checks clientRoute limit data

/-- `check_server_initial_data_for_protocol`. -/
def checkServerInitialDataForProtocol (limit : L) (data : List UInt8) :
    ProtocolInspectState B → MaybeProtocol →
      Option (Except Nat (Option P) × ProtocolInspectState B) :=
  checkForProtocol S checks serverRoute limit data

/-- A try of an inspectable protocol does not panic and keeps the state well
    formed, whenever the arms panic only on protocols that are not
    inspectable. -/
theorem checkForProtocol_ok {S : BitSetOps B} (hS : S.Spec) (hchecks : ChecksInRange checks)
    {route : MaybeProtocol → Route}
    (hroute : ∀ p, route p = .unreachable → p.inspectable = false) (limit : L)
    (data : List UInt8) {st : ProtocolInspectState B} {proto : MaybeProtocol}
    (hst : st.Wf S) (hp : proto.inspectable = true) :
    ∃ r st', checkForProtocol S checks route limit data st proto = some (r, st') ∧ st'.Wf S := by
  unfold checkForProtocol
  split_ifs with hex
  · exact ⟨_, st, rfl, hst⟩
  -- from here on the protocol is current
  have hcur : ProtocolInspectState.Wf S { st with current := some proto } :=
    ⟨fun q hq => by cases hq; exact hp, hst.len⟩
  dsimp only
  cases hr : route proto with
  | check c =>
    obtain ⟨st', h', hst'⟩ := ProtocolInspectState.applyAll_ok hS (hchecks c limit data) hcur
    exact ⟨(checks c limit data).1, st', by simp [h'], hst'⟩
  | excludeCurrent =>
    obtain ⟨st', h', hst', -⟩ := ProtocolInspectState.excludeCurrent_ok hS hcur
    exact ⟨.ok none, st', by simp [h'], hst'⟩
  | unreachable => exact absurd (hroute proto hr) (by simp [hp])

end Checks

/-! ## The inspector -/

/-- `ReadPendingProtocol`. -/
structure ReadPendingProtocol where
  size : Nat
  protocol : MaybeProtocol
  deriving Repr, DecidableEq

/-- `ProtocolInspector`. -/
structure ProtocolInspector (B : Type) where
  serverPortmap : ProtocolPortMap
  state : ProtocolInspectState B
  nextCheckProtocol : List MaybeProtocol
  noExplicitSsl : Bool
  readPendingSet : List ReadPendingProtocol
  guessProtocols : Bool

/-- What `check_*_initial_data` returns: a protocol, `Protocol::Unknown`, or
    `NeedMoreData(len)`. -/
inductive Inspected (P : Type) where
  | protocol (p : P)
  | unknown
  | needMoreData (len : Nat)
  deriving Repr, DecidableEq

namespace ProtocolInspector

variable {P L B : Type} (S : BitSetOps B)

/-- `ProtocolInspector::new`. -/
def new (serverPortmap : ProtocolPortMap) : ProtocolInspector B :=
  ⟨serverPortmap, .default S, [], false, [], true⟩

/-- `ProtocolInspector::default`. -/
def default : ProtocolInspector B := new S .tcpServer

/-- `push_protocol`. -/
def pushProtocol (i : ProtocolInspector B) (p : MaybeProtocol) : ProtocolInspector B :=
  { i with nextCheckProtocol := p :: i.nextCheckProtocol }

/-- `push_alpn_protocol`. -/
def pushAlpnProtocol (i : ProtocolInspector B) (p : AlpnProtocol) : ProtocolInspector B :=
  i.pushProtocol (.ofAlpn p)

/-- `reset_state`. -/
def resetState (i : ProtocolInspector B) : ProtocolInspector B :=
  { i with state := i.state.resetState S, guessProtocols := true }

/-- `set_no_explicit_ssl`. -/
def setNoExplicitSsl (i : ProtocolInspector B) : ProtocolInspector B :=
  { i with noExplicitSsl := true }

/-- `unset_no_explicit_ssl`. -/
def unsetNoExplicitSsl (i : ProtocolInspector B) : ProtocolInspector B :=
  { i with noExplicitSsl := false }

section Call

variable (forProtocol : ProtocolInspectState B → MaybeProtocol →
  Option (Except Nat (Option P) × ProtocolInspectState B))

/-- `check_protocol!`: return the protocol found, or record a protocol that
    needs more data and go on. -/
def checkProtocol (i : ProtocolInspector B) (p : MaybeProtocol) :
    Option (Flow (ProtocolInspector B) P) :=
  match forProtocol i.state p with
  | none => none
  | some (.ok (some r), st) => some (.exit r { i with state := st })
  | some (.ok none, st) => some (.next { i with state := st })
  | some (.error len, st) =>
    some (.next { i with state := st, readPendingSet := i.readPendingSet ++ [⟨len, p⟩] })

/-- `while let Some(proto) = self.next_check_protocol.pop_front()`: the
    checks leave the queue alone, so after popping `p` the queue is `ps`. -/
def checkQueue : List MaybeProtocol → ProtocolInspector B → Option (Flow (ProtocolInspector B) P)
  | [], i => some (.next { i with nextCheckProtocol := [] })
  | p :: ps, i =>
    Flow.andThen (checkProtocol forProtocol { i with nextCheckProtocol := ps } p)
      (checkQueue ps)

/-- `handle_read_pending`: the first protocol that needs more data becomes
    current, the others go back to the front of the queue, and the least
    size is asked for; `none` is `Ok(())`. -/
def handleReadPending (i : ProtocolInspector B) : Option Nat × ProtocolInspector B :=
  match i.readPendingSet with
  | [] => (none, i)
  | v :: vs =>
    (some (vs.foldl (fun n w => if w.size < n then w.size else n) v.size),
      { i with state := { i.state with current := some v.protocol }, readPendingSet := [],
               nextCheckProtocol := vs.foldl (fun q w => w.protocol :: q) i.nextCheckProtocol })

/-- The statements shared by `check_client_initial_data` and
    `check_server_initial_data` before `handle_read_pending`: the current
    protocol, the queue, then on the first round the port map's protocols
    (`portmapChecks`) and the guesses; `none` is a panic. -/
def checkAll
    (portmapChecks : ProtocolInspector B → ProtocolPortMapValue → Option (Flow (ProtocolInspector B) P))
    (guesses : List MaybeProtocol) (serverPort : UInt16) (i : ProtocolInspector B) :
    Option (Flow (ProtocolInspector B) P) :=
  let cur := i.state.current
  let i := { i with state := { i.state with current := none } }
  Flow.andThen
    (Flow.andThen
      (match cur with
        | some p => checkProtocol forProtocol i p
        | none => some (.next i))
      fun i => checkQueue forProtocol i.nextCheckProtocol i)
    fun i =>
      if i.guessProtocols then
        Flow.andThen
          (Flow.andThen
            (match i.serverPortmap.get serverPort with
              | some v => portmapChecks i v
              | none => some (.next i))
            (Flow.forEach (checkProtocol forProtocol) guesses))
          fun i => some (.next { i with guessProtocols := false })
      else some (.next i)

/-- The end of both calls: the protocol returned early, or else
    `handle_read_pending` and `Ok(Protocol::Unknown)`. -/
def finish : Flow (ProtocolInspector B) P → Inspected P × ProtocolInspector B
  | .exit r i => (.protocol r, i)
  | .next i =>
    match handleReadPending i with
    | (none, i) => (.unknown, i)
    | (some len, i) => (.needMoreData len, i)

/-- The body of both calls. -/
def checkInitialData
    (portmapChecks : ProtocolInspector B → ProtocolPortMapValue → Option (Flow (ProtocolInspector B) P))
    (guesses : List MaybeProtocol) (serverPort : UInt16) (i : ProtocolInspector B) :
    Option (Inspected P × ProtocolInspector B) :=
  (checkAll forProtocol portmapChecks guesses serverPort i).map finish

end Call

variable (checks : Checker → L → List UInt8 → Except Nat (Option P) × List InspectAction)

/-- `check_client_initial_data`: on the first round an explicit `Ssl` check
    comes before the port map's protocols. -/
def checkClientInitialData (limit : L) (serverPort : UInt16) (data : List UInt8)
    (i : ProtocolInspector B) : Option (Inspected P × ProtocolInspector B) :=
  let forProtocol := checkClientInitialDataForProtocol S checks limit data
  checkInitialData forProtocol
    (fun i v =>
      Flow.andThen
        (if !i.noExplicitSsl && v.checkSsl then checkProtocol forProtocol i .ssl
          else some (.next i))
        (Flow.forEach (checkProtocol forProtocol) v.protocols))
    guessProtocolForClientInitialData serverPort i

/-- `check_server_initial_data`. -/
def checkServerInitialData (limit : L) (serverPort : UInt16) (data : List UInt8)
    (i : ProtocolInspector B) : Option (Inspected P × ProtocolInspector B) :=
  let forProtocol := checkServerInitialDataForProtocol S checks limit data
  checkInitialData forProtocol (fun i v => Flow.forEach (checkProtocol forProtocol) v.protocols i)
    guessProtocolForServerInitialData serverPort i

/-! ## No reachable state panics -/

/-- Every protocol the inspector may try is inspectable: those the port map
    records, the current one, the queued ones and the pending ones; and the
    bit set has room for each of them. -/
structure InspectorInv (i : ProtocolInspector B) : Prop where
  portmap : i.serverPortmap.Inspectable
  state : i.state.Wf S
  queue : ∀ p ∈ i.nextCheckProtocol, p.inspectable = true
  pending : ∀ v ∈ i.readPendingSet, v.protocol.inspectable = true

/-- A try of an inspectable protocol does not panic and keeps the state
    well formed. -/
def ForProtocolOk (forProtocol : ProtocolInspectState B → MaybeProtocol →
    Option (Except Nat (Option P) × ProtocolInspectState B)) : Prop :=
  ∀ st p, st.Wf S → p.inspectable = true →
    ∃ r st', forProtocol st p = some (r, st') ∧ st'.Wf S

variable {S}

section Safe

variable {forProtocol : ProtocolInspectState B → MaybeProtocol →
  Option (Except Nat (Option P) × ProtocolInspectState B)} (hfp : ForProtocolOk S forProtocol)
include hfp

theorem checkProtocol_safe {i : ProtocolInspector B} {p : MaybeProtocol} (hi : InspectorInv S i)
    (hp : p.inspectable = true) : Flow.Safe (InspectorInv S) (checkProtocol forProtocol i p) := by
  obtain ⟨r, st', h, hst'⟩ := hfp i.state p hi.state hp
  unfold checkProtocol
  rw [h]
  -- every outcome changes only the state, and a pending protocol is `p`
  cases r with
  | error len =>
    refine Flow.safe_next ⟨hi.portmap, hst', hi.queue, fun v hv => ?_⟩
    rcases List.mem_append.1 hv with hv | hv
    · exact hi.pending v hv
    · rw [List.mem_singleton.1 hv]; exact hp
  | ok o =>
    cases o with
    | none => exact Flow.safe_next ⟨hi.portmap, hst', hi.queue, hi.pending⟩
    | some r => exact Flow.safe_exit ⟨hi.portmap, hst', hi.queue, hi.pending⟩

theorem checkQueue_safe {ps : List MaybeProtocol} (hps : ∀ p ∈ ps, p.inspectable = true) :
    ∀ {i : ProtocolInspector B}, InspectorInv S i →
      Flow.Safe (InspectorInv S) (checkQueue forProtocol ps i) := by
  induction ps with
  | nil =>
    intro i hi
    exact Flow.safe_next ⟨hi.portmap, hi.state, by simp, hi.pending⟩
  | cons p ps ih =>
    intro i hi
    have hrest : ∀ q ∈ ps, q.inspectable = true := fun q hq => hps q (List.mem_cons_of_mem p hq)
    have hpop : InspectorInv S { i with nextCheckProtocol := ps } :=
      ⟨hi.portmap, hi.state, hrest, hi.pending⟩
    exact Flow.safe_andThen (checkProtocol_safe hfp hpop (hps p List.mem_cons_self))
      fun i' hi' => ih hrest hi'

theorem checkAll_safe
    {portmapChecks : ProtocolInspector B → ProtocolPortMapValue →
      Option (Flow (ProtocolInspector B) P)}
    (hpm : ∀ i v, InspectorInv S i → v.Inspectable →
      Flow.Safe (InspectorInv S) (portmapChecks i v))
    {guesses : List MaybeProtocol} (hg : ∀ p ∈ guesses, p.inspectable = true)
    (serverPort : UInt16) {i : ProtocolInspector B} (hi : InspectorInv S i) :
    Flow.Safe (InspectorInv S) (checkAll forProtocol portmapChecks guesses serverPort i) := by
  -- the current protocol is taken out of the state first
  have hi₀ : InspectorInv S { i with state := { i.state with current := none } } :=
    ⟨hi.portmap, ⟨(fun _ h => by cases h), hi.state.len⟩, hi.queue, hi.pending⟩
  have hcur : Flow.Safe (InspectorInv S)
      (match i.state.current with
        | some p => checkProtocol forProtocol { i with state := { i.state with current := none } } p
        | none => some (.next { i with state := { i.state with current := none } })) := by
    cases hc : i.state.current with
    | none => exact Flow.safe_next hi₀
    | some p => exact checkProtocol_safe hfp hi₀ (hi.state.current p hc)
  refine Flow.safe_andThen (Flow.safe_andThen hcur fun i' hi' => checkQueue_safe hfp hi'.queue hi')
    fun i' hi' => ?_
  split_ifs
  · -- the first round: the port map's protocols, then the guesses
    have hmap : Flow.Safe (InspectorInv S)
        (match i'.serverPortmap.get serverPort with
          | some v => portmapChecks i' v
          | none => some (.next i')) := by
      cases hv : i'.serverPortmap.get serverPort with
      | none => exact Flow.safe_next hi'
      | some v => exact hpm i' v hi' (hi'.portmap serverPort v hv)
    refine Flow.safe_andThen (Flow.safe_andThen hmap
      (Flow.safe_forEach fun i₁ p hp hi₁ => checkProtocol_safe hfp hi₁ (hg p hp))) fun i₂ hi₂ => ?_
    exact Flow.safe_next ⟨hi₂.portmap, hi₂.state, hi₂.queue, hi₂.pending⟩
  · exact Flow.safe_next hi'

end Safe

/-- Moving the pending protocols to the queue keeps it inspectable. -/
theorem foldl_pushFront_inspectable {vs : List ReadPendingProtocol}
    (hvs : ∀ w ∈ vs, w.protocol.inspectable = true) :
    ∀ {q : List MaybeProtocol}, (∀ p ∈ q, p.inspectable = true) →
      ∀ p ∈ vs.foldl (fun q w => w.protocol :: q) q, p.inspectable = true := by
  induction vs with
  | nil => intro q hq; exact hq
  | cons w vs ih =>
    intro q hq
    have hw := hvs w List.mem_cons_self
    refine ih (fun w' hw' => hvs w' (List.mem_cons_of_mem w hw')) ?_
    intro p hp
    rcases List.mem_cons.1 hp with rfl | hp
    · exact hw
    · exact hq p hp

theorem handleReadPending_inv {i : ProtocolInspector B} (hi : InspectorInv S i) :
    InspectorInv S (handleReadPending i).2 := by
  unfold handleReadPending
  cases hr : i.readPendingSet with
  | nil => exact hi
  | cons v vs =>
    have hv := hi.pending v (by simp [hr])
    have hvs : ∀ w ∈ vs, w.protocol.inspectable = true :=
      fun w hw => hi.pending w (by simp [hr, hw])
    refine ⟨hi.portmap, ⟨fun q hq => ?_, hi.state.len⟩,
      foldl_pushFront_inspectable hvs hi.queue, by simp⟩
    cases hq
    exact hv

theorem finish_inv {f : Flow (ProtocolInspector B) P} (hf : InspectorInv S f.state) :
    InspectorInv S (finish f).2 := by
  cases f with
  | exit r i => exact hf
  | next i =>
    have h : InspectorInv S (handleReadPending i).2 := handleReadPending_inv hf
    rcases hr : handleReadPending i with ⟨_ | len, i'⟩ <;> rw [hr] at h <;>
      simp only [finish, hr] <;> exact h

/-- `checkInitialData` does not panic and keeps the invariant. -/
theorem checkInitialData_ok
    {forProtocol : ProtocolInspectState B → MaybeProtocol →
      Option (Except Nat (Option P) × ProtocolInspectState B)} (hfp : ForProtocolOk S forProtocol)
    {portmapChecks : ProtocolInspector B → ProtocolPortMapValue →
      Option (Flow (ProtocolInspector B) P)}
    (hpm : ∀ i v, InspectorInv S i → v.Inspectable →
      Flow.Safe (InspectorInv S) (portmapChecks i v))
    {guesses : List MaybeProtocol} (hg : ∀ p ∈ guesses, p.inspectable = true)
    (serverPort : UInt16) {i : ProtocolInspector B} (hi : InspectorInv S i) :
    ∃ r i', checkInitialData forProtocol portmapChecks guesses serverPort i = some (r, i') ∧
      InspectorInv S i' := by
  obtain ⟨f, hf, hfi⟩ := checkAll_safe hfp hpm hg serverPort hi
  refine ⟨(finish f).1, (finish f).2, by simp [checkInitialData, hf], finish_inv hfi⟩

section Calls

variable (hS : S.Spec)
  {checks : Checker → L → List UInt8 → Except Nat (Option P) × List InspectAction}
  (hchecks : ChecksInRange checks)
include hS hchecks

theorem checkClientInitialData_ok (limit : L) (serverPort : UInt16) (data : List UInt8)
    {i : ProtocolInspector B} (hi : InspectorInv S i) :
    ∃ r i', checkClientInitialData S checks limit serverPort data i = some (r, i') ∧
      InspectorInv S i' := by
  have hfp : ForProtocolOk S (checkClientInitialDataForProtocol S checks limit data) :=
    fun st p hst hp => checkForProtocol_ok checks hS hchecks
      (fun q hq => (clientRoute_eq_unreachable q).1 hq) limit data hst hp
  refine checkInitialData_ok hfp (fun i v hi hv => ?_) (by decide) serverPort hi
  -- the explicit `Ssl` check, then the recorded protocols
  refine Flow.safe_andThen ?_
    (Flow.safe_forEach fun i₁ p hp hi₁ => checkProtocol_safe hfp hi₁ (hv p hp))
  split_ifs
  · exact checkProtocol_safe hfp hi rfl
  · exact Flow.safe_next hi

theorem checkServerInitialData_ok (limit : L) (serverPort : UInt16) (data : List UInt8)
    {i : ProtocolInspector B} (hi : InspectorInv S i) :
    ∃ r i', checkServerInitialData S checks limit serverPort data i = some (r, i') ∧
      InspectorInv S i' := by
  have hfp : ForProtocolOk S (checkServerInitialDataForProtocol S checks limit data) :=
    fun st p hst hp => checkForProtocol_ok checks hS hchecks
      (fun q hq => (serverRoute_eq_unreachable q).1 hq) limit data hst hp
  exact checkInitialData_ok hfp
    (fun i v hi hv =>
      Flow.safe_forEach (fun i₁ p hp hi₁ => checkProtocol_safe hfp hi₁ (hv p hp)) i hi)
    (by decide) serverPort hi

end Calls

/-- The public operations of the inspector. -/
inductive InspectorOp (L : Type) where
  | pushProtocol (p : MaybeProtocol)
  | pushAlpnProtocol (p : AlpnProtocol)
  | resetState
  | setNoExplicitSsl
  | unsetNoExplicitSsl
  | checkClientInitialData (limit : L) (serverPort : UInt16) (data : List UInt8)
  | checkServerInitialData (limit : L) (serverPort : UInt16) (data : List UInt8)

/-- The operations `step_inv` covers: `push_protocol` of an inspectable
    protocol, and every other operation. -/
def InspectorOp.Allowed : InspectorOp L → Prop
  | .pushProtocol p => p.inspectable = true
  | _ => True

variable (S) in
/-- One operation; `none` is a panic. -/
def step (checks : Checker → L → List UInt8 → Except Nat (Option P) × List InspectAction)
    (i : ProtocolInspector B) : InspectorOp L → Option (ProtocolInspector B)
  | .pushProtocol p => some (i.pushProtocol p)
  | .pushAlpnProtocol p => some (i.pushAlpnProtocol p)
  | .resetState => some (i.resetState S)
  | .setNoExplicitSsl => some i.setNoExplicitSsl
  | .unsetNoExplicitSsl => some i.unsetNoExplicitSsl
  | .checkClientInitialData limit port data =>
    (checkClientInitialData S checks limit port data i).map (·.2)
  | .checkServerInitialData limit port data =>
    (checkServerInitialData S checks limit port data i).map (·.2)

section Run

variable (hS : S.Spec)
include hS

theorem new_inv {m : ProtocolPortMap} (hm : m.Inspectable) : InspectorInv S (new S m) :=
  ⟨hm, ⟨(fun _ h => by cases h), hS.len_withCapacity _⟩, (fun _ h => by cases h),
    (fun _ h => by cases h)⟩

/-- Every allowed operation keeps the invariant, without panicking. -/
theorem step_inv {checks : Checker → L → List UInt8 → Except Nat (Option P) × List InspectAction}
    (hchecks : ChecksInRange checks) (i : ProtocolInspector B) (op : InspectorOp L)
    (hop : op.Allowed) (hi : InspectorInv S i) :
    ∃ i', step S checks i op = some i' ∧ InspectorInv S i' := by
  cases op with
  | pushProtocol p =>
    refine ⟨_, rfl, hi.portmap, hi.state, fun q hq => ?_, hi.pending⟩
    rcases List.mem_cons.1 hq with rfl | hq
    · exact hop
    · exact hi.queue q hq
  | pushAlpnProtocol p =>
    refine ⟨_, rfl, hi.portmap, hi.state, fun q hq => ?_, hi.pending⟩
    rcases List.mem_cons.1 hq with rfl | hq
    · exact MaybeProtocol.ofAlpn_inspectable p
    · exact hi.queue q hq
  | resetState =>
    -- `clear` keeps the length of the bit set
    exact ⟨_, rfl, hi.portmap, ⟨(fun _ h => by cases h), (hS.len_clear _).trans hi.state.len⟩,
      hi.queue, hi.pending⟩
  | setNoExplicitSsl => exact ⟨_, rfl, hi.portmap, hi.state, hi.queue, hi.pending⟩
  | unsetNoExplicitSsl => exact ⟨_, rfl, hi.portmap, hi.state, hi.queue, hi.pending⟩
  | checkClientInitialData limit port data =>
    obtain ⟨r, i', h, hi'⟩ := checkClientInitialData_ok hS hchecks limit port data hi
    exact ⟨i', by simp [step, h], hi'⟩
  | checkServerInitialData limit port data =>
    obtain ⟨r, i', h, hi'⟩ := checkServerInitialData_ok hS hchecks limit port data hi
    exact ⟨i', by simp [step, h], hi'⟩

/-- From a port map recording only inspectable protocols, no sequence of
    allowed operations panics, and every state reached keeps the invariant. -/
theorem run_inv {checks : Checker → L → List UInt8 → Except Nat (Option P) × List InspectAction}
    (hchecks : ChecksInRange checks) {m : ProtocolPortMap} (hm : m.Inspectable)
    (ops : List (InspectorOp L)) (hops : ∀ op ∈ ops, op.Allowed) :
    ∃ i, run (step S checks) (new S m) ops = some i ∧ InspectorInv S i :=
  run_safe (InspectorInv S) InspectorOp.Allowed (fun i op hop hi => step_inv hS hchecks i op hop hi)
    ops (new S m) hops (new_inv hS hm)

end Run

/-- The default inspector panics on the first data for port 853, whatever
    the checkers and the data. -/
theorem default_port853_panics (hS : S.Spec)
    (checks : Checker → L → List UInt8 → Except Nat (Option P) × List InspectAction)
    (limit : L) (data : List UInt8) :
    checkClientInitialData S checks limit 853 data (default S) = none ∧
      checkServerInitialData S checks limit 853 data (default S) = none := by
  -- nothing is excluded yet, so `DnsOverTls`, the one protocol the map
  -- records for the port, reaches its `unreachable!()` arm
  constructor
  · simp [checkClientInitialData, checkInitialData, checkAll, default, new, checkQueue,
      ProtocolInspectState.default, ProtocolPortMap.tcpServer_dnsOverTls, Flow.forEach,
      checkProtocol, checkClientInitialDataForProtocol, checkForProtocol,
      ProtocolInspectState.isExcluded, hS.contains_withCapacity, clientRoute]
  · simp [checkServerInitialData, checkInitialData, checkAll, default, new, checkQueue,
      ProtocolInspectState.default, ProtocolPortMap.tcpServer_dnsOverTls, Flow.forEach,
      checkProtocol, checkServerInitialDataForProtocol, checkForProtocol,
      ProtocolInspectState.isExcluded, hS.contains_withCapacity, serverRoute]

/-- The panic over the list of bits, with checkers that find nothing, on a
    first byte `0x16`. -/
theorem default_port853_panics_bits :
    checkClientInitialData BitSetOps.ofList (fun _ (_ : Nat) _ => (.ok (none : Option Unit), [])) 0 853 [22]
        (default BitSetOps.ofList) = none ∧
      checkServerInitialData BitSetOps.ofList (fun _ (_ : Nat) _ => (.ok (none : Option Unit), [])) 0 853 [22]
        (default BitSetOps.ofList) = none :=
  default_port853_panics BitSetOps.ofList_spec _ 0 [22]

end ProtocolInspector

end G3Proxy
