/-
  The destination-host ACL (`g3-types/src/acl`, `acl_set/dst_host.rs`,
  `resolve/mod.rs`).

  An `AclDstHostRuleSet` asks its rules in turn and answers with the first
  that finds the host: for an address the exact rule, then the subnet rule;
  for a domain the exact rule, the child-domain rule, then the regex rule.
  When none finds it, the answer is the missed action, which `build` makes
  the most restrictive of the rules' own.

  * the exact rule looks the host up in a hash map (`AclAHashRule`);
  * the child-domain rule keys a radix trie by `reverse_idna_domain` and takes
    the value of the closest ancestor (`AclRadixTrieRule`);
  * the subnet rule takes the longest network that holds the address;
  * the regex rule tries its sets in the order of their actions, the most
    restrictive first.

  A hash map is an association list (`hashMapInsert` replaces a key's
  value); the radix trie and the network table are the lists of their
  entries.  The crates the rules rest on are parameters (`AclLibs`), each
  with what the rules rely on of it: `radix_trie`'s `get_ancestor_value`
  (`AncestorValue`), `ip_network`'s `IpNetwork` and `ip_network_table`'s
  `longest_match` (`LongestMatch`); the regex engine is the parameter
  `isMatch`.  Trie keys are compared by character, which on the ASCII
  domains `idna` yields is the crate's byte order.
-/
import G3Proxy.Core.Lists
import G3Proxy.Core.Bytes
import G3Proxy.Http.Header
import G3Proxy.Net.Host

namespace G3Proxy

/-- `AclAction`, from the most restrictive (the derived order). -/
inductive AclAction where
  | forbidAndLog
  | forbid
  | permitAndLog
  | permit
  deriving DecidableEq, Repr

namespace AclAction

/-- The position in the derived order. -/
def rank : AclAction → Nat
  | .forbidAndLog => 0
  | .forbid => 1
  | .permitAndLog => 2
  | .permit => 3

/-- `AclAction::restrict`: `other.min(self)`, which is `other` on a tie. -/
def restrict (self other : AclAction) : AclAction :=
  if other.rank ≤ self.rank then other else self

end AclAction

/-- `HashMap::insert`: the key's old value, if any, is replaced. -/
def hashMapInsert {κ β : Type} [DecidableEq κ] (m : List (κ × β)) (k : κ) (v : β) :
    List (κ × β) :=
  (k, v) :: m.filter (·.1 ≠ k)

/-- The answer of a rule: whether it found the key, and the action. -/
abbrev AclCheck (Action : Type) := Bool × Action

/-! ## Exact rules -/

/-- `AclAHashRule`. -/
structure AclAHashRule (κ Action : Type) where
  inner : List (κ × Action)
  missedAction : Action

namespace AclAHashRule

variable {κ Action : Type} [DecidableEq κ]

def new (missedAction : Action) : AclAHashRule κ Action := ⟨[], missedAction⟩

def addNode (r : AclAHashRule κ Action) (node : κ) (action : Action) : AclAHashRule κ Action :=
  { r with inner := hashMapInsert r.inner node action }

def setMissedAction (r : AclAHashRule κ Action) (action : Action) : AclAHashRule κ Action :=
  { r with missedAction := action }

def check (r : AclAHashRule κ Action) (node : κ) : AclCheck Action :=
  match r.inner.lookup node with
  | some action => (true, action)
  | none => (false, r.missedAction)

end AclAHashRule

/-- `AclExactHostRule`: one map for domains, one for addresses. -/
structure AclExactHostRule (Action : Type) where
  missedAction : Action
  domain : AclAHashRule (List Char) Action
  ip : AclAHashRule IpAddr Action

namespace AclExactHostRule

variable {Action : Type}

def new (missedAction : Action) : AclExactHostRule Action :=
  ⟨missedAction, .new missedAction, .new missedAction⟩

def addDomain (r : AclExactHostRule Action) (domain : List Char) (action : Action) :
    AclExactHostRule Action :=
  { r with domain := r.domain.addNode domain action }

def addIp (r : AclExactHostRule Action) (ip : IpAddr) (action : Action) : AclExactHostRule Action :=
  { r with ip := r.ip.addNode ip action }

def addHost (r : AclExactHostRule Action) (host : Host) (action : Action) : AclExactHostRule Action :=
  match host with
  | .ip ip => r.addIp ip action
  | .domain domain => r.addDomain domain action

def setMissedAction (r : AclExactHostRule Action) (action : Action) : AclExactHostRule Action :=
  ⟨action, r.domain.setMissedAction action, r.ip.setMissedAction action⟩

def checkDomain (r : AclExactHostRule Action) (domain : List Char) : AclCheck Action :=
  r.domain.check domain

def checkIp (r : AclExactHostRule Action) (ip : IpAddr) : AclCheck Action :=
  r.ip.check ip

end AclExactHostRule

/-! ## The radix trie and the child-domain rule -/

/-- `AclRadixTrieRuleBuilder`, over keys that are sequences of `κ`. -/
structure AclRadixTrieRuleBuilder (κ Action : Type) where
  inner : List (List κ × Action)
  missedAction : Action

/-- `AclRadixTrieRule`: the entries of the trie. -/
structure AclRadixTrieRule (κ Action : Type) where
  inner : List (List κ × Action)
  missedAction : Action

namespace AclRadixTrieRuleBuilder

variable {κ Action : Type} [DecidableEq κ]

def new (missedAction : Action) : AclRadixTrieRuleBuilder κ Action := ⟨[], missedAction⟩

def addNode (b : AclRadixTrieRuleBuilder κ Action) (node : List κ) (action : Action) :
    AclRadixTrieRuleBuilder κ Action :=
  { b with inner := hashMapInsert b.inner node action }

def setMissedAction (b : AclRadixTrieRuleBuilder κ Action) (action : Action) :
    AclRadixTrieRuleBuilder κ Action :=
  { b with missedAction := action }

/-- Every entry of the map goes into the trie; the keys are distinct. -/
def build (b : AclRadixTrieRuleBuilder κ Action) : AclRadixTrieRule κ Action :=
  ⟨b.inner, b.missedAction⟩

end AclRadixTrieRuleBuilder

/-- `AclRadixTrieRule::check`, with `Trie::get_ancestor_value` over the
    trie's entries. -/
def AclRadixTrieRule.check {κ Action : Type}
    (getAncestorValue : List (List κ × Action) → List κ → Option Action) (r : AclRadixTrieRule κ Action)
    (key : List κ) : AclCheck Action :=
  match getAncestorValue r.inner key with
  | some action => (true, action)
  | none => (false, r.missedAction)

/-- `domain.strip_prefix('.').unwrap_or(domain)`. -/
def stripDot : List Char → List Char
  | '.' :: d => d
  | d => d

/-- `reverse_idna_domain`: the labels in reverse order, joined by dots, and a
    final dot. -/
def reverseIdnaDomain (domain : List Char) : List Char :=
  ['.'].intercalate (splitOn '.' (stripDot domain)).reverse ++ ['.']

example : reverseIdnaDomain ['.', 'a', '.', 'b'] = ['b', '.', 'a', '.'] := by decide

/-- `AclChildDomainRuleBuilder`. -/
structure AclChildDomainRuleBuilder (Action : Type) where
  inner : AclRadixTrieRuleBuilder Char Action

/-- `AclChildDomainRule`. -/
structure AclChildDomainRule (Action : Type) where
  inner : AclRadixTrieRule Char Action

namespace AclChildDomainRuleBuilder

variable {Action : Type}

def new (missedAction : Action) : AclChildDomainRuleBuilder Action := ⟨.new missedAction⟩

def addNode (b : AclChildDomainRuleBuilder Action) (domain : List Char) (action : Action) :
    AclChildDomainRuleBuilder Action :=
  ⟨b.inner.addNode (reverseIdnaDomain domain) action⟩

def setMissedAction (b : AclChildDomainRuleBuilder Action) (action : Action) :
    AclChildDomainRuleBuilder Action :=
  ⟨b.inner.setMissedAction action⟩

def missedAction (b : AclChildDomainRuleBuilder Action) : Action := b.inner.missedAction

def build (b : AclChildDomainRuleBuilder Action) : AclChildDomainRule Action := ⟨b.inner.build⟩

/-- `add_node` for each configured domain in turn, as the configuration
    loaders (`g3-yaml`, `g3-json`) call it. -/
def addNodes (b : AclChildDomainRuleBuilder Action) (nodes : List (List Char × Action)) :
    AclChildDomainRuleBuilder Action :=
  nodes.foldl (fun b n => b.addNode n.1 n.2) b

end AclChildDomainRuleBuilder

def AclChildDomainRule.check {Action : Type}
    (getAncestorValue : List (List Char × Action) → List Char → Option Action) (r : AclChildDomainRule Action)
    (host : List Char) : AclCheck Action :=
  r.inner.check getAncestorValue (reverseIdnaDomain host)

/-! ## Networks and the subnet rule -/

namespace IpAddr

/-- The width of the address in bits. -/
def bits : IpAddr → Nat
  | .v4 _ => 32
  | .v6 _ => 128

/-- `u32::from(Ipv4Addr)` and `u128::from(Ipv6Addr)`. -/
def value : IpAddr → Nat
  | .v4 o => Bytes.beValue o.toList
  | .v6 o => Bytes.beValue o.toList

/-- Both IPv4, or both IPv6. -/
def sameFamily : IpAddr → IpAddr → Bool
  | .v4 _, .v4 _ => true
  | .v6 _, .v6 _ => true
  | _, _ => false

end IpAddr

/-! ## The crates under the rules -/

/-- What `Trie::get_ancestor_value` of `radix_trie` promises over the
    entries of a trie: the value of a longest key that starts the query, and
    nothing when no key does. -/
def AncestorValue {κ A : Type} (getAncestorValue : List (List κ × A) → List κ → Option A) : Prop :=
  ∀ entries key,
    (∀ a, getAncestorValue entries key = some a → ∃ k, (k, a) ∈ entries ∧ k <+: key ∧
      ∀ e ∈ entries, e.1 <+: key → e.1.length ≤ k.length) ∧
    (getAncestorValue entries key = none → ∀ e ∈ entries, ¬ e.1 <+: key)

/-- What `IpNetworkTable::longest_match` of `ip_network_table` promises over
    the entries of a table: an entry of a longest network that contains the
    address, and nothing when no network does. -/
def LongestMatch {N A : Type} (contains : N → IpAddr → Bool) (netmask : N → Nat)
    (longestMatch : List (N × A) → IpAddr → Option (N × A)) : Prop :=
  ∀ entries ip,
    (∀ e, longestMatch entries ip = some e → e ∈ entries ∧ contains e.1 ip = true ∧
      ∀ e' ∈ entries, contains e'.1 ip = true → netmask e'.1 ≤ netmask e.1) ∧
    (longestMatch entries ip = none → ∀ e ∈ entries, contains e.1 ip = false)

/-- The crates under the destination-host rules: `radix_trie`'s
    `get_ancestor_value`; `ip_network`'s `IpNetwork` (the type `N`), whose
    `new` takes an address with no bit set past the netmask, and whose
    `contains` holds of the addresses of the network's family that agree
    with it under the netmask (`ip & full_netmask == network_address`); and
    `ip_network_table`'s `longest_match`. -/
structure AclLibs (N : Type) where
  getAncestorValue : {A : Type} → List (List Char × A) → List Char → Option A
  networkNew : IpAddr → Nat → Option N
  netmask : N → Nat
  contains : N → IpAddr → Bool
  longestMatch : {A : Type} → List (N × A) → IpAddr → Option (N × A)
  getAncestorValue_spec : ∀ {A : Type}, AncestorValue (getAncestorValue (A := A))
  networkNew_isSome : ∀ ip m, m ≤ ip.bits → ip.value % 2 ^ (ip.bits - m) = 0 → (networkNew ip m).isSome
  netmask_networkNew : ∀ {ip m n}, networkNew ip m = some n → netmask n = m
  contains_networkNew : ∀ {ip m n}, networkNew ip m = some n → ∀ a,
    contains n a = true ↔ ip.sameFamily a = true ∧ a.value - a.value % 2 ^ (a.bits - m) = ip.value
  longestMatch_spec : ∀ {A : Type}, LongestMatch contains netmask (longestMatch (A := A))

/-- `AclNetworkRuleBuilder`, over networks of type `N`. -/
structure AclNetworkRuleBuilder (N Action : Type) where
  inner : List (N × Action)
  missedAction : Action

/-- `AclNetworkRule`: the entries of the network table. -/
structure AclNetworkRule (N Action : Type) where
  inner : List (N × Action)
  defaultAction : Action

namespace AclNetworkRuleBuilder

variable {N Action : Type} [DecidableEq N]

def new (missedAction : Action) : AclNetworkRuleBuilder N Action := ⟨[], missedAction⟩

def addNetwork (b : AclNetworkRuleBuilder N Action) (network : N) (action : Action) :
    AclNetworkRuleBuilder N Action :=
  { b with inner := hashMapInsert b.inner network action }

def setMissedAction (b : AclNetworkRuleBuilder N Action) (action : Action) :
    AclNetworkRuleBuilder N Action :=
  { b with missedAction := action }

/-- Every entry of the map goes into the table; the networks are distinct. -/
def build (b : AclNetworkRuleBuilder N Action) : AclNetworkRule N Action :=
  ⟨b.inner, b.missedAction⟩

/-- `IpNetwork::new(ip, netmask).unwrap()`, for a network `new` takes. -/
def unwrapNetwork (L : AclLibs N) (ip : IpAddr) (netmask : Nat)
    (h : netmask ≤ ip.bits ∧ ip.value % 2 ^ (ip.bits - netmask) = 0) : N :=
  (L.networkNew ip netmask).get (L.networkNew_isSome ip netmask h.1 h.2)

/-- `DEFAULT_EGRESS_RULE`: each `IpNetwork::new(..).unwrap()` succeeds. -/
def defaultEgressRule (L : AclLibs N) : List N :=
  [unwrapNetwork L (.v4 #v[0, 0, 0, 0]) 32 (by decide),
   unwrapNetwork L (.v4 #v[127, 0, 0, 0]) 8 (by decide),
   unwrapNetwork L (.v4 #v[169, 254, 0, 0]) 16 (by decide),
   unwrapNetwork L (.v6 #v[0, 0, 0, 0, 0, 0, 0, 0, 0, 0, 0, 0, 0, 0, 0, 0]) 128 (by decide),
   unwrapNetwork L (.v6 #v[0, 0, 0, 0, 0, 0, 0, 0, 0, 0, 0, 0, 0, 0, 0, 1]) 128 (by decide),
   unwrapNetwork L (.v6 #v[0xfe, 0x80, 0, 0, 0, 0, 0, 0, 0, 0, 0, 0, 0, 0, 0, 0]) 10 (by decide),
   unwrapNetwork L (.v6 #v[0x01, 0x00, 0, 0, 0, 0, 0, 0, 0, 0, 0, 0, 0, 0, 0, 0]) 64 (by decide)]

/-- `DEFAULT_INGRESS_RULE`. -/
def defaultIngressRule (L : AclLibs N) : List N :=
  [unwrapNetwork L (.v4 #v[127, 0, 0, 1]) 32 (by decide),
   unwrapNetwork L (.v6 #v[0, 0, 0, 0, 0, 0, 0, 0, 0, 0, 0, 0, 0, 0, 0, 1]) 128 (by decide)]

/-- `AclNetworkRuleBuilder::new_egress`: the default networks forbidden. -/
def newEgress (L : AclLibs N) (missedAction : AclAction) : AclNetworkRuleBuilder N AclAction :=
  ⟨(defaultEgressRule L).foldl (fun m n => hashMapInsert m n .forbid) [], missedAction⟩

/-- `AclNetworkRuleBuilder::new_ingress`: the source inserts `Forbid` here
    too. -/
def newIngress (L : AclLibs N) (missedAction : AclAction) : AclNetworkRuleBuilder N AclAction :=
  ⟨(defaultIngressRule L).foldl (fun m n => hashMapInsert m n .forbid) [], missedAction⟩

end AclNetworkRuleBuilder

/-- `IpNetworkTable::longest_match`, then the action. -/
def AclNetworkRule.check {N Action : Type} (L : AclLibs N) (r : AclNetworkRule N Action) (ip : IpAddr) :
    AclCheck Action :=
  match L.longestMatch r.inner ip with
  | some (_, action) => (true, action)
  | none => (false, r.defaultAction)

/-! ## The regex rule -/

/-- `AclRegexSetRuleBuilder`: each regex by its text (`Regex::as_str`). -/
structure AclRegexSetRuleBuilder (Action : Type) where
  inner : List (List Char × Action)
  missedAction : Action

/-- `AclRegexSetRule`: a set of regexes for each action present, in the
    order of the actions. -/
structure AclRegexSetRule (Action : Type) where
  actionMap : List (Action × List (List Char))
  missedAction : Action

namespace AclRegexSetRuleBuilder

variable {Action : Type}

def new (missedAction : Action) : AclRegexSetRuleBuilder Action := ⟨[], missedAction⟩

def addRegex [DecidableEq Action] (b : AclRegexSetRuleBuilder Action) (regex : List Char)
    (action : Action) : AclRegexSetRuleBuilder Action :=
  { b with inner := hashMapInsert b.inner regex action }

def setMissedAction (b : AclRegexSetRuleBuilder Action) (action : Action) :
    AclRegexSetRuleBuilder Action :=
  { b with missedAction := action }

/-- `AclRegexSetRuleBuilder::build` for `AclAction`, the one ordered action
    type: the `BTreeMap` from each action present to its regexes. -/
def build (b : AclRegexSetRuleBuilder AclAction) : AclRegexSetRule AclAction :=
  ⟨[AclAction.forbidAndLog, .forbid, .permitAndLog, .permit].filterMap fun action =>
      match (b.inner.filter (·.2 = action)).map (·.1) with
      | [] => none
      | v => some (action, v),
    b.missedAction⟩

end AclRegexSetRuleBuilder

/-- `AclRegexSetRule::check`: the first action one of whose regexes matches
    (`RegexSet::is_match`). -/
def AclRegexSetRule.check {Action : Type} (isMatch : List Char → List Char → Bool)
    (r : AclRegexSetRule Action) (text : List Char) : AclCheck Action :=
  match r.actionMap.find? fun (_, rs) => rs.any (isMatch · text) with
  | some (action, _) => (true, action)
  | none => (false, r.missedAction)

/-! ## The rule set -/

/-- `AclDstHostRuleSetBuilder`, over networks of type `N`. -/
structure AclDstHostRuleSetBuilder (N : Type) where
  exact : Option (AclExactHostRule AclAction)
  child : Option (AclChildDomainRuleBuilder AclAction)
  regex : Option (AclRegexSetRuleBuilder AclAction)
  subnet : Option (AclNetworkRuleBuilder N AclAction)

/-- `AclDstHostRuleSet`. -/
structure AclDstHostRuleSet (N : Type) where
  exact : Option (AclExactHostRule AclAction)
  child : Option (AclChildDomainRule AclAction)
  regex : Option (AclRegexSetRule AclAction)
  subnet : Option (AclNetworkRule N AclAction)
  missedAction : AclAction

/-- `AclDstHostRuleSetBuilder::build`: `Permit`, restricted by the missed
    action of each rule present. -/
def AclDstHostRuleSetBuilder.build {N : Type} (b : AclDstHostRuleSetBuilder N) : AclDstHostRuleSet N :=
  let missed := AclAction.permit
  let missed := match b.exact with
    | some rule => missed.restrict rule.missedAction
    | none => missed
  let missed := match b.child with
    | some builder => missed.restrict builder.missedAction
    | none => missed
  let missed := match b.regex with
    | some builder => missed.restrict builder.missedAction
    | none => missed
  let missed := match b.subnet with
    | some builder => missed.restrict builder.missedAction
    | none => missed
  ⟨b.exact, b.child.map (·.build), b.regex.map (·.build), b.subnet.map (·.build), missed⟩

/-- A rule that may be absent: its answer when it found the host, else the
    answer of the rules after it. -/
def foundOr {Action : Type} : Option (AclCheck Action) → AclCheck Action → AclCheck Action
  | some (true, action), _ => (true, action)
  | _, rest => rest

/-- `AclDstHostRuleSet::check`. -/
def AclDstHostRuleSet.check {N : Type} (L : AclLibs N) (isMatch : List Char → List Char → Bool)
    (s : AclDstHostRuleSet N) (upstream : Host) : AclCheck AclAction :=
  match upstream with
  | .ip ip =>
    foundOr (s.exact.map (·.checkIp ip)) <|
    foundOr (s.subnet.map (·.check L ip)) <|
    (false, s.missedAction)
  | .domain domain =>
    foundOr (s.exact.map (·.checkDomain domain)) <|
    foundOr (s.child.map (·.check L.getAncestorValue domain)) <|
    foundOr (s.regex.map (·.check isMatch domain)) <|
    (false, s.missedAction)

end G3Proxy
