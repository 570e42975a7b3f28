/-
  What the destination-host ACL decides (`acl_set/dst_host.rs`,
  `acl/child_domain.rs`, `acl/network.rs`, `resolve/mod.rs`).

  * `reverseIdnaDomain_prefix_iff`: one reversed domain starts another
    exactly when the first domain's labels end the second's (`LabelSuffix`),
    each domain taken without one leading dot;
  * `check_found_iff`, `check_eq_true`: a child-domain rule built from a
    list of domains finds a host exactly when one of them is a label suffix
    of it, and answers with the action of the longest such domain;
    `labelSuffix_iff` reads `LabelSuffix` as "`h` is `r` or ends with a dot
    and `r`" for the domains without a leading dot;
  * `check_root_dot`: the rule never finds a name written with the root dot,
    unless a configured domain is empty or ends with a dot;
  * the egress defaults forbid `127.b.c.d` and miss every IPv4-mapped
    address (`newEgress_check_loopback`, `newEgress_check_mapped`);
  * `build_missedAction_rank_le`: the missed action of a rule set is at most
    as permissive as each of its rules'.
-/
import G3Proxy.Acl.DstHost

namespace G3Proxy

/-! ## Actions and the missed action of a rule set -/

@[simp] theorem AclAction.rank_restrict (a b : AclAction) :
    (a.restrict b).rank = min a.rank b.rank := by
  unfold AclAction.restrict
  split <;> omega

/-- `build` restricts `Permit` by the missed action of every rule present. -/
theorem AclDstHostRuleSetBuilder.build_missedAction_rank_le {N : Type} (b : AclDstHostRuleSetBuilder N) :
    (∀ r ∈ b.exact, b.build.missedAction.rank ≤ r.missedAction.rank) ∧
    (∀ r ∈ b.child, b.build.missedAction.rank ≤ r.missedAction.rank) ∧
    (∀ r ∈ b.regex, b.build.missedAction.rank ≤ r.missedAction.rank) ∧
    (∀ r ∈ b.subnet, b.build.missedAction.rank ≤ r.missedAction.rank) := by
  obtain ⟨exact, child, regex, subnet⟩ := b
  -- one case for each set of rules present
  cases exact <;> cases child <;> cases regex <;> cases subnet <;>
    simp [build, AclChildDomainRuleBuilder.missedAction]

/-! ## Hash maps -/

section HashMap

variable {κ β : Type} [DecidableEq κ] {m : List (κ × β)} {k : κ} {v : β}

theorem mem_hashMapInsert {e : κ × β} :
    e ∈ hashMapInsert m k v ↔ e = (k, v) ∨ e ∈ m ∧ e.1 ≠ k := by
  simp [hashMapInsert]

/-- A key stays in the map, perhaps with another value. -/
theorem exists_mem_hashMapInsert {k' : κ} {a : β} (h : (k', a) ∈ m) :
    ∃ a', (k', a') ∈ hashMapInsert m k v := by
  by_cases hk : k' = k
  · exact ⟨v, mem_hashMapInsert.2 (.inl (by rw [hk]))⟩
  · exact ⟨a, mem_hashMapInsert.2 (.inr ⟨h, hk⟩)⟩

/-- Inserting keys one after another, all with the value `v`. -/
theorem mem_foldl_hashMapInsert {l : List κ} {m₀ : List (κ × β)} {e : κ × β} :
    e ∈ l.foldl (fun m n => hashMapInsert m n v) m₀ ↔ e ∈ m₀ ∧ e.1 ∉ l ∨ e.1 ∈ l ∧ e.2 = v := by
  induction l generalizing m₀ with
  | nil => simp
  | cons n l ih =>
    rw [List.foldl_cons, ih, mem_hashMapInsert]
    obtain ⟨k', v'⟩ := e
    rcases eq_or_ne k' n with rfl | hk
    · -- the key inserted now: its value is `v` whether or not it comes again
      by_cases hl : k' ∈ l <;> simp [hl]
    · simp [hk]

end HashMap

/-! ## The radix trie -/

namespace AclRadixTrieRule

variable {κ Action : Type} {f : List (List κ × Action) → List κ → Option Action}
  (hf : AncestorValue f) (r : AclRadixTrieRule κ Action) (key : List κ)

include hf in
/-- The trie answers with the action of the longest key that starts `key`,
    or misses when no key does. -/
theorem check_cases :
    (∃ k a, (k, a) ∈ r.inner ∧ k <+: key ∧
      (∀ e ∈ r.inner, e.1 <+: key → e.1.length ≤ k.length) ∧ r.check f key = (true, a)) ∨
    ((∀ e ∈ r.inner, ¬ e.1 <+: key) ∧ r.check f key = (false, r.missedAction)) := by
  cases h : f r.inner key with
  | none => exact .inr ⟨(hf r.inner key).2 h, by simp [check, h]⟩
  | some a =>
    obtain ⟨k, hk, hp, hmax⟩ := (hf r.inner key).1 a h
    exact .inl ⟨k, a, hk, hp, hmax, by simp [check, h]⟩

end AclRadixTrieRule

/-! ## Reversed domains -/

/-- `str::split` is the library's `List.splitOn`. -/
theorem splitOn_eq_list_splitOn (sep : Char) (s : List Char) : splitOn sep s = s.splitOn sep := by
  induction s with
  | nil => rfl
  | cons c cs ih =>
    rw [splitOn, List.splitOn_cons_eq_if_modifyHead, ih]
    by_cases hc : c = sep
    · simp [hc]
    · -- the first label gains `c`; there always is one
      obtain ⟨w, ws, hw⟩ := List.exists_cons_of_ne_nil (List.splitOn_ne_nil sep cs)
      simp [hc, hw]

theorem stripDot_cons_of_ne {c : Char} (hc : c ≠ '.') (d : List Char) :
    stripDot (c :: d) = c :: d := by
  unfold stripDot
  split
  · next h => exact absurd (List.cons.inj h).1 hc
  · rfl

@[simp] theorem stripDot_dot (d : List Char) : stripDot ('.' :: d) = d := rfl

/-- The labels of a domain, each ended by a dot, in reverse order. -/
theorem reverseIdnaDomain_eq_flatMap (d : List Char) :
    reverseIdnaDomain d = ((stripDot d).splitOn '.').reverse.flatMap (· ++ ['.']) := by
  rw [reverseIdnaDomain, splitOn_eq_list_splitOn]
  exact List.intercalate_append_singleton '.' (by simp [List.splitOn_ne_nil])

theorem length_reverseIdnaDomain (d : List Char) :
    (reverseIdnaDomain d).length = (stripDot d).length + 1 := by
  -- joining the labels with dots and a final dot ends each with a dot
  have hjoin : stripDot d ++ ['.'] = ((stripDot d).splitOn '.').flatMap (· ++ ['.']) := by
    rw [← List.intercalate_append_singleton '.' (List.splitOn_ne_nil _ _), List.intercalate_splitOn]
  calc (reverseIdnaDomain d).length
      = (((stripDot d).splitOn '.').flatMap (· ++ ['.'])).length := by
        simp [reverseIdnaDomain_eq_flatMap, List.length_flatMap, List.sum_reverse]
    _ = (stripDot d).length + 1 := by rw [← hjoin, List.length_append, List.length_singleton]

/-- The labels of `r` end those of `h`, each domain without one leading
    dot: `.r` ends `.h`. -/
def LabelSuffix (r h : List Char) : Prop :=
  '.' :: stripDot r <:+ '.' :: stripDot h

instance (r h : List Char) : Decidable (LabelSuffix r h) :=
  inferInstanceAs (Decidable (_ <:+ _))

/-- A reversed domain starts another exactly when the first's labels end
    the second's. -/
theorem reverseIdnaDomain_prefix_iff {r h : List Char} :
    reverseIdnaDomain r <+: reverseIdnaDomain h ↔ LabelSuffix r h := by
  have hlabels : ∀ d : List Char, ∀ l ∈ ((stripDot d).splitOn '.').reverse, '.' ∉ l :=
    fun d l hl => List.not_mem_of_mem_splitOn '.' (List.mem_reverse.1 hl)
  rw [reverseIdnaDomain_eq_flatMap, reverseIdnaDomain_eq_flatMap,
    List.flatMap_append_singleton_prefix_iff '.' (hlabels r) (hlabels h), List.reverse_prefix,
    List.splitOn_suffix_iff, LabelSuffix, List.cons_suffix_cons_iff]

/-- For a domain `r` without a leading dot, `LabelSuffix r h` says that `h`
    is `r`, or ends with a dot and `r`. -/
theorem labelSuffix_iff {r h : List Char} (hr : r.head? ≠ some '.') :
    LabelSuffix r h ↔ r = h ∨ ∃ x, h = x ++ '.' :: r := by
  have hsr : stripDot r = r := by
    cases r with
    | nil => rfl
    | cons c r => exact stripDot_cons_of_ne (fun hc => hr (by rw [hc]; rfl)) r
  rw [LabelSuffix, hsr, ← List.cons_suffix_cons_iff]
  cases h with
  | nil => rfl
  | cons c h =>
    by_cases hc : c = '.'
    · -- the leading dot of `h` is dropped; `.r` is not `..h`, as `r` does not start with a dot
      subst hc
      rw [stripDot_dot]
      have hne : '.' :: r ≠ '.' :: '.' :: h := fun he => hr (by rw [(List.cons.inj he).2]; rfl)
      exact ⟨fun hs => hs.trans (List.suffix_cons _ _),
        fun hs => (List.suffix_cons_iff.1 hs).resolve_left hne⟩
    · rw [stripDot_cons_of_ne hc]

/-- A label suffix of a name with the root dot is empty or ends with a dot. -/
theorem labelSuffix_append_dot {r d : List Char} (hs : LabelSuffix r (d ++ ['.'])) :
    stripDot r = [] ∨ (stripDot r).getLast? = some '.' := by
  -- `.d.` without its leading dot still ends with a dot
  have hend : ∃ s, '.' :: stripDot (d ++ ['.']) = s ++ ['.'] := by
    match d with
    | [] => exact ⟨[], rfl⟩
    | c :: d =>
      by_cases hc : c = '.'
      · subst hc
        exact ⟨'.' :: d, rfl⟩
      · rw [List.cons_append, stripDot_cons_of_ne hc]
        exact ⟨'.' :: c :: d, rfl⟩
  obtain ⟨s, hsd⟩ := hend
  obtain ⟨t, ht⟩ := hs
  have hlast := congrArg List.getLast? (ht.trans hsd)
  rw [List.getLast?_append, List.getLast?_append, List.getLast?_cons] at hlast
  cases hr : stripDot r with
  | nil => exact .inl rfl
  | cons c r' =>
    right
    rw [hr, List.getLast?_cons] at hlast
    rw [List.getLast?_cons]
    simpa using hlast

/-! ## The child-domain rule -/

namespace AclChildDomainRuleBuilder

variable {Action : Type}

@[simp] theorem inner_inner_addNode (b : AclChildDomainRuleBuilder Action) (d : List Char)
    (a : Action) :
    (b.addNode d a).inner.inner = hashMapInsert b.inner.inner (reverseIdnaDomain d) a := rfl

@[simp] theorem addNodes_nil (b : AclChildDomainRuleBuilder Action) : b.addNodes [] = b := rfl

@[simp] theorem addNodes_cons (b : AclChildDomainRuleBuilder Action) (n : List Char × Action)
    (nodes : List (List Char × Action)) :
    b.addNodes (n :: nodes) = (b.addNode n.1 n.2).addNodes nodes := rfl

@[simp] theorem missedAction_addNodes (b : AclChildDomainRuleBuilder Action)
    (nodes : List (List Char × Action)) : (b.addNodes nodes).missedAction = b.missedAction := by
  induction nodes generalizing b with
  | nil => rfl
  | cons n nodes ih => exact ih _

/-- Every entry of the trie is a configured domain, reversed, with its
    action. -/
theorem mem_addNodes {b : AclChildDomainRuleBuilder Action} {nodes : List (List Char × Action)}
    {e : List Char × Action} (he : e ∈ (b.addNodes nodes).inner.inner) :
    e ∈ b.inner.inner ∨ ∃ n ∈ nodes, e = (reverseIdnaDomain n.1, n.2) := by
  induction nodes generalizing b with
  | nil => exact .inl he
  | cons n nodes ih =>
    rcases ih he with he | ⟨n', hn', rfl⟩
    · -- an entry after `add_node(n)`: `n`'s own, or one from before
      rcases mem_hashMapInsert.1 he with rfl | ⟨he, -⟩
      · exact .inr ⟨n, List.mem_cons_self, rfl⟩
      · exact .inl he
    · exact .inr ⟨n', List.mem_cons_of_mem _ hn', rfl⟩

/-- A key in the trie stays there. -/
theorem exists_mem_addNodes_of_mem {b : AclChildDomainRuleBuilder Action}
    {nodes : List (List Char × Action)} {k : List Char} {a : Action} (h : (k, a) ∈ b.inner.inner) :
    ∃ a', (k, a') ∈ (b.addNodes nodes).inner.inner := by
  induction nodes generalizing b a with
  | nil => exact ⟨a, h⟩
  | cons n nodes ih =>
    obtain ⟨a', h'⟩ := exists_mem_hashMapInsert (k := reverseIdnaDomain n.1) (v := n.2) h
    exact ih h'

/-- Every configured domain has its reversed form in the trie. -/
theorem exists_mem_addNodes {b : AclChildDomainRuleBuilder Action}
    {nodes : List (List Char × Action)} {n : List Char × Action} (hn : n ∈ nodes) :
    ∃ a, (reverseIdnaDomain n.1, a) ∈ (b.addNodes nodes).inner.inner := by
  induction nodes generalizing b with
  | nil => cases hn
  | cons n' nodes ih =>
    rw [addNodes_cons]
    rcases List.mem_cons.1 hn with rfl | hn
    · exact exists_mem_addNodes_of_mem (mem_hashMapInsert.2 (.inl rfl))
    · exact ih hn

end AclChildDomainRuleBuilder

namespace AclChildDomainRule

open AclChildDomainRuleBuilder

variable {Action : Type} {f : List (List Char × Action) → List Char → Option Action}
  (hf : AncestorValue f) (m : Action) (nodes : List (List Char × Action)) (h : List Char)

include hf

/-- The rule finds `h` exactly when a configured domain is a label suffix
    of it. -/
theorem check_found_iff :
    (((new m).addNodes nodes).build.check f h).1 = true ↔ ∃ n ∈ nodes, LabelSuffix n.1 h := by
  rcases AclRadixTrieRule.check_cases hf ((new m).addNodes nodes).build.inner (reverseIdnaDomain h)
    with ⟨k, a, he, hp, -, hc⟩ | ⟨hno, hc⟩
  · -- the matching key is a configured domain's
    rcases mem_addNodes he with he | ⟨n, hn, hkn⟩
    · cases he
    · obtain ⟨rfl, rfl⟩ := Prod.mk.inj hkn
      rw [check, hc]
      exact iff_of_true rfl ⟨n, hn, reverseIdnaDomain_prefix_iff.1 hp⟩
  · rw [check, hc]
    refine iff_of_false Bool.false_ne_true ?_
    rintro ⟨n, hn, hs⟩
    obtain ⟨a, ha⟩ := exists_mem_addNodes (b := new m) hn
    exact hno _ ha (reverseIdnaDomain_prefix_iff.2 hs)

/-- A found host gets the action of a configured label suffix no shorter
    than any other. -/
theorem check_eq_true {a : Action} (hc : ((new m).addNodes nodes).build.check f h = (true, a)) :
    ∃ r, (r, a) ∈ nodes ∧ LabelSuffix r h ∧
      ∀ n ∈ nodes, LabelSuffix n.1 h → (stripDot n.1).length ≤ (stripDot r).length := by
  rcases AclRadixTrieRule.check_cases hf ((new m).addNodes nodes).build.inner (reverseIdnaDomain h)
    with ⟨k, a', he, hp, hmax, hc'⟩ | ⟨-, hc'⟩
  · rw [check, hc'] at hc
    obtain rfl := (Prod.mk.inj hc).2
    rcases mem_addNodes he with he | ⟨⟨r, a⟩, hn, hkn⟩
    · cases he
    · obtain ⟨rfl, rfl⟩ := Prod.mk.inj hkn
      refine ⟨r, hn, reverseIdnaDomain_prefix_iff.1 hp, fun n hn' hs => ?_⟩
      -- the other domain's key is in the trie and matches, so it is no longer
      obtain ⟨a'', ha''⟩ := exists_mem_addNodes (b := new m) hn'
      have := hmax _ ha'' (reverseIdnaDomain_prefix_iff.2 hs)
      simp only [length_reverseIdnaDomain] at this
      omega
  · rw [check, hc'] at hc
    cases hc

/-- A host the rule does not find gets the missed action. -/
theorem check_eq_false {a : Action} (hc : ((new m).addNodes nodes).build.check f h = (false, a)) :
    a = m := by
  rcases AclRadixTrieRule.check_cases hf ((new m).addNodes nodes).build.inner (reverseIdnaDomain h)
    with ⟨_, _, _, _, _, hc'⟩ | ⟨_, hc'⟩
  · rw [check, hc'] at hc
    cases hc
  · rw [check, hc'] at hc
    exact ((Prod.mk.inj hc).2).symm.trans (missedAction_addNodes (new m) nodes)

/-- A name written with the root dot is never found when no configured
    domain is empty or ends with a dot: it gets the missed action. -/
theorem check_root_dot (hnodes : ∀ n ∈ nodes, stripDot n.1 ≠ [] ∧ (stripDot n.1).getLast? ≠ some '.')
    (d : List Char) : ((new m).addNodes nodes).build.check f (d ++ ['.']) = (false, m) := by
  have hfound : (((new m).addNodes nodes).build.check f (d ++ ['.'])).1 = false := by
    rw [Bool.eq_false_iff, ne_eq, check_found_iff hf]
    rintro ⟨n, hn, hs⟩
    rcases labelSuffix_append_dot hs with he | hl
    · exact (hnodes n hn).1 he
    · exact (hnodes n hn).2 hl
  cases hc : ((new m).addNodes nodes).build.check f (d ++ ['.']) with
  | mk found a =>
    rw [hc] at hfound
    obtain rfl : found = false := hfound
    rw [check_eq_false hf m nodes (d ++ ['.']) hc]

end AclChildDomainRule

/-! ## The subnet rule -/

/-- `::ffff:a.b.c.d` is the number `0xffff_0000_0000` plus `a.b.c.d`. -/
theorem value_toIpv6Mapped (o : Vector UInt8 4) :
    (IpAddr.v6 (toIpv6Mapped o)).value = 0xffff * 2 ^ 32 + (IpAddr.v4 o).value := by
  obtain ⟨⟨l⟩, hl⟩ := o
  match l, hl with
  | [a, b, c, d], hl' =>
    have hsplit : (toIpv6Mapped ⟨⟨[a, b, c, d]⟩, hl'⟩).toList =
        [0, 0, 0, 0, 0, 0, 0, 0, 0, 0, 0xff, 0xff] ++ [a, b, c, d] := rfl
    have hhigh : Bytes.beValue [0, 0, 0, 0, 0, 0, 0, 0, 0, 0, 0xff, 0xff] = 0xffff := by decide
    simp only [IpAddr.value]
    have hpow : (256 : Nat) ^ [a, b, c, d].length = 2 ^ 32 := by norm_num
    rw [hsplit, Bytes.beValue_append, hhigh, hpow]
    rfl

/-! ## The egress defaults -/

namespace AclNetworkRuleBuilder

variable {N : Type} [DecidableEq N] (L : AclLibs N)

omit [DecidableEq N] in
@[simp] theorem netmask_unwrapNetwork {ip : IpAddr} {k : Nat} (h) :
    L.netmask (unwrapNetwork L ip k h) = k :=
  L.netmask_networkNew (Option.some_get _).symm

omit [DecidableEq N] in
theorem contains_unwrapNetwork {ip : IpAddr} {k : Nat} (h) (a : IpAddr) :
    L.contains (unwrapNetwork L ip k h) a = true ↔
      ip.sameFamily a = true ∧ a.value - a.value % 2 ^ (a.bits - k) = ip.value :=
  L.contains_networkNew (Option.some_get _).symm a

theorem mem_newEgress_inner {m : AclAction} {e : N × AclAction} :
    e ∈ (newEgress L m).inner ↔ e.1 ∈ defaultEgressRule L ∧ e.2 = .forbid := by
  simp [newEgress, mem_foldl_hashMapInsert]

omit [DecidableEq N] in
/-- No default network holds an IPv4-mapped address: the IPv4 ones are of
    the other family, the IPv6 ones lie elsewhere. -/
theorem defaultEgressRule_contains_mapped (o : Vector UInt8 4) :
    ∀ n ∈ defaultEgressRule L, L.contains n (.v6 (toIpv6Mapped o)) = false := by
  have hv := value_toIpv6Mapped o
  have hlt : (IpAddr.v4 o).value < 2 ^ 32 := by
    simpa [IpAddr.value] using Bytes.beValue_lt o.toList
  simp only [defaultEgressRule, List.mem_cons, List.not_mem_nil, or_false]
  rintro n (rfl | rfl | rfl | rfl | rfl | rfl | rfl) <;>
    simp [← Bool.not_eq_true, contains_unwrapNetwork, IpAddr.sameFamily, IpAddr.bits, hv]
  -- the IPv6 networks, by the values of their addresses
  all_goals
    generalize (IpAddr.v4 o).value = x at hlt ⊢
    simp [IpAddr.value, Bytes.beValue]
    omega

omit [DecidableEq N] in
/-- `127.0.0.0/8` holds every `127.b.c.d`. -/
theorem defaultEgressRule_contains_loopback (b c d : UInt8) :
    ∃ n ∈ defaultEgressRule L, L.contains n (.v4 #v[127, b, c, d]) = true := by
  have hv : (IpAddr.v4 #v[127, b, c, d]).value = 127 * 2 ^ 24 + Bytes.beValue [b, c, d] := by
    simp [IpAddr.value, Bytes.beValue_cons]
  have hlt : Bytes.beValue [b, c, d] < 2 ^ 24 := by simpa using Bytes.beValue_lt [b, c, d]
  refine ⟨_, List.mem_cons_of_mem _ List.mem_cons_self, ?_⟩
  simp only [contains_unwrapNetwork, IpAddr.sameFamily, IpAddr.bits, hv, true_and]
  generalize Bytes.beValue [b, c, d] = x at hlt ⊢
  simp [IpAddr.value, Bytes.beValue]
  omega

/-- The egress defaults miss every IPv4-mapped address. -/
theorem newEgress_check_mapped (m : AclAction) (o : Vector UInt8 4) :
    (newEgress L m).build.check L (.v6 (toIpv6Mapped o)) = (false, m) := by
  cases h : L.longestMatch (newEgress L m).inner (.v6 (toIpv6Mapped o)) with
  | none =>
    simp only [AclNetworkRule.check, build, h]
    rfl
  | some e =>
    -- a match would be a default network holding the address
    obtain ⟨he, hfit, -⟩ := (L.longestMatch_spec _ _).1 e h
    have := defaultEgressRule_contains_mapped L o e.1 ((mem_newEgress_inner L).1 he).1
    rw [hfit] at this
    cases this

/-- The egress defaults forbid every loopback address `127.b.c.d`. -/
theorem newEgress_check_loopback (m : AclAction) (b c d : UInt8) :
    (newEgress L m).build.check L (.v4 #v[127, b, c, d]) = (true, .forbid) := by
  obtain ⟨n, hn, hfit⟩ := defaultEgressRule_contains_loopback L b c d
  -- some default network matches, and every one is forbidden
  cases h : L.longestMatch (newEgress L m).inner (.v4 #v[127, b, c, d]) with
  | none =>
    have := (L.longestMatch_spec _ _).2 h (n, .forbid) ((mem_newEgress_inner L).2 ⟨hn, rfl⟩)
    rw [hfit] at this
    cases this
  | some e =>
    obtain ⟨he, -, -⟩ := (L.longestMatch_spec _ _).1 e h
    simp only [AclNetworkRule.check, build, h, ((mem_newEgress_inner L).1 he).2]

end AclNetworkRuleBuilder

/-! ## Equivalent spellings of a destination -/

/-- `foo.com`. -/
def fooCom : List Char := ['f', 'o', 'o', '.', 'c', 'o', 'm']

/-- `foo.com` and its subdomains forbidden, the rest permitted. -/
def fooComChild : AclChildDomainRuleBuilder AclAction :=
  (AclChildDomainRuleBuilder.new .permit).addNodes [(fooCom, .forbid)]

/-- `fooComChild` over the egress defaults. -/
def fooComForbidden {N : Type} [DecidableEq N] (L : AclLibs N) : AclDstHostRuleSetBuilder N :=
  ⟨none, some fooComChild, none, some (AclNetworkRuleBuilder.newEgress L .permit)⟩

/-- The child-domain rule forbids `foo.com`, and not `foo.com.`. -/
theorem fooComChild_check {f : List (List Char × AclAction) → List Char → Option AclAction}
    (hf : AncestorValue f) :
    fooComChild.build.check f fooCom = (true, .forbid) ∧
      fooComChild.build.check f (fooCom ++ ['.']) = (false, .permit) := by
  refine ⟨?_, AclChildDomainRule.check_root_dot hf _ _ (by decide) fooCom⟩
  have hfound : (fooComChild.build.check f fooCom).1 = true :=
    (AclChildDomainRule.check_found_iff hf AclAction.permit [(fooCom, .forbid)] fooCom).2
      ⟨_, List.mem_singleton_self _, List.suffix_refl _⟩
  cases hc : fooComChild.build.check f fooCom with
  | mk found a =>
    rw [hc] at hfound
    obtain rfl : found = true := hfound
    -- the action is the one configured domain's
    obtain ⟨r, hr, -⟩ := AclChildDomainRule.check_eq_true hf _ _ _ hc
    rw [(Prod.mk.inj (List.mem_singleton.1 hr)).2]

theorem check_root_dot_mapped_bypass {N : Type} [DecidableEq N] (L : AclLibs N) :
    (∀ isMatch, (fooComForbidden L).build.check L isMatch (.domain fooCom) = (true, .forbid) ∧
      (fooComForbidden L).build.check L isMatch (.domain (fooCom ++ ['.'])) = (false, .permit)) ∧
    ∀ isMatch (b c d : UInt8),
      (fooComForbidden L).build.check L isMatch (.ip (.v4 #v[127, b, c, d])) = (true, .forbid) ∧
      (fooComForbidden L).build.check L isMatch (.ip (.v6 (toIpv6Mapped #v[127, b, c, d]))) =
        (false, .permit) := by
  obtain ⟨hdomain, hroot⟩ := fooComChild_check L.getAncestorValue_spec
  -- no exact and no regex rule; nothing restricts the missed action
  have hset : (fooComForbidden L).build =
      ⟨none, some fooComChild.build, none, some (AclNetworkRuleBuilder.newEgress L .permit).build,
        .permit⟩ := rfl
  rw [hset]
  refine ⟨fun isMatch => ⟨?_, ?_⟩, fun isMatch b c d => ⟨?_, ?_⟩⟩
  · simp [AclDstHostRuleSet.check, hdomain, foundOr]
  · simp [AclDstHostRuleSet.check, hroot, foundOr]
  · simp [AclDstHostRuleSet.check, AclNetworkRuleBuilder.newEgress_check_loopback, foundOr]
  · simp [AclDstHostRuleSet.check, AclNetworkRuleBuilder.newEgress_check_mapped, foundOr]

/-! ## The crates, realised

`AclLibs` is not empty: the lists of entries looked up by
`List.longestMatch`, and networks as an address with its netmask, have
what the rules rely on. -/

/-- An address and a netmask, the bits past the netmask zero. -/
structure IpNetwork where
  networkAddress : IpAddr
  netmask : Nat
  deriving DecidableEq

namespace IpNetwork

/-- A network for a netmask within the width and no host bit set. -/
def new (ip : IpAddr) (netmask : Nat) : Option IpNetwork :=
  if netmask ≤ ip.bits ∧ ip.value % 2 ^ (ip.bits - netmask) = 0 then some ⟨ip, netmask⟩ else none

/-- An address of the same family whose bits under the netmask are the
    network's. -/
def contains (n : IpNetwork) (ip : IpAddr) : Bool :=
  n.networkAddress.sameFamily ip && ip.value - ip.value % 2 ^ (ip.bits - n.netmask) = n.networkAddress.value

theorem new_eq_some {ip : IpAddr} {m : Nat} {n : IpNetwork} (h : new ip m = some n) : n = ⟨ip, m⟩ := by
  unfold new at h
  split at h
  · exact (Option.some.inj h).symm
  · cases h

end IpNetwork

/-- The longest entry whose key starts the query. -/
def ancestorValueOfList {A : Type} (entries : List (List Char × A)) (key : List Char) : Option A :=
  (List.longestMatch (fun k => decide (k <+: key)) List.length entries).map (·.2)

theorem ancestorValue_ofList {A : Type} : AncestorValue (ancestorValueOfList (A := A)) := by
  intro entries key
  refine ⟨fun a h => ?_, fun h e he hp => ?_⟩
  · obtain ⟨e, he, rfl⟩ := Option.map_eq_some_iff.1 h
    obtain ⟨hmem, hfit, hmax⟩ := List.longestMatch_spec _ _ he
    exact ⟨e.1, hmem, of_decide_eq_true hfit, fun e' he' hp => hmax e' he' (decide_eq_true hp)⟩
  · have hno := (List.longestMatch_eq_none _ _).1 (Option.map_eq_none_iff.1 h) e he
    simp [hp] at hno

/-- The crates as lists and networks. -/
def AclLibs.ofLists : AclLibs IpNetwork where
  getAncestorValue := ancestorValueOfList
  networkNew := IpNetwork.new
  netmask := IpNetwork.netmask
  contains := IpNetwork.contains
  longestMatch es ip := List.longestMatch (·.contains ip) IpNetwork.netmask es
  getAncestorValue_spec := ancestorValue_ofList
  networkNew_isSome ip m h1 h2 := by simp [IpNetwork.new, h1, h2]
  netmask_networkNew h := by rw [IpNetwork.new_eq_some h]
  contains_networkNew h a := by simp [IpNetwork.new_eq_some h, IpNetwork.contains]
  longestMatch_spec es ip :=
    ⟨fun _ h => List.longestMatch_spec _ _ h, fun h => (List.longestMatch_eq_none _ _).1 h⟩

example : (fooComForbidden AclLibs.ofLists).build.check AclLibs.ofLists (fun _ _ => false)
    (.domain (fooCom ++ ['.'])) = (false, .permit) := by
  decide

end G3Proxy
