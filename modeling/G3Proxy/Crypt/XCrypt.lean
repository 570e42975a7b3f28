/-
  The crypt(3) hash strings g3-xcrypt accepts (`lib.rs`, `md5.rs`,
  `sha256.rs`, `sha512.rs`): `XCryptHash::parse` of `$1$salt$hash`,
  `$5$[rounds=R$]salt$hash` and `$6$[rounds=R$]salt$hash`.

  Text is a `List Char` as in the header model; `memchr` gives a byte
  offset, so the parsers compare `byteLen` of the text before the `$`
  with the byte limits.  `usize` is 64 bits wide (`u64FromStr`).

  * The three parsers end in the same checks of the salt and the hash
    (`saltAndHash`, with each algorithm's limits); the two SHA parsers
    first read an optional `rounds=R$` (`shaCryptParse`, with each one's
    hash length).
  * The decoding of the hash string into its binary digest, and `verify`,
    are not modelled: the parsed value keeps the round count, the salt and
    the hash string.
  * `shaCryptParse_rounds_in_range`: the SHA parsers refuse every round
    count in `[ROUNDS_MIN, ROUNDS_MAX]`, the only ones crypt(3) writes, and
    accept those outside it (`shaCryptParse_rounds_out_of_range`): the range
    test is the wrong way round.  Without `rounds=` they read the salt and
    the hash (`shaCryptParse_default`), as `Md5Crypt::parse` does
    (`Md5Crypt.parse_ok`).
-/
import G3Proxy.Core.Lists
import G3Proxy.Http.Header

namespace G3Proxy

namespace XCrypt

/-- `XCryptParseError`. -/
inductive XCryptParseError where
  | unknownPrefix
  | noSaltFound
  | saltTooLong
  | invalidHashSize
  | invalidRounds
  | outOfRangeRounds
  deriving Repr, DecidableEq

/-- The checks every parser ends with, on what follows the prefix (and the
    rounds): a salt of `1..saltLenMax` bytes up to the first `$`, then
    exactly `hashStrLen` bytes of hash. -/
def saltAndHash (saltLenMax hashStrLen : Nat) (s : List Char) :
    Except XCryptParseError (List Char × List Char) :=
  match s.idxOf? '$' with
  | none => .error .noSaltFound
  | some p =>
    -- `d`, the byte offset `memchr` returns
    let d := byteLen (s.take p)
    if d = 0 then .error .noSaltFound
    else if d > saltLenMax then .error .saltTooLong
    else if d + 1 + hashStrLen ≠ byteLen s then .error .invalidHashSize
    else .ok (s.take p, s.drop (p + 1))

/-- `Md5Crypt`: the salt and the hash string. -/
structure Md5Crypt where
  salt : List Char
  hash : List Char
  deriving Repr, DecidableEq

/-- `Sha256Crypt` and `Sha512Crypt`: the round count, the salt and the hash
    string. -/
structure ShaCrypt where
  rounds : Nat
  salt : List Char
  hash : List Char
  deriving Repr, DecidableEq

/-- `SALT_LEN_MAX` and `HASH_STR_LEN` of `md5.rs`. -/
def md5SaltLenMax : Nat := 8

def md5HashStrLen : Nat := 22

/-- `SALT_LEN_MAX` of `sha256.rs` and `sha512.rs`. -/
def shaSaltLenMax : Nat := 16

/-- `ROUNDS_DEFAULT`, `ROUNDS_MIN` and `ROUNDS_MAX` of `sha256.rs` and
    `sha512.rs`. -/
def roundsDefault : Nat := 5000

def roundsMin : Nat := 1000

def roundsMax : Nat := 999999999

/-- `Md5Crypt::parse`, of what follows `$1$`. -/
def Md5Crypt.parse (v : List Char) : Except XCryptParseError Md5Crypt :=
  (saltAndHash md5SaltLenMax md5HashStrLen v).map fun (salt, hash) => ⟨salt, hash⟩

/-- The optional `rounds=R$` of the SHA parsers: the round count and what
    follows. -/
def readRounds (v : List Char) : Except XCryptParseError (Nat × List Char) :=
  match v.dropPrefix? "rounds=".toList with
  | none => .ok (roundsDefault, v)
  | some r =>
    match r.idxOf? '$' with
    | none => .error .invalidRounds
    | some d =>
      if d = 0 then .error .invalidRounds
      else
        match u64FromStr (r.take d) with
        | none => .error .invalidRounds
        | some rounds =>
          -- `if (ROUNDS_MIN..=ROUNDS_MAX).contains(&rounds)`, as the source has it
          if roundsMin ≤ rounds ∧ rounds ≤ roundsMax then .error .outOfRangeRounds
          else .ok (rounds, r.drop (d + 1))

/-- `Sha256Crypt::parse` and `Sha512Crypt::parse`, of what follows the
    prefix; they differ only in the length of the hash string. -/
def shaCryptParse (hashStrLen : Nat) (v : List Char) : Except XCryptParseError ShaCrypt :=
  match readRounds v with
  | .error e => .error e
  | .ok (rounds, s) => (saltAndHash shaSaltLenMax hashStrLen s).map fun (salt, hash) => ⟨rounds, salt, hash⟩

/-- `Sha256Crypt::parse`: a hash string of 43 bytes. -/
def Sha256Crypt.parse (v : List Char) : Except XCryptParseError ShaCrypt := shaCryptParse 43 v

/-- `Sha512Crypt::parse`: a hash string of 86 bytes. -/
def Sha512Crypt.parse (v : List Char) : Except XCryptParseError ShaCrypt := shaCryptParse 86 v

/-- `XCryptHash`. -/
inductive XCryptHash where
  | md5 (c : Md5Crypt)
  | sha256 (c : ShaCrypt)
  | sha512 (c : ShaCrypt)
  deriving Repr, DecidableEq

/-- `XCryptHash::parse`: the algorithm its prefix names. -/
def XCryptHash.parse (v : List Char) : Except XCryptParseError XCryptHash :=
  match v.dropPrefix? "$1$".toList with
  | some s => (Md5Crypt.parse s).map .md5
  | none =>
    match v.dropPrefix? "$5$".toList with
    | some s => (Sha256Crypt.parse s).map .sha256
    | none =>
      match v.dropPrefix? "$6$".toList with
      | some s => (Sha512Crypt.parse s).map .sha512
      | none => .error .unknownPrefix

/-! ## What the parsers accept -/

section Accepts

variable {saltLenMax hashStrLen : Nat} {salt hash : List Char}

/-- A salt of `1..saltLenMax` bytes without `$`, then `$` and a hash of
    `hashStrLen` bytes, passes the final checks. -/
theorem saltAndHash_ok (hsalt : '$' ∉ salt) (hne : salt ≠ []) (hlen : byteLen salt ≤ saltLenMax)
    (hhash : byteLen hash = hashStrLen) :
    saltAndHash saltLenMax hashStrLen (salt ++ '$' :: hash) = .ok (salt, hash) := by
  have hpos := byteLen_pos hne
  have hdollar : ('$' : Char).utf8Size = 1 := rfl
  have hdrop : (salt ++ '$' :: hash).drop (salt.length + 1) = hash := by simp
  simp only [saltAndHash, List.idxOf?_append_cons_of_not_mem hsalt, List.take_left, hdrop]
  rw [if_neg (by omega), if_neg (by omega), if_neg (by simp only [byteLen_append, byteLen_cons]; omega)]

/-- The spec of `rounds=`: the text that does not start with it is read
    with the default round count. -/
theorem readRounds_default {v : List Char} (h : ¬ "rounds=".toList <+: v) :
    readRounds v = .ok (roundsDefault, v) := by
  rw [readRounds, List.dropPrefix?_eq_none_iff.2 h]

/-- The spec of `rounds=R$`, `R` any decimal spelling of a `usize`: refused
    inside `[ROUNDS_MIN, ROUNDS_MAX]`, read outside it. -/
theorem readRounds_rounds {ds rest : List Char} {R : Nat} (hds : decimalValue ds = some R) (hR : R < 2 ^ 64) :
    readRounds ("rounds=".toList ++ ds ++ '$' :: rest) =
      if roundsMin ≤ R ∧ R ≤ roundsMax then .error .outOfRangeRounds else .ok (R, rest) := by
  -- the digits hold no `$`, so `memchr` stops at the one after them
  have hdollar : '$' ∉ ds := fun h => absurd (isDigit_of_decimalValue hds '$' h) (by decide)
  have hlen : ds.length ≠ 0 := fun h => ne_nil_of_decimalValue hds (List.eq_nil_of_length_eq_zero h)
  have hdrop : (ds ++ '$' :: rest).drop (ds.length + 1) = rest := by simp
  simp only [readRounds, List.append_assoc, List.dropPrefix?_append, List.idxOf?_append_cons_of_not_mem hdollar,
    List.take_left, hdrop, if_neg hlen, u64FromStr_of_decimalValue hds hR]

/-- A text with no `rounds=` in front of the salt does not start with it. -/
theorem not_rounds_prefix_append (hpre : ¬ "rounds=".toList <+: salt) : ¬ "rounds=".toList <+: salt ++ '$' :: hash :=
  fun h => hpre (h.of_append_cons (by decide))

/-- `Md5Crypt::parse` reads the salt and the hash. -/
theorem Md5Crypt.parse_ok (hsalt : '$' ∉ salt) (hne : salt ≠ []) (hlen : byteLen salt ≤ md5SaltLenMax)
    (hhash : byteLen hash = md5HashStrLen) : Md5Crypt.parse (salt ++ '$' :: hash) = .ok ⟨salt, hash⟩ := by
  rw [Md5Crypt.parse, saltAndHash_ok hsalt hne hlen hhash]
  rfl

/-- Without `rounds=` the SHA parsers read the salt and the hash, with the
    default round count. -/
theorem shaCryptParse_default (hpre : ¬ "rounds=".toList <+: salt) (hsalt : '$' ∉ salt) (hne : salt ≠ [])
    (hlen : byteLen salt ≤ shaSaltLenMax) (hhash : byteLen hash = hashStrLen) :
    shaCryptParse hashStrLen (salt ++ '$' :: hash) = .ok ⟨roundsDefault, salt, hash⟩ := by
  rw [shaCryptParse, readRounds_default (not_rounds_prefix_append hpre)]
  simp only [saltAndHash_ok hsalt hne hlen hhash]
  rfl

/-- The SHA parsers refuse `rounds=R$` for every `R` in
    `[ROUNDS_MIN, ROUNDS_MAX]`, whatever follows it. -/
theorem shaCryptParse_rounds_in_range (hashStrLen : Nat) {ds rest : List Char} {R : Nat}
    (hds : decimalValue ds = some R) (hmin : roundsMin ≤ R) (hmax : R ≤ roundsMax) :
    shaCryptParse hashStrLen ("rounds=".toList ++ ds ++ '$' :: rest) = .error .outOfRangeRounds := by
  have hR : R < 2 ^ 64 := lt_of_le_of_lt hmax (by decide)
  rw [shaCryptParse, readRounds_rounds hds hR, if_pos ⟨hmin, hmax⟩]

/-- The SHA parsers read `rounds=R$` for every `usize` `R` outside
    `[ROUNDS_MIN, ROUNDS_MAX]`. -/
theorem shaCryptParse_rounds_out_of_range {ds : List Char} {R : Nat} (hds : decimalValue ds = some R)
    (hR : R < 2 ^ 64) (hout : R < roundsMin ∨ roundsMax < R) (hsalt : '$' ∉ salt) (hne : salt ≠ [])
    (hlen : byteLen salt ≤ shaSaltLenMax) (hhash : byteLen hash = hashStrLen) :
    shaCryptParse hashStrLen ("rounds=".toList ++ ds ++ '$' :: (salt ++ '$' :: hash)) = .ok ⟨R, salt, hash⟩ := by
  have hnot : ¬ (roundsMin ≤ R ∧ R ≤ roundsMax) := by omega
  rw [shaCryptParse, readRounds_rounds hds hR, if_neg hnot]
  simp only [saltAndHash_ok hsalt hne hlen hhash]
  rfl

theorem XCryptHash.parse_sha512 (s : List Char) :
    XCryptHash.parse ("$6$".toList ++ s) = (Sha512Crypt.parse s).map .sha512 := by
  have h1 : ("$6$".toList ++ s).dropPrefix? "$1$".toList = none := rfl
  have h5 : ("$6$".toList ++ s).dropPrefix? "$5$".toList = none := rfl
  rw [XCryptHash.parse, h1, h5, List.dropPrefix?_append]

end Accepts

/-- A SHA-512 crypt(3) string of `123456` (the crate's own test) with its
    round count written out, `rounds=5000`, which names the same digest, is
    refused; without it the string parses with 5000 rounds. -/
theorem XCryptHash.parse_sha512_rounds_5000_rejected :
    XCryptHash.parse ("$6$rounds=5000$yeDpErl4xq9E2vKP$" ++
        ".reNyfNzRJyAJrlh38J1XGx/5QTfBy3IedVNdTqfWqSeZFPAbXzV85uNK9fdmXvGCxizHVcAiIoQ4uXMJWuB6/").toList =
      .error .outOfRangeRounds ∧
    XCryptHash.parse ("$6$yeDpErl4xq9E2vKP$" ++
        ".reNyfNzRJyAJrlh38J1XGx/5QTfBy3IedVNdTqfWqSeZFPAbXzV85uNK9fdmXvGCxizHVcAiIoQ4uXMJWuB6/").toList =
      .ok (.sha512 ⟨5000, "yeDpErl4xq9E2vKP".toList,
        ".reNyfNzRJyAJrlh38J1XGx/5QTfBy3IedVNdTqfWqSeZFPAbXzV85uNK9fdmXvGCxizHVcAiIoQ4uXMJWuB6/".toList⟩) := by
  -- the prefix, the rounds, the salt and the hash of the two strings
  have hrounds : ("$6$rounds=5000$yeDpErl4xq9E2vKP$" ++ ".reNyfNzRJyAJrlh38J1XGx/5QTfBy3IedVNdTqfWqSeZFPAbXzV85uNK9fdmXvGCxizHVcAiIoQ4uXMJWuB6/").toList =
      "$6$".toList ++ ("rounds=".toList ++ "5000".toList ++
        '$' :: ("yeDpErl4xq9E2vKP".toList ++ '$' :: ".reNyfNzRJyAJrlh38J1XGx/5QTfBy3IedVNdTqfWqSeZFPAbXzV85uNK9fdmXvGCxizHVcAiIoQ4uXMJWuB6/".toList)) := by
    rw [String.toList_append]
    rfl
  have hplain : ("$6$yeDpErl4xq9E2vKP$" ++ ".reNyfNzRJyAJrlh38J1XGx/5QTfBy3IedVNdTqfWqSeZFPAbXzV85uNK9fdmXvGCxizHVcAiIoQ4uXMJWuB6/").toList =
      "$6$".toList ++ ("yeDpErl4xq9E2vKP".toList ++ '$' :: ".reNyfNzRJyAJrlh38J1XGx/5QTfBy3IedVNdTqfWqSeZFPAbXzV85uNK9fdmXvGCxizHVcAiIoQ4uXMJWuB6/".toList) := by
    rw [String.toList_append]
    rfl
  refine ⟨?_, ?_⟩
  · rw [hrounds, XCryptHash.parse_sha512, Sha512Crypt.parse,
      shaCryptParse_rounds_in_range 86 (show decimalValue "5000".toList = some 5000 by decide) (by decide) (by decide)]
    rfl
  · rw [hplain, XCryptHash.parse_sha512, Sha512Crypt.parse,
      shaCryptParse_default (by decide) (by decide) (by decide) (by decide) (by decide)]
    rfl

end XCrypt

end G3Proxy
