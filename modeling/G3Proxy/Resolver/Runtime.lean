/-
  The resolver runtime (g3-resolver runtime.rs, record.rs): the task that
  answers GetV4/GetV6 requests from a per-family cache, coalesces the misses
  for one domain into one driver query, caches the driver's responses until
  their expire instant, and drops a cache entry when the expiry queue yields
  its domain.

  * `ResolvedRecord.resolved`, `.failed`: the records a driver builds, whose
    expire is `None` once the TTL runs past what the clock can hold;
  * `updateCache`, `Tables.handleRsp`, `ResolverRuntime.handleReq`,
    `.handleRsp`, `.handleExpired`: the handlers of runtime.rs, written once
    over the tables of one family, as the source writes the same code twice;
  * the expiry queues are of a type `Q`, driven through the operations
    `D : DelayQueueOps δ Q` of tokio-util's `DelayQueue`
    (Core/DelayQueue.lean); the results are proved for any `D` that meets
    the interface's laws, and `DelayQueue.ops` is the timer wheel itself;
  * `System`: the runtime with what surrounds it (the clock, the queries the
    driver was given and has not had answered, the oneshot senders and what
    each was sent, the responses and expiries handled so far), and
    `System.step`, one handler run on one event.  `System.Allowed` is what
    the surroundings promise: a oneshot sender is used once, the driver
    answers only the queries it was given, the queue yields only keys whose
    deadline has passed, and the clock does not go back.
-/
import G3Proxy.Core.DelayQueue
import Mathlib

namespace G3Proxy.Resolver

/-- tokio's Instant, as nanoseconds of the monotonic clock. -/
abbrev Instant := Nat

/-- Instant::checked_add of Duration::from_secs(secs): std keeps the seconds
of an instant in an i64. -/
def Instant.checkedAddSecs (t : Instant) (secs : Nat) : Option Instant :=
  if t + secs * 1000000000 < 2 ^ 63 * 1000000000 then some (t + secs * 1000000000) else none

/-- ResolvedRecord, over its domain type and its result type
(Result<Vec<IpAddr>, ResolveError> in the source). -/
structure ResolvedRecord (δ ρ : Type) where
  domain : δ
  created : Instant
  expire : Option Instant
  result : ρ
  deriving DecidableEq

section Records

variable {δ ε ι : Type}

/-- ResolvedRecord::failed, with Instant::now() as `now`. -/
def ResolvedRecord.failed (domain : δ) (protectiveCacheTtl : UInt32) (err : ε) (now : Instant) :
    ResolvedRecord δ (Except ε (List ι)) :=
  { domain, created := now, expire := Instant.checkedAddSecs now protectiveCacheTtl.toNat,
    result := .error err }

end Records

inductive ResolvedRecordSource
  | cache
  | query
  deriving DecidableEq, Repr

/-- The two record families: A (the v4 tables) and AAAA (the v6 tables). -/
inductive Family
  | v4
  | v6
  deriving DecidableEq, Repr

structure CachedRecord (δ ρ : Type) where
  inner : ResolvedRecord δ ρ
  expireAt : Instant
  expireKey : Option Nat

/-- The tables runtime.rs keeps for one family: expired_vX, cache_vX and
doing_vX, the senders waiting on the one query for a domain. -/
structure Tables (Q δ σ ρ : Type) where
  expired : Q
  cache : δ → Option (CachedRecord δ ρ)
  doing : δ → Option (List σ)

/-- ResolverRuntime: the tables of both families, and whether a driver is
spawned (the driver itself only shows in the queries it is given). -/
structure ResolverRuntime (Q δ σ ρ : Type) where
  v4 : Tables Q δ σ ρ
  v6 : Tables Q δ σ ρ
  driver : Bool

/-- What a handler does outside the runtime: a send on a oneshot sender, or
a query handed to the driver. -/
inductive Effect (δ σ ρ : Type)
  | send (sender : σ) (record : ResolvedRecord δ ρ) (source : ResolvedRecordSource)
  | query (family : Family) (domain : δ)

inductive ResolveDriverRequest (δ σ : Type)
  | getV4 (domain : δ) (sender : σ)
  | getV6 (domain : δ) (sender : σ)

inductive ResolveDriverResponse (δ ρ : Type)
  | v4 (record : ResolvedRecord δ ρ)
  | v6 (record : ResolvedRecord δ ρ)

variable {Q δ σ ρ : Type} (D : DelayQueueOps δ Q)

/-- The tables of one family, their expiry queue made at `now`. -/
def Tables.new (now : Instant) : Tables Q δ σ ρ :=
  { expired := D.new now, cache := fun _ => none, doing := fun _ => none }

/-- ResolverRuntime::new, at the instant `now`. -/
def ResolverRuntime.new (now : Instant) : ResolverRuntime Q δ σ ρ :=
  { v4 := Tables.new D now, v6 := Tables.new D now, driver := false }

def ResolverRuntime.tables (rt : ResolverRuntime Q δ σ ρ) : Family → Tables Q δ σ ρ
  | .v4 => rt.v4
  | .v6 => rt.v6

def ResolverRuntime.setTables (rt : ResolverRuntime Q δ σ ρ) : Family → Tables Q δ σ ρ →
    ResolverRuntime Q δ σ ρ
  | .v4, t => { rt with v4 := t }
  | .v6, t => { rt with v6 := t }

@[simp] theorem ResolverRuntime.tables_setTables (rt : ResolverRuntime Q δ σ ρ) (f f' : Family)
    (t : Tables Q δ σ ρ) : (rt.setTables f t).tables f' = if f = f' then t else rt.tables f' := by
  cases f <;> cases f' <;> rfl

@[simp] theorem ResolverRuntime.setTables_driver (rt : ResolverRuntime Q δ σ ρ) (f : Family)
    (t : Tables Q δ σ ρ) : (rt.setTables f t).driver = rt.driver := by
  cases f <;> rfl

def ResolveDriverRequest.family : ResolveDriverRequest δ σ → Family
  | .getV4 .. => .v4
  | .getV6 .. => .v6

def ResolveDriverRequest.domain : ResolveDriverRequest δ σ → δ
  | .getV4 domain _ | .getV6 domain _ => domain

def ResolveDriverRequest.sender : ResolveDriverRequest δ σ → σ
  | .getV4 _ sender | .getV6 _ sender => sender

def ResolveDriverResponse.family : ResolveDriverResponse δ ρ → Family
  | .v4 _ => .v4
  | .v6 _ => .v6

def ResolveDriverResponse.record : ResolveDriverResponse δ ρ → ResolvedRecord δ ρ
  | .v4 record | .v6 record => record

section Handlers

variable [DecidableEq δ]

/-- ResolverRuntime::update_cache: an occupied entry keeps its queue key and
has it reset to the new instant (a missing key is inserted afresh); a vacant
one gets a new key.  reset_at panics on a key the queue does not hold, and
both panic on an instant out of the timer wheel's reach. -/
def updateCache (cache : δ → Option (CachedRecord δ ρ)) (expireQueue : Q)
    (record : ResolvedRecord δ ρ) (expireAt : Instant) :
    Option ((δ → Option (CachedRecord δ ρ)) × Q) :=
  let store (k : Nat) := Function.update cache record.domain
    (some { inner := record, expireAt, expireKey := some k })
  match cache record.domain with
  | some v =>
    match v.expireKey with
    | some k => (D.resetAt expireQueue k expireAt).map fun q => (store k, q)
    | none => (D.insertAt expireQueue record.domain expireAt).map fun (k, q) => (store k, q)
  | none => (D.insertAt expireQueue record.domain expireAt).map fun (k, q) => (store k, q)

/-- The sends of handle_rsp to the senders that waited on the query: the one
vec.pop() yields is sent the record as Query, every other one as Cache. -/
def answerWaiters (record : ResolvedRecord δ ρ) (vec : List σ) : List (Effect δ σ ρ) :=
  match vec.getLast? with
  | some sender => .send sender record .query :: vec.dropLast.map (.send · record .cache)
  | none => []

/-- doing_vX.remove(&record.domain), and the sends to the senders it held. -/
def Tables.takeWaiters (t : Tables Q δ σ ρ) (record : ResolvedRecord δ ρ) :
    Tables Q δ σ ρ × List (Effect δ σ ρ) :=
  match t.doing record.domain with
  | some vec =>
    ({ t with doing := Function.update t.doing record.domain none }, answerWaiters record vec)
  | none => (t, [])

/-- The cache update of handle_rsp: only a record with an expire instant is
cached. -/
def Tables.cacheRecord (t : Tables Q δ σ ρ) (record : ResolvedRecord δ ρ) :
    Option (Tables Q δ σ ρ) :=
  match record.expire with
  | some expireAt =>
    (updateCache D t.cache t.expired record expireAt).map fun (cache, expired) =>
      { t with cache, expired }
  | none => some t

/-- handle_rsp on the tables of the response's family. -/
def Tables.handleRsp (t : Tables Q δ σ ρ) (record : ResolvedRecord δ ρ) :
    Option (Tables Q δ σ ρ × List (Effect δ σ ρ)) :=
  let (t, sends) := t.takeWaiters record
  (t.cacheRecord D record).map (·, sends)

/-- handle_req on the tables of the request's family: a cached record is
sent at once as Cache; a miss joins the query in flight for the domain, or
starts one (the driver is always spawned by then: `unreachable!()`). -/
def ResolverRuntime.handleReqIn (rt : ResolverRuntime Q δ σ ρ) (family : Family) (domain : δ)
    (sender : σ) : Option (ResolverRuntime Q δ σ ρ × List (Effect δ σ ρ)) :=
  let t := rt.tables family
  match t.cache domain with
  | some r => some (rt, [.send sender r.inner .cache])
  | none =>
    match t.doing domain with
    | some vec =>
      some (rt.setTables family
        { t with doing := Function.update t.doing domain (some (vec ++ [sender])) }, [])
    | none =>
      let rt' := rt.setTables family
        { t with doing := Function.update t.doing domain (some [sender]) }
      if rt.driver then some (rt', [.query family domain]) else none

def ResolverRuntime.handleReq (rt : ResolverRuntime Q δ σ ρ) :
    ResolveDriverRequest δ σ → Option (ResolverRuntime Q δ σ ρ × List (Effect δ σ ρ))
  | .getV4 domain sender => rt.handleReqIn .v4 domain sender
  | .getV6 domain sender => rt.handleReqIn .v6 domain sender

def ResolverRuntime.handleRspIn (rt : ResolverRuntime Q δ σ ρ) (family : Family)
    (record : ResolvedRecord δ ρ) : Option (ResolverRuntime Q δ σ ρ × List (Effect δ σ ρ)) :=
  ((rt.tables family).handleRsp D record).map fun (t, sends) => (rt.setTables family t, sends)

def ResolverRuntime.handleRsp (rt : ResolverRuntime Q δ σ ρ) :
    ResolveDriverResponse δ ρ → Option (ResolverRuntime Q δ σ ρ × List (Effect δ σ ρ))
  | .v4 record => rt.handleRspIn D .v4 record
  | .v6 record => rt.handleRspIn D .v6 record

/-- handle_expired_v4 / handle_expired_v6: the cache entry of the domain goes,
whatever key it holds. -/
def ResolverRuntime.handleExpired (rt : ResolverRuntime Q δ σ ρ) (family : Family) (domain : δ) :
    ResolverRuntime Q δ σ ρ :=
  let t := rt.tables family
  rt.setTables family { t with cache := Function.update t.cache domain none }

@[simp] theorem ResolverRuntime.handleExpired_tables (rt : ResolverRuntime Q δ σ ρ) (f f' : Family)
    (domain : δ) : (rt.handleExpired f domain).tables f' =
      if f = f' then { rt.tables f with cache := Function.update (rt.tables f).cache domain none }
      else rt.tables f' := by
  simp [ResolverRuntime.handleExpired]

@[simp] theorem ResolverRuntime.handleExpired_driver (rt : ResolverRuntime Q δ σ ρ) (f : Family)
    (domain : δ) : (rt.handleExpired f domain).driver = rt.driver := by
  simp [ResolverRuntime.handleExpired]

def ResolverRuntime.handleExpiredV4 (rt : ResolverRuntime Q δ σ ρ) (domain : δ) :
    ResolverRuntime Q δ σ ρ :=
  rt.handleExpired .v4 domain

def ResolverRuntime.handleExpiredV6 (rt : ResolverRuntime Q δ σ ρ) (domain : δ) :
    ResolverRuntime Q δ σ ρ :=
  rt.handleExpired .v6 domain

/-- handle_cmd for an Update: the new driver replaces the old one when it
spawns; the tables are left as they are. -/
def ResolverRuntime.handleUpdate (rt : ResolverRuntime Q δ σ ρ) (spawned : Bool) :
    ResolverRuntime Q δ σ ρ :=
  { rt with driver := spawned || rt.driver }

end Handlers

/-- A response handled or an expiry processed: the history the cache is
specified against. -/
inductive Handled (δ ρ : Type)
  | rsp (family : Family) (record : ResolvedRecord δ ρ)
  | expired (family : Family) (domain : δ)

/-- The runtime and what surrounds it. -/
structure System (Q δ σ ρ : Type) where
  rt : ResolverRuntime Q δ σ ρ
  now : Instant
  /-- queries handed to the driver whose response has not been handled -/
  outstanding : List (Family × δ)
  /-- the request each oneshot sender came with -/
  requested : σ → Option (Family × δ)
  /-- what each oneshot sender has been sent -/
  received : σ → List (ResolvedRecord δ ρ × ResolvedRecordSource)
  /-- responses handled and expiries processed, newest first -/
  history : List (Handled δ ρ)

/-- The events poll_loop handles, in whatever order they come. -/
inductive Event (δ σ ρ : Type)
  | req (req : ResolveDriverRequest δ σ)
  | rsp (rsp : ResolveDriverResponse δ ρ)
  | expire (family : Family) (key : Nat)
  | update (spawned : Bool)
  | tick (now : Instant)

section System

variable [DecidableEq σ]

/-- Carry out a handler's effects in order. -/
def System.perform : System Q δ σ ρ → List (Effect δ σ ρ) → System Q δ σ ρ
  | s, [] => s
  | s, .send sender record source :: effs =>
    System.perform
      { s with received := Function.update s.received sender (s.received sender ++ [(record, source)]) }
      effs
  | s, .query family domain :: effs =>
    System.perform { s with outstanding := s.outstanding ++ [(family, domain)] } effs

/-- The send an effect makes to `x`, if it is one. -/
def Effect.sentTo (x : σ) : Effect δ σ ρ → Option (ResolvedRecord δ ρ × ResolvedRecordSource)
  | .send y record source => if y = x then some (record, source) else none
  | .query .. => none

/-- The query an effect hands to the driver, if it is one. -/
def Effect.queried : Effect δ σ ρ → Option (Family × δ)
  | .send .. => none
  | .query family domain => some (family, domain)

section Perform

variable (s : System Q δ σ ρ) (effs : List (Effect δ σ ρ))

@[simp] theorem System.perform_rt : (s.perform effs).rt = s.rt := by
  induction effs generalizing s with
  | nil => rfl
  | cons e effs ih => cases e <;> simp [System.perform, ih]

@[simp] theorem System.perform_now : (s.perform effs).now = s.now := by
  induction effs generalizing s with
  | nil => rfl
  | cons e effs ih => cases e <;> simp [System.perform, ih]

@[simp] theorem System.perform_requested : (s.perform effs).requested = s.requested := by
  induction effs generalizing s with
  | nil => rfl
  | cons e effs ih => cases e <;> simp [System.perform, ih]

@[simp] theorem System.perform_history : (s.perform effs).history = s.history := by
  induction effs generalizing s with
  | nil => rfl
  | cons e effs ih => cases e <;> simp [System.perform, ih]

theorem System.perform_received (x : σ) :
    (s.perform effs).received x = s.received x ++ effs.filterMap (Effect.sentTo x) := by
  induction effs generalizing s with
  | nil => simp [System.perform]
  | cons e effs ih =>
    cases e with
    | send y record source =>
      by_cases hy : y = x
      · subst hy; simp [System.perform, ih, Effect.sentTo]
      · simp [System.perform, ih, Effect.sentTo, hy, Function.update_of_ne (Ne.symm hy)]
    | query family domain => simp [System.perform, ih, Effect.sentTo, List.filterMap_cons]

theorem System.perform_outstanding :
    (s.perform effs).outstanding = s.outstanding ++ effs.filterMap Effect.queried := by
  induction effs generalizing s with
  | nil => simp [System.perform]
  | cons e effs ih => cases e <;> simp [System.perform, ih, Effect.queried, List.filterMap_cons]

end Perform

variable [DecidableEq δ]

/-- One event handled; `none` is a panic of the runtime. -/
def System.step (s : System Q δ σ ρ) : Event δ σ ρ → Option (System Q δ σ ρ)
  | .req q => (s.rt.handleReq q).map fun (rt, effs) =>
    System.perform
      { s with rt, requested := Function.update s.requested q.sender (some (q.family, q.domain)) }
      effs
  | .rsp p => (s.rt.handleRsp D p).map fun (rt, effs) =>
    System.perform
      { s with rt, outstanding := s.outstanding.erase (p.family, p.record.domain),
               history := .rsp p.family p.record :: s.history }
      effs
  | .expire family key => (D.pollExpired (s.rt.tables family).expired key).map fun (domain, q) =>
    { s with rt := (s.rt.setTables family { s.rt.tables family with expired := q }).handleExpired
                     family domain,
             history := .expired family domain :: s.history }
  | .update spawned => some { s with rt := s.rt.handleUpdate spawned }
  | .tick now => some { s with now }

/-- What the surroundings promise about the next event. -/
def System.Allowed (s : System Q δ σ ρ) : Event δ σ ρ → Prop
  | .req q => s.requested q.sender = none
  | .rsp p => (p.family, p.record.domain) ∈ s.outstanding
  | .expire family key => ∃ d w, (key, d, w) ∈ D.entries (s.rt.tables family).expired ∧ w ≤ s.now
  | .update _ => True
  | .tick now => s.now ≤ now

/-- The runtime as poll_loop starts handling events: the driver is spawned
(a spawn that fails ends the runtime with an error), nothing is cached,
nothing is asked. -/
def System.init (now : Instant) : System Q δ σ ρ :=
  { rt := { ResolverRuntime.new D now with driver := true }, now, outstanding := [],
    requested := fun _ => none, received := fun _ => [], history := [] }

/-- The states the runtime can reach from its start through allowed events. -/
inductive System.Reachable : System Q δ σ ρ → Prop
  | init (now : Instant) : System.Reachable (System.init D now)
  | step {s s' : System Q δ σ ρ} {e : Event δ σ ρ} :
      System.Reachable s → s.Allowed D e → s.step D e = some s' → System.Reachable s'

end System

end G3Proxy.Resolver
