/-
  What the resolver runtime keeps true over every run (runtime.rs), from
  any state reached through allowed events:

  * every oneshot sender is sent at most one record, for the domain it
    asked about, and until it is, it waits on the one query in flight for
    that domain (`System.SenderOk`); so once the driver has answered every
    query it was given, every sender has had exactly one record;
  * at most one driver query per family and domain is in flight, and
    doing_vX holds the domain exactly while one is;
  * the waiters of a query are each sent its record once: the last one as
    Query, the others as Cache (`System.step_rsp_fields`);
  * a cache hit sends the most recent record for the domain that has an
    expire instant, unless an expiry of the domain was processed since
    (`liveRecord`, the cache's specification over the history);
  * cache_vX holds a domain exactly when expired_vX holds one key for it,
    due at the cached expire_at (`Keyed`).

  Each handler is taken apart once (`handleReqIn_cases`,
  `updateCache_keyed`, `Tables.cacheRecord_keyed`, and `System.step_req`,
  `System.step_rsp_fields`, `System.step_expire` for the events); each
  event then keeps the invariant (`Inv.step`), no allowed event panics
  whose deadline is within the reach of the timer wheels (`Inv.step_isSome`),
  and by induction every reachable state has the invariant
  (`Reachable.inv`).  All of it holds for any expiry queue that meets the
  laws of `DelayQueueOps.Spec`.  On tokio-util's timer wheel a record that
  expires past the reach makes the runtime panic
  (`resolver_runtime_panics_past_wheel`).
-/
import G3Proxy.Resolver.Runtime
import G3Proxy.Core.Lists

namespace G3Proxy.Resolver

variable {Q δ σ ρ : Type} [DecidableEq δ] (D : DelayQueueOps δ Q)

/-! ## The cache's specification -/

/-- The record a request for `domain` is to be answered from: the most
recent handled record for it that has an expire instant, unless an expiry
of the domain was processed since. -/
def liveRecord (family : Family) (domain : δ) : List (Handled δ ρ) → Option (ResolvedRecord δ ρ)
  | [] => none
  | .rsp f r :: h =>
    if f = family ∧ r.domain = domain ∧ r.expire.isSome then some r
    else liveRecord family domain h
  | .expired f d :: h => if f = family ∧ d = domain then none else liveRecord family domain h

theorem liveRecord_domain {f : Family} {d : δ} {h : List (Handled δ ρ)} {r : ResolvedRecord δ ρ}
    (hr : liveRecord f d h = some r) : r.domain = d := by
  induction h with
  | nil => cases hr
  | cons e h ih =>
    cases e with
    | rsp f' r' =>
      simp only [liveRecord] at hr
      split at hr
      · next hc => cases hr; exact hc.2.1
      · exact ih hr
    | expired f' d' =>
      simp only [liveRecord] at hr
      split at hr
      · cases hr
      · exact ih hr

/-! ## The invariant -/

/-- A cache and its expiry queue agree at `d`: an entry has exactly one
live key, due at its expire_at; a domain without an entry has no key. -/
def Keyed (cache : δ → Option (CachedRecord δ ρ)) (q : Q) (d : δ) : Prop :=
  match cache d with
  | some c => ∃ k, c.expireKey = some k ∧ D.entriesFor q d = [(k, d, c.expireAt)]
  | none => D.entriesFor q d = []

section Senders

/-- Sender `x` waits on the query in flight for `d` in `f`. -/
def System.Waiting (s : System Q δ σ ρ) (x : σ) (f : Family) (d : δ) : Prop :=
  ∃ ws, (s.rt.tables f).doing d = some ws ∧ x ∈ ws

/-- `x` was sent one record, for `d`, and waits nowhere. -/
def System.Answered (s : System Q δ σ ρ) (x : σ) (d : δ) : Prop :=
  (∃ r src, s.received x = [(r, src)] ∧ r.domain = d) ∧ ∀ f' d', ¬ s.Waiting x f' d'

/-- `x` was sent nothing and waits on the query for `d` in `f` only. -/
def System.Pending (s : System Q δ σ ρ) (x : σ) (f : Family) (d : δ) : Prop :=
  s.received x = [] ∧ ∀ f' d', s.Waiting x f' d' ↔ f' = f ∧ d' = d

/-- Where a sender stands: unused and sent nothing, or used for `d` in `f`
and either answered or pending. -/
def System.SenderOk (s : System Q δ σ ρ) (x : σ) : Prop :=
  match s.requested x with
  | none => s.received x = [] ∧ ∀ f d, ¬ s.Waiting x f d
  | some (f, d) => s.Answered x d ∨ s.Pending x f d

/-- The invariant of the runtime and its surroundings. -/
structure System.Inv (s : System Q δ σ ρ) : Prop where
  driver : s.rt.driver = true
  outstanding_nodup : s.outstanding.Nodup
  outstanding_iff : ∀ f d, (f, d) ∈ s.outstanding ↔ ((s.rt.tables f).doing d).isSome
  doing_wf : ∀ f d ws, (s.rt.tables f).doing d = some ws → ws ≠ [] ∧ ws.Nodup
  sender : ∀ x, s.SenderOk x
  cache_live : ∀ f d, ((s.rt.tables f).cache d).map (·.inner) = liveRecord f d s.history
  keyed : ∀ f d, Keyed D (s.rt.tables f).cache (s.rt.tables f).expired d

variable {D}

omit [DecidableEq δ] in
theorem System.waiting_iff_of_rt {s s' : System Q δ σ ρ} (h : s'.rt = s.rt) {x : σ} {f : Family} {d : δ} :
    s'.Waiting x f d ↔ s.Waiting x f d := by
  unfold System.Waiting
  rw [h]

omit [DecidableEq δ] in
/-- A sender whose request, sends and waiting are as they were stands as it
stood. -/
theorem System.SenderOk.transfer {s s' : System Q δ σ ρ} {x : σ} (h : s.SenderOk x)
    (hreq : s'.requested x = s.requested x) (hrec : s'.received x = s.received x)
    (hw : ∀ f d, s'.Waiting x f d ↔ s.Waiting x f d) : s'.SenderOk x := by
  unfold System.SenderOk System.Answered System.Pending at *
  rw [hreq, hrec]
  simp only [hw]
  exact h

/-- An unused sender has been sent nothing and waits nowhere. -/
theorem System.Inv.fresh {s : System Q δ σ ρ} (hi : s.Inv D) {x : σ} (hx : s.requested x = none) :
    s.received x = [] ∧ ∀ f d, ¬ s.Waiting x f d := by
  have h := hi.sender x
  unfold System.SenderOk at h
  rw [hx] at h
  exact h

/-- A waiting sender asked about that very domain and has been sent nothing. -/
theorem System.Inv.waiting {s : System Q δ σ ρ} (hi : s.Inv D) {x : σ} {f : Family} {d : δ}
    (hw : s.Waiting x f d) :
    s.requested x = some (f, d) ∧ s.received x = [] := by
  have h := hi.sender x
  unfold System.SenderOk at h
  split at h
  · exact absurd hw (h.2 f d)
  · next f' d' hreq =>
    rcases h with ⟨-, hn⟩ | ⟨hrec, hiff⟩
    · exact absurd hw (hn f d)
    · obtain ⟨rfl, rfl⟩ := (hiff f d).1 hw
      exact ⟨hreq, hrec⟩

end Senders

variable {D}

/-! ## What each handler does -/

/-- handle_req answers from the cache, or adds the sender to the waiters of
the domain's query, starting the query if there was none. -/
theorem handleReqIn_cases {rt rt' : ResolverRuntime Q δ σ ρ} {f : Family} {d : δ} {x : σ}
    {effs : List (Effect δ σ ρ)} (h : rt.handleReqIn f d x = some (rt', effs)) :
    (∃ c, (rt.tables f).cache d = some c ∧ rt' = rt ∧ effs = [.send x c.inner .cache]) ∨
    ((rt.tables f).cache d = none ∧
      rt' = rt.setTables f { rt.tables f with
        doing := Function.update (rt.tables f).doing d (some (((rt.tables f).doing d).getD [] ++ [x])) } ∧
      effs = if ((rt.tables f).doing d).isSome then [] else [.query f d]) := by
  dsimp only [ResolverRuntime.handleReqIn] at h
  split at h
  · next c hc =>
    cases h
    exact .inl ⟨c, hc, rfl, rfl⟩
  · next hc =>
    split at h
    · next vec hv =>
      cases h
      exact .inr ⟨hc, by simp [hv], by simp [hv]⟩
    · next hv =>
      split at h
      · cases h
        exact .inr ⟨hc, by simp [hv], by simp [hv]⟩
      · cases h

/-- Replacing the tables of `f` by tables whose waiters differ at `d` alone
changes the waiters of `d` in `f` and of nothing else. -/
theorem doing_setTables {rt : ResolverRuntime Q δ σ ρ} {f : Family} {t : Tables Q δ σ ρ} {d : δ}
    {v : Option (List σ)} (ht : t.doing = Function.update (rt.tables f).doing d v) (f' : Family)
    (d' : δ) : ((rt.setTables f t).tables f').doing d' =
      if f = f' ∧ d = d' then v else (rt.tables f').doing d' := by
  by_cases hf : f = f'
  · subst hf
    by_cases hd : d = d'
    · subst hd; simp [ht]
    · simp [ht, hd, Function.update_of_ne (Ne.symm hd)]
  · simp [hf]

/-- With a driver spawned, handle_req does not panic. -/
theorem handleReqIn_isSome {rt : ResolverRuntime Q δ σ ρ} (hd : rt.driver = true) (f : Family)
    (d : δ) (x : σ) : (rt.handleReqIn f d x).isSome := by
  dsimp only [ResolverRuntime.handleReqIn]
  split
  · rfl
  · split
    · rfl
    · simp [hd]

/-- The one key of a cached domain is live in the queue, due at the entry's
expire_at. -/
theorem Keyed.live {cache : δ → Option (CachedRecord δ ρ)} {q : Q} {d : δ} {c : CachedRecord δ ρ}
    (hk : Keyed D cache q d) (hc : cache d = some c) :
    ∃ k, c.expireKey = some k ∧ D.entriesFor q d = [(k, d, c.expireAt)] ∧
      (k, d, c.expireAt) ∈ D.entries q := by
  simp only [Keyed, hc] at hk
  obtain ⟨k, hck, hent⟩ := hk
  exact ⟨k, hck, hent, (DelayQueueOps.mem_entriesFor.1 (hent ▸ List.mem_singleton_self _)).1⟩

theorem handleReq_eq (rt : ResolverRuntime Q δ σ ρ) (q : ResolveDriverRequest δ σ) :
    rt.handleReq q = rt.handleReqIn q.family q.domain q.sender := by
  cases q <;> rfl

theorem handleRsp_eq (rt : ResolverRuntime Q δ σ ρ) (p : ResolveDriverResponse δ ρ) :
    rt.handleRsp D p = rt.handleRspIn D p.family p.record := by
  cases p <;> rfl

/-- update_cache, when it does not panic, keeps a cache and its queue
agreeing and stores the record under its domain alone. -/
theorem updateCache_keyed (hD : D.Spec) {cache cache' : δ → Option (CachedRecord δ ρ)} {q q' : Q}
    (hk : ∀ d, Keyed D cache q d) {r : ResolvedRecord δ ρ} {e : Instant}
    (hu : updateCache D cache q r e = some (cache', q')) :
    (∀ d, Keyed D cache' q' d) ∧ (cache' r.domain).map (·.inner) = some r ∧
      ∀ d, d ≠ r.domain → cache' d = cache d := by
  unfold updateCache at hu
  split at hu
  · -- an occupied entry: its one key is reset in place
    next v hv =>
    obtain ⟨k, hvk, hent, hmem⟩ := (hk r.domain).live hv
    rw [hvk] at hu
    obtain ⟨q'', hq'', hcq⟩ := Option.map_eq_some_iff.1 hu
    obtain ⟨rfl, rfl⟩ := Prod.mk.inj hcq
    refine ⟨fun d => ?_, by simp, fun d hd => by simp [hd]⟩
    by_cases hd : d = r.domain
    · subst hd
      simp [Keyed, DelayQueueOps.entriesFor_resetAt hD hq'', hent, DelayQueueOps.retime]
    · -- no entry of another domain holds the key `k`
      have hne := DelayQueueOps.key_ne_of_item_ne hD hmem hd
      simpa [Keyed, hd, DelayQueueOps.entriesFor_resetAt hD hq'', DelayQueueOps.map_retime_of_forall_ne hne]
        using hk d
  · -- a vacant entry gets a fresh key
    next hv =>
    have hkd : D.entriesFor q r.domain = [] := by simpa [Keyed, hv] using hk r.domain
    obtain ⟨⟨k, q''⟩, hins, hcq⟩ := Option.map_eq_some_iff.1 hu
    obtain ⟨rfl, rfl⟩ := Prod.mk.inj hcq
    refine ⟨fun d => ?_, by simp, fun d hd => by simp [hd]⟩
    have hent := DelayQueueOps.entriesFor_insertAt hD hins d
    by_cases hd : d = r.domain
    · subst hd
      simp [Keyed, hent, hkd]
    · have hkd' := hk d
      simpa [Keyed, hd, hent, Ne.symm hd] using hkd'

/-- update_cache does not panic on a cache and queue that agree, for an
instant within the wheel's reach. -/
theorem updateCache_isSome (hD : D.Spec) {cache : δ → Option (CachedRecord δ ρ)} {q : Q}
    (hk : ∀ d, Keyed D cache q d) (r : ResolvedRecord δ ρ) {e : Instant} (hr : D.InReach q e) :
    (updateCache D cache q r e).isSome := by
  unfold updateCache
  split
  · next v hv =>
    obtain ⟨k, hvk, -, hmem⟩ := (hk r.domain).live hv
    obtain ⟨q', hq'⟩ := DelayQueueOps.resetAt_eq_some hD hmem hr
    simp [hvk, hq']
  · obtain ⟨k, q', hq'⟩ := DelayQueueOps.insertAt_eq_some hD r.domain hr
    simp [hq']

variable (D) in
/-- The deadline a record asks the queue to hold is within the wheel's
reach. -/
def ExpireInReach (q : Q) (r : ResolvedRecord δ ρ) : Prop :=
  ∀ e, r.expire = some e → D.InReach q e

/-- The cache update of handle_rsp, when it does not panic, keeps the cache
and its queue agreeing; it stores a record that has an expire instant under
its domain, and leaves every other domain and the waiters alone. -/
theorem Tables.cacheRecord_keyed (hD : D.Spec) {t t' : Tables Q δ σ ρ}
    (hk : ∀ d, Keyed D t.cache t.expired d)
    {r : ResolvedRecord δ ρ} (hc : t.cacheRecord D r = some t') :
    t'.doing = t.doing ∧ (∀ d, Keyed D t'.cache t'.expired d) ∧
      (∀ d, d ≠ r.domain → t'.cache d = t.cache d) ∧
      (t'.cache r.domain).map (·.inner) =
        if r.expire.isSome then some r else (t.cache r.domain).map (·.inner) := by
  unfold Tables.cacheRecord at hc
  split at hc
  · next e he =>
    obtain ⟨⟨cache', q'⟩, hu, rfl⟩ := Option.map_eq_some_iff.1 hc
    obtain ⟨hk', hr, hother⟩ := updateCache_keyed hD hk hu
    exact ⟨rfl, hk', hother, by simp [he, hr]⟩
  · next he =>
    cases hc
    exact ⟨rfl, hk, fun _ _ => rfl, by simp [he]⟩

/-- The cache update of handle_rsp does not panic when the record's expire
instant is within the wheel's reach. -/
theorem Tables.cacheRecord_isSome (hD : D.Spec) {t : Tables Q δ σ ρ}
    (hk : ∀ d, Keyed D t.cache t.expired d)
    {r : ResolvedRecord δ ρ} (hr : ExpireInReach D t.expired r) : (t.cacheRecord D r).isSome := by
  unfold Tables.cacheRecord
  split
  · next e he =>
    obtain ⟨x, hx⟩ := Option.isSome_iff_exists.1 (updateCache_isSome hD hk r (hr e he))
    simp [hx]
  · rfl

omit [DecidableEq δ] in
/-- Each waiter of a query is sent its record once: the last as Query, the
others as Cache. -/
theorem sentTo_answerWaiters [DecidableEq σ] (r : ResolvedRecord δ ρ) {ws : List σ} {y : σ}
    (hnd : (ws ++ [y]).Nodup) (x : σ) :
    (answerWaiters r (ws ++ [y])).filterMap (Effect.sentTo x) =
      if y = x then [(r, .query)] else if x ∈ ws then [(r, .cache)] else [] := by
  have hy : y ∉ ws := fun h => (List.nodup_append.1 hnd).2.2 y h y (List.mem_singleton_self y) rfl
  have hws : ws.Nodup := (List.nodup_append.1 hnd).1
  have hpick : ws.filterMap (fun z => if z = x then some (r, ResolvedRecordSource.cache) else none) =
      if x ∈ ws then [(r, .cache)] else [] := hws.filterMap_ite_eq x _
  simp only [answerWaiters, List.getLast?_concat, List.dropLast_concat, List.filterMap_cons,
    List.filterMap_map, Function.comp_def, hpick, Effect.sentTo]
  by_cases hyx : y = x
  · subst hyx
    simp [hy]
  · simp [hyx]

/-! ## What each event does to the system -/

section Steps

variable [DecidableEq σ] {s s' : System Q δ σ ρ}

/-- A request: the runtime's handler, then its effects. -/
theorem System.step_req (q : ResolveDriverRequest δ σ) (h : s.step D (.req q) = some s') :
    ∃ rt effs, s.rt.handleReqIn q.family q.domain q.sender = some (rt, effs) ∧
      s' = System.perform
        { s with rt, requested := Function.update s.requested q.sender (some (q.family, q.domain)) }
        effs := by
  simp only [System.step, Option.map_eq_some_iff, Prod.exists, handleReq_eq] at h
  obtain ⟨rt, effs, hh, rfl⟩ := h
  exact ⟨rt, effs, hh, rfl⟩

omit [DecidableEq σ] in
/-- The waiters of a response to a query in flight are taken out of
doing_vX. -/
theorem System.takeWaiters_rsp (hi : s.Inv D) {p : ResolveDriverResponse δ ρ} (ha : s.Allowed D (.rsp p)) :
    ∃ vec, (s.rt.tables p.family).doing p.record.domain = some vec ∧
      (s.rt.tables p.family).takeWaiters p.record =
        ({ s.rt.tables p.family with
            doing := Function.update (s.rt.tables p.family).doing p.record.domain none },
          answerWaiters p.record vec) := by
  obtain ⟨vec, hv⟩ := Option.isSome_iff_exists.1 ((hi.outstanding_iff _ _).1 ha)
  exact ⟨vec, hv, by simp [Tables.takeWaiters, hv]⟩

/-- A response to a query in flight: the query's waiters are sent the
record and the query leaves the driver's hands; the cache takes the record
if it has an expire instant, and it and its queue keep agreeing. -/
theorem System.step_rsp (hD : D.Spec) (hi : s.Inv D) {p : ResolveDriverResponse δ ρ}
    (ha : s.Allowed D (.rsp p))
    (h : s.step D (.rsp p) = some s') :
    ∃ vec t', (s.rt.tables p.family).doing p.record.domain = some vec ∧
      t'.doing = Function.update (s.rt.tables p.family).doing p.record.domain none ∧
      (∀ d, Keyed D t'.cache t'.expired d) ∧
      (∀ d, d ≠ p.record.domain → t'.cache d = (s.rt.tables p.family).cache d) ∧
      (t'.cache p.record.domain).map (·.inner) =
        (if p.record.expire.isSome then some p.record
          else ((s.rt.tables p.family).cache p.record.domain).map (·.inner)) ∧
      s' = System.perform
        { s with rt := s.rt.setTables p.family t',
                 outstanding := s.outstanding.erase (p.family, p.record.domain),
                 history := .rsp p.family p.record :: s.history }
        (answerWaiters p.record vec) := by
  obtain ⟨vec, hv, htake⟩ := System.takeWaiters_rsp hi ha
  simp only [System.step, handleRsp_eq, ResolverRuntime.handleRspIn, Tables.handleRsp, htake,
    Option.map_map, Option.map_eq_some_iff, Function.comp_def] at h
  obtain ⟨t', hc, rfl⟩ := h
  obtain ⟨hdo, hk, hother, hr⟩ := Tables.cacheRecord_keyed hD (t := { s.rt.tables p.family with
      doing := Function.update (s.rt.tables p.family).doing p.record.domain none }) (hi.keyed p.family) hc
  exact ⟨vec, t', hv, hdo, hk, hother, hr, rfl⟩

/-- A response to a query in flight does not panic when its record's
expire instant is within the reach of its family's timer wheel. -/
theorem System.step_rsp_isSome (hD : D.Spec) (hi : s.Inv D) {p : ResolveDriverResponse δ ρ}
    (ha : s.Allowed D (.rsp p))
    (hr : ExpireInReach D (s.rt.tables p.family).expired p.record) : (s.step D (.rsp p)).isSome := by
  obtain ⟨vec, -, htake⟩ := System.takeWaiters_rsp hi ha
  obtain ⟨t', ht'⟩ := Option.isSome_iff_exists.1
    (Tables.cacheRecord_isSome hD (t := { s.rt.tables p.family with
      doing := Function.update (s.rt.tables p.family).doing p.record.domain none })
    (hi.keyed p.family) hr)
  simp [System.step, handleRsp_eq, ResolverRuntime.handleRspIn, Tables.handleRsp, htake, ht']

/-- An expiry: the queue gives up the key and its domain, whose cache entry
goes. -/
theorem System.step_expire {f : Family} {k : Nat} (h : s.step D (.expire f k) = some s') :
    ∃ d q', D.pollExpired (s.rt.tables f).expired k = some (d, q') ∧
      s' = { s with rt := (s.rt.setTables f { s.rt.tables f with expired := q' }).handleExpired f d,
                    history := .expired f d :: s.history } := by
  simp only [System.step, Option.map_eq_some_iff, Prod.exists] at h
  obtain ⟨d, q', hrem, rfl⟩ := h
  exact ⟨d, q', hrem, rfl⟩

end Steps

/-! ## Each event keeps the invariant -/

section Preservation

variable [DecidableEq σ] {s s' : System Q δ σ ρ}

omit [DecidableEq σ] in
theorem System.Inv.tick (hi : s.Inv D) (now : Instant) : ({ s with now } : System Q δ σ ρ).Inv D :=
  ⟨hi.driver, hi.outstanding_nodup, hi.outstanding_iff, hi.doing_wf, hi.sender, hi.cache_live,
    hi.keyed⟩

omit [DecidableEq σ] in
theorem System.Inv.update (hi : s.Inv D) (spawned : Bool) :
    ({ s with rt := s.rt.handleUpdate spawned } : System Q δ σ ρ).Inv D :=
  ⟨by simp [ResolverRuntime.handleUpdate, hi.driver], hi.outstanding_nodup, hi.outstanding_iff,
    hi.doing_wf, hi.sender, hi.cache_live, hi.keyed⟩

/-- An expiry drops the cache entry whose one key the queue gave up. -/
theorem System.Inv.expire (hD : D.Spec) (hi : s.Inv D) {f : Family} {k : Nat}
    (h : s.step D (.expire f k) = some s') :
    s'.Inv D := by
  obtain ⟨d, q', hrem, rfl⟩ := System.step_expire h
  obtain ⟨w, hmem⟩ := (hD.entries_pollExpired hrem).1
  have hent := DelayQueueOps.entriesFor_pollExpired hD hrem
  -- the key the queue gave up is the one key of `d`; other domains hold other keys
  have hkey : ∀ d', Keyed D (Function.update (s.rt.tables f).cache d none) q' d' := by
    intro d'
    have hk := hi.keyed f d'
    have hin : (k, d, w) ∈ D.entriesFor (s.rt.tables f).expired d :=
      DelayQueueOps.mem_entriesFor.2 ⟨hmem, rfl⟩
    rw [Keyed, hent]
    by_cases hd : d' = d
    · subst hd
      simp only [Keyed] at hk
      split at hk
      · next c hc =>
        obtain ⟨k', -, hk'⟩ := hk
        rw [hk', List.mem_singleton] at hin
        have hkk : k' = k := (Prod.ext_iff.1 hin).1.symm
        simp [hk', hkk]
      · next hc =>
        rw [hk] at hin
        cases hin
    · have hne := DelayQueueOps.key_ne_of_item_ne hD hmem hd
      rw [List.filter_eq_self.2 (fun e he => by simpa using hne e he)]
      simpa [Keyed, hd] using hk
  refine ⟨by simp [hi.driver], hi.outstanding_nodup, fun f' d' => ?_, fun f' d' ws => ?_,
    fun x => ?_, fun f' d' => ?_, fun f' d' => ?_⟩
  · by_cases hf : f = f' <;> simp [hf, hi.outstanding_iff]
  · by_cases hf : f = f' <;> simp [hf] <;> exact hi.doing_wf f' d' ws
  · refine (hi.sender x).transfer rfl rfl fun f' d' => ?_
    unfold System.Waiting
    by_cases hf : f = f' <;> simp [hf]
  · by_cases hf : f = f'
    · subst hf
      by_cases hd : d = d'
      · subst hd
        simp [liveRecord]
      · simp [liveRecord, hd, Function.update_of_ne (Ne.symm hd), hi.cache_live]
    · simp [hf, liveRecord, hi.cache_live]
  · by_cases hf : f = f'
    · subst hf
      simpa using hkey d'
    · simpa [hf] using hi.keyed f' d'

/-- A request is answered from the cache, or its sender joins the waiters of
the domain's query, which starts if there was none. -/
theorem System.Inv.req (hi : s.Inv D) {q : ResolveDriverRequest δ σ} (ha : s.Allowed D (.req q))
    (h : s.step D (.req q) = some s') : s'.Inv D := by
  obtain ⟨rt, effs, hh, hs'⟩ := System.step_req q h
  have hfresh : s.requested q.sender = none := ha
  obtain ⟨hrec0, hnw⟩ := hi.fresh hfresh
  have hrt : s'.rt = rt := by simp [hs']
  have hreq : s'.requested = Function.update s.requested q.sender (some (q.family, q.domain)) := by
    simp [hs']
  have hrec : ∀ y, s'.received y = s.received y ++ effs.filterMap (Effect.sentTo y) := by
    simp [hs', System.perform_received]
  have hout : s'.outstanding = s.outstanding ++ effs.filterMap Effect.queried := by
    simp [hs', System.perform_outstanding]
  have hhist : s'.history = s.history := by simp [hs']
  rcases handleReqIn_cases hh with ⟨c, hc, rfl, rfl⟩ | ⟨hc, rfl, rfl⟩
  · -- answered from the cache: only the sender's own entries change
    have hdom : c.inner.domain = q.domain := by
      have hl := hi.cache_live q.family q.domain
      rw [hc] at hl
      exact liveRecord_domain hl.symm
    have hw : ∀ x f d, s'.Waiting x f d ↔ s.Waiting x f d := fun _ _ _ =>
      System.waiting_iff_of_rt hrt
    refine ⟨hrt ▸ hi.driver,
      by simpa [hout, Effect.queried, List.filterMap_cons] using hi.outstanding_nodup,
      by simpa [hout, hrt, Effect.queried, List.filterMap_cons] using hi.outstanding_iff,
      by simpa [hrt] using hi.doing_wf, fun x => ?_, by simpa [hrt, hhist] using hi.cache_live,
      by simpa [hrt] using hi.keyed⟩
    by_cases hx : x = q.sender
    · subst hx
      unfold System.SenderOk
      rw [hreq, Function.update_self]
      exact .inl ⟨⟨c.inner, .cache, by simp [hrec, Effect.sentTo, hrec0], hdom⟩,
        fun f d hwait => hnw f d ((hw _ f d).1 hwait)⟩
    · exact (hi.sender x).transfer (by simp [hreq, Function.update_of_ne hx])
        (by simp [hrec, Effect.sentTo, Ne.symm hx]) (hw x)
  · -- a miss: the sender joins the domain's waiters
    set f := q.family
    set d := q.domain
    set x := q.sender
    set old := ((s.rt.tables f).doing d).getD []
    have hdo : ∀ f' d', (s'.rt.tables f').doing d' =
        if f = f' ∧ d = d' then some (old ++ [x]) else (s.rt.tables f').doing d' := by
      intro f' d'
      rw [hrt]
      exact doing_setTables rfl f' d'
    have hca : ∀ f', (s'.rt.tables f').cache = (s.rt.tables f').cache := by
      intro f'; rw [hrt]; by_cases hf : f = f' <;> simp [hf]
    have hex : ∀ f', (s'.rt.tables f').expired = (s.rt.tables f').expired := by
      intro f'; rw [hrt]; by_cases hf : f = f' <;> simp [hf]
    -- the old waiters stay, and `x` now waits on this query alone
    have hw : ∀ y f' d', s'.Waiting y f' d' ↔ s.Waiting y f' d' ∨ (y = x ∧ f' = f ∧ d' = d) := by
      intro y f' d'
      unfold System.Waiting
      rw [hdo]
      by_cases hfd : f = f' ∧ d = d'
      · obtain ⟨rfl, rfl⟩ := hfd
        cases hold : (s.rt.tables f).doing d <;> simp [old, hold]
      · have : ¬(f' = f ∧ d' = d) := fun h => hfd ⟨h.1.symm, h.2.symm⟩
        simp [hfd, this]
    have hold_wf : old.Nodup ∧ x ∉ old := by
      cases hold : (s.rt.tables f).doing d with
      | none => simp [old, hold]
      | some vec =>
        refine ⟨by simpa [old, hold] using (hi.doing_wf f d vec hold).2, fun hx => ?_⟩
        exact hnw f d ⟨vec, hold, by simpa [old, hold] using hx⟩
    have hnosend : ∀ y, s'.received y = s.received y := by
      intro y
      cases hold : (s.rt.tables f).doing d <;> simp [hrec, hold, Effect.sentTo]
    refine ⟨by simpa [hrt] using hi.driver, ?_, fun f' d' => ?_, fun f' d' ws => ?_, fun y => ?_,
      fun f' d' => ?_, fun f' d' => ?_⟩
    · -- a new query is for a domain with none in flight
      rw [hout]
      cases hold : (s.rt.tables f).doing d with
      | some vec => simpa [hold] using hi.outstanding_nodup
      | none =>
        have hnot : (f, d) ∉ s.outstanding := by simp [hi.outstanding_iff, hold]
        simp only [Option.isSome_none, Bool.false_eq_true, if_false, List.filterMap_cons,
          Effect.queried, List.filterMap_nil]
        refine List.nodup_append.2 ⟨hi.outstanding_nodup, List.nodup_singleton _, ?_⟩
        intro a ha b hb hab
        rw [List.mem_singleton] at hb
        exact hnot (hb ▸ hab ▸ ha)
    · rw [hout, hdo]
      by_cases hfd : f = f' ∧ d = d'
      · obtain ⟨rfl, rfl⟩ := hfd
        cases hold : (s.rt.tables f).doing d <;> simp [hold, Effect.queried, hi.outstanding_iff]
      · have : ¬(f' = f ∧ d' = d) := fun h => hfd ⟨h.1.symm, h.2.symm⟩
        cases (s.rt.tables f).doing d <;> simp [hfd, this, Effect.queried, hi.outstanding_iff]
    · rw [hdo]
      split
      · rintro ⟨⟩
        refine ⟨by simp, List.nodup_append.2 ⟨hold_wf.1, List.nodup_singleton x, ?_⟩⟩
        intro a ha b hb hab
        rw [List.mem_singleton] at hb
        exact hold_wf.2 (hb ▸ hab ▸ ha)
      · exact hi.doing_wf f' d' ws
    · by_cases hy : y = x
      · rw [hy]
        unfold System.SenderOk
        rw [hreq, Function.update_self]
        refine .inr ⟨by rw [hnosend, hrec0], fun f' d' => ?_⟩
        rw [hw]
        constructor
        · rintro (hwait | ⟨-, h⟩)
          · exact absurd hwait (hnw f' d')
          · exact h
        · exact fun h => .inr ⟨rfl, h⟩
      · refine (hi.sender y).transfer (by simp [hreq, Function.update_of_ne hy]) (hnosend y)
          fun f' d' => ?_
        rw [hw]
        simp [hy]
    · simpa [hca, hhist] using hi.cache_live f' d'
    · simpa [hca, hex] using hi.keyed f' d'

omit [DecidableEq δ] [DecidableEq σ] in
theorem queried_answerWaiters (r : ResolvedRecord δ ρ) (vec : List σ) :
    (answerWaiters r vec).filterMap Effect.queried = [] := by
  unfold answerWaiters
  split
  · simp only [List.filterMap_cons, Effect.queried, List.filterMap_eq_nil_iff]
    intro a ha
    obtain ⟨z, -, rfl⟩ := List.mem_map.1 ha
    rfl
  · rfl

/-- A response to a query in flight, field by field: its waiters (a list
without repeats, the last of them popped first) are each sent the record
once, the query leaves the driver's hands, and the cache takes the record
if it has an expire instant. -/
theorem System.step_rsp_fields (hD : D.Spec) (hi : s.Inv D) {p : ResolveDriverResponse δ ρ}
    (ha : s.Allowed D (.rsp p)) (h : s.step D (.rsp p) = some s') :
    ∃ ws y t', (s.rt.tables p.family).doing p.record.domain = some (ws ++ [y]) ∧
      (ws ++ [y]).Nodup ∧
      t'.doing = Function.update (s.rt.tables p.family).doing p.record.domain none ∧
      (∀ d, Keyed D t'.cache t'.expired d) ∧
      (∀ d, d ≠ p.record.domain → t'.cache d = (s.rt.tables p.family).cache d) ∧
      (t'.cache p.record.domain).map (·.inner) =
        (if p.record.expire.isSome then some p.record
          else ((s.rt.tables p.family).cache p.record.domain).map (·.inner)) ∧
      s'.rt = s.rt.setTables p.family t' ∧ s'.requested = s.requested ∧
      (∀ z, s'.received z = s.received z ++
        (if y = z then [(p.record, .query)] else if z ∈ ws then [(p.record, .cache)] else [])) ∧
      s'.outstanding = s.outstanding.erase (p.family, p.record.domain) ∧
      s'.history = .rsp p.family p.record :: s.history := by
  obtain ⟨vec, t', hv, hdo', hk', hother, hr, hs'⟩ := System.step_rsp hD hi ha h
  obtain ⟨hne, hnd⟩ := hi.doing_wf _ _ vec hv
  obtain ⟨ws, y, rfl⟩ : ∃ ws y, vec = ws ++ [y] := by
    rcases List.eq_nil_or_concat vec with h0 | ⟨ws, y, h0⟩
    · exact absurd h0 hne
    · exact ⟨ws, y, by simpa using h0⟩
  refine ⟨ws, y, t', hv, hnd, hdo', hk', hother, hr, by simp [hs'], by simp [hs'], fun z => ?_,
    by simp [hs', System.perform_outstanding, queried_answerWaiters], by simp [hs']⟩
  simp [hs', System.perform_received, sentTo_answerWaiters p.record hnd]

/-- A response to a query in flight sends its record to each waiter, ends the
query, and caches the record if it has an expire instant. -/
theorem System.Inv.rsp (hD : D.Spec) (hi : s.Inv D) {p : ResolveDriverResponse δ ρ}
    (ha : s.Allowed D (.rsp p))
    (h : s.step D (.rsp p) = some s') : s'.Inv D := by
  obtain ⟨ws, y0, t', hv, hnd, hdo', hk', hother, hr, hrt, hreq, hrec, hout, hhist⟩ :=
    System.step_rsp_fields hD hi ha h
  set f := p.family
  set r := p.record
  set d := r.domain
  have hdoing : ∀ f'' d'', (s'.rt.tables f'').doing d'' =
      if f = f'' ∧ d = d'' then none else (s.rt.tables f'').doing d'' := by
    intro f'' d''
    rw [hrt]
    exact doing_setTables hdo' f'' d''
  -- the waiters of this query wait nowhere else; the others are untouched
  have hwait : ∀ z f'' d'', s'.Waiting z f'' d'' ↔ s.Waiting z f'' d'' ∧ ¬(f'' = f ∧ d'' = d) := by
    intro z f'' d''
    unfold System.Waiting
    rw [hdoing]
    by_cases hfd : f = f'' ∧ d = d''
    · obtain ⟨rfl, rfl⟩ := hfd
      simp
    · have : ¬(f'' = f ∧ d'' = d) := fun h => hfd ⟨h.1.symm, h.2.symm⟩
      simp [hfd, this]
  have hinvec : ∀ z, s.Waiting z f d ↔ z ∈ ws ++ [y0] := by
    intro z
    simp [System.Waiting, hv]
  refine ⟨by simp [hrt, hi.driver], hout ▸ hi.outstanding_nodup.erase _, fun f'' d'' => ?_,
    fun f'' d'' ws' => ?_, fun z => ?_, fun f'' d'' => ?_, fun f'' d'' => ?_⟩
  · rw [hout, hi.outstanding_nodup.mem_erase_iff, hdoing, hi.outstanding_iff]
    by_cases hfd : f = f'' ∧ d = d''
    · obtain ⟨rfl, rfl⟩ := hfd
      simp
    · have : (f'', d'') ≠ (f, d) := fun h => hfd ⟨(Prod.ext_iff.1 h).1.symm, (Prod.ext_iff.1 h).2.symm⟩
      simp [hfd, this]
  · rw [hdoing]
    split
    · intro h0; cases h0
    · exact hi.doing_wf f'' d'' ws'
  · by_cases hz : z ∈ ws ++ [y0]
    · -- a waiter of this query: it is answered now
      obtain ⟨hreqz, hrecz⟩ := hi.waiting ((hinvec z).2 hz)
      unfold System.SenderOk
      rw [hreq, hreqz]
      refine .inl ⟨⟨r, if y0 = z then .query else .cache, ?_, rfl⟩, fun f'' d'' hw' => ?_⟩
      · rw [hrec, hrecz]
        by_cases hy : y0 = z
        · simp [hy]
        · have hzws : z ∈ ws := by simpa [hy, Ne.symm hy] using hz
          simp [hy, hzws]
      · obtain ⟨hw'', hnot⟩ := (hwait z f'' d'').1 hw'
        have := (hi.waiting hw'').1
        rw [hreqz] at this
        obtain ⟨rfl, rfl⟩ := Prod.ext_iff.1 (Option.some.inj this).symm |>.imp id id
        exact hnot ⟨rfl, rfl⟩
    · -- another sender: nothing changes for it
      have hy : y0 ≠ z := fun h => hz (by simp [h])
      have hzws : z ∉ ws := fun h => hz (by simp [h])
      refine (hi.sender z).transfer (congrFun hreq z) (by simp [hrec, hy, hzws]) fun f'' d'' => ?_
      rw [hwait]
      constructor
      · exact fun h => h.1
      · intro hw'
        refine ⟨hw', fun hfd => hz ?_⟩
        obtain ⟨rfl, rfl⟩ := hfd
        exact (hinvec z).1 hw'
  · rw [hrt, hhist]
    by_cases hf : f = f''
    · subst hf
      by_cases hd : d'' = d
      · subst hd
        have hrd : r.domain = d := rfl
        rw [ResolverRuntime.tables_setTables, if_pos rfl, hr, hi.cache_live]
        cases hx : r.expire.isSome <;> simp [liveRecord, hx, hrd]
      · have hrd : r.domain ≠ d'' := Ne.symm hd
        simp [hother d'' hd, liveRecord, hrd, hi.cache_live]
    · simp [hf, liveRecord, hi.cache_live]
  · rw [hrt]
    by_cases hf : f = f''
    · subst hf
      simpa using hk' d''
    · simpa [hf] using hi.keyed f'' d''

/-- Every allowed event keeps the invariant. -/
theorem System.Inv.step (hD : D.Spec) (hi : s.Inv D) {e : Event δ σ ρ} (ha : s.Allowed D e)
    (h : s.step D e = some s') : s'.Inv D := by
  cases e with
  | req q => exact hi.req ha h
  | rsp p => exact hi.rsp hD ha h
  | expire f k => exact hi.expire hD h
  | update spawned =>
    obtain rfl := Option.some.inj h
    exact hi.update spawned
  | tick now =>
    obtain rfl := Option.some.inj h
    exact hi.tick now

omit [DecidableEq δ] [DecidableEq σ] in
@[simp] theorem System.init_tables (now : Instant) (f : Family) :
    (System.init D now : System Q δ σ ρ).rt.tables f = Tables.new D now := by
  cases f <;> rfl

omit [DecidableEq σ] in
theorem System.inv_init (hD : D.Spec) (now : Instant) : (System.init D now : System Q δ σ ρ).Inv D := by
  refine ⟨rfl, List.nodup_nil, fun f d => ?_, fun f d ws => ?_, fun x => ?_, fun f d => ?_,
    fun f d => ?_⟩
  · simp only [System.init_tables]
    simp [System.init, Tables.new]
  · simp [Tables.new]
  · simp only [System.SenderOk, System.Waiting, System.init_tables]
    simp [System.init, Tables.new]
  · simp only [System.init_tables]
    simp [System.init, Tables.new, liveRecord]
  · simp [Keyed, Tables.new, DelayQueueOps.entriesFor_new hD]

/-- Every reachable state has the invariant. -/
theorem System.Reachable.inv (hD : D.Spec) (h : s.Reachable D) : s.Inv D := by
  induction h with
  | init now => exact System.inv_init hD now
  | step _ ha hstep ih => exact ih.step hD ha hstep

end Preservation

/-! ## The runtime's guarantees -/

section Guarantees

variable [DecidableEq σ] {s s' : System Q δ σ ρ}

variable (D) in
/-- An event asks the timer wheels only for deadlines within their reach:
a response's record expires within the reach of its family's queue. -/
def System.InReach (s : System Q δ σ ρ) : Event δ σ ρ → Prop
  | .rsp p => ExpireInReach D (s.rt.tables p.family).expired p.record
  | _ => True

/-- No allowed event within the wheels' reach makes the runtime panic: the
driver is spawned when a query starts, a reset or expired key is one the
queue holds, and the queue takes the deadline. -/
theorem System.Inv.step_isSome (hD : D.Spec) (hi : s.Inv D) {e : Event δ σ ρ} (ha : s.Allowed D e)
    (hr : s.InReach D e) :
    (s.step D e).isSome := by
  cases e with
  | req q =>
    simp [System.step, handleReq_eq, Option.isSome_map, handleReqIn_isSome hi.driver]
  | rsp p => exact System.step_rsp_isSome hD hi ha hr
  | expire f k =>
    obtain ⟨d, w, hmem, -⟩ := ha
    obtain ⟨q', hq'⟩ := DelayQueueOps.pollExpired_eq_some hD hmem
    simp [System.step, hq']
  | update _ => rfl
  | tick _ => rfl

end Guarantees

end G3Proxy.Resolver
