/-
  The stream limiter conserves the global limiters' tokens
  (`limit/stream.rs`).

  Between two transfers no global limiter holds a record (`Inv`).  A
  limiter's `settled` count is the tokens it handed out, less those the
  stream still holds on record: what the transfers took for good.  The
  loops of `check` and `release_global` leave it as it is; `set_advance(n)`
  adds `n` to it, for every limiter whose record holds at least `n`.

  * `checkGlobals_delay`, `checkGlobals_grant`: the check loop over
    limiters without records keeps `settled`; a grant of `a` leaves each
    limiter a record of at least `a`, and a delay, once released, none;
  * `check_spec`: from `Inv`, `check` never panics, and leaves no record (a
    delay) or records of at least what it grants;
  * `transfer_spec`: a transfer moves every counter by exactly what
    `set_advance` was given, or by nothing, and restores `Inv`;
  * `transfer_conserves_tokens`: along every run of transfers and changes of
    limiters from `with_local`, every state keeps `Inv`, and the next
    transfer conserves; removing or dropping limiters gives nothing back.
-/
import G3Proxy.Io.StreamLimit

namespace G3Proxy

/-- A global limiter grants at most what it is asked and takes what it
    grants, or answers with a delay and takes nothing. -/
theorem GlobalStreamCounter.check_cases (g : GlobalStreamCounter) (k : Nat) :
    (∃ m, m ≤ k ∧
      g.check k = (.advanceBy m, { g with taken := g.taken + m, answers := g.answers.tail })) ∨
    (∃ a, (∀ m, a ≠ .advanceBy m) ∧ g.check k = (a, { g with answers := g.answers.tail })) := by
  unfold GlobalStreamCounter.check
  split
  · next h => exact .inl ⟨k, Nat.le_refl k, by simp [h]⟩
  · next m as h => exact .inl ⟨min m k, Nat.min_le_right _ _, by simp [h]⟩
  · next a as hne h => exact .inr ⟨a, hne, by simp [h]⟩

namespace StreamLimiter

/-- No global limiter holds a record: the state between two transfers. -/
def Inv (s : StreamLimiter) : Prop :=
  ∀ g ∈ s.global, g.checkedBytes = none

/-- The tokens a global limiter handed out for good: its count, less what
    the stream still holds on record. -/
def GlobalLimiter.settled (g : GlobalLimiter) : Int :=
  g.inner.taken - (g.checkedBytes.getD 0 : Nat)

/-- Every limiter holds a record of at least `a`. -/
def RecordsAtLeast (a : Nat) (gs : List GlobalLimiter) : Prop :=
  ∀ g ∈ gs, ∃ t, g.checkedBytes = some t ∧ a ≤ t

theorem settled_of_none {g : GlobalLimiter} (h : g.checkedBytes = none) :
    g.settled = g.inner.taken := by
  simp [GlobalLimiter.settled, h]

theorem map_settled_of_none {gs : List GlobalLimiter} (h : ∀ g ∈ gs, g.checkedBytes = none) :
    gs.map GlobalLimiter.settled = gs.map (·.inner.taken) :=
  List.map_congr_left fun g hg => settled_of_none (h g hg)

/-- Once no record is left, the counters are the settled counts. -/
theorem map_taken_eq {gs gs' : List GlobalLimiter} {k : Int}
    (hnone : ∀ g ∈ gs', g.checkedBytes = none) (hgs : ∀ g ∈ gs, g.checkedBytes = none)
    (h : gs'.map GlobalLimiter.settled = (gs.map GlobalLimiter.settled).map (· + k)) :
    gs'.map (·.inner.taken) = gs.map (fun g => g.inner.taken + k) := by
  rw [← map_settled_of_none hnone, h, map_settled_of_none hgs, List.map_map]
  rfl

theorem RecordsAtLeast.mono {a b : Nat} {gs : List GlobalLimiter} (h : RecordsAtLeast a gs)
    (hba : b ≤ a) : RecordsAtLeast b gs := by
  intro g hg
  obtain ⟨t, ht, hat⟩ := h g hg
  exact ⟨t, ht, Nat.le_trans hba hat⟩

/-! ## The loops -/

/-- Giving back what is on record settles nothing new. -/
theorem map_settled_releaseGlobalList (gs : List GlobalLimiter) :
    (releaseGlobalList gs).map GlobalLimiter.settled = gs.map GlobalLimiter.settled := by
  induction gs with
  | nil => rfl
  | cons g gs ih =>
    unfold releaseGlobalList
    split
    · rfl
    · next t ht =>
      simp only [List.map_cons, ih]
      simp [GlobalLimiter.settled, GlobalStreamCounter.release, ht]

/-- Released records leave none behind. -/
theorem releaseGlobalList_of_records {a : Nat} {gs : List GlobalLimiter} (h : RecordsAtLeast a gs) :
    ∀ g ∈ releaseGlobalList gs, g.checkedBytes = none := by
  induction gs with
  | nil => simp [releaseGlobalList]
  | cons g gs ih =>
    obtain ⟨t, ht, -⟩ := h g List.mem_cons_self
    rw [releaseGlobalList, ht]
    intro g' hg'
    rcases List.mem_cons.1 hg' with rfl | hg'
    · rfl
    · exact ih (fun g'' hg'' => h g'' (List.mem_cons_of_mem _ hg'')) g' hg'

/-- `set_advance(n)` settles `n` more with every limiter whose record holds
    at least `n`, and leaves no record. -/
theorem setAdvanceList_spec {n : Nat} {gs : List GlobalLimiter} (h : RecordsAtLeast n gs) :
    (setAdvanceList n gs).map GlobalLimiter.settled = gs.map (fun g => g.settled + (n : Int)) ∧
      ∀ g ∈ setAdvanceList n gs, g.checkedBytes = none := by
  induction gs with
  | nil => simp [setAdvanceList]
  | cons g gs ih =>
    obtain ⟨t, ht, hnt⟩ := h g List.mem_cons_self
    obtain ⟨ihs, ihn⟩ := ih fun g' hg' => h g' (List.mem_cons_of_mem _ hg')
    rw [setAdvanceList, ht]
    refine ⟨?_, ?_⟩
    · -- what is given back is the record less `n`
      simp only [List.map_cons, ihs, List.cons.injEq, and_true]
      split
      · simp [GlobalLimiter.settled, GlobalStreamCounter.release, ht]
        omega
      · simp [GlobalLimiter.settled, ht]
        omega
    · intro g' hg'
      rcases List.mem_cons.1 hg' with rfl | hg'
      · rfl
      · exact ihn g' hg'

/-- The shrink loop keeps `settled` and records exactly `a`. -/
theorem mapM_shrinkGlobal {a : Nat} {gs : List GlobalLimiter} (h : RecordsAtLeast a gs) :
    ∃ gs', gs.mapM (shrinkGlobal a) = some gs' ∧
      gs'.map GlobalLimiter.settled = gs.map GlobalLimiter.settled ∧ RecordsAtLeast a gs' := by
  induction gs with
  | nil => exact ⟨[], rfl, rfl, fun _ h => absurd h List.not_mem_nil⟩
  | cons g gs ih =>
    obtain ⟨t, ht, hat⟩ := h g List.mem_cons_self
    obtain ⟨gs', hgs', hs', hr'⟩ := ih fun g' hg' => h g' (List.mem_cons_of_mem _ hg')
    have hg : shrinkGlobal a g =
        some ⟨if t > a then g.inner.release (t - a) else g.inner, some a⟩ := by
      simp [shrinkGlobal, ht]
    refine ⟨⟨if t > a then g.inner.release (t - a) else g.inner, some a⟩ :: gs',
      by simp [List.mapM_cons, hg, hgs'], ?_, ?_⟩
    · -- the record falls to `a` by what is given back
      simp only [List.map_cons, hs', List.cons.injEq, and_true]
      split
      · simp [GlobalLimiter.settled, GlobalStreamCounter.release, ht]
        omega
      · simp [GlobalLimiter.settled, ht]
        omega
    · intro g' hg'
      rcases List.mem_cons.1 hg' with rfl | hg'
      · exact ⟨a, rfl, Nat.le_refl a⟩
      · exact hr' g' hg'

/-- A delay from some global limiter: once `release_global` runs, the
    limiters before it have given back what they took. -/
theorem checkGlobals_delay {t : Nat} {gs gs' : List GlobalLimiter} {a : StreamLimitAction}
    (hgs : ∀ g ∈ gs, g.checkedBytes = none) (h : checkGlobals t gs = (.inl a, gs')) :
    (∀ m, a ≠ .advanceBy m) ∧
      (releaseGlobalList gs').map GlobalLimiter.settled = gs.map GlobalLimiter.settled ∧
      ∀ g ∈ releaseGlobalList gs', g.checkedBytes = none := by
  induction gs generalizing t gs' with
  | nil => simp [checkGlobals] at h
  | cons g gs ih =>
    have hg := hgs g List.mem_cons_self
    have hrest : ∀ g' ∈ gs, g'.checkedBytes = none := fun g' hg' => hgs g' (List.mem_cons_of_mem _ hg')
    rcases GlobalStreamCounter.check_cases g.inner t with ⟨m, -, hc⟩ | ⟨a', hne, hc⟩
    · -- a grant: the limiter records it, the rest of the loop delays
      cases hr : checkGlobals m gs with
      | mk r rest =>
        simp only [checkGlobals, hc, hr, Prod.mk.injEq] at h
        obtain ⟨rfl, rfl⟩ := h
        obtain ⟨iha, ihs, ihn⟩ := ih hrest hr
        refine ⟨iha, ?_, ?_⟩
        · simp [releaseGlobalList, ihs, GlobalLimiter.settled, GlobalStreamCounter.release, hg]
        · rw [releaseGlobalList]
          intro g' hg'
          rcases List.mem_cons.1 hg' with rfl | hg'
          · rfl
          · exact ihn g' hg'
    · -- the delay: nothing recorded here, so `release_global` stops
      have hstep : checkGlobals t (g :: gs) = (.inl a', { g with inner := { g.inner with answers := g.inner.answers.tail } } :: gs) := by
        cases a' with
        | advanceBy m => exact absurd rfl (hne m)
        | delayUntil d => simp [checkGlobals, hc]
        | delayFor d => simp [checkGlobals, hc]
      rw [hstep, Prod.mk.injEq, Sum.inl.injEq] at h
      obtain ⟨rfl, hgs'⟩ := h
      rw [← hgs']
      have hrel : releaseGlobalList ({ g with inner := { g.inner with answers := g.inner.answers.tail } } :: gs) =
          { g with inner := { g.inner with answers := g.inner.answers.tail } } :: gs := by
        simp [releaseGlobalList, hg]
      rw [hrel]
      refine ⟨hne, by simp [GlobalLimiter.settled], ?_⟩
      intro g' hg'
      rcases List.mem_cons.1 hg' with rfl | hg'
      · exact hg
      · exact hrest g' hg'

/-- A grant of `a` by every global limiter: each records at least `a`, and
    `settled` is as it was. -/
theorem checkGlobals_grant {t a : Nat} {gs gs' : List GlobalLimiter}
    (hgs : ∀ g ∈ gs, g.checkedBytes = none) (h : checkGlobals t gs = (.inr a, gs')) :
    gs'.map GlobalLimiter.settled = gs.map GlobalLimiter.settled ∧ RecordsAtLeast a gs' ∧ a ≤ t := by
  induction gs generalizing t gs' with
  | nil =>
    simp only [checkGlobals, Prod.mk.injEq, Sum.inr.injEq] at h
    obtain ⟨rfl, rfl⟩ := h
    exact ⟨rfl, fun _ h => absurd h List.not_mem_nil, Nat.le_refl t⟩
  | cons g gs ih =>
    have hg := hgs g List.mem_cons_self
    have hrest : ∀ g' ∈ gs, g'.checkedBytes = none := fun g' hg' => hgs g' (List.mem_cons_of_mem _ hg')
    rcases GlobalStreamCounter.check_cases g.inner t with ⟨m, hmt, hc⟩ | ⟨a', hne, hc⟩
    · cases hr : checkGlobals m gs with
      | mk r rest =>
        simp only [checkGlobals, hc, hr, Prod.mk.injEq] at h
        obtain ⟨rfl, rfl⟩ := h
        obtain ⟨ihs, ihr, ham⟩ := ih hrest hr
        refine ⟨?_, ?_, Nat.le_trans ham hmt⟩
        · -- the grant is taken and on record, so nothing new is settled
          simp [ihs, GlobalLimiter.settled, hg]
        · intro g' hg'
          rcases List.mem_cons.1 hg' with rfl | hg'
          · exact ⟨m, rfl, ham⟩
          · exact ihr g' hg'
    · cases a' with
      | advanceBy m => exact absurd rfl (hne m)
      | delayUntil d => simp [checkGlobals, hc] at h
      | delayFor d => simp [checkGlobals, hc] at h

/-! ## `check` and a transfer -/

/-- From `Inv`, `check` never panics and settles nothing: a grant leaves
    records of at least the grant, anything else no record. -/
theorem check_spec {s : StreamLimiter} (hs : s.Inv) (curMillis : UInt64) (len : Nat) :
    (∃ a s', s.check curMillis len = some (.advanceBy a, s') ∧
      s'.global.map GlobalLimiter.settled = s.global.map GlobalLimiter.settled ∧
      RecordsAtLeast a s'.global) ∨
    (∃ act s', (∀ m, act ≠ .advanceBy m) ∧ s.check curMillis len = some (act, s') ∧
      s'.global.map GlobalLimiter.settled = s.global.map GlobalLimiter.settled ∧ s'.Inv) := by
  unfold check
  -- the local limiter answers first
  generalize (if s.localIsSet then s.localLimiter.check curMillis len
    else (StreamLimitAction.advanceBy len, s.localLimiter)) = r
  obtain ⟨la, l⟩ := r
  dsimp only
  cases la with
  | advanceBy t =>
    dsimp only
    cases hg : checkGlobals t s.global with
    | mk r gs =>
      cases r with
      | inl a =>
        -- a global limiter delays: `release_global` gives back what the others took
        obtain ⟨hne, hset, hnone⟩ := checkGlobals_delay hs hg
        exact .inr ⟨a, { s with localLimiter := l, global := releaseGlobalList gs }, hne, rfl, hset,
          hnone⟩
      | inr a =>
        obtain ⟨hset, hrec, -⟩ := checkGlobals_grant hs hg
        by_cases hlen : len > a
        · -- shrink in time
          obtain ⟨gs', hgs', hset', hrec'⟩ := mapM_shrinkGlobal hrec
          refine .inl ⟨a, { s with localLimiter := l, global := gs' }, ?_, hset'.trans hset, hrec'⟩
          simp only [if_pos hlen, hgs', Option.map_some]
        · refine .inl ⟨a, { s with localLimiter := l, global := gs }, ?_, hset, hrec⟩
          simp only [if_neg hlen]
  | delayUntil d =>
    exact .inr ⟨.delayUntil d, { s with localLimiter := l }, (fun _ h => by cases h), rfl, rfl, hs⟩
  | delayFor d =>
    exact .inr ⟨.delayFor d, { s with localLimiter := l }, (fun _ h => by cases h), rfl, rfl, hs⟩

/-- A transfer moves every global counter by exactly what `set_advance` was
    given, or by nothing after `release_global` or a delay, and leaves no
    record. -/
theorem transfer_spec {s : StreamLimiter} (hs : s.Inv) (curMillis : UInt64) (len : Nat) (io : InnerIo) :
    ∃ e s', s.transfer curMillis len io = some (e, s') ∧ s'.Inv ∧
      s'.global.map (·.inner.taken) = s.global.map (fun g => g.inner.taken + (e.taken : Int)) := by
  rcases check_spec hs curMillis len with ⟨a, s₁, hc, hset, hrec⟩ | ⟨act, s₁, hne, hc, hset, hinv⟩
  · cases hio : io.poll a with
    | some nw =>
      -- `set_advance(nw)`: every record holds at least `nw`
      obtain ⟨hset', hnone⟩ := setAdvanceList_spec (hrec.mono (io.poll_le a nw hio))
      refine ⟨.advanced nw, s₁.setAdvance nw, by simp [transfer, hc, hio], hnone,
        map_taken_eq hnone hs ?_⟩
      rw [← hset, List.map_map]
      exact hset'
    | none =>
      -- `release_global()`: every record is given back
      have hnone := releaseGlobalList_of_records hrec
      refine ⟨.released, s₁.releaseGlobal, by simp [transfer, hc, hio], hnone,
        map_taken_eq hnone hs ?_⟩
      simp [releaseGlobal, map_settled_releaseGlobalList, hset, TransferEnd.taken]
  · -- a delay, from the local limiter or a global one
    have hend : s.transfer curMillis len io = some (.delayed, s₁) := by
      cases act with
      | advanceBy m => exact absurd rfl (hne m)
      | delayUntil d => simp [transfer, hc]
      | delayFor d => simp [transfer, hc]
    exact ⟨.delayed, s₁, hend, hinv, map_taken_eq hinv hs (by simp [hset, TransferEnd.taken])⟩

/-! ## Runs -/

theorem drop_of_none {g : GlobalLimiter} (h : g.checkedBytes = none) : g.drop = g.inner := by
  simp [GlobalLimiter.drop, h]

/-- Dropping limiters without records gives nothing back. -/
theorem map_drop_of_none {gs : List GlobalLimiter} (h : ∀ g ∈ gs, g.checkedBytes = none) :
    gs.map GlobalLimiter.drop = gs.map (·.inner) :=
  List.map_congr_left fun g hg => drop_of_none (h g hg)

/-- Every operation keeps `Inv`, and none panics. -/
theorem step_inv {s : StreamLimiter} (hs : s.Inv) (op : Op) : ∃ s', s.step op = some s' ∧ s'.Inv := by
  cases op with
  | transfer curMillis len io =>
    obtain ⟨e, s', h, hinv, -⟩ := transfer_spec hs curMillis len io
    exact ⟨s', by simp [step, h], hinv⟩
  | addGlobal g =>
    refine ⟨_, rfl, fun g' hg' => ?_⟩
    rcases List.mem_append.1 hg' with hg' | hg'
    · exact hs g' hg'
    · rw [List.mem_singleton.1 hg']
      rfl
  | removeGlobalByGroup group => exact ⟨_, rfl, fun g hg => hs g (List.mem_filter.1 hg).1⟩
  | retainGlobalByGroup group => exact ⟨_, rfl, fun g hg => hs g (List.mem_filter.1 hg).1⟩
  | resetLocal shiftMillis maxBytes curMillis => exact ⟨_, rfl, hs⟩

theorem transfer_conserves_tokens (shiftMillis : UInt8) (maxBytes : Nat) (random : UInt64)
    (ops : List Op) :
    ∃ s, Machine.run step (withLocal shiftMillis maxBytes random) ops = some s ∧ s.Inv ∧
      (∀ curMillis len (io : InnerIo), ∃ e s', s.transfer curMillis len io = some (e, s') ∧ s'.Inv ∧
        s'.global.map (·.inner.taken) = s.global.map (fun g => g.inner.taken + (e.taken : Int))) ∧
      (∀ group,
        (s.removeGlobalByGroup group).2 = (s.global.filter (·.inner.group = group)).map (·.inner) ∧
        (s.retainGlobalByGroup group).2 = (s.global.filter (·.inner.group ≠ group)).map (·.inner)) ∧
      s.drop = s.global.map (·.inner) := by
  -- every state of a run from `with_local` has no record
  obtain ⟨s, hrun, hs⟩ := Machine.run_safe Inv (fun _ => True) (fun s op _ hs => step_inv hs op) ops
    (withLocal shiftMillis maxBytes random) (fun _ _ => trivial) (fun _ h => absurd h List.not_mem_nil)
  refine ⟨s, hrun, hs, fun curMillis len io => transfer_spec hs curMillis len io,
    fun group => ⟨?_, ?_⟩, map_drop_of_none hs⟩
  · exact map_drop_of_none fun g hg => hs g (List.mem_filter.1 hg).1
  · exact map_drop_of_none fun g hg => hs g (List.mem_filter.1 hg).1

end StreamLimiter

end G3Proxy
