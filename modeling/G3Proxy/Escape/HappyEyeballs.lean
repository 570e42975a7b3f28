/-
  Happy-eyeballs connection attempts (g3proxy
  `escape/direct_fixed/tcp_connect`, g3-types `HappyEyeballsConfig` and
  `ResolveStrategy`).

  * `pickMany` keeps the resolver's order for `Serial`; `fastrand::shuffle`
    is a parameter.
  * `mergeList` puts the second family in the list so that, read from the
    front, it gives the order of RFC 8305: `k = first_address_family_count -
    tried` addresses of the first family, then the two families in turn
    starting with the second, the rest of the longer one last
    (`mergeList_eq`).
  * `happy_try_connect` is a loop over the events its `select!` wakes up on
    (`ConnectEvent`), chosen by the environment: a connect task finishing, a
    tick of `connect_interval`, the second family's answer.  An event the
    loop cannot be waiting for in its state leaves the state as it is.
    `prepare` says how `prepare_connect_socket` answers for each address;
    `attempts` records the peers of the connect tasks in spawn order, and of
    `tcp_notes` only `tries` is kept.
  * The loop takes its next address with `Vec::pop`, from the back.  So the
    order of attempts, `order` (the attempts so far, then `ips` from the
    back), is the first family's list reversed, and after the second family
    arrives, the merged list reversed (`runLoop_attempts_reversed`).
-/
import Mathlib
import G3Proxy.Core.Lists

namespace G3Proxy

/-! ## Picking and merging addresses -/

/-- `PickStrategy`. -/
inductive PickStrategy where
  | serial
  | random
  deriving Repr, DecidableEq

/-- `ResolveStrategy::pick_many`, with `fastrand::shuffle` as `shuffle`. -/
def pickMany {α : Type} (pick : PickStrategy) (shuffle : List α → List α) (all : List α) (count : Nat) :
    List α :=
  if all.length > 1 then
    match pick with
    | .serial => all.take count
    | .random => (shuffle all).take count
  else all

/-- The loop of `merge_list`: `id` is where the next address goes. -/
def mergeLoop {α : Type} : Nat → List α → List α → List α
  | _, ips, [] => ips
  | id, ips, ip :: new =>
    if id < ips.length then mergeLoop (id + 2) (ips.insertIdx id ip) new
    else mergeLoop (id + 1) (ips ++ [ip]) new

/-- `HappyEyeballsConfig::merge_list`. -/
def mergeList {α : Type} (firstAddressFamilyCount tried : Nat) (ips new : List α) : List α :=
  mergeLoop (firstAddressFamilyCount - tried) ips new

theorem mergeLoop_eq {α : Type} (new : List α) : ∀ (id : Nat) (ips : List α),
    mergeLoop id ips new = ips.take id ++ List.interleave new (ips.drop id) := by
  induction new with
  | nil => intro id ips; simp [mergeLoop]
  | cons ip new ih =>
    intro id ips
    by_cases hid : id < ips.length
    · -- inserted before the address at `id`, and the next goes after that one
      have hsplit : ips = ips.take id ++ ips[id] :: ips.drop (id + 1) := by
        rw [← List.drop_eq_getElem_cons hid, List.take_append_drop]
      have hpre : (ips.take id).length = id := List.length_take_of_le (Nat.le_of_lt hid)
      generalize ips.take id = pre at hsplit hpre
      generalize ips.drop (id + 1) = post at hsplit
      generalize ips[id] = a at hsplit
      subst hsplit hpre
      rw [mergeLoop, if_pos hid, ih, List.insertIdx_eq_take_drop (Nat.le_of_lt hid)]
      have htake : pre.take (pre.length + 2) = pre := List.take_of_length_le (Nat.le_add_right _ _)
      have hdrop : pre.drop (pre.length + 2) = [] := List.drop_of_length_le (Nat.le_add_right _ _)
      simp [List.take_append, List.drop_append, htake, hdrop]
    · -- past the end: every address is pushed
      have hle : ips.length ≤ id := Nat.le_of_not_lt hid
      rw [mergeLoop, if_neg hid, ih, List.take_of_length_le (by simp; omega), List.drop_of_length_le (by simp; omega),
        List.take_of_length_le hle, List.drop_of_length_le hle]
      simp

/-- Read from the front, `merge_list` gives RFC 8305's order. -/
theorem mergeList_eq {α : Type} (firstAddressFamilyCount tried : Nat) (ips new : List α) :
    mergeList firstAddressFamilyCount tried ips new =
      ips.take (firstAddressFamilyCount - tried) ++
        List.interleave new (ips.drop (firstAddressFamilyCount - tried)) :=
  mergeLoop_eq new _ ips

/-! ## The connect loop -/

/-- `TcpConnectError`, the variants the loop returns. -/
inductive TcpConnectError where
  | noAddressConnected
  | connectFailed
  | timeoutByRule
  | setupSocketFailed
  | internalServerError (msg : String)
  deriving Repr, DecidableEq

/-- What the loop wakes up on. -/
inductive ConnectEvent (α : Type) where
  /-- `join_next` gives a task that connected; whether `local_addr` answers -/
  | established (localAddrOk : Bool)
  /-- `join_next` gives a task whose connect failed or timed out -/
  | failed (e : TcpConnectError)
  /-- `join_next` gives a task that did not finish -/
  | joinError (isPanic : Bool)
  /-- `connect_interval` ticks -/
  | tick
  /-- `get_r2_or_never` answers, with its (picked) list or an error -/
  | r2 (r : Option (List α))
  /-- `second_resolution_timeout` elapses while the loop waits for it -/
  | r2Timeout
  deriving Repr, DecidableEq

/-- The local variables of `happy_try_connect`. -/
structure HappyState (α : Type) where
  ips : List α
  spawnNewConnection : Bool
  runningConnection : Nat
  resolverR2Done : Bool
  skipFirstTick : Bool
  tries : Nat
  returnedErr : TcpConnectError
  attempts : List α
  deriving Repr, DecidableEq

namespace HappyState

variable {α : Type}

/-- The loop's start, on the first family's list. -/
def start (ips : List α) : HappyState α := ⟨ips, true, 0, false, true, 0, .noAddressConnected, []⟩

/-- The top of the loop: a new attempt on the address popped from the back
    of `ips`. -/
def spawnStep (prepare : α → Except TcpConnectError Unit) (st : HappyState α) :
    Except TcpConnectError (HappyState α) :=
  if st.spawnNewConnection then
    match st.ips.getLast? with
    | some ip =>
      match prepare ip with
      | .error e => .error e
      | .ok () =>
        .ok { st with ips := st.ips.dropLast, runningConnection := st.runningConnection + 1,
                      spawnNewConnection := false, tries := st.tries + 1, attempts := st.attempts ++ [ip] }
    | none => .ok st
  else .ok st

/-- The rest of the loop, on the event `ev`: `inl` is what the function
    returns (`ok` a connection), `inr` the state of the next iteration. -/
def waitStep (firstAddressFamilyCount : Nat) (st : HappyState α) (ev : ConnectEvent α) :
    Except TcpConnectError Unit ⊕ HappyState α :=
  if st.runningConnection > 0 then
    match ev with
    | .established localAddrOk => .inl (if localAddrOk then .ok () else .error .setupSocketFailed)
    | .failed e =>
      .inr { st with runningConnection := st.runningConnection - 1, returnedErr := e, spawnNewConnection := true }
    | .joinError isPanic =>
      if isPanic then .inl (.error (.internalServerError "connect task panic"))
      else .inr { st with runningConnection := st.runningConnection - 1, spawnNewConnection := true }
    | .tick =>
      if st.skipFirstTick then .inr { st with skipFirstTick := false }
      else .inr { st with spawnNewConnection := true }
    | .r2 r =>
      -- once answered, `get_r2_or_never` never answers again
      if st.resolverR2Done then .inr st
      else
        match r with
        | some ips2 =>
          .inr { st with resolverR2Done := true, ips := mergeList firstAddressFamilyCount st.tries st.ips ips2 }
        | none => .inr { st with resolverR2Done := true }
    | .r2Timeout => .inr st
  else if st.resolverR2Done then .inl (.error st.returnedErr)
  else
    match ev with
    | .r2 (some ips2) =>
      .inr { st with resolverR2Done := true, ips := mergeList firstAddressFamilyCount st.tries st.ips ips2,
                     spawnNewConnection := true }
    | .r2 none => .inl (.error st.returnedErr)
    | .r2Timeout => .inl (.error .timeoutByRule)
    | _ => .inr st

/-- The loop over the events `evs`: what it returned, if it did, and the
    state it stopped in. -/
def runLoop (firstAddressFamilyCount : Nat) (prepare : α → Except TcpConnectError Unit) :
    HappyState α → List (ConnectEvent α) → Option (Except TcpConnectError Unit) × HappyState α
  | st, [] => (none, st)
  | st, ev :: evs =>
    match spawnStep prepare st with
    | .error e => (some (.error e), st)
    | .ok st' =>
      match waitStep firstAddressFamilyCount st' ev with
      | .inl r => (some r, st')
      | .inr st'' => runLoop firstAddressFamilyCount prepare st'' evs

/-- The order of the attempts: those made so far, then the addresses left,
    in the order `pop` takes them. -/
def order (st : HappyState α) : List α := st.attempts ++ st.ips.reverse

/-! ## The order of attempts -/

variable {firstAddressFamilyCount : Nat} {prepare : α → Except TcpConnectError Unit} {A : List α}
  {st st' : HappyState α}

/-- A spawn pops the last address of `ips` and attempts it, or leaves the
    state as it is. -/
theorem spawnStep_cases (h : spawnStep prepare st = .ok st') :
    st' = st ∨ ∃ ip, st.ips.getLast? = some ip ∧
      st' = { st with ips := st.ips.dropLast, runningConnection := st.runningConnection + 1,
                      spawnNewConnection := false, tries := st.tries + 1, attempts := st.attempts ++ [ip] } := by
  unfold spawnStep at h
  split at h
  · split at h
    · next ip hip =>
      split at h
      · cases h
      · cases h
        exact .inr ⟨ip, hip, rfl⟩
    · cases h
      exact .inl rfl
  · cases h
    exact .inl rfl

/-- Popping moves the last address from `ips` to the attempts: the order
    stays. -/
theorem order_pop {ip : α} (hip : st.ips.getLast? = some ip) :
    (st.attempts ++ [ip]) ++ st.ips.dropLast.reverse = st.attempts ++ st.ips.reverse := by
  rw [← List.dropLast_append_getLast? ip hip, List.dropLast_concat]
  simp

/-- Every other step of the loop keeps `ips` and the attempts, except the
    merge of the second family's list, which happens once. -/
theorem waitStep_cases {ev : ConnectEvent α} (h : waitStep firstAddressFamilyCount st ev = .inr st') :
    (st'.ips = st.ips ∧ st'.attempts = st.attempts ∧ st'.tries = st.tries ∧
        (st.resolverR2Done = true → st'.resolverR2Done = true)) ∨
      (st.resolverR2Done = false ∧ st'.resolverR2Done = true ∧ st'.attempts = st.attempts ∧ st'.tries = st.tries ∧
        ∃ B, st'.ips = mergeList firstAddressFamilyCount st.tries st.ips B) := by
  unfold waitStep at h
  by_cases hrun : st.runningConnection > 0
  · -- a connection is running: the `select!`
    rw [if_pos hrun] at h
    cases ev with
    | established ok =>
      dsimp only at h
      split at h <;> cases h
    | failed e =>
      cases h
      exact .inl ⟨rfl, rfl, rfl, id⟩
    | joinError isPanic =>
      dsimp only at h
      split at h
      · cases h
      · cases h
        exact .inl ⟨rfl, rfl, rfl, id⟩
    | tick =>
      dsimp only at h
      split at h <;> cases h <;> exact .inl ⟨rfl, rfl, rfl, id⟩
    | r2 r =>
      dsimp only at h
      split at h
      · cases h
        exact .inl ⟨rfl, rfl, rfl, id⟩
      · next hdone =>
        cases r with
        | some B =>
          cases h
          exact .inr ⟨by simpa using hdone, rfl, rfl, rfl, B, rfl⟩
        | none =>
          cases h
          exact .inl ⟨rfl, rfl, rfl, fun _ => rfl⟩
    | r2Timeout =>
      cases h
      exact .inl ⟨rfl, rfl, rfl, id⟩
  · rw [if_neg hrun] at h
    by_cases hdone : st.resolverR2Done = true
    · -- nothing is running and nothing more will come: the loop returns
      rw [if_pos hdone] at h
      cases h
    · -- nothing is running and the second family is awaited
      rw [if_neg hdone] at h
      cases ev with
      | r2 r =>
        cases r with
        | some B =>
          cases h
          exact .inr ⟨by simpa using hdone, rfl, rfl, rfl, B, rfl⟩
        | none => cases h
      | r2Timeout => cases h
      | _ =>
        cases h
        exact .inl ⟨rfl, rfl, rfl, id⟩

/-- The order of the loop started on `A`: `A` reversed, or, once the second
    family's list `B` was merged after `t` attempts, the first `t` of `A`
    reversed and then the merged list reversed. -/
def Planned (firstAddressFamilyCount : Nat) (A : List α) (st : HappyState α) : Prop :=
  st.tries = st.attempts.length ∧
    (st.order = A.reverse ∨
      st.resolverR2Done = true ∧ ∃ t B, t ≤ A.length ∧
        st.order = A.reverse.take t ++ (mergeList firstAddressFamilyCount t (A.take (A.length - t)) B).reverse)

theorem planned_start (firstAddressFamilyCount : Nat) (A : List α) :
    Planned firstAddressFamilyCount A (start A) :=
  ⟨rfl, .inl (by simp [order, start])⟩

theorem Planned.spawnStep (hp : Planned firstAddressFamilyCount A st) (h : spawnStep prepare st = .ok st') :
    Planned firstAddressFamilyCount A st' := by
  rcases spawnStep_cases h with rfl | ⟨ip, hip, rfl⟩
  · exact hp
  · obtain ⟨ht, hord⟩ := hp
    refine ⟨by simp [ht], ?_⟩
    simp only [order] at hord ⊢
    rw [order_pop hip]
    exact hord

/-- When the order is still `A` reversed, after `t` attempts: the attempts
    are the first `t` of `A` reversed, and `ips` is the rest of `A` in its
    order. -/
theorem attempts_ips_of_order (ht : st.tries = st.attempts.length) (h : st.order = A.reverse) :
    st.attempts = A.reverse.take st.tries ∧ st.ips = A.take (A.length - st.tries) ∧ st.tries ≤ A.length := by
  have hlen : st.tries + st.ips.length = A.length := by
    have := congrArg List.length h
    simp only [order, List.length_append, List.length_reverse] at this
    omega
  refine ⟨by rw [← h, order, ht, List.take_left], ?_, by omega⟩
  have hdrop : st.ips.reverse = A.reverse.drop st.tries := by rw [← h, order, ht, List.drop_left]
  rw [← List.reverse_reverse st.ips, hdrop, List.drop_reverse, List.reverse_reverse]

theorem Planned.waitStep {ev : ConnectEvent α} (hp : Planned firstAddressFamilyCount A st)
    (h : waitStep firstAddressFamilyCount st ev = .inr st') : Planned firstAddressFamilyCount A st' := by
  obtain ⟨ht, hord⟩ := hp
  rcases waitStep_cases h with ⟨hips, hatt, htries, hdone⟩ | ⟨hdone, hdone', hatt, htries, B, hips⟩
  · -- `ips` and the attempts as they were: so is the order
    have hord' : st'.order = st.order := by rw [order, order, hips, hatt]
    refine ⟨by rw [htries, hatt, ht], ?_⟩
    rw [hord']
    rcases hord with hA | ⟨hd, hB⟩
    · exact .inl hA
    · exact .inr ⟨hdone hd, hB⟩
  · -- the merge comes while the order is still `A` reversed
    have hA : st.order = A.reverse := by
      rcases hord with hA | ⟨hd, -⟩
      · exact hA
      · rw [hd] at hdone
        cases hdone
    obtain ⟨hpre, hrest, hle⟩ := attempts_ips_of_order ht hA
    refine ⟨by rw [htries, hatt, ht], .inr ⟨hdone', st.tries, B, hle, ?_⟩⟩
    rw [order, hatt, hips, hpre, hrest]

theorem Planned.runLoop (hp : Planned firstAddressFamilyCount A st) (evs : List (ConnectEvent α)) :
    Planned firstAddressFamilyCount A (runLoop firstAddressFamilyCount prepare st evs).2 := by
  induction evs generalizing st with
  | nil => exact hp
  | cons ev evs ih =>
    unfold HappyState.runLoop
    cases hs : HappyState.spawnStep prepare st with
    | error e => exact hp
    | ok st₁ =>
      have hp₁ := hp.spawnStep hs
      dsimp only
      cases hw : HappyState.waitStep firstAddressFamilyCount st₁ ev with
      | inl r => exact hp₁
      | inr st₂ => exact ih (hp₁.waitStep hw)

/-- Over every run of the loop on the first family's list `A`, whatever the
    events: the attempts so far, then what is left in `ips` in the order
    `pop` takes it, are `A` reversed; or, once the second family's list `B`
    arrived after `t` attempts, the first `t` of `A` reversed and then, in
    reverse, RFC 8305's order of the rest of `A` and `B`. -/
theorem runLoop_attempts_reversed (firstAddressFamilyCount : Nat) (prepare : α → Except TcpConnectError Unit)
    (A : List α) (evs : List (ConnectEvent α)) :
    (runLoop firstAddressFamilyCount prepare (start A) evs).2.order = A.reverse ∨
      ∃ t B, t ≤ A.length ∧ (runLoop firstAddressFamilyCount prepare (start A) evs).2.order =
        A.reverse.take t ++
          ((A.take (A.length - t)).take (firstAddressFamilyCount - t) ++
            List.interleave B ((A.take (A.length - t)).drop (firstAddressFamilyCount - t))).reverse := by
  have hp : Planned firstAddressFamilyCount A (runLoop firstAddressFamilyCount prepare (start A) evs).2 :=
    (planned_start firstAddressFamilyCount A).runLoop evs
  obtain ⟨-, h | ⟨-, t, B, ht, h⟩⟩ := hp
  · exact .inl h
  · exact .inr ⟨t, B, ht, by rw [h, mergeList_eq]⟩

/-- With `Serial`, the resolver's answer `[1, 2]` and two failed
    connections, the loop tries `2` first, then `1`. -/
theorem runLoop_attempts_reversed_serial :
    (runLoop 1 (fun _ => .ok ()) (start (pickMany .serial id [1, 2] 3))
        [.failed .connectFailed, .failed .connectFailed]).2.attempts = [2, 1] ∧
      ((runLoop 1 (fun _ => .ok ()) (start (pickMany .serial id [1, 2] 3))
        [.failed .connectFailed, .failed .connectFailed]).2.order = (pickMany .serial id [1, 2] 3).reverse ∨
      ∃ t B, t ≤ (pickMany .serial id [1, 2] 3).length ∧
        (runLoop 1 (fun _ => .ok ()) (start (pickMany .serial id [1, 2] 3))
          [.failed .connectFailed, .failed .connectFailed]).2.order =
        (pickMany .serial id [1, 2] 3).reverse.take t ++
          (((pickMany .serial id [1, 2] 3).take ((pickMany .serial id [1, 2] 3).length - t)).take (1 - t) ++
            List.interleave B
              (((pickMany .serial id [1, 2] 3).take ((pickMany .serial id [1, 2] 3).length - t)).drop (1 - t))).reverse) :=
  ⟨rfl, runLoop_attempts_reversed 1 _ _ _⟩

end HappyState

end G3Proxy
