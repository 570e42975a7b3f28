/-
  Retry loops around one atomic cell, run by many threads at once, in the
  manner of a loop over compare_exchange: a thread loads the cell, computes
  from the value it loaded, and either returns without writing or tries to
  swap its new value in; a swap that finds another value than the one loaded
  loads that value and goes round again.

  The steps of the threads interleave in any order.  A ghost list, `swaps`,
  records each swap that succeeded: the operation that made it and the value
  it replaced.

  * `step_cases`: a step leaves the cell and the swaps alone, or is one swap
    that replaces the cell's current value by its operation's update of it;
  * `Replays`: the swaps, replayed one after another from a start value, end
    at the cell, each finding the value the one before left.  It holds of
    every world a run reaches (`Replays.spawn`, `Replays.step`): however the
    threads interleave, each loop updates the cell as if it ran alone at its
    successful swap, and no update is lost or made twice;
  * what follows from `Replays`: a measure of the cell balanced against
    what the swaps put up and took down (`Replays.balance`);
  * `OpsOk`: a property of the operation of every thread, which no step
    changes.
-/
import Mathlib

namespace CasLoop

/-- The body of a retry loop over a cell of `α` returning `β`: from the value
    loaded, a result returned without writing, or else the value to swap in
    and the result once the swap succeeds. -/
structure Body (α β : Type) where
  exit : α → Option β
  next : α → α
  result : α → β

/-- A thread running operation `op`: in its loop with the value it loaded
    last, or returned. -/
inductive Thread (ω α β : Type) where
  | running (op : ω) (loaded : α)
  | done (op : ω) (r : β)
  deriving Repr, DecidableEq

/-- The cell, the threads, and the swaps that succeeded (ghost), oldest
    first. -/
structure World (ω α β : Type) where
  cell : α
  threads : List (Thread ω α β)
  swaps : List (ω × α)
  deriving Repr, DecidableEq

variable {ω α β : Type}

/-- A cell holding `a`, no thread yet. -/
def World.start (a : α) : World ω α β := ⟨a, [], []⟩

/-- A thread starts `op`: its first load of the cell. -/
def spawn (w : World ω α β) (op : ω) : World ω α β :=
  { w with threads := w.threads ++ [.running op w.cell] }

@[simp] theorem spawn_cell (w : World ω α β) (op : ω) : (spawn w op).cell = w.cell := rfl

@[simp] theorem spawn_swaps (w : World ω α β) (op : ω) : (spawn w op).swaps = w.swaps := rfl

@[simp] theorem spawn_threads (w : World ω α β) (op : ω) :
    (spawn w op).threads = w.threads ++ [.running op w.cell] := rfl

/-! ## The operations the threads run -/

/-- The operation a thread runs or ran. -/
def Thread.op : Thread ω α β → ω
  | .running op _ => op
  | .done op _ => op

/-- Every thread runs an operation with property `P`. -/
def OpsOk (P : ω → Prop) (w : World ω α β) : Prop :=
  ∀ t ∈ w.threads, P t.op

theorem opsOk_start (P : ω → Prop) (a : α) : OpsOk P (World.start a : World ω α β) := by
  intro t h
  simp [World.start] at h

theorem OpsOk.spawn {P : ω → Prop} {w : World ω α β} (h : OpsOk P w) {op : ω} (hop : P op) :
    OpsOk P (CasLoop.spawn w op) := by
  intro t ht
  rcases List.mem_append.1 ht with ht | ht
  · exact h t ht
  · rw [List.mem_singleton.1 ht]
    exact hop

/-- The operation of a swap is one a thread runs. -/
theorem OpsOk.swap {P : ω → Prop} {w : World ω α β} (h : OpsOk P w) {i : Nat} {op : ω}
    (hi : w.threads[i]? = some (.running op w.cell)) : P op :=
  h _ (List.mem_of_getElem? hi)

variable [DecidableEq α] (body : ω → Body α β)

/-! ## Steps -/

/-- One step of thread `i`: return without writing, a swap that succeeds, or
    a swap that fails and loads the value it found. -/
def step (w : World ω α β) (i : Nat) : World ω α β :=
  match w.threads[i]? with
  | some (.running op v) =>
    match (body op).exit v with
    | some r => { w with threads := w.threads.set i (.done op r) }
    | none =>
      if v = w.cell then
        { cell := (body op).next v
          threads := w.threads.set i (.done op ((body op).result v))
          swaps := w.swaps ++ [(op, v)] }
      else { w with threads := w.threads.set i (.running op w.cell) }
  | _ => w

/-- What one step can do: nothing to the cell and the swaps, or the swap of
    a running thread that loaded the cell's current value and writes from
    it. -/
theorem step_cases (w : World ω α β) (i : Nat) :
    ((step body w i).cell = w.cell ∧ (step body w i).swaps = w.swaps) ∨
    (∃ op, w.threads[i]? = some (.running op w.cell) ∧ (body op).exit w.cell = none ∧
      step body w i = ⟨(body op).next w.cell, w.threads.set i (.done op ((body op).result w.cell)),
        w.swaps ++ [(op, w.cell)]⟩) := by
  unfold step
  split
  · rename_i op v hi
    split
    · exact .inl ⟨rfl, rfl⟩
    · rename_i hexit
      split_ifs with hv
      · subst hv
        exact .inr ⟨op, hi, hexit, rfl⟩
      · exact .inl ⟨rfl, rfl⟩
  · exact .inl ⟨rfl, rfl⟩

/-- Every thread after a step: one from before, or a thread that was running
    and returned without writing, swapped at the cell's value, or loaded the
    cell's value after a failed swap. -/
theorem mem_step_threads {w : World ω α β} {i : Nat} {t : Thread ω α β}
    (ht : t ∈ (step body w i).threads) :
    t ∈ w.threads ∨ ∃ op v, Thread.running op v ∈ w.threads ∧
      ((∃ r, (body op).exit v = some r ∧ t = .done op r) ∨
        (v = w.cell ∧ (body op).exit v = none ∧ t = .done op ((body op).result v)) ∨
        t = .running op w.cell) := by
  unfold step at ht
  split at ht
  · rename_i op v hi
    have hmem : Thread.running op v ∈ w.threads := List.mem_of_getElem? hi
    split at ht
    · rename_i r hexit
      rcases List.mem_or_eq_of_mem_set ht with h | rfl
      · exact .inl h
      · exact .inr ⟨op, v, hmem, .inl ⟨r, hexit, rfl⟩⟩
    · rename_i hexit
      split_ifs at ht with hv
      · rcases List.mem_or_eq_of_mem_set ht with h | rfl
        · exact .inl h
        · exact .inr ⟨op, v, hmem, .inr (.inl ⟨hv, hexit, rfl⟩)⟩
      · rcases List.mem_or_eq_of_mem_set ht with h | rfl
        · exact .inl h
        · exact .inr ⟨op, v, hmem, .inr (.inr rfl)⟩
  · exact .inl ht

/-! ## The swaps replay the cell -/

/-- The swaps replayed from `a`: each must find the value the one before
    left, and its operation must write from that value. -/
def replay : α → List (ω × α) → Option α
  | a, [] => some a
  | a, (op, v) :: s => if v = a ∧ (body op).exit v = none then replay ((body op).next v) s else none

/-- The swaps replayed from `init` end at `cell`. -/
def Replays (init : α) (swaps : List (ω × α)) (cell : α) : Prop :=
  replay body init swaps = some cell

theorem replays_nil (a : α) : Replays body a [] a := rfl

theorem replay_append_singleton (op : ω) (v : α) :
    ∀ (a : α) (s : List (ω × α)), replay body a (s ++ [(op, v)]) =
      (replay body a s).bind fun c => if v = c ∧ (body op).exit v = none then some ((body op).next v) else none
  | a, [] => by simp [replay]
  | a, (op', v') :: s => by
    simp only [List.cons_append, replay]
    split_ifs
    · exact replay_append_singleton op v _ s
    · rfl

variable {body}

/-- One more swap, of a thread that loaded the cell and writes from it. -/
theorem Replays.snoc {init c : α} {s : List (ω × α)} (h : Replays body init s c) {op : ω}
    (hexit : (body op).exit c = none) : Replays body init (s ++ [(op, c)]) ((body op).next c) := by
  unfold Replays at h ⊢
  rw [replay_append_singleton, h]
  simp [hexit]

theorem Replays.spawn {init : α} {w : World ω α β} (h : Replays body init w.swaps w.cell) (op : ω) :
    Replays body init (CasLoop.spawn w op).swaps (CasLoop.spawn w op).cell :=
  h

theorem Replays.step {init : α} {w : World ω α β} (h : Replays body init w.swaps w.cell) (i : Nat) :
    Replays body init (CasLoop.step body w i).swaps (CasLoop.step body w i).cell := by
  rcases step_cases body w i with ⟨hc, hs⟩ | ⟨op, -, hexit, hstep⟩
  · rw [hc, hs]
    exact h
  · rw [hstep]
    exact h.snoc hexit

/-- A measure of the cell that each swap moves up by `up` and down by
    `down`: at the cell it is its start value, plus what the swaps put up,
    less what they took down. -/
theorem Replays.balance (measure : α → Nat) (up down : ω × α → Nat)
    (hswap : ∀ e : ω × α, (body e.1).exit e.2 = none →
      (measure ((body e.1).next e.2) : Int) - measure e.2 = up e - down e) :
    ∀ {init c : α} {s : List (ω × α)}, Replays body init s c →
      measure c + (s.map down).sum = measure init + (s.map up).sum
  | init, c, [], h => by
    cases h
    simp
  | init, c, (op, v) :: s, h => by
    unfold Replays replay at h
    split_ifs at h with hv
    obtain ⟨rfl, hexit⟩ := hv
    have ih := Replays.balance measure up down hswap h
    have hmove := hswap (op, v) hexit
    dsimp only at hmove
    simp only [List.map_cons, List.sum_cons]
    omega

/-- A step starts no operation. -/
theorem OpsOk.step {P : ω → Prop} {w : World ω α β} (h : OpsOk P w) (i : Nat) :
    OpsOk P (CasLoop.step body w i) := by
  intro t ht
  rcases mem_step_threads body ht with ht | ⟨op, v, hmem, ⟨r, -, rfl⟩ | ⟨-, -, rfl⟩ | rfl⟩
  · exact h t ht
  all_goals exact h (.running op v) hmem

end CasLoop
