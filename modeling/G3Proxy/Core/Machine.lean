/-
  Code with early returns and panics, and machines driven by a sequence of
  operations.

  * A block of statements ends in a `Flow`: it returned early with a value,
    or it falls through to what follows; `none` around it is a panic.
    `Flow.andThen` sequences two blocks and `Flow.forEach` is a `for` loop
    whose body may return.  `Flow.Safe I` says that a block does not panic
    and leaves a state satisfying `I`; `safe_andThen` and `safe_forEach` are
    its rules, so a proof that a function never panics follows the
    function's own statements.  `Flow.map` renames the states of an
    outcome, and `andThen_map` carries a renaming through a sequence.
  * `run` drives a machine by a list of operations, failing as soon as one
    fails; `run_safe` is the invariant rule: an invariant that every allowed
    operation keeps without failing holds, without failure, after any run of
    allowed operations; `run_inv` is its form for runs that may fail, about
    those that do not.
-/
import Mathlib.Logic.Basic

namespace Machine

variable {σ ρ α ο : Type}

/-! ## Blocks with early returns -/

/-- How a block of statements ends: returning `r` in the state `s`, or
    falling through in the state `s`. -/
inductive Flow (σ ρ : Type) where
  | exit (r : ρ) (s : σ)
  | next (s : σ)

namespace Flow

/-- The state a block leaves. -/
def state : Flow σ ρ → σ
  | exit _ s => s
  | next s => s

/-- `x; k`: run `k` in the state `x` falls through with; a panic or a
    return of `x` is the outcome of the whole. -/
def andThen : Option (Flow σ ρ) → (σ → Option (Flow σ ρ)) → Option (Flow σ ρ)
  | some (next s), k => k s
  | r, _ => r

/-- `for a in as { body }`, stopping at the first panic or return. -/
def forEach (body : σ → α → Option (Flow σ ρ)) : List α → σ → Option (Flow σ ρ)
  | [], s => some (next s)
  | a :: as, s => andThen (body s a) (forEach body as)

@[simp] theorem andThen_next (s : σ) (k : σ → Option (Flow σ ρ)) :
    andThen (some (next s)) k = k s := rfl

@[simp] theorem andThen_exit (r : ρ) (s : σ) (k : σ → Option (Flow σ ρ)) :
    andThen (some (exit r s)) k = some (exit r s) := rfl

@[simp] theorem andThen_none (k : σ → Option (Flow σ ρ)) : andThen none k = none := rfl

theorem andThen_assoc (x : Option (Flow σ ρ)) (f g : σ → Option (Flow σ ρ)) :
    andThen (andThen x f) g = andThen x fun s => andThen (f s) g := by
  rcases x with _ | (⟨r, s⟩ | s) <;> rfl

/-- The same outcome over states renamed by `f`. -/
def map {τ : Type} (f : σ → τ) : Flow σ ρ → Flow τ ρ
  | exit r s => exit r (f s)
  | next s => next (f s)

/-- The simulation rule: a sequence of blocks over renamed states is the
    renamed sequence, when the second block is. -/
theorem andThen_map {τ : Type} (f : σ → τ) (x : Option (Flow σ ρ)) {k : σ → Option (Flow σ ρ)}
    {l : τ → Option (Flow τ ρ)} (hk : ∀ s, l (f s) = (k s).map (map f)) :
    (andThen x k).map (map f) = andThen (x.map (map f)) l := by
  rcases x with _ | (⟨r, s⟩ | s)
  · rfl
  · rfl
  · exact (hk s).symm

/-- The block does not panic and leaves a state satisfying `I`. -/
def Safe (I : σ → Prop) (x : Option (Flow σ ρ)) : Prop :=
  ∃ f, x = some f ∧ I f.state

variable {I : σ → Prop}

theorem safe_next {s : σ} (h : I s) : Safe I (some (next s : Flow σ ρ)) :=
  ⟨_, rfl, h⟩

theorem safe_exit {r : ρ} {s : σ} (h : I s) : Safe I (some (exit r s)) :=
  ⟨_, rfl, h⟩

theorem Safe.isSome {x : Option (Flow σ ρ)} (h : Safe I x) : x.isSome := by
  obtain ⟨f, rfl, -⟩ := h
  rfl

/-- The sequencing rule. -/
theorem safe_andThen {x : Option (Flow σ ρ)} {k : σ → Option (Flow σ ρ)} (hx : Safe I x)
    (hk : ∀ s, I s → Safe I (k s)) : Safe I (andThen x k) := by
  obtain ⟨f, rfl, hf⟩ := hx
  cases f with
  | exit r s => exact ⟨_, rfl, hf⟩
  | next s => exact hk s hf

/-- The loop rule: a body that is safe on every element keeps the loop safe. -/
theorem safe_forEach {body : σ → α → Option (Flow σ ρ)} {as : List α}
    (hb : ∀ s a, a ∈ as → I s → Safe I (body s a)) :
    ∀ s, I s → Safe I (forEach body as s) := by
  induction as with
  | nil => intro s hs; exact safe_next hs
  | cons a as ih =>
    intro s hs
    have hrest : ∀ s a', a' ∈ as → I s → Safe I (body s a') :=
      fun s a' ha' => hb s a' (List.mem_cons_of_mem a ha')
    exact safe_andThen (hb s a List.mem_cons_self hs) (ih hrest)

end Flow

/-! ## Runs of operations -/

/-- Apply the operations in order; `none` as soon as one fails. -/
def run (step : σ → ο → Option σ) : σ → List ο → Option σ
  | s, [] => some s
  | s, o :: os => (step s o).bind fun s' => run step s' os

/-- The invariant rule for runs. -/
theorem run_safe {step : σ → ο → Option σ} (I : σ → Prop) (Allowed : ο → Prop)
    (hstep : ∀ s o, Allowed o → I s → ∃ s', step s o = some s' ∧ I s') :
    ∀ (os : List ο) (s : σ), (∀ o ∈ os, Allowed o) → I s → ∃ s', run step s os = some s' ∧ I s' := by
  intro os
  induction os with
  | nil => intro s _ hs; exact ⟨s, rfl, hs⟩
  | cons o os ih =>
    intro s hos hs
    obtain ⟨s₁, h₁, hi₁⟩ := hstep s o (hos o List.mem_cons_self) hs
    obtain ⟨s₂, h₂, hi₂⟩ := ih s₁ (fun o' ho' => hos o' (List.mem_cons_of_mem o ho')) hi₁
    exact ⟨s₂, by simp [run, h₁, h₂], hi₂⟩

/-- The invariant rule for runs that do not fail: an invariant that every
    allowed operation keeps when it succeeds holds after any run of allowed
    operations that succeeds. -/
theorem run_inv {step : σ → ο → Option σ} (I : σ → Prop) (Allowed : ο → Prop)
    (hstep : ∀ s o s', Allowed o → I s → step s o = some s' → I s') :
    ∀ (os : List ο) (s s' : σ), (∀ o ∈ os, Allowed o) → I s → run step s os = some s' → I s' := by
  intro os
  induction os with
  | nil =>
    intro s s' _ hs h
    cases h
    exact hs
  | cons o os ih =>
    intro s s' hos hs h
    obtain ⟨s₁, h₁, hrest⟩ := Option.bind_eq_some_iff.1 h
    exact ih s₁ s' (fun o' ho' => hos o' (List.mem_cons_of_mem o ho'))
      (hstep s o s₁ (hos o List.mem_cons_self) hs h₁) hrest

end Machine
