/-
  Code that may return an error and may panic, as `ExceptT ε Option`: a
  panic (an index out of range, an overflow, `unreachable!()`) is `none`, a
  returned error `some (.error e)`, a value `some (.ok a)`.  A `?` on a
  `Result` is a bind, and a check that can panic is an `Option` lifted into
  the block.

  * `NoPanic x P`: `x` does not panic, and every value it returns satisfies
    `P`, a total-correctness triple whose precondition is the context;
  * the rules that prove it along a `do` block, one per construct:
    `pure`, `throw`, `bind`, `map`, a lifted check that passes
    (`bind_lift`), `ite`, an early error return (`ite_throw`), and `mono`;
    `bind_congr` replaces a continuation by one that agrees with it on
    every value returned;
  * `Yields x r`: `x` runs to the outcome `r`, with the same rules where
    each check's outcome is known (`ite_pos`, `ite_neg`, an error return
    taken, `ite_throw_pos`, or passed, `ite_throw_neg`): what a parser
    does on an input built to be accepted, or to be rejected;
  * `List.foldlM_option_isSome`: a loop of checks that each pass does not
    panic; `List.lt_length_of_drop_ne_nil`: what an emptiness check on a
    slice tells.
-/
import Mathlib.Order.Basic

namespace ExceptT

variable {ε α β : Type} {P Q : α → Prop}

/-- `x` does not panic, and every value it returns satisfies `P`. -/
def NoPanic (x : ExceptT ε Option α) (P : α → Prop) : Prop :=
  ∃ r, x.run = some r ∧ ∀ a, r = .ok a → P a

/-- A check that passes is skipped. -/
@[simp] theorem lift_some_bind (a : α) (f : α → ExceptT ε Option β) :
    (liftM (some a) : ExceptT ε Option α) >>= f = f a := by
  apply ExceptT.ext
  simp [ExceptT.run_bind, liftM, monadLift, MonadLift.monadLift, ExceptT.lift]

namespace NoPanic

theorem isSome {x : ExceptT ε Option α} (h : NoPanic x P) : x.run.isSome := by
  obtain ⟨r, hr, -⟩ := h
  simp [hr]

theorem mono {x : ExceptT ε Option α} (hx : NoPanic x Q) (h : ∀ a, Q a → P a) : NoPanic x P := by
  obtain ⟨r, hr, hQ⟩ := hx
  exact ⟨r, hr, fun a ha => h a (hQ a ha)⟩

theorem pure {a : α} (h : P a) : NoPanic (Pure.pure a : ExceptT ε Option α) P :=
  ⟨.ok a, rfl, fun _ h' => by cases h'; exact h⟩

theorem throw (e : ε) : NoPanic (MonadExcept.throw e : ExceptT ε Option α) P :=
  ⟨.error e, rfl, fun _ h => nomatch h⟩

theorem bind {R : β → Prop} {x : ExceptT ε Option α} {f : α → ExceptT ε Option β} (hx : NoPanic x Q)
    (hf : ∀ a, Q a → NoPanic (f a) R) : NoPanic (x >>= f) R := by
  obtain ⟨r, hr, hQ⟩ := hx
  cases r with
  | error e => exact ⟨.error e, by simp [ExceptT.run_bind, hr], fun _ h => nomatch h⟩
  | ok a =>
    obtain ⟨r', hr', hR⟩ := hf a (hQ a rfl)
    exact ⟨r', by simp [ExceptT.run_bind, hr, hr'], hR⟩

theorem map {R : β → Prop} {x : ExceptT ε Option α} {f : α → β} (hx : NoPanic x fun a => R (f a)) :
    NoPanic (f <$> x) R := by
  rw [map_eq_pure_bind]
  exact bind hx fun _ h => pure h

/-- An error returned ends the block. -/
theorem throw_bind {R : β → Prop} (e : ε) (f : α → ExceptT ε Option β) :
    NoPanic (MonadExcept.throw e >>= f) R :=
  bind (throw e (P := fun _ => False)) fun _ h => h.elim

theorem ite {c : Prop} [Decidable c] {t e : ExceptT ε Option α} (ht : c → NoPanic t P) (he : ¬c → NoPanic e P) :
    NoPanic (if c then t else e) P := by
  by_cases hc : c
  · rw [if_pos hc]
    exact ht hc
  · rw [if_neg hc]
    exact he hc

/-- `if c then throw e` in a block: past it, `c` is false. -/
theorem ite_throw {R : β → Prop} {c : Prop} [Decidable c] {e : ε} {k : PUnit → ExceptT ε Option β}
    (h : ¬c → NoPanic (k ⟨⟩) R) : NoPanic (if c then MonadExcept.throw e >>= k else k ⟨⟩) R :=
  ite (fun _ => throw_bind e k) h

/-- A check that passes: the block goes on with what it gave. -/
theorem bind_lift {R : β → Prop} {o : Option α} {a : α} {f : α → ExceptT ε Option β} (ho : o = some a)
    (h : NoPanic (f a) R) : NoPanic (liftM o >>= f) R := by
  rwa [ho, lift_some_bind]

/-- Two continuations that agree on every value `x` returns make the same
    block. -/
theorem bind_congr {x : ExceptT ε Option α} {f g : α → ExceptT ε Option β} (hx : NoPanic x Q)
    (h : ∀ a, Q a → f a = g a) : x >>= f = x >>= g := by
  obtain ⟨r, hr, hQ⟩ := hx
  apply ExceptT.ext
  cases r with
  | error e => simp [ExceptT.run_bind, hr]
  | ok a => simp [ExceptT.run_bind, hr, h a (hQ a rfl)]

end NoPanic

/-- `x` runs to the outcome `r`: it does not panic, and it returns `r`. -/
def Yields (x : ExceptT ε Option α) (r : Except ε α) : Prop := x.run = some r

namespace Yields

theorem pure (a : α) : Yields (Pure.pure a : ExceptT ε Option α) (.ok a) := rfl

theorem throw (e : ε) : Yields (MonadExcept.throw e : ExceptT ε Option α) (.error e) := rfl

theorem bind {x : ExceptT ε Option α} {f : α → ExceptT ε Option β} {a : α} {r : Except ε β}
    (hx : Yields x (.ok a)) (hf : Yields (f a) r) : Yields (x >>= f) r := by
  unfold Yields at *
  simp [ExceptT.run_bind, hx, hf]

/-- An error returned ends the block with it. -/
theorem throw_bind (e : ε) (f : α → ExceptT ε Option β) :
    Yields (MonadExcept.throw e >>= f) (.error e) := by
  unfold Yields
  simp

/-- A check that passes: the block goes on with what it gave. -/
theorem bind_lift {o : Option α} {a : α} {f : α → ExceptT ε Option β} {r : Except ε β}
    (ho : o = some a) (h : Yields (f a) r) : Yields (liftM o >>= f) r := by
  rwa [ho, lift_some_bind]

theorem ite_pos {c : Prop} [Decidable c] {t e : ExceptT ε Option α} {r : Except ε α} (hc : c)
    (h : Yields t r) : Yields (if c then t else e) r := by
  rwa [if_pos hc]

theorem ite_neg {c : Prop} [Decidable c] {t e : ExceptT ε Option α} {r : Except ε α} (hc : ¬c)
    (h : Yields e r) : Yields (if c then t else e) r := by
  rwa [if_neg hc]

/-- `if c then throw e` in a block, with `c` true: the block returns `e`. -/
theorem ite_throw_pos {c : Prop} [Decidable c] {e : ε} {k : PUnit → ExceptT ε Option β} (hc : c) :
    Yields (if c then MonadExcept.throw e >>= k else k ⟨⟩) (.error e) :=
  ite_pos hc (throw_bind e k)

/-- `if c then throw e` in a block, with `c` false: the block goes on. -/
theorem ite_throw_neg {c : Prop} [Decidable c] {e : ε} {k : PUnit → ExceptT ε Option β}
    {r : Except ε β} (hc : ¬c) (h : Yields (k ⟨⟩) r) :
    Yields (if c then MonadExcept.throw e >>= k else k ⟨⟩) r :=
  ite_neg hc h

end Yields

end ExceptT

namespace List

variable {α β : Type}

/-- A fold in `Option` whose every step succeeds succeeds. -/
theorem foldlM_option_isSome {f : β → α → Option β} :
    ∀ (l : List α), (∀ b, ∀ a ∈ l, ∃ b', f b a = some b') → ∀ b, ∃ b', l.foldlM f b = some b'
  | [], _, b => ⟨b, rfl⟩
  | a :: l, h, b => by
    obtain ⟨b₁, h₁⟩ := h b a mem_cons_self
    obtain ⟨b₂, h₂⟩ := foldlM_option_isSome l (fun b a ha => h b a (mem_cons_of_mem _ ha)) b₁
    exact ⟨b₂, by simp [List.foldlM_cons, h₁, h₂]⟩

/-- A check that the bytes from `a` are not empty puts `a` inside the list. -/
theorem lt_length_of_drop_ne_nil {l : List α} {a : Nat} (h : ¬(l.drop a).isEmpty = true) : a < l.length := by
  simpa [List.isEmpty_iff] using h

end List
