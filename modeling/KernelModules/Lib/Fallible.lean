import Mathlib.Tactic.Common

/-!
# Programs that fail and keep what they did

A function of a C library calls the system again and again, and returns at the first call that
fails.  What the calls before it have changed stays changed.

* `Fallible σ ε α` is a program over a state `σ` that gives a value or an error, and a new state
  in both cases; it may also get stuck;
* `bind_ok` and `bind_error` take a sequence apart, at its success and at its failure;
* `Returns p s` says that `p` comes back from `s`.

Nothing here names a particular program.
-/

namespace KernelModules.Lib

/-- A program over `σ`; `none` means that no call comes back from it. -/
def Fallible (σ ε α : Type) := σ → Option (Except ε α × σ)

namespace Fallible

variable {σ ε α β : Type}

instance : Monad (Fallible σ ε) where
  pure a s := some (.ok a, s)
  bind p f s := (p s).bind fun
    | (.ok a, s') => f a s'
    | (.error e, s') => some (.error e, s')

/-- Give up with an error. -/
def fail (e : ε) : Fallible σ ε α := fun s => some (.error e, s)

/-- A look at the state. -/
def read (q : σ → Option (Except ε α)) : Fallible σ ε α := fun s => (q s).map fun r => (r, s)

/-- A change of the state. -/
def modify (g : σ → σ) : Fallible σ ε Unit := fun s => some (.ok (), g s)

/-- A call on a part of the state, with another type of errors. -/
def onPart {τ δ : Type} (get : σ → τ) (put : τ → σ → σ) (err : δ → ε) (p : Fallible τ δ α) :
    Fallible σ ε α :=
  fun s => (p (get s)).map fun (r, t) => (r.mapError err, put t s)

variable {p : Fallible σ ε α} {f : α → Fallible σ ε β} {s s' : σ}

theorem pure_ok {a b : α} : (pure a : Fallible σ ε α) s = some (.ok b, s') ↔ b = a ∧ s' = s := by
  change some (Except.ok a, s) = some (Except.ok b, s') ↔ _
  simp only [Option.some.injEq, Prod.mk.injEq, Except.ok.injEq, eq_comm]

theorem pure_error {a : α} {e : ε} :
    ¬ (pure a : Fallible σ ε α) s = some (.error e, s') := by
  intro h
  change some (Except.ok a, s) = some (Except.error e, s') at h
  cases h

theorem fail_ok {e : ε} {a : α} : ¬ (fail e : Fallible σ ε α) s = some (.ok a, s') := by
  intro h
  cases h

theorem fail_error {e e' : ε} :
    (fail e : Fallible σ ε α) s = some (.error e', s') ↔ e' = e ∧ s' = s := by
  simp only [fail, Option.some.injEq, Prod.mk.injEq, Except.error.injEq, eq_comm]

theorem read_eq_some {q : σ → Option (Except ε α)} {r : Except ε α} :
    read q s = some (r, s') ↔ q s = some r ∧ s' = s := by
  simp only [read, Option.map_eq_some_iff, Prod.mk.injEq]
  constructor
  · rintro ⟨r', hq, rfl, rfl⟩
    exact ⟨hq, rfl⟩
  · rintro ⟨hq, rfl⟩
    exact ⟨r, hq, rfl, rfl⟩

theorem modify_ok {g : σ → σ} : (modify g : Fallible σ ε Unit) s = some (.ok (), s') ↔
    s' = g s := by
  simp only [modify, Option.some.injEq, Prod.mk.injEq, true_and, eq_comm]

theorem modify_error {g : σ → σ} {e : ε} :
    ¬ (modify g : Fallible σ ε Unit) s = some (.error e, s') := by
  intro h
  cases h

theorem bind_of_ok {a : α} (h : p s = some (.ok a, s')) : (p >>= f) s = f a s' := by
  change (p s).bind _ = _
  rw [h]
  rfl

theorem bind_of_error {e : ε} (h : p s = some (.error e, s')) :
    (p >>= f) s = some (.error e, s') := by
  change (p s).bind _ = _
  rw [h]
  rfl

/-- **A sequence succeeds** when both programs do. -/
theorem bind_ok {b : β} : (p >>= f) s = some (.ok b, s') ↔
    ∃ a s₁, p s = some (.ok a, s₁) ∧ f a s₁ = some (.ok b, s') := by
  constructor
  · intro h
    obtain ⟨⟨r, s₁⟩, hp, hf⟩ := Option.bind_eq_some_iff.mp h
    cases r with
    | error e => cases hf
    | ok a => exact ⟨a, s₁, hp, hf⟩
  · rintro ⟨a, s₁, hp, hf⟩
    rw [bind_of_ok hp, hf]

/-- **A sequence fails** when the first program does, or the second one after it. -/
theorem bind_error {e : ε} : (p >>= f) s = some (.error e, s') ↔
    p s = some (.error e, s') ∨
      ∃ a s₁, p s = some (.ok a, s₁) ∧ f a s₁ = some (.error e, s') := by
  constructor
  · intro h
    obtain ⟨⟨r, s₁⟩, hp, hf⟩ := Option.bind_eq_some_iff.mp h
    cases r with
    | error e' =>
      cases hf
      exact .inl hp
    | ok a => exact .inr ⟨a, s₁, hp, hf⟩
  · rintro (hp | ⟨a, s₁, hp, hf⟩)
    · exact bind_of_error hp
    · rw [bind_of_ok hp, hf]

/-! ### Programs that come back -/

/-- The program comes back from state `s`. -/
def Returns (p : Fallible σ ε α) (s : σ) : Prop := ∃ r s', p s = some (r, s')

theorem Returns.pure (a : α) (s : σ) : Returns (pure a : Fallible σ ε α) s := ⟨_, _, rfl⟩

theorem Returns.fail (e : ε) (s : σ) : Returns (fail e : Fallible σ ε α) s := ⟨_, _, rfl⟩

/-- A sequence comes back when its first program does, and the second one wherever the first
succeeds. -/
theorem Returns.bind (hp : Returns p s)
    (hf : ∀ a s₁, p s = some (.ok a, s₁) → Returns (f a) s₁) : Returns (p >>= f) s := by
  obtain ⟨r, s₁, hr⟩ := hp
  cases r with
  | error e => exact ⟨_, _, bind_of_error hr⟩
  | ok a =>
    obtain ⟨r', s₂, hr'⟩ := hf a s₁ hr
    exact ⟨r', s₂, (bind_of_ok hr).trans hr'⟩

end Fallible

end KernelModules.Lib
