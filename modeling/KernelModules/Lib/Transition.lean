import Mathlib.Tactic.Common

/-!
# Labelled transition systems and invariants over whole runs

A driver is a system whose steps are taken by any caller in any order.  This file fixes
what "every state reached by every run" means and packages the two inductions the
development needs:

* `System` is a set of initial states and a labelled step relation;
* `System.ReachUnder ok` are the states reached by runs all of whose steps meet `ok`, a
  condition on the state before the step and on its label; `System.Reach` asks nothing;
* `ReachUnder.invariant` is the invariant rule;
* `System.ofFun` builds a system from a partial step function, and `runFun` executes a
  list of labels on it, so that a concrete run is evaluated and not argued about; `runUnder` is
  the same under a condition.

Nothing here names a particular program.
-/

namespace KernelModules.Lib

/-- A labelled transition system: initial states and a step relation. -/
structure System (σ : Type*) (α : Type*) where
  init : σ → Prop
  step : σ → α → σ → Prop

namespace System

variable {σ α : Type*} {S : System σ α}

/-- The states reached by runs every step of which meets `ok` where it is taken. -/
inductive ReachUnder (S : System σ α) (ok : σ → α → Prop) : σ → Prop
  | init {s : σ} (h : S.init s) : ReachUnder S ok s
  | step {s s' : σ} {a : α} (h : ReachUnder S ok s) (hok : ok s a) (hs : S.step s a s') :
      ReachUnder S ok s'

/-- The states reached by any run. -/
def Reach (S : System σ α) : σ → Prop := S.ReachUnder fun _ _ => True

theorem Reach.init {s : σ} (h : S.init s) : S.Reach s := ReachUnder.init h

theorem Reach.step {s s' : σ} {a : α} (h : S.Reach s) (hs : S.step s a s') : S.Reach s' :=
  ReachUnder.step h trivial hs

/-- **The invariant rule.**  What holds initially and is kept by every step that meets `ok`
holds in every state such runs reach. -/
theorem ReachUnder.invariant {ok : σ → α → Prop} {P : σ → Prop}
    (hinit : ∀ s, S.init s → P s)
    (hstep : ∀ s a s', P s → ok s a → S.step s a s' → P s')
    {s : σ} (h : S.ReachUnder ok s) : P s := by
  induction h with
  | init hi => exact hinit _ hi
  | step _ hok hs ih => exact hstep _ _ _ ih hok hs

theorem ReachUnder.mono {ok ok' : σ → α → Prop} (himp : ∀ s a, ok s a → ok' s a) {s : σ}
    (h : S.ReachUnder ok s) : S.ReachUnder ok' s := by
  induction h with
  | init hi => exact .init hi
  | step _ hok hs ih => exact ih.step (himp _ _ hok) hs

theorem Reach.invariant {P : σ → Prop} (hinit : ∀ s, S.init s → P s)
    (hstep : ∀ s a s', P s → S.step s a s' → P s') {s : σ} (h : S.Reach s) : P s :=
  ReachUnder.invariant hinit (fun s a s' hp _ hs => hstep s a s' hp hs) h

/-! ### Systems given by a partial step function -/

/-- The system of a partial step function; `none` means the step cannot be taken. -/
def ofFun (init : σ → Prop) (f : σ → α → Option σ) : System σ α where
  init := init
  step s a s' := f s a = some s'

/-- Executing a list of labels. -/
def runFun (f : σ → α → Option σ) : σ → List α → Option σ
  | s, [] => some s
  | s, a :: as => (f s a).bind fun s' => runFun f s' as

theorem Reach.runFun {init : σ → Prop} {f : σ → α → Option σ} {s : σ}
    (hs : (ofFun init f).Reach s) (as : List α) {s' : σ} (h : runFun f s as = some s') :
    (ofFun init f).Reach s' := by
  induction as generalizing s with
  | nil =>
    simp only [System.runFun, Option.some.injEq] at h
    exact h ▸ hs
  | cons a as ih =>
    simp only [System.runFun, Option.bind_eq_some_iff] at h
    obtain ⟨t, ht, hr⟩ := h
    exact ih (hs.step ht) hr

/-- Executing labels as long as they meet a condition and can be taken. -/
def runUnder (f : σ → α → Option σ) (ok : σ → α → Prop) [∀ s a, Decidable (ok s a)] :
    σ → List α → σ
  | s, [] => s
  | s, a :: as =>
    if ok s a then
      match f s a with
      | none => s
      | some s' => runUnder f ok s' as
    else s

theorem ReachUnder.runUnder {init : σ → Prop} {f : σ → α → Option σ} {ok : σ → α → Prop}
    [∀ s a, Decidable (ok s a)] {s : σ} (hs : (ofFun init f).ReachUnder ok s) (as : List α) :
    (ofFun init f).ReachUnder ok (runUnder f ok s as) := by
  induction as generalizing s with
  | nil => exact hs
  | cons a as ih =>
    rw [System.runUnder]
    split
    · rename_i hok
      split
      · exact hs
      · rename_i t ht
        exact ih (hs.step hok ht)
    · exact hs

end System

end KernelModules.Lib
