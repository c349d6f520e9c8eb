import Mathlib.Data.List.Basic
import Mathlib.Tactic

/-!
# Computations that leave a list of events

A `Logged` computation runs on a state and leaves the events of its run.  `All P` says of a
computation that every event of every run satisfies `P`; it goes by the parts of the computation.
-/

namespace KernelModules.Lib

variable {σ ε α β : Type}

/-- From a state: a result, the state after it, and the events on the way. -/
def Logged (σ ε α : Type) : Type := σ → α × σ × List ε

namespace Logged

protected def pure (a : α) : Logged σ ε α := fun s => (a, s, [])

protected def bind (m : Logged σ ε α) (f : α → Logged σ ε β) : Logged σ ε β := fun s =>
  ((f (m s).1 (m s).2.1).1, (f (m s).1 (m s).2.1).2.1,
    (m s).2.2 ++ (f (m s).1 (m s).2.1).2.2)

instance : Monad (Logged σ ε) where
  pure := Logged.pure
  bind := Logged.bind

def emits (es : List ε) : Logged σ ε Unit := fun s => ((), s, es)

def emit (e : ε) : Logged σ ε Unit := emits [e]

/-- A part of a computation that runs only if `p` holds. -/
def runIf (p : Prop) [Decidable p] (m : Logged σ ε Unit) : Logged σ ε Unit :=
  if p then m else pure ()

def value (m : Logged σ ε α) (s : σ) : α := (m s).1

def next (m : Logged σ ε α) (s : σ) : σ := (m s).2.1

def events (m : Logged σ ε α) (s : σ) : List ε := (m s).2.2

@[simp] theorem events_pure (a : α) (s : σ) : (pure a : Logged σ ε α).events s = [] := rfl

@[simp] theorem events_bind (m : Logged σ ε α) (f : α → Logged σ ε β) (s : σ) :
    (m >>= f).events s = m.events s ++ (f (m.value s)).events (m.next s) := rfl

@[simp] theorem events_emits (es : List ε) (s : σ) : (emits es : Logged σ ε Unit).events s = es :=
  rfl

@[simp] theorem events_emit (e : ε) (s : σ) : (emit e : Logged σ ε Unit).events s = [e] := rfl

/-- Every event of every run satisfies `P`. -/
def All (P : ε → Prop) (m : Logged σ ε α) : Prop := ∀ s, ∀ e ∈ m.events s, P e

variable {P : ε → Prop}

theorem all_pure (a : α) : All P (pure a : Logged σ ε α) := fun _ _ he =>
  absurd he List.not_mem_nil

theorem all_bind {m : Logged σ ε α} {f : α → Logged σ ε β} (hm : All P m) (hf : ∀ a, All P (f a)) :
    All P (m >>= f) := by
  intro s e he
  rw [events_bind, List.mem_append] at he
  rcases he with he | he
  · exact hm s e he
  · exact hf _ _ e he

theorem all_emits {es : List ε} (h : ∀ e ∈ es, P e) : All P (emits es : Logged σ ε Unit) :=
  fun _ => h

theorem all_emit {e : ε} (h : P e) : All P (emit e : Logged σ ε Unit) :=
  all_emits fun e' he => by
    rw [List.mem_singleton] at he
    exact he ▸ h

theorem all_ite {p : Prop} [Decidable p] {m n : Logged σ ε α} (hm : p → All P m)
    (hn : ¬p → All P n) : All P (if p then m else n) := by
  split
  · exact hm ‹_›
  · exact hn ‹_›

theorem all_runIf {p : Prop} [Decidable p] {m : Logged σ ε Unit} (hm : p → All P m) :
    All P (runIf p m) := all_ite hm fun _ => all_pure ()

end Logged

end KernelModules.Lib
