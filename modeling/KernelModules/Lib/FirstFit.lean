import Mathlib.Order.Bounds.Basic
import Mathlib.Tactic

/-!
# First fit

A table of cells, some of them free, is scanned once for the first place where a number of free
cells lie side by side.

* `FreeRun free limit want start` says that `want` free cells lie side by side from `start` on,
  below `limit`;
* `firstFit` is the scan with a counter of the free cells it has just passed and where they began;
* `firstFit_isLeast` says that it finds the lowest such place, `firstFit_none` that it gives up only
  where there is none.

Nothing here names a particular program.
-/

namespace KernelModules.Lib

/-- `want` free cells from `start` on. -/
def FreeRun (free : ℕ → Prop) (limit want start : ℕ) : Prop :=
  start + want ≤ limit ∧ ∀ i, start ≤ i → i < start + want → free i

/-- The scan of `n` more cells: `size` free ones from `start` on lie right before cell `i`. -/
def firstFit (free : ℕ → Prop) [DecidablePred free] (want : ℕ) : ℕ → ℕ → ℕ → ℕ → Option ℕ
  | 0, _, _, _ => none
  | n + 1, i, size, start =>
    if free i then
      let start := if size = 0 then i else start
      if size + 1 ≥ want then some start else firstFit free want n (i + 1) (size + 1) start
    else firstFit free want n (i + 1) 0 start

/-- What the scan knows at cell `i`: the free cells right before it, that no more of them are free,
and that nothing fits below. -/
structure Scanned (free : ℕ → Prop) (want i size start : ℕ) : Prop where
  lt : size < want
  place : size = 0 ∨ start + size = i
  cells : ∀ j, start ≤ j → j < start + size → free j
  longest : ∀ s, (∀ j, s ≤ j → j < i → free j) → i ≤ s + size
  below : ∀ s, ¬ FreeRun free i want s

variable {free : ℕ → Prop} {want : ℕ}

namespace Scanned

variable {i size start : ℕ}

theorem zero (hwant : 1 ≤ want) : Scanned free want 0 0 0 where
  lt := hwant
  place := .inl rfl
  cells j _ hj := by omega
  longest s _ := Nat.zero_le _
  below s hs := by
    have hle := hs.1
    omega

theorem cells_succ (h : Scanned free want i size start) (hi : free i) :
    (if size = 0 then i else start) + (size + 1) = i + 1 ∧
      ∀ j, (if size = 0 then i else start) ≤ j →
        j < (if size = 0 then i else start) + (size + 1) → free j := by
  have hplace := h.place
  split
  · rename_i hzero
    refine ⟨by omega, fun j hlo hhi => ?_⟩
    obtain rfl : j = i := by omega
    exact hi
  · refine ⟨by omega, fun j hlo hhi => ?_⟩
    by_cases hj : j = i
    · rw [hj]
      exact hi
    · exact h.cells j hlo (by omega)

theorem longest_succ (h : Scanned free want i size start) (s : ℕ)
    (hs : ∀ j, s ≤ j → j < i + 1 → free j) : i + 1 ≤ s + (size + 1) := by
  have hle := h.longest s fun j hlo hhi => hs j hlo (by omega)
  omega

theorem take (h : Scanned free want i size start) (hi : free i) (hlt : size + 1 < want) :
    Scanned free want (i + 1) (size + 1) (if size = 0 then i else start) where
  lt := hlt
  place := .inr (h.cells_succ hi).1
  cells := (h.cells_succ hi).2
  longest := h.longest_succ
  below s hs := by
    obtain ⟨hle, hfree⟩ := hs
    by_cases hend : s + want = i + 1
    · have hrun := h.longest_succ s fun j hlo hhi => hfree j hlo (by omega)
      omega
    · exact h.below s ⟨by omega, hfree⟩

theorem skip (h : Scanned free want i size start) (hi : ¬ free i) :
    Scanned free want (i + 1) 0 start where
  lt := Nat.zero_lt_of_lt h.lt
  place := .inl rfl
  cells j _ hj := by omega
  longest s hs := by
    by_contra hlt
    exact hi (hs i (by omega) (by omega))
  below s hs := by
    obtain ⟨hle, hfree⟩ := hs
    have hlt := h.lt
    by_cases hend : s + want = i + 1
    · exact hi (hfree i (by omega) (by omega))
    · exact h.below s ⟨by omega, hfree⟩

theorem isLeast (h : Scanned free want i size start) (hi : free i) (hlong : want ≤ size + 1)
    {limit : ℕ} (hlimit : i + 1 ≤ limit) :
    IsLeast {s | FreeRun free limit want s} (if size = 0 then i else start) := by
  have hlt := h.lt
  have hwant : want = size + 1 := by omega
  obtain ⟨hend, hcells⟩ := h.cells_succ hi
  refine ⟨⟨by omega, fun j hlo hhi => hcells j hlo (by omega)⟩, ?_⟩
  rintro s ⟨-, hfree⟩
  by_contra hlow
  exact h.below s ⟨by omega, hfree⟩

/-- **The scan.**  It stops at the lowest run, or there is none. -/
theorem firstFit [DecidablePred free] {n : ℕ} (h : Scanned free want i size start) :
    (∀ found, KernelModules.Lib.firstFit free want n i size start = some found →
        IsLeast {s | FreeRun free (i + n) want s} found) ∧
      (KernelModules.Lib.firstFit free want n i size start = none →
        ∀ s, ¬ FreeRun free (i + n) want s) := by
  induction n generalizing i size start with
  | zero => exact ⟨(fun found hf => by cases hf), fun _ => h.below⟩
  | succ n ih =>
    have hlimit : i + (n + 1) = i + 1 + n := by omega
    rw [hlimit]
    unfold KernelModules.Lib.firstFit
    by_cases hi : free i
    · rw [if_pos hi]
      by_cases hlong : size + 1 ≥ want
      · simp only [if_pos hlong]
        refine ⟨fun found hf => ?_, fun hn => by cases hn⟩
        cases hf
        exact h.isLeast hi hlong (by omega)
      · simp only [if_neg hlong]
        exact ih (h.take hi (by omega))
    · rw [if_neg hi]
      exact ih (h.skip hi)

end Scanned

theorem firstFit_isLeast [DecidablePred free] (hwant : 1 ≤ want) {n found : ℕ}
    (h : firstFit free want n 0 0 0 = some found) :
    IsLeast {s | FreeRun free n want s} found := by
  have hstart : Scanned free want 0 0 0 := .zero hwant
  have hleast := hstart.firstFit.1 found h
  rwa [Nat.zero_add] at hleast

theorem firstFit_none [DecidablePred free] (hwant : 1 ≤ want) {n : ℕ}
    (h : firstFit free want n 0 0 0 = none) (s : ℕ) : ¬ FreeRun free n want s := by
  have hstart : Scanned free want 0 0 0 := .zero hwant
  have hnone := hstart.firstFit.2 h s
  rwa [Nat.zero_add] at hnone

end KernelModules.Lib
