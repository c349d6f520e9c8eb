import Mathlib.Algebra.BigOperators.Group.Finset.Basic
import Mathlib.Algebra.BigOperators.Group.Finset.Piecewise
import Mathlib.Data.Fintype.BigOperators

/-!
# How many clients are where

A counting semaphore is correct when its count and the number of clients in its section add
up.

* `occupancy P pc` is the number of clients, of a finite type, whose position satisfies `P`, and
  `occupancy_update` says how the move of one client changes it; every step of every client is
  an instance;
* `Counts P n` says that exactly `n` clients satisfy `P`, whatever their type, with the same moves:
  one client comes in (`Counts.enter`), one goes out (`Counts.exit`), none moves (`Counts.congr`).
-/

namespace KernelModules.Lib

open Function Finset

variable {ι σ : Type*} [Fintype ι]

/-- The number of clients whose position satisfies `P`. -/
def occupancy (P : σ → Bool) (pc : ι → σ) : ℕ := (univ.filter fun i => P (pc i)).card

/-- **One client moves.**  What it leaves is taken off, what it enters is added. -/
theorem occupancy_update [DecidableEq ι] (P : σ → Bool) (pc : ι → σ) (i : ι) (x : σ) :
    occupancy P (update pc i x) + (if P (pc i) then 1 else 0)
      = occupancy P pc + (if P x then 1 else 0) := by
  unfold occupancy
  rw [card_filter, card_filter, ← add_sum_erase univ _ (mem_univ i),
    ← add_sum_erase univ (fun j => if P (pc j) then 1 else 0) (mem_univ i)]
  have hrest : ∑ j ∈ univ.erase i, (if P (update pc i x j) then 1 else 0)
      = ∑ j ∈ univ.erase i, (if P (pc j) then 1 else 0) := by
    apply sum_congr rfl
    intro j hj
    rw [update_of_ne (ne_of_mem_erase hj)]
  rw [hrest, update_self]
  omega

theorem card_le_occupancy {P : σ → Bool} {pc : ι → σ} {s : Finset ι}
    (h : ∀ i ∈ s, P (pc i) = true) : s.card ≤ occupancy P pc := by
  apply card_le_card
  intro i hi
  simpa using h i hi

theorem occupancy_mono {P Q : σ → Bool} {pc pc' : ι → σ}
    (h : ∀ i, P (pc i) = true → Q (pc' i) = true) : occupancy P pc ≤ occupancy Q pc' := by
  apply card_le_card
  intro i hi
  simpa using h i (by simpa using hi)

theorem occupancy_eq_zero {P : σ → Bool} {pc : ι → σ} (h : ∀ i, P (pc i) = false) :
    occupancy P pc = 0 := by
  rw [occupancy, card_eq_zero, filter_eq_empty_iff]
  intro i _
  simp [h i]

/-! ### Counting without a bound on the clients -/

section Counts

variable {ι : Type*} {P P' : ι → Prop} {n m : ℕ}

/-- Exactly `n` clients satisfy `P`. -/
def Counts (P : ι → Prop) (n : ℕ) : Prop := ∃ W : Finset ι, (∀ i, i ∈ W ↔ P i) ∧ W.card = n

theorem Counts.congr (h : Counts P n) (hiff : ∀ i, P' i ↔ P i) : Counts P' n := by
  obtain ⟨W, hW, hcard⟩ := h
  exact ⟨W, fun i => (hW i).trans (hiff i).symm, hcard⟩

theorem counts_zero (hnone : ∀ i, ¬ P i) : Counts P 0 :=
  ⟨∅, fun i => iff_of_false (notMem_empty i) (hnone i), rfl⟩

theorem Counts.enter [DecidableEq ι] (h : Counts P n) {t : ι} (hout : ¬ P t) (ht : P' t)
    (hiff : ∀ i, i ≠ t → (P' i ↔ P i)) : Counts P' (n + 1) := by
  obtain ⟨W, hW, hcard⟩ := h
  refine ⟨insert t W, ?_, ?_⟩
  · intro i
    rw [mem_insert]
    by_cases hi : i = t
    · subst hi
      exact iff_of_true (Or.inl rfl) ht
    · rw [or_iff_right hi, hW i]
      exact (hiff i hi).symm
  · rw [card_insert_of_notMem fun hmem => hout ((hW t).1 hmem), hcard]

theorem Counts.exit [DecidableEq ι] (h : Counts P (n + 1)) {t : ι} (hin : P t) (ht : ¬ P' t)
    (hiff : ∀ i, i ≠ t → (P' i ↔ P i)) : Counts P' n := by
  obtain ⟨W, hW, hcard⟩ := h
  have hmem : t ∈ W := (hW t).2 hin
  refine ⟨W.erase t, ?_, ?_⟩
  · intro i
    rw [mem_erase]
    by_cases hi : i = t
    · subst hi
      exact iff_of_false (fun hne => hne.1 rfl) ht
    · rw [hiff i hi, hW i]
      exact and_iff_right hi
  · have := card_erase_add_one hmem
    omega

theorem Counts.pos (h : Counts P n) {t : ι} (ht : P t) : 0 < n := by
  obtain ⟨W, hW, hcard⟩ := h
  rw [← hcard]
  exact card_pos.2 ⟨t, (hW t).2 ht⟩

theorem Counts.none (h : Counts P 0) (t : ι) : ¬ P t :=
  fun ht => absurd (h.pos ht) (lt_irrefl 0)

theorem Counts.eq_of_le_one (h : Counts P n) (hn : n ≤ 1) {t u : ι} (ht : P t) (hu : P u) :
    t = u := by
  obtain ⟨W, hW, hcard⟩ := h
  exact card_le_one.1 (hcard.trans_le hn) t ((hW t).2 ht) u ((hW u).2 hu)

theorem Counts.unique (h : Counts P n) (h' : Counts P m) : n = m := by
  obtain ⟨W, hW, hcard⟩ := h
  obtain ⟨V, hV, hcard'⟩ := h'
  have heq : W = V := Finset.ext fun i => (hW i).trans (hV i).symm
  rw [← hcard, ← hcard', heq]

end Counts

end KernelModules.Lib
