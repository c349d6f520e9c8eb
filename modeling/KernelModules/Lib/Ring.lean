import Mathlib.Tactic

/-!
# Windows on a ring of cells

A ring buffer of `cap` cells holds the `n` cells from its read pointer on, wrapping at the end.
`window` is that list, and the three things a driver does to a ring are equations on it:

* `window_push` writes behind the window and lengthens it;
* `window_overwrite` writes over the oldest cell of a full ring and moves on;
* `window_succ` reads the oldest cell and moves on.

`window_add`, `drop_window` and `take_window` cut a window, and `rotate_window` turns a whole ring
so that it starts at another cell.
-/

namespace KernelModules.Lib

open Function

variable {α : Type*} {cap : ℕ}

/-- The `n` cells from `rd` on. -/
def window (cells : ℕ → α) (cap rd n : ℕ) : List α :=
  (List.range n).map fun i => cells ((rd + i) % cap)

@[simp] theorem window_zero (cells : ℕ → α) (cap rd : ℕ) : window cells cap rd 0 = [] := rfl

@[simp] theorem length_window (cells : ℕ → α) (cap rd n : ℕ) :
    (window cells cap rd n).length = n := by
  simp [window]

theorem window_succ (cells : ℕ → α) (rd n : ℕ) :
    window cells cap rd (n + 1) =
      cells (rd % cap) :: window cells cap ((rd + 1) % cap) n := by
  simp only [window, List.range_succ_eq_map, List.map_cons, List.map_map, Nat.add_zero,
    List.cons.injEq, true_and]
  apply List.map_congr_left
  intro i _
  simp only [comp_apply, Nat.mod_add_mod]
  congr 2
  omega

theorem window_concat (cells : ℕ → α) (rd n : ℕ) :
    window cells cap rd (n + 1) = window cells cap rd n ++ [cells ((rd + n) % cap)] := by
  simp [window, List.range_succ]

theorem window_add (cells : ℕ → α) (rd m n : ℕ) :
    window cells cap rd (m + n) = window cells cap rd m ++ window cells cap (rd + m) n := by
  simp only [window, List.range_add, List.map_append, List.map_map, comp_def, Nat.add_assoc]

theorem drop_window (cells : ℕ → α) (rd : ℕ) {n d : ℕ} (h : d ≤ n) :
    (window cells cap rd n).drop d = window cells cap (rd + d) (n - d) := by
  obtain ⟨m, rfl⟩ := Nat.exists_eq_add_of_le h
  rw [window_add, List.drop_left' (length_window _ _ _ _), Nat.add_sub_cancel_left]

theorem take_window (cells : ℕ → α) (rd : ℕ) {n m : ℕ} (h : m ≤ n) :
    (window cells cap rd n).take m = window cells cap rd m := by
  obtain ⟨k, rfl⟩ := Nat.exists_eq_add_of_le h
  rw [window_add, List.take_left' (length_window _ _ _ _)]

theorem window_mod (cells : ℕ → α) (rd n : ℕ) :
    window cells cap (rd % cap) n = window cells cap rd n := by
  simp only [window, Nat.mod_add_mod]

theorem window_of_le (cells : ℕ → α) {n : ℕ} (h : n ≤ cap) :
    window cells cap 0 n = (List.range n).map cells := by
  apply List.map_congr_left
  intro i hi
  rw [List.mem_range] at hi
  rw [Nat.zero_add, Nat.mod_eq_of_lt (by omega)]

theorem rotate_window (cells : ℕ → α) {rd : ℕ} (h : rd ≤ cap) :
    (window cells cap 0 cap).drop rd ++ (window cells cap 0 cap).take rd =
      window cells cap rd cap := by
  have hwhole : window cells cap rd cap =
      window cells cap rd (cap - rd) ++ window cells cap (rd + (cap - rd)) rd := by
    rw [← window_add, Nat.sub_add_cancel h]
  have hround : window cells cap (rd + (cap - rd)) rd = window cells cap 0 rd := by
    rw [← window_mod, Nat.add_sub_cancel' h, Nat.mod_self]
  rw [drop_window _ _ h, take_window _ _ h, Nat.zero_add, hwhole, hround]

theorem window_eq_iff (cells cells' : ℕ → α) (rd n : ℕ) :
    window cells cap rd n = window cells' cap rd n ↔
      ∀ i, i < n → cells ((rd + i) % cap) = cells' ((rd + i) % cap) := by
  simp only [window, List.map_inj_left, List.mem_range]

theorem window_update (cells : ℕ → α) (rd n : ℕ) {m : ℕ} (v : α) (hm : n ≤ m) (hcap : m < cap) :
    window (update cells ((rd + m) % cap) v) cap rd n = window cells cap rd n := by
  apply List.map_congr_left
  intro i hi
  rw [List.mem_range] at hi
  rw [update_of_ne]
  intro heq
  have hdvd : (rd + i) ≡ (rd + m) [MOD cap] := heq
  have hmod : i ≡ m [MOD cap] := Nat.ModEq.add_left_cancel' rd hdvd
  have := Nat.ModEq.eq_of_lt_of_lt hmod (by omega) hcap
  omega

/-- **A push.**  A write behind the window of a ring that is not full appends to it. -/
theorem window_push (cells : ℕ → α) (rd : ℕ) {n : ℕ} (v : α) (hn : n < cap) :
    window (update cells ((rd + n) % cap) v) cap rd (n + 1) = window cells cap rd n ++ [v] := by
  rw [window_concat, window_update cells rd n v le_rfl hn, update_self]

/-- **An overwrite.**  In a full ring the write falls on the oldest cell, which is dropped. -/
theorem window_overwrite (cells : ℕ → α) (rd : ℕ) (v : α) (hcap : 0 < cap) :
    window (update cells ((rd + cap) % cap) v) cap ((rd + 1) % cap) cap =
      (window cells cap rd cap).tail ++ [v] := by
  obtain ⟨k, rfl⟩ := Nat.exists_eq_succ_of_ne_zero hcap.ne'
  have hpos : ((rd + 1) % (k + 1) + k) % (k + 1) = (rd + (k + 1)) % (k + 1) := by
    rw [Nat.mod_add_mod]
    congr 1
    omega
  rw [window_succ cells rd k, List.tail_cons, window_concat, hpos, update_self, ← hpos,
    window_update cells _ k v le_rfl (Nat.lt_succ_self k)]

end KernelModules.Lib
