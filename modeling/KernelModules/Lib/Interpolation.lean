import Mathlib.Tactic

/-!
# Linear interpolation in whole numbers

A table has points with rising coordinates.  `interpolate` joins the points that are next to each
other by straight lines of a whole slope and is constant outside the table.

* `le_interpolate` and `line_le` bound what one line gives;
* `interpolate_mono` says that it never falls and `interpolate_entry` that it has the points of the
  table.
-/

namespace KernelModules.Lib

/-- The line from `p` to `q`. -/
def line (p q : ℕ × ℕ) (x : ℕ) : ℕ := (q.2 - p.2) / (q.1 - p.1) * (x - p.1) + p.2

/-- The lines through a table. -/
def interpolate : List (ℕ × ℕ) → ℕ → ℕ
  | [], _ => 0
  | [p], _ => p.2
  | p :: q :: rest, x => if x < q.1 then line p q x else interpolate (q :: rest) x

/-- Both coordinates rise. -/
def Rising (table : List (ℕ × ℕ)) : Prop := table.Pairwise fun p q => p.1 < q.1 ∧ p.2 ≤ q.2

instance (table : List (ℕ × ℕ)) : Decidable (Rising table) :=
  inferInstanceAs (Decidable (List.Pairwise _ _))

theorem line_mono (p q : ℕ × ℕ) : Monotone (line p q) := fun x y h =>
  Nat.add_le_add_right (Nat.mul_le_mul_left _ (Nat.sub_le_sub_right h _)) _

theorem line_le {p q : ℕ × ℕ} (hle : p.2 ≤ q.2) {x : ℕ} (hx : x ≤ q.1) : line p q x ≤ q.2 := by
  have hrun : x - p.1 ≤ q.1 - p.1 := Nat.sub_le_sub_right hx _
  have hrise : (q.2 - p.2) / (q.1 - p.1) * (x - p.1) ≤ q.2 - p.2 :=
    (Nat.mul_le_mul_left _ hrun).trans (Nat.div_mul_le_self _ _)
  unfold line
  omega

variable {table : List (ℕ × ℕ)} {p : ℕ × ℕ}

theorem Rising.tail (h : Rising (p :: table)) : Rising table := (List.pairwise_cons.mp h).2

theorem le_interpolate (h : Rising (p :: table)) (x : ℕ) : p.2 ≤ interpolate (p :: table) x := by
  induction table generalizing p with
  | nil => exact le_rfl
  | cons q rest ih =>
    have hpq := (List.pairwise_cons.mp h).1 q List.mem_cons_self
    rw [interpolate]
    split
    · exact Nat.le_add_left _ _
    · exact hpq.2.trans (ih h.tail)

/-- **The interpolation never falls.** -/
theorem interpolate_mono (h : Rising table) : Monotone (interpolate table) := by
  induction table with
  | nil => exact fun _ _ _ => le_rfl
  | cons p table ih =>
    cases table with
    | nil => exact fun _ _ _ => le_rfl
    | cons q rest =>
      intro x y hxy
      have hpq := (List.pairwise_cons.mp h).1 q List.mem_cons_self
      rw [interpolate, interpolate]
      by_cases hx : x < q.1
      · rw [if_pos hx]
        split
        · exact line_mono p q hxy
        · exact (line_le hpq.2 hx.le).trans (le_interpolate h.tail y)
      · rw [if_neg hx, if_neg fun hy => hx (hxy.trans_lt hy)]
        exact ih h.tail hxy

/-- **The interpolation has the points of the table.** -/
theorem interpolate_entry (h : Rising table) (hp : p ∈ table) : interpolate table p.1 = p.2 := by
  induction table with
  | nil => cases hp
  | cons q table ih =>
    have hq := (List.pairwise_cons.mp h).1
    cases table with
    | nil =>
      rw [List.mem_singleton.mp hp]
      rfl
    | cons r rest =>
      rw [interpolate]
      obtain rfl | hmem := List.mem_cons.mp hp
      · rw [if_pos (hq r List.mem_cons_self).1, line, Nat.sub_self, Nat.mul_zero, Nat.zero_add]
      · have hle : r.1 ≤ p.1 := by
          obtain rfl | hmem := List.mem_cons.mp hmem
          · exact le_rfl
          · exact ((List.pairwise_cons.mp h.tail).1 p hmem).1.le
        rw [if_neg hle.not_gt]
        exact ih h.tail hmem

end KernelModules.Lib
