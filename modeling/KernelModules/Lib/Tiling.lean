import Mathlib.Tactic.Common
import Mathlib.Data.List.Range

/-!
# Consecutive pieces of a range

A transfer is cut into pieces again and again: a buffer into pages, a page into blocks.  Each
cut is correct when its pieces lie end to end, and when each piece is right for the position
at which it lies.

* `Tiling len fits p xs q`: the pieces `xs` fill the range from `p` to `q`, each piece being
  `fits` at its own position;
* `Tiling.append` puts cuts of adjacent ranges together;
* `Tiling.flatMap_eq` turns a tiling into the sequence of its elements, in order and once
  each.
-/

namespace KernelModules.Lib

variable {α β : Type*} {len : α → ℕ} {fits : α → ℕ → Prop} {p q r : ℕ} {xs ys : List α}

/-- The pieces `xs` lie end to end from `p` to `q`. -/
inductive Tiling (len : α → ℕ) (fits : α → ℕ → Prop) : ℕ → List α → ℕ → Prop
  | nil (p : ℕ) : Tiling len fits p [] p
  | cons {p q : ℕ} {x : α} {xs : List α} (h : fits x p) (ht : Tiling len fits (p + len x) xs q) :
      Tiling len fits p (x :: xs) q

namespace Tiling

theorem single {x : α} (h : fits x p) : Tiling len fits p [x] (p + len x) :=
  .cons h (.nil _)

theorem eq_of_nil (h : Tiling len fits p [] q) : p = q := by
  cases h
  rfl

theorem le (h : Tiling len fits p xs q) : p ≤ q := by
  induction h with
  | nil => exact le_refl _
  | cons _ _ ih => omega

theorem imp {fits' : α → ℕ → Prop} (h : Tiling len fits p xs q)
    (himp : ∀ x a, fits x a → fits' x a) : Tiling len fits' p xs q := by
  induction h with
  | nil => exact .nil _
  | cons hx _ ih => exact .cons (himp _ _ hx) ih

theorem append (h : Tiling len fits p xs q) (h' : Tiling len fits q ys r) :
    Tiling len fits p (xs ++ ys) r := by
  induction h with
  | nil => exact h'
  | cons hx _ ih => exact .cons hx (ih h')

theorem mem (h : Tiling len fits p xs q) {x : α} (hx : x ∈ xs) :
    ∃ a, p ≤ a ∧ a + len x ≤ q ∧ fits x a := by
  induction h with
  | nil => cases hx
  | @cons p q y ys hy ht ih =>
    rcases List.mem_cons.mp hx with rfl | hmem
    · exact ⟨p, le_refl _, ht.le, hy⟩
    · obtain ⟨a, ha, hb, hfit⟩ := ih hmem
      exact ⟨a, by omega, hb, hfit⟩

/-- **The elements of a tiling.**  When a piece at position `a` is the run of `f` from `a` on,
the pieces together are the run of `f` over the range. -/
theorem flatMap_eq {f : ℕ → β} {elems : α → List β} (h : Tiling len fits p xs q)
    (hel : ∀ x a, p ≤ a → a + len x ≤ q → fits x a →
      elems x = (List.range (len x)).map fun j => f (a + j)) :
    xs.flatMap elems = (List.range (q - p)).map fun k => f (p + k) := by
  induction h with
  | nil => simp
  | @cons p q x xs hx ht ih =>
    have hle := ht.le
    have hsplit : q - p = len x + (q - (p + len x)) := by omega
    rw [List.flatMap_cons, hel x p (le_refl _) hle hx,
      ih fun y a ha hb hy => hel y a (by omega) hb hy, hsplit, List.range_add, List.map_append,
      List.map_map]
    simp only [Function.comp_def, Nat.add_assoc]

end Tiling

end KernelModules.Lib
