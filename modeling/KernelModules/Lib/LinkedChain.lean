import Mathlib.Data.List.Chain
import Mathlib.Tactic.Common

/-!
# Chains of cells linked through memory

Devices follow chains of descriptors in memory: each cell names the next one, and a mark in
the last cell stops the walk.  The development needs three facts about such chains, for any
addresses, cells and ways to read the link:

* `ListSeg`: the cells at `as`, in this order, lead from `a` to `b` (`ListSeg.snoc` extends
  one at its end, `ListSeg.frame` keeps it when other cells are written, `ListSeg.isChain`
  reads its links off);
* `walk`: the addresses visited from `a` on, for a bounded number of steps;
* `walk_eq`: a segment that ends in a marked cell is visited completely, and the walk stops
  there by itself.

Lists of a program end in a null pointer instead: `Listed` are the cells from a pointer on,
`Listed.head?` and `Listed.next_eq` read the pointers off, and `Listed.frame` keeps the list when
other cells are written.
-/

namespace KernelModules.Lib

variable {A C : Type*} {next : C → A} {isLast : C → Bool} {mem mem' : A → C} {a b c : A}
  {as : List A}

/-- The cells at `as` lead from `a` to `b`, and none of them is marked as the last one. -/
def ListSeg (next : C → A) (isLast : C → Bool) (mem : A → C) : A → List A → A → Prop
  | a, [], b => a = b
  | a, x :: xs, b => x = a ∧ isLast (mem a) = false ∧
      ListSeg next isLast mem (next (mem a)) xs b

/-- The addresses visited in at most `n` steps. -/
def walk (next : C → A) (isLast : C → Bool) (mem : A → C) : ℕ → A → List A
  | 0, _ => []
  | n + 1, a => a :: if isLast (mem a) then [] else walk next isLast mem n (next (mem a))

namespace ListSeg

theorem snoc (h : ListSeg next isLast mem a as b) (hlast : isLast (mem b) = false)
    (hnext : next (mem b) = c) : ListSeg next isLast mem a (as ++ [b]) c := by
  induction as generalizing a with
  | nil =>
    obtain rfl : a = b := h
    exact ⟨rfl, hlast, hnext⟩
  | cons x xs ih =>
    obtain ⟨rfl, hx, ht⟩ := h
    exact ⟨rfl, hx, ih ht⟩

theorem frame (h : ListSeg next isLast mem a as b) (hmem : ∀ x ∈ as, mem' x = mem x) :
    ListSeg next isLast mem' a as b := by
  induction as generalizing a with
  | nil => exact h
  | cons x xs ih =>
    obtain ⟨rfl, hx, ht⟩ := h
    have hself := hmem x List.mem_cons_self
    refine ⟨rfl, by rw [hself]; exact hx, ?_⟩
    rw [hself]
    exact ih ht fun y hy => hmem y (List.mem_cons_of_mem x hy)

theorem isChain (h : ListSeg next isLast mem a as b) :
    (as ++ [b]).IsChain fun x y => isLast (mem x) = false ∧ next (mem x) = y := by
  induction as generalizing a with
  | nil => exact List.isChain_singleton b
  | cons x xs ih =>
    obtain ⟨rfl, hx, ht⟩ := h
    have hrest := ih ht
    cases xs with
    | nil => exact List.isChain_cons_cons.mpr ⟨⟨hx, ht⟩, hrest⟩
    | cons y ys =>
      obtain ⟨hy, -, -⟩ := ht
      exact List.isChain_cons_cons.mpr ⟨⟨hx, hy.symm⟩, hrest⟩

/-- **The walk along a closed chain.**  It visits the segment and the marked cell, whatever
number of further steps it is given. -/
theorem walk_eq (h : ListSeg next isLast mem a as b) (hlast : isLast (mem b) = true) {n : ℕ}
    (hn : as.length < n) : walk next isLast mem n a = as ++ [b] := by
  induction as generalizing a n with
  | nil =>
    obtain rfl : a = b := h
    obtain ⟨m, rfl⟩ : ∃ m, n = m + 1 := ⟨n - 1, by simp only [List.length_nil] at hn; omega⟩
    simp [walk, hlast]
  | cons x xs ih =>
    obtain ⟨rfl, hx, ht⟩ := h
    obtain ⟨m, rfl⟩ : ∃ m, n = m + 1 := ⟨n - 1, by simp only [List.length_cons] at hn; omega⟩
    have hm : xs.length < m := by
      simp only [List.length_cons] at hn
      omega
    simp [walk, hx, ih ht hm]

end ListSeg

/-! ### Lists that end in a null pointer -/

section Listed

variable {succ succ' : A → Option A} {p : Option A} {l : List A}

/-- The cells at `l` are all of a list, from the pointer `p` on. -/
def Listed (succ : A → Option A) : Option A → List A → Prop
  | p, [] => p = none
  | p, x :: xs => p = some x ∧ Listed succ (succ x) xs

theorem Listed.head? (h : Listed succ p l) : l.head? = p := by
  cases l with
  | nil => exact h.symm
  | cons x xs => exact h.1.symm

theorem Listed.next_eq (h : Listed succ p l) {i : ℕ} {x : A} (hx : l[i]? = some x) :
    succ x = l[i + 1]? := by
  induction l generalizing p i with
  | nil => simp at hx
  | cons y ys ih =>
    cases i with
    | zero =>
      obtain rfl : y = x := by simpa using hx
      rw [List.getElem?_cons_succ, ← List.head?_eq_getElem?]
      exact h.2.head?.symm
    | succ i =>
      rw [List.getElem?_cons_succ] at hx ⊢
      exact ih h.2 hx

theorem Listed.frame (h : Listed succ p l) (heq : ∀ x ∈ l, succ' x = succ x) :
    Listed succ' p l := by
  induction l generalizing p with
  | nil => exact h
  | cons x xs ih =>
    refine ⟨h.1, ?_⟩
    rw [heq x List.mem_cons_self]
    exact ih h.2 fun y hy => heq y (List.mem_cons_of_mem x hy)

end Listed

end KernelModules.Lib
