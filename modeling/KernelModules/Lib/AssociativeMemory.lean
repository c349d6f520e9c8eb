import Mathlib.Data.Set.Function
import Mathlib.Data.List.Perm.Subperm
import Mathlib.Data.List.Nodup
import Mathlib.Data.List.Range

/-!
# Associative memories

A content-addressable memory compares for equality only.  What is to be found under a key with wildcards
is looked for once for each way of filling the key in.

* `camSearch` is one search, with one report for each address, and `camSearches` are several of them;
* `mem_camSearches` is what they find, and `camSearches_nodup` that they find nothing twice where no two
  of the ways give the same key.

Nothing here names a particular program.
-/

namespace KernelModules.Lib

variable {Key Fill : Type*} [DecidableEq Key]

/-- The addresses below `n` that hold the key. -/
def camSearch (n : ℕ) (cam : ℕ → Key) (key : Key) : List ℕ := (List.range n).filter fun a => cam a = key

/-- One search for each way of filling in the key. -/
def camSearches (n : ℕ) (cam : ℕ → Key) (fill : Fill → Key) (fills : List Fill) : List ℕ :=
  fills.flatMap fun j => camSearch n cam (fill j)

variable {n : ℕ} {cam : ℕ → Key} {fill : Fill → Key} {fills : List Fill}

theorem mem_camSearch {key : Key} {a : ℕ} : a ∈ camSearch n cam key ↔ a < n ∧ cam a = key := by
  rw [camSearch, List.mem_filter, List.mem_range, decide_eq_true_iff]

theorem mem_camSearches {a : ℕ} :
    a ∈ camSearches n cam fill fills ↔ a < n ∧ ∃ j ∈ fills, cam a = fill j := by
  simp only [camSearches, List.mem_flatMap, mem_camSearch]
  constructor
  · intro h
    obtain ⟨j, hj, ha, hkey⟩ := h
    exact ⟨ha, j, hj, hkey⟩
  · intro h
    obtain ⟨ha, j, hj, hkey⟩ := h
    exact ⟨j, hj, ha, hkey⟩

theorem camSearches_nodup (hfills : fills.Nodup) (hinj : Set.InjOn fill {j | j ∈ fills}) :
    (camSearches n cam fill fills).Nodup := by
  induction fills with
  | nil => exact List.nodup_nil
  | cons j fills ih =>
    rw [List.nodup_cons] at hfills
    have hrest : (camSearches n cam fill fills).Nodup :=
      ih hfills.2 (hinj.mono fun i hi => List.mem_cons_of_mem j hi)
    rw [camSearches, List.flatMap_cons]
    refine (List.nodup_range.filter _).append hrest ?_
    intro a ha ha'
    obtain ⟨-, i, hi, hkey⟩ := mem_camSearches.1 ha'
    have hsame : j = i :=
      hinj List.mem_cons_self (List.mem_cons_of_mem j hi) ((mem_camSearch.1 ha).2.symm.trans hkey)
    exact hfills.1 (hsame ▸ hi)

theorem camSearches_length_le (h : (camSearches n cam fill fills).Nodup) :
    (camSearches n cam fill fills).length ≤ n := by
  have hsub : camSearches n cam fill fills ⊆ List.range n := by
    intro a ha
    exact List.mem_range.2 (mem_camSearches.1 ha).1
  have hle := (List.subperm_of_subset h hsub).length_le
  rwa [List.length_range] at hle

end KernelModules.Lib
