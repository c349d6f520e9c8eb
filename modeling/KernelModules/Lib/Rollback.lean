import Mathlib.Data.List.Count
import Mathlib.Data.List.Nodup
import Mathlib.Tactic

/-!
# Giving back what was acquired

A construction acquires things one after the other, and may have to stop at one that it does not
get.  It is all or nothing when it then has given back everything that it had, each thing once, and
nothing else.
-/

namespace KernelModules.Lib

variable {α : Type*} [DecidableEq α]

/-- What a construction acquired and gave back, and whether it stopped. -/
structure Outcome (α : Type*) where
  failed : Bool
  acquired : List α
  released : List α

namespace Outcome

def AllOrNothing (o : Outcome α) : Prop :=
  o.failed = true → ∀ x, o.released.count x = if x ∈ o.acquired then 1 else 0

theorem allOrNothing_of_success {o : Outcome α} (h : o.failed = false) : o.AllOrNothing := by
  intro hf
  rw [h] at hf
  cases hf

theorem allOrNothing_of_perm {o : Outcome α} (hperm : o.released.Perm o.acquired)
    (hnodup : o.acquired.Nodup) : o.AllOrNothing := by
  intro _ x
  rw [hperm.count_eq]
  split
  next hx => exact List.count_eq_one_of_mem hnodup hx
  next hx => exact List.count_eq_zero_of_not_mem hx

theorem not_allOrNothing_of_foreign {o : Outcome α} (hf : o.failed = true) {x : α}
    (hrel : x ∈ o.released) (hacq : x ∉ o.acquired) : ¬ o.AllOrNothing := by
  intro h
  have hcount := h hf x
  rw [if_neg hacq] at hcount
  exact List.count_eq_zero.1 hcount hrel

theorem not_allOrNothing_of_left {o : Outcome α} (hf : o.failed = true) {x : α}
    (hacq : x ∈ o.acquired) (hrel : x ∉ o.released) : ¬ o.AllOrNothing := by
  intro h
  have hcount := h hf x
  rw [if_pos hacq, List.count_eq_zero_of_not_mem hrel] at hcount
  cases hcount

end Outcome

end KernelModules.Lib
