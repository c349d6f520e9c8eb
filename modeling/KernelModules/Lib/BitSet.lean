import Mathlib.Data.List.Nodup
import Mathlib.Data.Nat.Bitwise

/-!
# Sets of numbers as bits

A list of small numbers is looked through for duplicates by collecting them in the bits of one
number, in one round for each entry.

* `distinctFrom` is the check, `nodup_of_distinctFrom` what it says.
-/

namespace KernelModules.Lib

/-- No number of the list is in the set of bits `seen`, or in the list twice. -/
def distinctFrom (seen : ℕ) : List ℕ → Bool
  | [] => true
  | n :: ns => !seen.testBit n && distinctFrom (seen ||| 2 ^ n) ns

theorem testBit_or_two_pow (seen n m : ℕ) :
    (seen ||| 2 ^ n).testBit m = true ↔ seen.testBit m = true ∨ n = m := by
  rw [Nat.testBit_or, Bool.or_eq_true, Nat.testBit_two_pow, decide_eq_true_eq]

/-- **The check finds every duplicate.** -/
theorem nodup_of_distinctFrom {seen : ℕ} {ns : List ℕ} (h : distinctFrom seen ns = true) :
    ns.Nodup ∧ ∀ n ∈ ns, seen.testBit n = false := by
  induction ns generalizing seen with
  | nil => exact ⟨List.nodup_nil, fun n hn => absurd hn List.not_mem_nil⟩
  | cons n ns ih =>
    rw [distinctFrom, Bool.and_eq_true, Bool.not_eq_true'] at h
    obtain ⟨hnodup, hclear⟩ := ih h.2
    have hrest : ∀ m ∈ ns, ¬ (seen.testBit m = true ∨ n = m) := by
      intro m hm
      rw [← testBit_or_two_pow, hclear m hm]
      exact Bool.false_ne_true
    refine ⟨List.nodup_cons.mpr ⟨fun hn => hrest n hn (.inr rfl), hnodup⟩, fun m hm => ?_⟩
    obtain rfl | hm := List.mem_cons.mp hm
    · exact h.1
    · exact Bool.eq_false_iff.mpr fun hbit => hrest m hm (.inl hbit)

end KernelModules.Lib
