import Mathlib.Logic.Function.Basic
import Mathlib.Data.List.Induction
import Mathlib.Data.Nat.Init
import Mathlib.Tactic.Common

/-!
# Points packed two to a word

A memory that is filled through an auto-incrementing port, and samples that lie in it two to a
word.  An odd number of samples leaves the second half of the last word unused.

* `burst` is the memory after a row of writes to the port, and `readOff` what a row of reads gives:
  `readOff_burst`, with `burst_of_lt` and `burst_of_ge` for the words outside;
* `pack` are the words of a list of samples, and `unpack` reads samples back from memory;
* `unpack_burst_pack`: what was written is read back, and `unpack_congr`: reading depends on the
  words of the samples only.
-/

namespace KernelModules.Lib.Packing

open Function

variable {α β : Type*}

/-- The memory after the words `ws` were written from address `a` on. -/
def burst (mem : ℕ → β) (a : ℕ) : List β → ℕ → β
  | [] => mem
  | w :: ws => burst (update mem a w) (a + 1) ws

theorem burst_of_lt {mem : ℕ → β} {a b : ℕ} {ws : List β} (h : b < a) :
    burst mem a ws b = mem b := by
  induction ws generalizing mem a with
  | nil => rfl
  | cons w ws ih =>
    rw [burst, ih (by omega), update_of_ne (by omega)]

theorem burst_of_ge {mem : ℕ → β} {a b : ℕ} {ws : List β} (h : a + ws.length ≤ b) :
    burst mem a ws b = mem b := by
  induction ws generalizing mem a with
  | nil => rfl
  | cons w ws ih =>
    rw [List.length_cons] at h
    rw [burst, ih (by omega), update_of_ne (by omega)]

theorem burst_append (mem : ℕ → β) (a : ℕ) (ws vs : List β) :
    burst mem a (ws ++ vs) = burst (burst mem a ws) (a + ws.length) vs := by
  induction ws generalizing mem a with
  | nil => rfl
  | cons w ws ih =>
    rw [List.cons_append, burst, burst, ih, List.length_cons]
    congr 1
    omega

/-- The words that `n` reads from address `a` on give. -/
def readOff (mem : ℕ → β) : ℕ → ℕ → List β
  | _, 0 => []
  | a, n + 1 => mem a :: readOff mem (a + 1) n

/-- **What was written through the port is read from it.** -/
theorem readOff_burst (mem : ℕ → β) (a : ℕ) (ws : List β) :
    readOff (burst mem a ws) a ws.length = ws := by
  induction ws generalizing mem a with
  | nil => rfl
  | cons w ws ih =>
    have hfirst : burst mem a (w :: ws) a = w := by
      rw [burst, burst_of_lt (by omega), update_self]
    rw [List.length_cons, readOff, hfirst, burst, ih]

theorem take_readOff (mem : ℕ → β) {a k n : ℕ} (h : k ≤ n) :
    (readOff mem a n).take k = readOff mem a k := by
  induction k generalizing a n with
  | zero => rfl
  | succ k ih =>
    obtain ⟨n, rfl⟩ : ∃ n', n = n' + 1 := ⟨n - 1, by omega⟩
    rw [readOff, readOff, List.take_succ_cons, ih (by omega)]

theorem readOff_congr {mem mem' : ℕ → β} {a n : ℕ}
    (h : ∀ b, a ≤ b → b < a + n → mem b = mem' b) : readOff mem a n = readOff mem' a n := by
  induction n generalizing a with
  | zero => rfl
  | succ n ih =>
    rw [readOff, readOff, h a (by omega) (by omega)]
    rw [ih fun b hb hb' => h b (by omega) (by omega)]

/-- The words of a list of samples. -/
def pack (pair : α → α → β) (single : α → β) : List α → List β
  | [] => []
  | [x] => [single x]
  | x :: y :: l => pair x y :: pack pair single l

theorem length_pack (pair : α → α → β) (single : α → β) (l : List α) :
    (pack pair single l).length = (l.length + 1) / 2 := by
  induction l using List.twoStepInduction with
  | nil => simp [pack]
  | singleton x => simp [pack]
  | cons_cons x y l ih _ =>
    rw [pack, List.length_cons, List.length_cons, List.length_cons, ih]
    omega

/-- The `n` samples that start at word `a`. -/
def unpack (first second : β → α) (mem : ℕ → β) : ℕ → ℕ → List α
  | 0, _ => []
  | 1, a => [first (mem a)]
  | n + 2, a => first (mem a) :: second (mem a) :: unpack first second mem n (a + 1)

variable {first second : β → α} {pair : α → α → β} {single : α → β}

theorem unpack_congr {mem mem' : ℕ → β} {n a : ℕ}
    (h : ∀ b, a ≤ b → b < a + (n + 1) / 2 → mem b = mem' b) :
    unpack first second mem n a = unpack first second mem' n a := by
  induction n using Nat.twoStepInduction generalizing a with
  | zero => rfl
  | one => rw [unpack, unpack, h a (by omega) (by omega)]
  | more n ih _ =>
    rw [unpack, unpack, h a (by omega) (by omega)]
    rw [ih fun b hb hb' => h b (by omega) (by omega)]

/-- **Samples written through the port are read back.** -/
theorem unpack_burst_pack (hfirst : ∀ x y, first (pair x y) = x)
    (hsecond : ∀ x y, second (pair x y) = y) (hsingle : ∀ x, first (single x) = x)
    (mem : ℕ → β) (a : ℕ) (l : List α) :
    unpack first second (burst mem a (pack pair single l)) l.length a = l := by
  induction l using List.twoStepInduction generalizing mem a with
  | nil => rfl
  | singleton x =>
    show [first (update mem a (single x) a)] = [x]
    rw [update_self, hsingle]
  | cons_cons x y l ih _ =>
    have hword : burst mem a (pack pair single (x :: y :: l)) a = pair x y := by
      rw [pack, burst, burst_of_lt (by omega), update_self]
    rw [List.length_cons, List.length_cons, unpack, hword, hfirst, hsecond]
    rw [pack, burst, ih]

end KernelModules.Lib.Packing
