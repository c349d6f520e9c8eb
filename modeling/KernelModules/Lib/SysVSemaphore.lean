import Mathlib.Tactic

/-!
# System V semaphores

A semaphore set of one semaphore, with the adjustments that the kernel keeps for each process.

* `Sembuf` is one operation, and `SemSet.semop` an array of them, done together or not at all;
* `SemSet.exit` is the undo of a process that exits, `SemSet.setval` the command `SETVAL`;
* `semop_wait`, `semop_waitTake`, `semop_give` and `semop_take` are the arrays a lock is made of.

The limits of the kernel on values and adjustments are left out.
-/

namespace KernelModules.Lib

open Function

/-- `struct sembuf`. -/
structure Sembuf where
  op : ℤ
  undo : Bool
  nowait : Bool

/-- A set of one semaphore: its identifier, its value, and the adjustment of each process. -/
@[ext]
structure SemSet (Proc : Type*) where
  id : ℕ
  val : ℤ
  adj : Proc → ℤ

/-- How the kernel answers an array of operations. -/
inductive SemAnswer (Proc : Type*)
  | done (S : SemSet Proc)
  | sleep
  | again

/-- An operation that has to wait: for zero, or for a value that is large enough. -/
def Sembuf.Blocked (b : Sembuf) (val : ℤ) : Prop := if b.op = 0 then val ≠ 0 else val + b.op < 0

instance (b : Sembuf) (val : ℤ) : Decidable (b.Blocked val) := by
  unfold Sembuf.Blocked
  infer_instance

section Operations

variable {Proc : Type*} [DecidableEq Proc]

/-- One operation of process `p`. -/
def SemSet.apply (S : SemSet Proc) (p : Proc) (b : Sembuf) : SemSet Proc where
  id := S.id
  val := S.val + b.op
  adj := if b.undo then update S.adj p (S.adj p - b.op) else S.adj

/-- `semop`: the operations take effect together, or none does. -/
def SemSet.semop (S : SemSet Proc) (p : Proc) : List Sembuf → SemAnswer Proc
  | [] => .done S
  | b :: bs =>
    if b.Blocked S.val then if b.nowait then .again else .sleep
    else (S.apply p b).semop p bs

/-- The exit of process `p`: its adjustment is added, down to zero at most. -/
def SemSet.exit (S : SemSet Proc) (p : Proc) : SemSet Proc where
  id := S.id
  val := max 0 (S.val + S.adj p)
  adj := update S.adj p 0

/-- `SETVAL`, which drops the adjustments of all processes. -/
def SemSet.setval (S : SemSet Proc) (val : ℤ) : SemSet Proc := ⟨S.id, val, fun _ => 0⟩

theorem SemSet.exit_of_adj {S : SemSet Proc} {p : Proc} (hval : 0 ≤ S.val) (hadj : S.adj p = 0) :
    S.exit p = S := by
  ext1
  · rfl
  · change max 0 (S.val + S.adj p) = S.val
    rw [hadj, add_zero, max_eq_right hval]
  · change update S.adj p 0 = S.adj
    rw [← hadj, update_eq_self]

theorem SemSet.semop_wait (S : SemSet Proc) (p : Proc) (undo : Bool) :
    S.semop p [⟨0, undo, false⟩] = if S.val = 0 then .done S else .sleep := by
  have happly : S.apply p ⟨0, undo, false⟩ = S := by
    ext1
    · rfl
    · exact add_zero S.val
    · change (if undo then update S.adj p (S.adj p - 0) else S.adj) = S.adj
      rw [sub_zero, update_eq_self, ite_self]
  unfold SemSet.semop
  rw [happly]
  by_cases hval : S.val = 0
  · rw [if_pos hval, if_neg (by simp [Sembuf.Blocked, hval])]
    rfl
  · rw [if_neg hval, if_pos (by simp [Sembuf.Blocked, hval])]
    rfl

theorem SemSet.semop_waitTake (S : SemSet Proc) (p : Proc) :
    S.semop p [⟨0, true, false⟩, ⟨1, true, true⟩] =
      if S.val = 0 then .done ⟨S.id, 1, update S.adj p (S.adj p - 1)⟩ else .sleep := by
  by_cases hval : S.val = 0
  · rw [if_pos hval]
    simp [SemSet.semop, SemSet.apply, Sembuf.Blocked, hval]
  · rw [if_neg hval]
    simp [SemSet.semop, Sembuf.Blocked, hval]

theorem SemSet.semop_give (S : SemSet Proc) (p : Proc) :
    S.semop p [⟨-1, true, true⟩] =
      if 1 ≤ S.val then .done ⟨S.id, S.val - 1, update S.adj p (S.adj p + 1)⟩ else .again := by
  by_cases hval : 1 ≤ S.val
  · rw [if_pos hval]
    have hfree : ¬ (⟨-1, true, true⟩ : Sembuf).Blocked S.val := by
      simp [Sembuf.Blocked]
      omega
    simp only [SemSet.semop, hfree, if_false, SemSet.apply, if_true, sub_neg_eq_add]
    rfl
  · rw [if_neg hval]
    have hblocked : (⟨-1, true, true⟩ : Sembuf).Blocked S.val := by
      simp [Sembuf.Blocked]
      omega
    simp only [SemSet.semop, hblocked, if_true]

theorem SemSet.semop_take (S : SemSet Proc) (p : Proc) :
    S.semop p [⟨-1, true, false⟩] =
      if 1 ≤ S.val then .done ⟨S.id, S.val - 1, update S.adj p (S.adj p + 1)⟩ else .sleep := by
  have hblocked : (⟨-1, true, false⟩ : Sembuf).Blocked S.val ↔ ¬ 1 ≤ S.val := by
    simp [Sembuf.Blocked]
  by_cases hval : 1 ≤ S.val
  · rw [if_pos hval]
    have hfree : ¬ (⟨-1, true, false⟩ : Sembuf).Blocked S.val := fun h => hblocked.mp h hval
    simp only [SemSet.semop, hfree, if_false, SemSet.apply, if_true, sub_neg_eq_add]
    rfl
  · rw [if_neg hval]
    simp only [SemSet.semop, hblocked.mpr hval, if_true]
    rfl

end Operations

end KernelModules.Lib
