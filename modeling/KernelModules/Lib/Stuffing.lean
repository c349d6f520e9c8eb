import Mathlib.Tactic

/-!
# Escaped text

A line whose control characters may not appear in a message sends an escape character in front of
each of them, and the character itself encoded.

* `stuff` escapes a text, and `unstuff` takes the escapes back, if the last one is complete:
  `unstuff_stuff`;
* `Stuffed` are the texts in which only complete escapes are special: `stuffed_stuff`, and
  `Stuffed.eq_esc` for a special character in one of them.
-/

namespace KernelModules.Lib

/-- An escape character and how special characters are encoded behind it. -/
structure Stuffing (α : Type*) where
  esc : α
  special : α → Bool
  enc : α → α
  dec : α → α
  special_esc : special esc = true
  special_enc : ∀ c, special c = true → special (enc c) = false
  dec_enc : ∀ c, dec (enc c) = c

namespace Stuffing

variable {α : Type*} (S : Stuffing α)

def stuff : List α → List α
  | [] => []
  | c :: cs => if S.special c then S.esc :: S.enc c :: stuff cs else c :: stuff cs

/-- The text that was escaped; `none` if the last escape is cut off. -/
def unstuff [DecidableEq α] : List α → Option (List α)
  | [] => some []
  | [c] => if c = S.esc then none else some [c]
  | c :: d :: cs =>
    if c = S.esc then (unstuff cs).map (S.dec d :: ·) else (unstuff (d :: cs)).map (c :: ·)

/-- No special characters but complete escapes. -/
inductive Stuffed : List α → Prop
  | nil : Stuffed []
  | plain {c : α} {cs : List α} (hc : S.special c = false) (h : Stuffed cs) : Stuffed (c :: cs)
  | escape {c : α} {cs : List α} (hc : S.special c = false) (h : Stuffed cs) :
      Stuffed (S.esc :: c :: cs)

variable {S}

theorem stuffed_stuff (cs : List α) : S.Stuffed (S.stuff cs) := by
  induction cs with
  | nil => exact .nil
  | cons c cs ih =>
    rw [stuff]
    split
    · rename_i hc
      exact .escape (S.special_enc c hc) ih
    · rename_i hc
      exact .plain (Bool.eq_false_of_not_eq_true hc) ih

theorem Stuffed.eq_esc {cs : List α} (h : S.Stuffed cs) {c : α} (hc : c ∈ cs)
    (hspecial : S.special c = true) : c = S.esc := by
  induction h with
  | nil => exact absurd hc List.not_mem_nil
  | plain hplain _ ih =>
    rcases List.mem_cons.mp hc with rfl | hc
    · exact absurd (hspecial.symm.trans hplain) (by decide)
    · exact ih hc
  | escape hplain _ ih =>
    rcases List.mem_cons.mp hc with rfl | hc
    · rfl
    rcases List.mem_cons.mp hc with rfl | hc
    · exact absurd (hspecial.symm.trans hplain) (by decide)
    · exact ih hc

theorem length_le_stuff (cs : List α) : cs.length ≤ (S.stuff cs).length := by
  induction cs with
  | nil => exact le_rfl
  | cons c cs ih =>
    rw [stuff]
    split <;> simp only [List.length_cons] <;> omega

variable [DecidableEq α]

theorem unstuff_plain {c : α} (hc : c ≠ S.esc) (cs : List α) :
    S.unstuff (c :: cs) = (S.unstuff cs).map (c :: ·) := by
  cases cs with
  | nil => simp only [unstuff, if_neg hc, Option.map_some]
  | cons d cs => rw [unstuff, if_neg hc]

theorem unstuff_escape (d : α) (cs : List α) :
    S.unstuff (S.esc :: d :: cs) = (S.unstuff cs).map (S.dec d :: ·) := by
  rw [unstuff, if_pos rfl]

/-- **What was escaped is taken back.** -/
theorem unstuff_stuff (cs : List α) : S.unstuff (S.stuff cs) = some cs := by
  induction cs with
  | nil => rfl
  | cons c cs ih =>
    rw [stuff]
    by_cases hc : S.special c = true
    · rw [if_pos hc, unstuff_escape, ih, S.dec_enc, Option.map_some]
    · have hne : c ≠ S.esc := by
        rintro rfl
        exact hc S.special_esc
      rw [if_neg hc, unstuff_plain hne, ih, Option.map_some]

/-- A text is not longer than its escaped form. -/
theorem length_unstuff_le {cs ds : List α} (h : S.unstuff cs = some ds) :
    ds.length ≤ cs.length := by
  induction cs using unstuff.induct S generalizing ds with
  | case1 =>
    obtain rfl := Option.some.inj h
    exact le_rfl
  | case2 => simp [unstuff] at h
  | case3 c hc =>
    rw [unstuff, if_neg hc] at h
    obtain rfl := Option.some.inj h
    exact le_rfl
  | case4 d cs ih =>
    rw [unstuff_escape] at h
    obtain ⟨es, hes, rfl⟩ := Option.map_eq_some_iff.mp h
    have := ih hes
    simp only [List.length_cons]
    omega
  | case5 c d cs hc ih =>
    rw [unstuff_plain hc] at h
    obtain ⟨es, hes, rfl⟩ := Option.map_eq_some_iff.mp h
    have := ih hes
    simp only [List.length_cons] at this ⊢
    omega

end Stuffing

end KernelModules.Lib
