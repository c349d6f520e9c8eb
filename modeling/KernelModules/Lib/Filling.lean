import Mathlib.Tactic

/-!
# Filling a table of bounded size

A loop appends entries to a table, looks at the entries it has already appended, and leaves early
when the table is full.

* `fillAll` is the loop without a bound, `fillStep` one round that checks the bound behind the
  store;
* `foldlM_fillStep` says that the bounded loop gives the start of the unbounded one: all of it, or
  one entry more than there is room for.

Nothing here names a particular program.
-/

namespace KernelModules.Lib

variable {α β : Type*} (cap : ℕ) (new : List β → α → List β)

/-- The loop without a bound: a round appends `new`, which may depend on the entries so far. -/
def fillAll (l : List α) (out : List β) : List β := l.foldl (fun out a => out ++ new out a) out

/-- A round of the bounded loop, which leaves with `error` behind a store too many. -/
def fillStep (out : List β) (a : α) : Except (List β) (List β) :=
  if (new out a).isEmpty || (out ++ new out a).length ≤ cap then .ok (out ++ new out a)
  else .error (out ++ new out a)

@[simp] theorem fillAll_nil (out : List β) : fillAll new [] out = out := rfl

@[simp] theorem fillAll_cons (a : α) (l : List α) (out : List β) :
    fillAll new (a :: l) out = fillAll new l (out ++ new out a) := rfl

theorem fillAll_append (l l' : List α) (out : List β) :
    fillAll new (l ++ l') out = fillAll new l' (fillAll new l out) := List.foldl_append

theorem prefix_fillAll (l : List α) (out : List β) : out <+: fillAll new l out := by
  induction l generalizing out with
  | nil => exact List.prefix_refl _
  | cons a l ih => exact (List.prefix_append _ _).trans (ih _)

/-- **The bounded loop.**  Where rounds append one entry at most, it is the unbounded loop, or its
first `cap + 1` entries. -/
theorem foldlM_fillStep (hone : ∀ out a, (new out a).length ≤ 1) (l : List α) {out : List β}
    (h : out.length ≤ cap) :
    l.foldlM (fillStep cap new) out =
      if (fillAll new l out).length ≤ cap then .ok (fillAll new l out)
      else .error ((fillAll new l out).take (cap + 1)) := by
  induction l generalizing out with
  | nil =>
    rw [fillAll_nil, if_pos h]
    rfl
  | cons a l ih =>
    rw [List.foldlM_cons, fillAll_cons]
    by_cases hfull : (out ++ new out a).length ≤ cap
    · rw [fillStep, if_pos (by rw [decide_eq_true hfull, Bool.or_true])]
      exact ih hfull
    · have hpre := prefix_fillAll new l (out ++ new out a)
      have hle := hpre.length_le
      have hnew := hone out a
      rw [List.length_append] at hfull
      have hlen : (out ++ new out a).length = cap + 1 := by
        rw [List.length_append]
        omega
      have hsome : ¬ ((new out a).isEmpty || decide ((out ++ new out a).length ≤ cap)) = true := by
        rw [hlen, Bool.or_eq_true, decide_eq_true_eq, List.isEmpty_iff_length_eq_zero]
        omega
      rw [fillStep, if_neg hsome, if_neg (by omega), ← hlen, ← List.prefix_iff_eq_take.mp hpre]
      rfl

theorem foldlM_flatMap {σ : Type*} {m : Type _ → Type*} [Monad m] [LawfulMonad m] {γ : Type*}
    (f : σ → γ → m σ) (g : α → List γ) (l : List α) (init : σ) :
    (l.flatMap g).foldlM f init = l.foldlM (fun b a => (g a).foldlM f b) init := by
  induction l generalizing init with
  | nil => rfl
  | cons a l ih =>
    rw [List.flatMap_cons, List.foldlM_append, List.foldlM_cons]
    exact bind_congr fun b => ih b

/-- What the unbounded loop keeps, given the steps it has made. -/
theorem fillAll_invariant {P : List α → List β → Prop} {l : List α} {out : List β}
    (hinit : P [] out)
    (hstep : ∀ seen out, ∀ a ∈ l, P seen out → P (seen ++ [a]) (out ++ new out a)) :
    P l (fillAll new l out) := by
  have hfrom : ∀ l' seen out, (∀ a ∈ l', a ∈ l) → P seen out →
      P (seen ++ l') (fillAll new l' out) := by
    intro l'
    induction l' with
    | nil =>
      intro seen out _ hp
      rw [List.append_nil]
      exact hp
    | cons a l' ih =>
      intro seen out hmem hp
      rw [List.append_cons]
      exact ih _ _ (fun b hb => hmem b (List.mem_cons_of_mem a hb))
        (hstep seen out a (hmem a List.mem_cons_self) hp)
  exact hfrom l [] out (fun _ ha => ha) hinit

end KernelModules.Lib
