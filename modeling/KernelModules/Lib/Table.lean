import Mathlib.Data.List.Basic
import Mathlib.Logic.Function.Basic
import Mathlib.Data.List.Perm.Basic

/-!
# Fixed tables and compacted lists

Drivers keep their objects in fixed tables that are swept by counted loops, and in lists that are
kept dense by moving the last entry into a hole.

* `loop f n` is `for (i = 0; i < n; i++)` with a body that may fault, `loop_invariant` its
  invariant rule, `loop_returns` its rule for coming back and `loop_relates` its rule for rounds that
  rewrite one cell each; `sweep_succ` counts how far a sweep has come, and `find?_foldl` is the first
  entry of a list that a sweep fills;
* `loopTrace` is what the rounds of a loop log, `loopTrace_iff` the rule for a property of all of
  it;
* `cells_foldl` and `mark_foldl` say what a sweep over distinct cells does to each cell, and to a
  mark that any of its steps may set, `foldl_update` what a table holds after a list of stores;
* `swapRemove` deletes one entry by moving the last one there, `removeFirst` the first entry that
  matches; up to order, `removeFirst_perm`, it is only that entry that goes, and in a list with
  distinct keys `mem_removeFirst` says what is left.

Nothing here names a particular program.
-/

namespace KernelModules.Lib

/-! ### Counted loops -/

section Loop

variable {σ ι : Type*}

/-- `n` rounds of a counted loop, from index `i` on; the body faults with `none`. -/
def loopFrom (f : ℕ → σ → Option σ) : ℕ → ℕ → σ → Option σ
  | 0, _, s => some s
  | n + 1, i, s => (f i s).bind (loopFrom f n (i + 1))

/-- `for (i = 0; i < n; i++)`. -/
def loop (f : ℕ → σ → Option σ) (n : ℕ) (s : σ) : Option σ := loopFrom f n 0 s

variable {f : ℕ → σ → Option σ} {P : ℕ → σ → Prop}

theorem loopFrom_invariant {n i : ℕ} {s s' : σ} (h : loopFrom f n i s = some s') (hinit : P i s)
    (hstep : ∀ j, i ≤ j → j < i + n → ∀ t t', P j t → f j t = some t' → P (j + 1) t') :
    P (i + n) s' := by
  induction n generalizing i s with
  | zero =>
    cases h
    exact hinit
  | succ n ih =>
    simp only [loopFrom, Option.bind_eq_some_iff] at h
    obtain ⟨t, ht, hs⟩ := h
    have hnext : P (i + 1) t := hstep i (Nat.le_refl i) (by omega) s t hinit ht
    have hrest := ih hs hnext fun j hlo hhi => hstep j (by omega) (by omega)
    rwa [Nat.add_right_comm] at hrest

/-- **The invariant rule for counted loops.**  The invariant may name the index. -/
theorem loop_invariant {n : ℕ} {s s' : σ} (h : loop f n s = some s') (hinit : P 0 s)
    (hstep : ∀ i < n, ∀ t t', P i t → f i t = some t' → P (i + 1) t') : P n s' := by
  have hrun := loopFrom_invariant (P := P) h hinit fun j _ hj => hstep j (by omega)
  rwa [Nat.zero_add] at hrun

theorem loop_returns {n : ℕ} {s : σ} (hinit : P 0 s)
    (hstep : ∀ i < n, ∀ t, P i t → ∃ t', f i t = some t' ∧ P (i + 1) t') :
    ∃ s', loop f n s = some s' := by
  have hfrom : ∀ m i t, i + m = n → P i t → ∃ t', loopFrom f m i t = some t' := by
    intro m
    induction m with
    | zero => exact fun i t _ _ => ⟨t, rfl⟩
    | succ m ih =>
      intro i t hi ht
      obtain ⟨t₁, ht₁, hp⟩ := hstep i (by omega) t ht
      obtain ⟨t₂, ht₂⟩ := ih (i + 1) t₁ (by omega) hp
      exact ⟨t₂, Option.bind_eq_some_iff.mpr ⟨t₁, ht₁, ht₂⟩⟩
  exact hfrom n 0 s (Nat.zero_add n) hinit

/-- **A loop over cells.**  Where round `i` rewrites the cell at `a + i`, the loop rewrites the cells it
runs over, each as its round does. -/
theorem loop_relates {α : Type*} {cells : σ → ℕ → α} {R : ℕ → α → α → Prop} {a n : ℕ} {s s' : σ}
    (h : loop f n s = some s')
    (hstep : ∀ i t t', f i t = some t' →
      R i (cells t (a + i)) (cells t' (a + i)) ∧ ∀ j ≠ a + i, cells t' j = cells t j) :
    (∀ i < n, R i (cells s (a + i)) (cells s' (a + i))) ∧
      ∀ j, ¬ (a ≤ j ∧ j < a + n) → cells s' j = cells s j := by
  refine loop_invariant (P := fun k t =>
    (∀ i < k, R i (cells s (a + i)) (cells t (a + i))) ∧
      ∀ j, ¬ (a ≤ j ∧ j < a + k) → cells t j = cells s j) h ?_ ?_
  · exact ⟨fun i hi => absurd hi (Nat.not_lt_zero i), fun j _ => rfl⟩
  · rintro i - t t' ⟨hdone, hrest⟩ hf
    obtain ⟨hcell, hother⟩ := hstep i t t' hf
    refine ⟨fun k hk => ?_, fun j hj => ?_⟩
    · obtain hlt | rfl := Nat.lt_succ_iff_lt_or_eq.1 hk
      · rw [hother (a + k) (by omega)]
        exact hdone k hlt
      · rwa [hrest (a + k) (by omega)] at hcell
    · rw [hother j (by omega)]
      exact hrest j (by omega)

theorem loop_cells {α : Type*} {cells : σ → ℕ → α} {g : ℕ → α → α} {a n : ℕ} {s s' : σ}
    (h : loop f n s = some s')
    (hstep : ∀ i t t', f i t = some t' →
      cells t' = Function.update (cells t) (a + i) (g i (cells t (a + i)))) (j : ℕ) :
    cells s' j = if a ≤ j ∧ j < a + n then g (j - a) (cells s j) else cells s j := by
  obtain ⟨hin, hout⟩ := @loop_relates _ _ _ cells (fun i x y => y = g i x) a _ _ _ h
    fun i t t' ht => by
      rw [hstep i t t' ht]
      exact ⟨Function.update_self _ _ _, fun k hk => Function.update_of_ne hk _ _⟩
  split_ifs with hj
  · obtain ⟨i, rfl⟩ := Nat.exists_eq_add_of_le hj.1
    rw [hin i (by omega), Nat.add_sub_cancel_left]
  · exact hout j hj

/-- **A sweep moves on.**  What a sweep has hit below `n + 1` is what it has hit below `n`, and
`n` itself if it acts there. -/
theorem sweep_succ {P : ℕ → Prop} {n : ℕ} {q : Prop} (h : P n ↔ q) (j : ℕ) :
    (j < n ∧ P j) ∨ (j = n ∧ q) ↔ j < n + 1 ∧ P j := by
  constructor
  · rintro (⟨hj, hh⟩ | ⟨rfl, hp⟩)
    · exact ⟨Nat.lt_succ_of_lt hj, hh⟩
    · exact ⟨Nat.lt_succ_self j, h.mpr hp⟩
  · rintro ⟨hj, hh⟩
    rcases Nat.lt_succ_iff_lt_or_eq.mp hj with hlt | rfl
    · exact .inl ⟨hlt, hh⟩
    · exact .inr ⟨rfl, h.mp hh⟩

theorem sweep_hit {P : ℕ → Prop} {n : ℕ} (h : P n) (j : ℕ) :
    (j < n ∧ P j) ∨ j = n ↔ j < n + 1 ∧ P j := by
  simpa using sweep_succ (iff_true_intro h) j

theorem sweep_miss {P : ℕ → Prop} {n : ℕ} (h : ¬ P n) (j : ℕ) :
    (j < n ∧ P j) ↔ j < n + 1 ∧ P j := by
  simpa using sweep_succ (iff_false_intro h) j

/-- What the rounds of a counted loop log. -/
def loopTraceFrom (f : ℕ → σ → Option σ) (tr : ℕ → σ → List ι) : ℕ → ℕ → σ → List ι
  | 0, _, _ => []
  | n + 1, i, s => tr i s ++ match f i s with
    | none => []
    | some s' => loopTraceFrom f tr n (i + 1) s'

/-- The log of `loop f n s`. -/
def loopTrace (f : ℕ → σ → Option σ) (tr : ℕ → σ → List ι) (n : ℕ) (s : σ) : List ι :=
  loopTraceFrom f tr n 0 s

variable {tr : ℕ → σ → List ι} {Q : ι → Prop} {C : ℕ → Prop}

theorem forall_mem_loopTrace (n : ℕ) (s : σ) (h : ∀ i < n, ∀ t, ∀ a ∈ tr i t, Q a) :
    ∀ a ∈ loopTrace f tr n s, Q a := by
  have hfrom : ∀ m i t, i + m = n → ∀ a ∈ loopTraceFrom f tr m i t, Q a := by
    intro m
    induction m with
    | zero => exact fun _ _ _ a ha => by cases ha
    | succ m ih =>
      intro i t hi a ha
      obtain ha | ha := List.mem_append.mp ha
      · exact h i (by omega) t a ha
      · split at ha
        · cases ha
        · exact ih (i + 1) _ (by omega) a ha
  exact hfrom n 0 s (Nat.zero_add n)

/-- **The rule for the log of a loop.**  Where the invariant holds, a round's log is right if and
only if `C` says so, and then the round comes back. -/
theorem loopTrace_iff {n : ℕ} {s : σ} (hinit : P 0 s)
    (hstep : ∀ i < n, ∀ t, P i t → ((∀ a ∈ tr i t, Q a) ↔ C i) ∧
      (C i → ∃ t', f i t = some t' ∧ P (i + 1) t')) :
    (∀ a ∈ loopTrace f tr n s, Q a) ↔ ∀ i < n, C i := by
  have hfrom : ∀ m i t, i + m = n → P i t →
      ((∀ a ∈ loopTraceFrom f tr m i t, Q a) ↔ ∀ j, i ≤ j → j < n → C j) := by
    intro m
    induction m with
    | zero =>
      intro i t hi _
      exact ⟨fun _ j hlo hhi => by omega, fun _ a ha => by cases ha⟩
    | succ m ih =>
      intro i t hi ht
      obtain ⟨hround, hback⟩ := hstep i (by omega) t ht
      have hsplit : (∀ a ∈ loopTraceFrom f tr (m + 1) i t, Q a) ↔
          C i ∧ ∀ j, i + 1 ≤ j → j < n → C j := by
        rw [show loopTraceFrom f tr (m + 1) i t = tr i t ++ _ from rfl, List.forall_mem_append, hround]
        refine and_congr_right fun hc => ?_
        obtain ⟨t', hf, ht'⟩ := hback hc
        rw [hf]
        exact ih (i + 1) t' (by omega) ht'
      rw [hsplit]
      constructor
      · rintro ⟨hc, hrest⟩ j hlo hhi
        obtain rfl | hlt := Nat.eq_or_lt_of_le hlo
        · exact hc
        · exact hrest j hlt hhi
      · exact fun h => ⟨h i (Nat.le_refl i) (by omega), fun j hlo hhi => h j (by omega) hhi⟩
  rw [loopTrace, hfrom n 0 s (Nat.zero_add n) hinit]
  exact ⟨fun h i hi => h i (Nat.zero_le i) hi, fun h i _ hi => h i hi⟩

end Loop

/-- A list that a sweep fills from left to right: its first entry of a kind comes from the first
step that adds one. -/
theorem find?_foldl {α β : Type*} {f : List β → α → List β} {p : β → Bool} {g : α → Bool}
    {e : α → β}
    (hf : ∀ acc a, (f acc a).find? p = (acc.find? p).or (if g a then some (e a) else none))
    (l : List α) (acc : List β) :
    (l.foldl f acc).find? p = (acc.find? p).or ((l.find? g).map e) := by
  induction l generalizing acc with
  | nil => simp
  | cons a l ih =>
    rw [List.foldl_cons, ih, hf]
    by_cases ha : g a = true
    · rw [if_pos ha, List.find?_cons_of_pos ha, Option.or_assoc]
      rfl
    · rw [if_neg ha, List.find?_cons_of_neg ha, Option.or_none]

/-! ### Sweeps over distinct cells -/

section Cells

variable {σ ι α β : Type*} [DecidableEq ι] (cells : σ → ι → α) (step : σ → ι → σ) (f : ι → α → α)

theorem cells_foldl
    (hcells : ∀ s j, cells (step s j) = Function.update (cells s) j (f j (cells s j)))
    {l : List ι} (hl : l.Nodup) (s : σ) (i : ι) :
    cells (l.foldl step s) i = if i ∈ l then f i (cells s i) else cells s i := by
  induction l generalizing s with
  | nil => rfl
  | cons j l ih =>
    obtain ⟨hj, hl⟩ := List.nodup_cons.1 hl
    rw [List.foldl_cons, ih hl, hcells]
    by_cases hij : i = j
    · subst hij
      rw [if_neg hj, Function.update_self, if_pos List.mem_cons_self]
    · rw [Function.update_of_ne hij]
      simp [hij]

/-- Such a sweep keeps what its steps keep as long as no cell meets `g`, and is marked once one
does. -/
theorem mark_foldl (mark : σ → β) (set : β → β) (g : ι → α → Prop)
    (hset : ∀ b, set (set b) = set b)
    (hcells : ∀ s j, cells (step s j) = Function.update (cells s) j (f j (cells s j)))
    (hpos : ∀ s j, g j (cells s j) → mark (step s j) = set (mark s))
    (hneg : ∀ s j, ¬ g j (cells s j) → mark (step s j) = mark s)
    {l : List ι} (hl : l.Nodup) (s : σ) :
    ((∃ j ∈ l, g j (cells s j)) → mark (l.foldl step s) = set (mark s)) ∧
    ((∀ j ∈ l, ¬ g j (cells s j)) → mark (l.foldl step s) = mark s) := by
  induction l generalizing s with
  | nil => exact ⟨fun h => by simp at h, fun _ => rfl⟩
  | cons j l ih =>
    obtain ⟨hj, hl⟩ := List.nodup_cons.1 hl
    obtain ⟨hmarked, hkept⟩ := ih hl (step s j)
    -- the first step has not touched the cells that are still to come
    have hrest : ∀ i ∈ l, cells (step s j) i = cells s i := by
      intro i hi
      have hij : i ≠ j := fun heq => hj (heq ▸ hi)
      rw [hcells, Function.update_of_ne hij]
    rw [List.foldl_cons]
    constructor
    · rintro ⟨i, hi, hgi⟩
      by_cases hlater : ∃ i ∈ l, g i (cells s i)
      · obtain ⟨k, hk, hgk⟩ := hlater
        rw [hmarked ⟨k, hk, (hrest k hk).symm ▸ hgk⟩]
        by_cases hgj : g j (cells s j)
        · rw [hpos s j hgj, hset]
        · rw [hneg s j hgj]
      · have hij : i = j := by
          rcases List.mem_cons.1 hi with h | h
          · exact h
          · exact absurd ⟨i, h, hgi⟩ hlater
        rw [hkept fun k hk hgk => hlater ⟨k, hk, hrest k hk ▸ hgk⟩, hpos s j (hij ▸ hgi)]
    · intro hnone
      rw [hkept fun k hk hgk => hnone k (List.mem_cons_of_mem j hk) (hrest k hk ▸ hgk),
        hneg s j (hnone j List.mem_cons_self)]

end Cells

/-! ### Lists kept dense -/

/-- **The last store counts.**  What a table holds after a list of stores. -/
theorem foldl_update {α β ρ : Type*} [DecidableEq α] (key : ρ → α) (val : ρ → β) (rs : List ρ)
    (f : α → β) (a : α) :
    rs.foldl (fun g r => Function.update g (key r) (val r)) f a =
      ((rs.filter fun r => key r = a).getLast?.map val).getD (f a) := by
  induction rs generalizing f with
  | nil => rfl
  | cons r rs ih =>
    rw [List.foldl_cons, ih]
    by_cases hr : key r = a
    · have hhit : decide (key r = a) = true := decide_eq_true hr
      rw [List.filter_cons, if_pos hhit, List.getLast?_cons, ← hr, Function.update_self]
      cases (rs.filter fun x => key x = key r).getLast? <;> rfl
    · rw [List.filter_cons, if_neg (by simpa using hr), Function.update_of_ne (Ne.symm hr)]

section SwapRemove

open List

variable {α : Type*}

/-- Deleting entry `i`: the last entry moves there. -/
def swapRemove (l : List α) (i : ℕ) : List α :=
  match l.getLast? with
  | none => l
  | some x => (l.set i x).dropLast

/-- Deleting the first entry that matches. -/
def removeFirst (p : α → Bool) (l : List α) : List α :=
  match l.findIdx? p with
  | none => l
  | some i => swapRemove l i

/-- Up to order, only entry `i` goes. -/
theorem swapRemove_perm {l : List α} {i : ℕ} (h : i < l.length) :
    l.Perm (l.get ⟨i, h⟩ :: swapRemove l i) := by
  obtain ⟨init, x, rfl⟩ : ∃ init x, l = init ++ [x] := by
    have hne : l ≠ [] := by
      rintro rfl
      simp at h
    exact ⟨l.dropLast, l.getLast hne, (List.dropLast_append_getLast hne).symm⟩
  simp only [swapRemove, List.getLast?_concat, List.get_eq_getElem]
  by_cases hi : i < init.length
  · rw [List.set_append_left i x hi, List.dropLast_concat, List.getElem_append_left hi]
    calc init ++ [x] ~ x :: init := List.perm_append_singleton x init
      _ ~ x :: (init[i] :: init.eraseIdx i) :=
        ((List.getElem_cons_eraseIdx_perm hi).symm).cons x
      _ ~ init[i] :: (x :: init.eraseIdx i) := List.Perm.swap _ _ _
      _ ~ init[i] :: init.set i x := ((List.set_perm_cons_eraseIdx hi x).symm).cons _
  · have hlen : i = init.length := by
      simp only [List.length_append, List.length_singleton] at h
      omega
    subst hlen
    rw [List.set_append_right _ _ (Nat.le_refl _)]
    simp only [Nat.sub_self, List.set_cons_zero, List.dropLast_concat,
      List.getElem_append_right (Nat.le_refl _), List.getElem_cons_zero]
    exact List.perm_append_singleton x init

/-- **Removal from a dense list.**  Up to order, only the first match goes. -/
theorem removeFirst_perm {p : α → Bool} {l : List α} {x : α} (h : l.find? p = some x) :
    l.Perm (x :: removeFirst p l) := by
  rw [List.find?_eq_bind_findIdx?_getElem?, Option.bind_eq_some_iff] at h
  obtain ⟨i, hi, hx⟩ := h
  obtain ⟨hlt, hx⟩ := List.getElem?_eq_some_iff.mp hx
  rw [removeFirst, hi, ← hx]
  exact swapRemove_perm hlt

theorem removeFirst_of_find?_eq_none {p : α → Bool} {l : List α} (h : l.find? p = none) :
    removeFirst p l = l := by
  have hnone : l.findIdx? p = none := by
    rw [List.findIdx?_eq_none_iff]
    simpa using h
  rw [removeFirst, hnone]

theorem mem_of_mem_removeFirst {p : α → Bool} {l : List α} {x : α} (hx : x ∈ removeFirst p l) :
    x ∈ l := by
  cases hfind : l.find? p with
  | none => rwa [removeFirst_of_find?_eq_none hfind] at hx
  | some y => exact (removeFirst_perm hfind).mem_iff.mpr (List.mem_cons_of_mem y hx)

/-! Objects with keys: every key is in the list at most once. -/

variable {β : Type*} {key : α → β} {l : List α}

theorem mem_removeFirst [DecidableEq β] (hl : (l.map key).Nodup) (k : β) (x : α) :
    x ∈ removeFirst (fun y => k = key y) l ↔ x ∈ l ∧ key x ≠ k := by
  cases hfind : l.find? (fun y => k = key y) with
  | none =>
    rw [removeFirst_of_find?_eq_none hfind]
    rw [List.find?_eq_none] at hfind
    refine ⟨fun hx => ⟨hx, fun heq => hfind x hx ?_⟩, And.left⟩
    simp [heq]
  | some y =>
    have hperm := removeFirst_perm hfind
    have hkey : k = key y := by simpa using List.find?_some hfind
    have hnodup := (hperm.map key).nodup_iff.mp hl
    rw [List.map_cons, List.nodup_cons] at hnodup
    rw [hperm.mem_iff, List.mem_cons]
    constructor
    · intro hx
      refine ⟨.inr hx, fun heq => hnodup.1 ?_⟩
      exact List.mem_map.mpr ⟨x, hx, heq.trans hkey⟩
    · rintro ⟨rfl | hx, hne⟩
      · exact absurd hkey.symm hne
      · exact hx

theorem nodup_removeFirst (hl : (l.map key).Nodup) (p : α → Bool) :
    ((removeFirst p l).map key).Nodup := by
  cases hfind : l.find? p with
  | none =>
    rw [removeFirst_of_find?_eq_none hfind]
    exact hl
  | some y =>
    have hnodup := ((removeFirst_perm hfind).map key).nodup_iff.mp hl
    exact (List.nodup_cons.mp hnodup).2

end SwapRemove

end KernelModules.Lib
