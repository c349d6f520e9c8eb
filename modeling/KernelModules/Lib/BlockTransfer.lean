import Mathlib.Tactic
import KernelModules.Lib.Table

/-!
# Arrays that are moved through a window

A device that lies behind a small window of memory gets an array in blocks, each of which is copied
into the window.  This file has the three things that such a transfer is made of:

* a `Layout` says how the values of a type lie in memory, byte by byte; `Layout.item` is an entry of
  an array, and `byte`, `word`, `dword` and `pair` make the layouts of structures;
* `copyWords` copies a number of 16-bit words;
* `blockLoop` takes a count in blocks, and `blockLoop_invariant` is its rule.

Nothing here names a particular program.
-/

namespace KernelModules.Lib

open Function

/-! ### Values in memory -/

abbrev Byte := BitVec 8

/-- How the values of a type lie in memory. -/
structure Layout (α : Type*) where
  size : ℕ
  put : α → ℕ → Byte
  get : (ℕ → Byte) → α
  get_put : ∀ (mem : ℕ → Byte) (x : α), (∀ i < size, mem i = put x i) → get mem = x
  get_local : ∀ mem mem' : ℕ → Byte, (∀ i < size, mem i = mem' i) → get mem = get mem'

namespace Layout

variable {α β : Type*}

/-- Entry `k` of the array at the beginning of a memory. -/
def item (L : Layout α) (mem : ℕ → Byte) (k : ℕ) : α := L.get fun i => mem (k * L.size + i)

/-- Entry `k` is written. -/
def store (L : Layout α) (k : ℕ) (x : α) (mem : ℕ → Byte) : ℕ → Byte := fun i =>
  if k * L.size ≤ i ∧ i < (k + 1) * L.size then L.put x (i - k * L.size) else mem i

theorem item_congr (L : Layout α) {mem mem' : ℕ → Byte} {k k' : ℕ}
    (h : ∀ i < L.size, mem (k * L.size + i) = mem' (k' * L.size + i)) :
    L.item mem k = L.item mem' k' := L.get_local _ _ h

theorem item_store_self (L : Layout α) (k : ℕ) (x : α) (mem : ℕ → Byte) :
    L.item (L.store k x mem) k = x := by
  refine L.get_put _ x fun i hi => ?_
  have hin : k * L.size ≤ k * L.size + i ∧ k * L.size + i < (k + 1) * L.size := by
    rw [Nat.add_mul]
    omega
  change (if _ then _ else _) = _
  rw [if_pos hin, Nat.add_sub_cancel_left]

theorem item_store_of_ne (L : Layout α) {j k : ℕ} (h : j ≠ k) (x : α) (mem : ℕ → Byte) :
    L.item (L.store k x mem) j = L.item mem j := by
  refine L.item_congr fun i hi => if_neg ?_
  rintro ⟨hlo, hhi⟩
  obtain hlt | hlt := Nat.lt_or_gt_of_ne h
  · have hle : (j + 1) * L.size ≤ k * L.size := Nat.mul_le_mul_right _ hlt
    rw [Nat.add_mul] at hle
    omega
  · have hle : (k + 1) * L.size ≤ j * L.size := Nat.mul_le_mul_right _ hlt
    omega

/-- One byte. -/
def byte : Layout Byte where
  size := 1
  put x _ := x
  get mem := mem 0
  get_put _ _ h := h 0 Nat.one_pos
  get_local _ _ h := h 0 Nat.one_pos

/-- Two values, one behind the other. -/
def pair (L : Layout α) (M : Layout β) : Layout (α × β) where
  size := L.size + M.size
  put x i := if i < L.size then L.put x.1 i else M.put x.2 (i - L.size)
  get mem := (L.get mem, M.get fun i => mem (L.size + i))
  get_put mem x h := by
    refine Prod.ext (L.get_put mem x.1 fun i hi => ?_) (M.get_put _ x.2 fun i hi => ?_)
    · rw [h i (by omega), if_pos hi]
    · rw [h (L.size + i) (by omega), if_neg (by omega), Nat.add_sub_cancel_left]
  get_local mem mem' h := by
    refine Prod.ext (L.get_local mem mem' fun i hi => h i (by omega)) (M.get_local _ _ fun i hi => ?_)
    exact h (L.size + i) (by omega)

/-- The values of another type that stand for those of this one. -/
def map (L : Layout α) (e : α ≃ β) : Layout β where
  size := L.size
  put x := L.put (e.symm x)
  get mem := e (L.get mem)
  get_put mem x h := by rw [L.get_put mem (e.symm x) h, Equiv.apply_symm_apply]
  get_local mem mem' h := by rw [L.get_local mem mem' h]

/-- The most significant part first. -/
def joined (n : ℕ) : BitVec n × BitVec n ≃ BitVec (n + n) where
  toFun p := p.1 ++ p.2
  invFun x := (x.extractLsb' n n, x.extractLsb' 0 n)
  left_inv p := by
    refine Prod.ext ?_ ?_
    · exact BitVec.extractLsb'_append_eq_left
    · exact BitVec.extractLsb'_append_eq_right
  right_inv x := BitVec.extractLsb'_append_extractLsb'

/-- Two bytes, the high one first. -/
def word : Layout (BitVec 16) := (byte.pair byte).map (joined 8)

/-- Two words, the high one first. -/
def dword : Layout (BitVec 32) := (word.pair word).map (joined 16)

end Layout

/-! ### Copying words -/

/-- `n` words go from `sp` to `dp`. -/
def copyWords (src : ℕ → Byte) (sp dp : ℕ) : ℕ → (ℕ → Byte) → ℕ → Byte
  | 0, dst => dst
  | n + 1, dst =>
    let dst := copyWords src sp dp n dst
    update (update dst (dp + 2 * n) (src (sp + 2 * n))) (dp + (2 * n + 1)) (src (sp + (2 * n + 1)))

theorem copyWords_apply (src : ℕ → Byte) (sp dp n : ℕ) (dst : ℕ → Byte) (i : ℕ) :
    copyWords src sp dp n dst i =
      if dp ≤ i ∧ i < dp + 2 * n then src (sp + (i - dp)) else dst i := by
  induction n with
  | zero =>
    rw [if_neg (by omega)]
    rfl
  | succ n ih =>
    rw [copyWords]
    by_cases hlast : i = dp + (2 * n + 1)
    · subst hlast
      rw [update_self, if_pos (by omega), Nat.add_sub_cancel_left]
    · rw [update_of_ne hlast]
      by_cases hfirst : i = dp + 2 * n
      · subst hfirst
        rw [update_self, if_pos (by omega), Nat.add_sub_cancel_left]
      · rw [update_of_ne hfirst, ih]
        have hiff : (dp ≤ i ∧ i < dp + 2 * n) ↔ (dp ≤ i ∧ i < dp + 2 * (n + 1)) := by omega
        simp only [hiff]

/-! ### Loops over blocks -/

section Blocks

variable {σ : Type*} {rows : ℕ} {body : ℕ → ℕ → σ → Option σ}

/-- `while (cnt > 0)`, with at most `rows` entries a round; the body gets how many are done and how
many it is to do.  The fuel is at most `cnt`, as no round is empty. -/
def blockLoop (rows : ℕ) (body : ℕ → ℕ → σ → Option σ) : ℕ → ℕ → ℕ → σ → Option σ
  | _, _, 0, s => some s
  | 0, _, _ + 1, _ => none
  | fuel + 1, done, cnt + 1, s =>
    let n := min (cnt + 1) rows
    (body done n s).bind (blockLoop rows body fuel (done + n) (cnt + 1 - n))

/-- **The rule for a loop over blocks.** -/
theorem blockLoop_invariant {P : ℕ → σ → Prop} (hrows : 0 < rows) (fuel done cnt : ℕ) {s s' : σ}
    (h : blockLoop rows body fuel done cnt s = some s') (hinit : P done s)
    (hstep : ∀ i n t t', done ≤ i → 0 < n → n ≤ rows → i + n ≤ done + cnt → P i t →
      body i n t = some t' → P (i + n) t') : P (done + cnt) s' := by
  induction fuel generalizing done cnt s with
  | zero =>
    cases cnt with
    | zero =>
      cases h
      exact hinit
    | succ cnt => cases h
  | succ fuel ih =>
    cases cnt with
    | zero =>
      cases h
      exact hinit
    | succ cnt =>
      simp only [blockLoop, Option.bind_eq_some_iff] at h
      obtain ⟨t, ht, hrest⟩ := h
      have hn : P (done + min (cnt + 1) rows) t :=
        hstep done _ s t (Nat.le_refl _) (by omega) (Nat.min_le_right _ _) (by omega) hinit ht
      have hend := ih _ _ hrest hn fun i n t t' hi hpos hle hsum => hstep i n t t' (by omega) hpos hle
        (by omega)
      rwa [show done + min (cnt + 1) rows + (cnt + 1 - min (cnt + 1) rows) = done + (cnt + 1) by
        omega] at hend

/-- With fuel for every entry the loop comes back when its rounds do. -/
theorem blockLoop_returns {P : ℕ → σ → Prop} (hrows : 0 < rows) (fuel done cnt : ℕ)
    (hfuel : cnt ≤ fuel) {s : σ} (hinit : P done s)
    (hstep : ∀ i n t, done ≤ i → 0 < n → n ≤ rows → i + n ≤ done + cnt → P i t →
      ∃ t', body i n t = some t' ∧ P (i + n) t') :
    ∃ s', blockLoop rows body fuel done cnt s = some s' := by
  induction fuel generalizing done cnt s with
  | zero =>
    obtain rfl := Nat.le_zero.1 hfuel
    exact ⟨s, rfl⟩
  | succ fuel ih =>
    cases cnt with
    | zero => exact ⟨s, rfl⟩
    | succ cnt =>
      have hpos : 0 < min (cnt + 1) rows := lt_min (Nat.succ_pos _) hrows
      obtain ⟨t, ht, hp⟩ := hstep done (min (cnt + 1) rows) s (Nat.le_refl _) hpos
        (Nat.min_le_right _ _) (by omega) hinit
      obtain ⟨s', hs'⟩ := ih (done + min (cnt + 1) rows) (cnt + 1 - min (cnt + 1) rows) (by omega) hp
        fun i n t hi hn hle hsum => hstep i n t (by omega) hn hle (by omega)
      exact ⟨s', by simp only [blockLoop, ht, Option.bind_some, hs']⟩

theorem blockLoop_one {fuel cnt : ℕ} (hpos : 0 < cnt) (hle : cnt ≤ rows) (done : ℕ) (s : σ) :
    blockLoop rows body (fuel + 1) done cnt s = body done cnt s := by
  obtain ⟨cnt, rfl⟩ := Nat.exists_eq_add_of_lt hpos
  rw [Nat.zero_add] at hle ⊢
  have hend : blockLoop rows body fuel (done + (cnt + 1)) 0 = some := by
    cases fuel <;> rfl
  rw [blockLoop, Nat.min_eq_left hle, Nat.sub_self, hend, Option.bind_fun_some]

end Blocks

end KernelModules.Lib
