import Mathlib.Data.List.Perm.Basic
import Mathlib.Data.List.Nodup
import Mathlib.Order.Nat

/-!
# Building a structure from allocated blocks

An allocator answers each request with a block or refuses it, in a pattern that nobody knows.  A
program that builds a structure asks for one block after the other.

* `Heap` counts the requests, `request` makes one, `Allocator` says what may be relied on: the
  blocks are apart from each other and from those in use;
* `Succeeds` says that a program builds what it should if and only if none of its requests is
  refused, with the rules for sequences (`Succeeds.pure`, `Succeeds.bind`, `Succeeds.request`);
* `Takes` says that the blocks of what it builds are new ones, each used once, with the same rules.
-/

namespace KernelModules.Lib.Allocation

/-- Where a block is. -/
abbrev Addr := ℕ

/-- The answers to one request after the other, while the blocks `used` are in use. -/
structure Allocator (used : List Addr) where
  answer : ℕ → Option Addr
  unused : ∀ i a, answer i = some a → a ∉ used
  distinct : ∀ i j a, answer i = some a → answer j = some a → i = j

/-- The requests that were made and the blocks that were given. -/
structure Heap where
  requests : ℕ
  live : List Addr

variable {α β : Type} (answer : ℕ → Option Addr)

/-- One request. -/
def request : StateM Heap (Option Addr) := fun h =>
  match answer h.requests with
  | none => (none, { h with requests := h.requests + 1 })
  | some a => (some a, { requests := h.requests + 1, live := a :: h.live })

theorem request_fst (h : Heap) : (request answer h).1 = answer h.requests := by
  unfold request
  cases answer h.requests <;> rfl

theorem request_requests (h : Heap) : (request answer h).2.requests = h.requests + 1 := by
  unfold request
  cases answer h.requests <;> rfl

/-! ### Building all of it -/

/-- What the program builds is good if and only if its `n` requests are granted. -/
structure Succeeds (act : StateM Heap β) (n : ℕ) (good : β → Prop) : Prop where
  good_iff : ∀ h, good (act h).1 ↔ ∀ i < n, (answer (h.requests + i)).isSome
  requests : ∀ h, good (act h).1 → (act h).2.requests = h.requests + n

variable {answer}

namespace Succeeds

theorem pure {b : β} {good : β → Prop} (h : good b) :
    Succeeds answer (pure b : StateM Heap β) 0 good where
  good_iff _ := iff_of_true h (fun _ hi => absurd hi (Nat.not_lt_zero _))
  requests _ _ := rfl

/-- In sequence, when a bad part makes the whole bad. -/
theorem bind {act : StateM Heap α} {f : α → StateM Heap β} {n m : ℕ} {goodA : α → Prop}
    {good : β → Prop} (ha : Succeeds answer act n goodA)
    (hf : ∀ x, goodA x → Succeeds answer (f x) m good)
    (hbad : ∀ x h, ¬ goodA x → ¬ good (f x h).1) :
    Succeeds answer (act >>= f) (n + m) good := by
  -- the heap after the first part, when that is good
  have hsplit : ∀ h, goodA (act h).1 → ((∀ i < n + m, (answer (h.requests + i)).isSome) ↔
      ∀ i < m, (answer ((act h).2.requests + i)).isSome) := by
    intro h hgood
    rw [ha.requests h hgood]
    constructor
    · intro hall i hi
      rw [Nat.add_assoc]
      exact hall (n + i) (by omega)
    · intro hrest i hi
      by_cases hin : i < n
      · exact (ha.good_iff h).mp hgood i hin
      · have hlater := hrest (i - n) (by omega)
        rwa [show h.requests + n + (i - n) = h.requests + i by omega] at hlater
  constructor
  · intro h
    change good (f (act h).1 (act h).2).1 ↔ _
    by_cases hgood : goodA (act h).1
    · rw [hsplit h hgood]
      exact (hf _ hgood).good_iff _
    · refine iff_of_false (hbad _ _ hgood) ?_
      intro hall
      exact hgood ((ha.good_iff h).mpr (fun i hi => hall i (by omega)))
  · intro h hgood
    change good (f (act h).1 (act h).2).1 at hgood
    change (f (act h).1 (act h).2).2.requests = _
    have hfirst : goodA (act h).1 := by
      by_contra hnot
      exact hbad _ _ hnot hgood
    rw [(hf _ hfirst).requests _ hgood, ha.requests h hfirst, Nat.add_assoc]

/-- A request that has to be granted. -/
theorem request {f : Option Addr → StateM Heap β} {n : ℕ} {good : β → Prop}
    (hsome : ∀ a, Succeeds answer (f (some a)) n good)
    (hnone : ∀ h, ¬ good (f none h).1) :
    Succeeds answer (request answer >>= f) (1 + n) good := by
  have hone : Succeeds answer (Allocation.request answer) 1 (fun x => x.isSome) := by
    constructor
    · intro h
      rw [request_fst]
      constructor
      · intro hsome i hi
        obtain rfl : i = 0 := by omega
        exact hsome
      · intro hall
        exact hall 0 Nat.one_pos
    · intro h _
      exact request_requests answer h
  refine hone.bind ?_ ?_
  · intro x hx
    obtain ⟨a, rfl⟩ := Option.isSome_iff_exists.mp hx
    exact hsome a
  · intro x h hx
    rw [Option.not_isSome_iff_eq_none] at hx
    rw [hx]
    exact hnone h

theorem map {act : StateM Heap α} {n : ℕ} {good : α → Prop} {good' : β → Prop} {f : α → β}
    (h : Succeeds answer act n good) (hf : ∀ x, good' (f x) ↔ good x) :
    Succeeds answer (f <$> act) n good' where
  good_iff s := (hf (act s).1).trans (h.good_iff s)
  requests s hs := h.requests s ((hf (act s).1).mp hs)

theorem congr {act : StateM Heap β} {n m : ℕ} {good good' : β → Prop}
    (h : Succeeds answer act n good) (hn : n = m) (hgood : ∀ b, good b ↔ good' b) :
    Succeeds answer act m good' where
  good_iff s := by rw [← hgood, h.good_iff, hn]
  requests s hs := by rw [h.requests s ((hgood _).mpr hs), hn]

end Succeeds

/-! ### The blocks it is built from -/

variable (answer) in
/-- Besides `before`, what the program builds has blocks that were given to it, each once. -/
def Takes (before : List Addr) (act : StateM Heap β) (blocks : β → List Addr) : Prop :=
  ∀ h, h.requests ≤ (act h).2.requests ∧ ∃ new, (blocks (act h).1).Perm (before ++ new) ∧
    new.Nodup ∧ ∀ a ∈ new, ∃ i, h.requests ≤ i ∧ i < (act h).2.requests ∧ answer i = some a

namespace Takes

variable {before : List Addr} {blocks : β → List Addr}

theorem pure {b : β} (h : (blocks b).Perm before) :
    Takes answer before (pure b : StateM Heap β) blocks := fun s =>
  ⟨le_rfl, [], by rwa [List.append_nil], List.nodup_nil, fun _ ha => absurd ha List.not_mem_nil⟩

/-- In sequence, the second part goes on from the blocks of the first. -/
theorem bind {act : StateM Heap α} {f : α → StateM Heap β} {first : α → List Addr}
    (hdist : ∀ i j a, answer i = some a → answer j = some a → i = j)
    (ha : Takes answer [] act first)
    (hf : ∀ x, Takes answer (before ++ first x) (f x) blocks) :
    Takes answer before (act >>= f) blocks := by
  intro h
  obtain ⟨hle, new, hperm, hnodup, hnew⟩ := ha h
  obtain ⟨hle', new', hperm', hnodup', hnew'⟩ := hf (act h).1 (act h).2
  change h.requests ≤ (f (act h).1 (act h).2).2.requests ∧ ∃ all,
    (blocks (f (act h).1 (act h).2).1).Perm (before ++ all) ∧ all.Nodup ∧ ∀ a ∈ all, ∃ i,
      h.requests ≤ i ∧ i < (f (act h).1 (act h).2).2.requests ∧ answer i = some a
  rw [List.nil_append] at hperm
  refine ⟨hle.trans hle', new ++ new', ?_, ?_, ?_⟩
  · rw [← List.append_assoc]
    exact hperm'.trans ((hperm.append_left before).append_right new')
  · refine List.nodup_append.mpr ⟨hnodup, hnodup', ?_⟩
    rintro a ha' b hb rfl
    obtain ⟨i, -, hi, heq⟩ := hnew a ha'
    obtain ⟨j, hj, -, heq'⟩ := hnew' a hb
    have hsame := hdist i j a heq heq'
    omega
  · intro a hmem
    obtain hmem | hmem := List.mem_append.mp hmem
    · obtain ⟨i, hi, hlt, heq⟩ := hnew a hmem
      exact ⟨i, hi, hlt.trans_le hle', heq⟩
    · obtain ⟨i, hi, hlt, heq⟩ := hnew' a hmem
      exact ⟨i, hle.trans hi, hlt, heq⟩

theorem map {act : StateM Heap α} {first : α → List Addr} {f : α → β}
    (h : Takes answer before act first) (hf : ∀ x, blocks (f x) = first x) :
    Takes answer before (f <$> act) blocks := by
  intro s
  obtain ⟨hle, new, hperm, hrest⟩ := h s
  refine ⟨hle, new, ?_, hrest⟩
  change (blocks (f (act s).1)).Perm _
  rw [hf]
  exact hperm

theorem request {f : Option Addr → StateM Heap β}
    (hdist : ∀ i j a, answer i = some a → answer j = some a → i = j)
    (hsome : ∀ a, Takes answer (before ++ [a]) (f (some a)) blocks)
    (hnone : Takes answer before (f none) blocks) :
    Takes answer before (request answer >>= f) blocks := by
  have hone : Takes answer [] (Allocation.request answer) Option.toList := by
    intro h
    rw [request_fst, request_requests]
    refine ⟨Nat.le_succ _, (answer h.requests).toList, List.Perm.refl _, ?_, ?_⟩
    · cases answer h.requests with
      | none => exact List.nodup_nil
      | some a => exact List.nodup_singleton a
    · intro a ha
      exact ⟨h.requests, le_rfl, Nat.lt_succ_self _, Option.mem_toList.mp ha⟩
  refine hone.bind hdist ?_
  intro x
  cases x with
  | none => simpa using hnone
  | some a => exact hsome a

end Takes

end KernelModules.Lib.Allocation
