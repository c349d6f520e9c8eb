import KernelModules.Lib.LinkedChain
import KernelModules.Utils.CloneTree

/-!
# The spaces of a VME address in memory

`add_vme_addr_space` puts a space that has just been allocated into the list of a module address: a
CR/CSR space in front of the others, any other behind the last one.

* `SpaceBlock` is a space with its `Next`, `Pointer` a block and the number of places that the pointer
  has been moved on from there, and only a pointer that has not been moved can be followed;
* `lastSpace` is the search for the last space, `addVmeAddrSpace` the function and `addSpaces` all the
  spaces of an address, one after the other, in the blocks `0`, `1`, …;
* `InOrder` says what the list is for, and `InOrder.add` that a space keeps it as long as the search
  does not begin in a list of two spaces;
* `addSpaces_inOrder_iff` says when the list is as it should be: the search moves its pointer to the
  next place in memory instead of the next space.
-/

namespace KernelModules.Utils.Spaces

open Function KernelModules.Lib

/-- `AM_A24_CR_CSR`. -/
def amA24CrCsr : BitVec 32 := 0x2f

/-- A block of `InsLibVmeAddressSpace`, with its `Next`. -/
structure SpaceBlock where
  space : VmeAddressSpace
  next : Option ℕ

/-- A pointer so many places behind the beginning of a block. -/
structure Pointer where
  block : ℕ
  places : ℕ

/-- The `VmeAddressSpace` of a module address, and the blocks. -/
structure SpaceList where
  first : Option ℕ
  block : ℕ → SpaceBlock

namespace SpaceList

variable (s : SpaceList)

/-- What a pointer leads to. -/
def deref (p : Pointer) : Option SpaceBlock :=
  if p.places = 0 then some (s.block p.block) else none

/-- A block is written. -/
def store (n : ℕ) (b : SpaceBlock) : SpaceList := { s with block := update s.block n b }

/-- The `Next` of a block is written. -/
def setNext (n : ℕ) (next : Option ℕ) : SpaceList := s.store n { s.block n with next := next }

/-- The `Next` of every block. -/
def next (n : ℕ) : Option ℕ := (s.block n).next

/-- The block holds a CR/CSR space. -/
def isCr (n : ℕ) : Prop := (s.block n).space.addressModifier = amA24CrCsr

variable {s} {n m : ℕ} {b : SpaceBlock} {x : Option ℕ}

@[simp] theorem store_self : (s.store n b).block n = b := update_self _ _ _

theorem store_of_ne (h : m ≠ n) : (s.store n b).block m = s.block m := update_of_ne h _ _

@[simp] theorem setNext_first : (s.setNext n x).first = s.first := rfl

@[simp] theorem setNext_space : ((s.setNext n x).block m).space = (s.block m).space := by
  by_cases h : m = n
  · rw [h, setNext, store_self]
  · rw [setNext, store_of_ne h]

@[simp] theorem setNext_isCr : (s.setNext n x).isCr m ↔ s.isCr m := by
  unfold isCr
  rw [setNext_space]

theorem setNext_next_self : (s.setNext n x).next n = x := by
  rw [next, setNext, store_self]

theorem setNext_next_of_ne (h : m ≠ n) : (s.setNext n x).next m = s.next m := by
  rw [next, setNext, store_of_ne h, next]

end SpaceList

/-- The search for the last space: `while (ptr->Next) ++ptr`. -/
def lastSpace (s : SpaceList) (p : Pointer) : Option Pointer :=
  match hp : s.deref p with
  | none => none
  | some b => if b.next = none then some p else lastSpace s ⟨p.block, p.places + 1⟩
termination_by 1 - p.places
decreasing_by
  unfold SpaceList.deref at hp
  split at hp
  · omega
  · cases hp

/-- `add_vme_addr_space`. -/
def addVmeAddrSpace (nvmeas : ℕ) (s : SpaceList) : Option SpaceList :=
  match s.first with
  | none => some { s with first := some nvmeas }
  | some first =>
    if (s.block nvmeas).space.addressModifier ≠ amA24CrCsr then
      (lastSpace s ⟨first, 0⟩).map fun ptr => s.setNext ptr.block (some nvmeas)
    else some { s.setNext nvmeas (some first) with first := some nvmeas }

/-- The spaces that `handle_vme_space_node` adds, from block `n` on.  A block comes with no `Next`. -/
def addSpaces : ℕ → List VmeAddressSpace → SpaceList → Option SpaceList
  | _, [], s => some s
  | n, space :: spaces, s =>
    (addVmeAddrSpace n (s.store n ⟨space, none⟩)).bind (addSpaces (n + 1) spaces)

/-- The list has each space once, the CR/CSR spaces come first, and the others are in the order in
which they were added. -/
structure InOrder (spaces : List VmeAddressSpace) (s : SpaceList) (l : List ℕ) : Prop where
  listed : Listed s.next s.first l
  each : l.Perm (List.range spaces.length)
  space : ∀ n p, spaces[n]? = some p → (s.block n).space = p
  crFirst : l.Pairwise fun a b => s.isCr b → s.isCr a
  order : l.Pairwise fun a b => ¬ s.isCr a → ¬ s.isCr b → a < b

/-! ### One space -/

section Add

variable {spaces : List VmeAddressSpace} {s : SpaceList} {l : List ℕ} {p : VmeAddressSpace}

theorem lastSpace_eq (s : SpaceList) (n : ℕ) :
    lastSpace s ⟨n, 0⟩ = if s.next n = none then some ⟨n, 0⟩ else none := by
  rw [lastSpace]
  show (if s.next n = none then some (⟨n, 0⟩ : Pointer) else lastSpace s ⟨n, 1⟩) = _
  congr 1
  rw [lastSpace]
  rfl

namespace InOrder

theorem mem_iff (h : InOrder spaces s l) (n : ℕ) : n ∈ l ↔ n < spaces.length := by
  rw [h.each.mem_iff, List.mem_range]

theorem length_eq (h : InOrder spaces s l) : l.length = spaces.length := by
  rw [h.each.length_eq, List.length_range]

theorem ne_new (h : InOrder spaces s l) {n : ℕ} (hn : n ∈ l) : n ≠ spaces.length :=
  ((h.mem_iff n).mp hn).ne

theorem snoc (h : InOrder spaces s l) {t : SpaceList} {l' : List ℕ}
    (hspace : ∀ n, (t.block n).space = ((s.store spaces.length ⟨p, none⟩).block n).space)
    (hlisted : Listed t.next t.first l') (hperm : l'.Perm (spaces.length :: l))
    (hcr : l'.Pairwise fun a b => t.isCr b → t.isCr a)
    (horder : l'.Pairwise fun a b => ¬ t.isCr a → ¬ t.isCr b → a < b) :
    InOrder (spaces ++ [p]) t l' where
  listed := hlisted
  each := by
    rw [List.length_append, List.length_singleton, List.range_succ]
    exact hperm.trans ((h.each.cons _).trans (List.perm_append_singleton _ _).symm)
  space n q hq := by
    rw [hspace]
    rcases Nat.lt_or_ge n spaces.length with hlt | hge
    · rw [List.getElem?_append_left hlt] at hq
      rw [SpaceList.store_of_ne hlt.ne]
      exact h.space n q hq
    · rw [List.getElem?_append_right hge] at hq
      obtain ⟨hlt, hq⟩ := List.getElem?_eq_some_iff.mp hq
      obtain rfl : n = spaces.length := by
        rw [List.length_singleton] at hlt
        omega
      rw [SpaceList.store_self, ← hq]
      simp
  crFirst := hcr
  order := horder

theorem isCr_iff (h : InOrder spaces s l) {t : SpaceList}
    (hspace : ∀ n, (t.block n).space = ((s.store spaces.length ⟨p, none⟩).block n).space) {n : ℕ}
    (hn : n ∈ l) : t.isCr n ↔ s.isCr n := by
  unfold SpaceList.isCr
  rw [hspace, SpaceList.store_of_ne (h.ne_new hn)]

theorem front (h : InOrder spaces s l) (hp : p.addressModifier = amA24CrCsr) :
    InOrder (spaces ++ [p])
      { (s.store spaces.length ⟨p, none⟩).setNext spaces.length s.first with
        first := some spaces.length } (spaces.length :: l) := by
  set s' := s.store spaces.length ⟨p, none⟩ with hs'
  set t : SpaceList := { s'.setNext spaces.length s.first with first := some spaces.length } with ht
  have hspace (n : ℕ) : (t.block n).space = (s'.block n).space := SpaceList.setNext_space
  have hnew : t.isCr spaces.length := by
    rw [SpaceList.isCr, hspace, hs', SpaceList.store_self]
    exact hp
  refine h.snoc hspace ⟨rfl, ?_⟩ (List.Perm.refl _) ?_ ?_
  · have hself : t.next spaces.length = s.first := SpaceList.setNext_next_self
    rw [hself]
    refine h.listed.frame fun n hn => ?_
    show (s'.setNext spaces.length s.first).next n = s.next n
    rw [SpaceList.setNext_next_of_ne (h.ne_new hn), SpaceList.next, hs',
      SpaceList.store_of_ne (h.ne_new hn), SpaceList.next]
  · refine List.pairwise_cons.mpr ⟨fun _ _ _ => hnew, h.crFirst.imp_of_mem fun ha hb hab => ?_⟩
    rw [h.isCr_iff hspace ha, h.isCr_iff hspace hb]
    exact hab
  · refine List.pairwise_cons.mpr ⟨fun _ _ hn => absurd hnew hn, h.order.imp_of_mem ?_⟩
    intro a b ha hb hab
    rw [h.isCr_iff hspace ha, h.isCr_iff hspace hb]
    exact hab

theorem single (h : InOrder spaces s []) :
    InOrder (spaces ++ [p]) { s.store spaces.length ⟨p, none⟩ with first := some spaces.length }
      [spaces.length] := by
  refine h.snoc (fun _ => rfl) ⟨rfl, ?_⟩ (List.Perm.refl _) (List.pairwise_singleton _ _)
    (List.pairwise_singleton _ _)
  show ((s.store spaces.length ⟨p, none⟩).block spaces.length).next = none
  rw [SpaceList.store_self]

theorem behind {first : ℕ} (h : InOrder spaces s [first]) (hp : p.addressModifier ≠ amA24CrCsr) :
    InOrder (spaces ++ [p])
      ((s.store spaces.length ⟨p, none⟩).setNext first (some spaces.length))
      [first, spaces.length] := by
  set s' := s.store spaces.length ⟨p, none⟩ with hs'
  have hne : first ≠ spaces.length := h.ne_new (List.mem_singleton_self first)
  have hnew : ¬ (s'.setNext first (some spaces.length)).isCr spaces.length := by
    rw [SpaceList.setNext_isCr, SpaceList.isCr, hs', SpaceList.store_self]
    exact hp
  refine h.snoc (fun _ => SpaceList.setNext_space) ⟨?_, ?_, ?_⟩ (List.Perm.swap _ _ _) ?_ ?_
  · rw [SpaceList.setNext_first]
    exact h.listed.1
  · rw [SpaceList.setNext_next_self]
  · rw [SpaceList.setNext_next_of_ne hne.symm, hs', SpaceList.next, SpaceList.store_self]
    rfl
  · exact List.pairwise_pair.mpr fun hcr => absurd hcr hnew
  · refine List.pairwise_pair.mpr fun _ _ => ?_
    exact (h.mem_iff first).mp (List.mem_singleton_self first)

theorem add (h : InOrder spaces s l) (hp : 2 ≤ spaces.length → p.addressModifier = amA24CrCsr) :
    ∃ s' l', addVmeAddrSpace spaces.length (s.store spaces.length ⟨p, none⟩) = some s' ∧
      InOrder (spaces ++ [p]) s' l' := by
  unfold addVmeAddrSpace
  show ∃ s' l', (match s.first with | none => _ | some first => _) = some s' ∧ _
  cases hl : l with
  | nil =>
    subst hl
    rw [show s.first = none from h.listed]
    exact ⟨_, _, rfl, h.single⟩
  | cons first rest =>
    subst hl
    rw [h.listed.1]
    dsimp only
    rw [SpaceList.store_self]
    by_cases hcr : p.addressModifier = amA24CrCsr
    · rw [if_neg (not_not.mpr hcr), ← h.listed.1]
      exact ⟨_, _, rfl, h.front hcr⟩
    · rw [if_pos hcr]
      obtain rfl : rest = [] := by
        have hlen := h.length_eq
        rw [List.length_cons] at hlen
        have hfew : ¬ 2 ≤ spaces.length := fun h2 => hcr (hp h2)
        exact List.length_eq_zero_iff.mp (by omega)
      have hlast : (s.store spaces.length ⟨p, none⟩).next first = none := by
        rw [SpaceList.next, SpaceList.store_of_ne (h.ne_new List.mem_cons_self)]
        exact h.listed.2
      rw [lastSpace_eq, if_pos hlast]
      exact ⟨_, _, rfl, h.behind hcr⟩

theorem add_none (h : InOrder spaces s l) (hmany : 2 ≤ spaces.length)
    (hp : p.addressModifier ≠ amA24CrCsr) :
    addVmeAddrSpace spaces.length (s.store spaces.length ⟨p, none⟩) = none := by
  obtain ⟨first, second, rest, rfl⟩ : ∃ first second rest, l = first :: second :: rest := by
    have hlen := h.length_eq
    match l, hlen with
    | [], hlen => exact absurd hlen (by simp; omega)
    | [_], hlen => exact absurd hlen (by simp; omega)
    | first :: second :: rest, _ => exact ⟨first, second, rest, rfl⟩
  have hnext : (s.store spaces.length ⟨p, none⟩).next first ≠ none := by
    rw [SpaceList.next, SpaceList.store_of_ne (h.ne_new List.mem_cons_self)]
    show s.next first ≠ none
    rw [h.listed.2.1]
    nofun
  unfold addVmeAddrSpace
  show (match s.first with | none => _ | some first => _) = none
  rw [h.listed.1]
  dsimp only
  rw [SpaceList.store_self, if_pos hp, lastSpace_eq, if_neg hnext]
  rfl

end InOrder

end Add

/-! ### All the spaces of an address -/

section Run

theorem addSpaces_iff {added : List VmeAddressSpace} {s : SpaceList} {l : List ℕ}
    (h : InOrder added s l) (spaces : List VmeAddressSpace) :
    (∃ s' l', addSpaces added.length spaces s = some s' ∧ InOrder (added ++ spaces) s' l') ↔
      ∀ p ∈ spaces.drop (2 - added.length), p.addressModifier = amA24CrCsr := by
  induction spaces generalizing added s l with
  | nil =>
    rw [List.append_nil]
    exact iff_of_true ⟨s, l, rfl, h⟩ (by simp)
  | cons p spaces ih =>
    have hcons : added ++ p :: spaces = added ++ [p] ++ spaces := by simp
    have hlen : added.length + 1 = (added ++ [p]).length := by simp
    rw [addSpaces, hcons, hlen]
    by_cases hp : 2 ≤ added.length → p.addressModifier = amA24CrCsr
    · obtain ⟨s', l', hs', h'⟩ := h.add hp
      rw [hs', Option.bind_some, ih h', ← hlen]
      by_cases hmany : 2 ≤ added.length
      · rw [Nat.sub_eq_zero_of_le hmany, Nat.sub_eq_zero_of_le (by omega)]
        simp [hp hmany]
      · rw [show 2 - added.length = 2 - (added.length + 1) + 1 by omega, List.drop_succ_cons]
    · push Not at hp
      rw [h.add_none hp.1 hp.2, Option.bind_none]
      refine iff_of_false (fun ⟨_, _, hnone, _⟩ => by cases hnone) fun hall => hp.2 ?_
      rw [Nat.sub_eq_zero_of_le hp.1] at hall
      exact hall p List.mem_cons_self

/-- An address without spaces. -/
def noSpaces (block : ℕ → SpaceBlock) : SpaceList := ⟨none, block⟩

theorem inOrder_noSpaces (block : ℕ → SpaceBlock) : InOrder [] (noSpaces block) [] where
  listed := rfl
  each := List.Perm.refl _
  space := nofun
  crFirst := List.Pairwise.nil
  order := List.Pairwise.nil

/-- **The list of spaces is as it should be exactly when no space but a CR/CSR space is added to two
others.** -/
theorem addSpaces_inOrder_iff (block : ℕ → SpaceBlock) (spaces : List VmeAddressSpace) :
    (∃ s l, addSpaces 0 spaces (noSpaces block) = some s ∧ InOrder spaces s l) ↔
      ∀ p ∈ spaces.drop 2, p.addressModifier = amA24CrCsr :=
  addSpaces_iff (inOrder_noSpaces block) spaces

/-- A standard A24 space. -/
def a24Space : VmeAddressSpace := ⟨0, 0x39, 0x1000, 16, .notSet, 0x100000, 0, ""⟩

/-- A module with three A24 spaces: the search for the last of two leaves the list. -/
theorem three_spaces_leave_list :
    ¬ ∃ s l, addSpaces 0 [a24Space, a24Space, a24Space] (noSpaces fun _ => ⟨a24Space, none⟩) = some s ∧
      InOrder [a24Space, a24Space, a24Space] s l := by
  intro h
  have hall := (addSpaces_iff (inOrder_noSpaces _) [a24Space, a24Space, a24Space]).mp h
  exact absurd (hall a24Space (by simp)) (by decide)

end Run

end KernelModules.Utils.Spaces
