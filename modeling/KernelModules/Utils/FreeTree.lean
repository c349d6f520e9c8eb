import Mathlib.Tactic
import KernelModules.Utils.CloneTree

/-!
# Freeing the copy of a driver

The memory of a copy comes from `kmalloc` or `vmalloc`, by its size, and `sysfree` takes the one it
gives it back to from the size that it is told.

* `Sizes` are the sizes of the nodes, `sizedBlocks` the blocks of a copy with the sizes that were
  asked for;
* `insLibFreeDriver` is the walk that frees a driver: the blocks and the sizes that `sysfree` is
  given, one after the other;
* `FreesAll` is what it is for.  The node of a module is never freed (`freed_perm`), and the extra
  parameters are given back without the zero at their end.
-/

namespace KernelModules.Utils

open Lib.Allocation

/-- The `sizeof` of each kind of node. -/
structure Sizes where
  drvrDesc : ℕ
  modlDesc : ℕ
  carModule : ℕ
  vmeModule : ℕ
  pciModule : ℕ
  carSpace : ℕ
  vmeSpace : ℕ
  pciSpace : ℕ
  intrDesc : ℕ

/-- A block and a size. -/
abbrev Sized := Addr × ℕ

/-- `strlen`. -/
def strlen (s : String) : ℕ := s.utf8ByteSize

section Walks

variable (sizes : Sizes) {M S : Type}

/-! ### What was allocated -/

/-- The blocks of an address: one of size `ma` for itself and one of size `as` for each space. -/
def sizedAddress (ma as : ℕ) : Option (Node Addr (BusAddress M S Addr)) → List Sized
  | none => []
  | some n => (n.addr, ma) :: n.val.spaces.map fun s => (s.addr, as)

/-- The blocks of the address of a module. -/
def sizedModuleAddress : ModuleAddress Addr → List Sized
  | .notSet _ => []
  | .carrier carma => sizedAddress sizes.carModule sizes.carSpace carma
  | .vme vmema => sizedAddress sizes.vmeModule sizes.vmeSpace vmema
  | .pmc pcima => sizedAddress sizes.pciModule sizes.pciSpace pcima
  | .pci pcima => sizedAddress sizes.pciModule sizes.pciSpace pcima

/-- The blocks behind the node of a module; the extra parameters with the zero at their end. -/
def sizedParts (modld : ModlDesc Addr) : List Sized :=
  sizedModuleAddress sizes modld.address ++
    (modld.extra.map fun x => (x.addr, strlen x.val + 1)).toList ++
    (modld.isr.map fun x => (x.addr, sizes.intrDesc)).toList

/-- The blocks of a copy with the sizes that `sysbrk` was asked for, in that order. -/
def sizedBlocks (drvrd : Node Addr (DrvrDesc Addr)) : List Sized :=
  (drvrd.addr, sizes.drvrDesc) :: drvrd.val.modules.flatMap fun modld =>
    (modld.addr, sizes.modlDesc) :: sizedParts sizes modld.val

/-! ### What is freed -/

/-- `InsLibFreeCarSpace`, `InsLibFreeVmeSpace` and `InsLibFreePciSpace`. -/
def freeSpace (size : ℕ) : List (Node Addr S) → List Sized
  | [] => []
  | as :: next => freeSpace size next ++ [(as.addr, size)]

/-- `InsLibFreeCar`, `InsLibFreeVme` and `InsLibFreePci`. -/
def freeAddress (ma as : ℕ) : Option (Node Addr (BusAddress M S Addr)) → List Sized
  | none => []
  | some n => freeSpace as n.val.spaces ++ [(n.addr, ma)]

/-- The address of a module by its bus type. -/
def freeModuleAddress : ModuleAddress Addr → List Sized
  | .carrier carma => freeAddress sizes.carModule sizes.carSpace carma
  | .vme vmema => freeAddress sizes.vmeModule sizes.vmeSpace vmema
  | .pmc pcima => freeAddress sizes.pciModule sizes.pciSpace pcima
  | .pci pcima => freeAddress sizes.pciModule sizes.pciSpace pcima
  | .notSet _ => []

/-- `InsLibFreeModule`. -/
def insLibFreeModule : List (Node Addr (ModlDesc Addr)) → List Sized
  | [] => []
  | modld :: next =>
    insLibFreeModule next ++ freeModuleAddress sizes modld.val.address ++
      (modld.val.extra.map fun x => (x.addr, strlen x.val)).toList ++
      (modld.val.isr.map fun x => (x.addr, sizes.intrDesc)).toList

/-- `InsLibFreeDriver`, for a driver without a next one, as a copy is. -/
def insLibFreeDriver (drvrd : Node Addr (DrvrDesc Addr)) : List Sized :=
  insLibFreeModule sizes drvrd.val.modules ++ [(drvrd.addr, sizes.drvrDesc)]

/-- Every block of a copy is freed once, with the size it was allocated with, and nothing else is. -/
def FreesAll (drvrd : Node Addr (DrvrDesc Addr)) : Prop :=
  (insLibFreeDriver sizes drvrd).Perm (sizedBlocks sizes drvrd)

/-! ### The blocks that both walks have -/

theorem sizedAddress_fst (ma as : ℕ) (n : Option (Node Addr (BusAddress M S Addr))) :
    (sizedAddress ma as n).map Prod.fst = addressBlocks n := by
  cases n with
  | none => rfl
  | some n => simp [sizedAddress, addressBlocks]

theorem sizedModuleAddress_fst (address : ModuleAddress Addr) :
    (sizedModuleAddress sizes address).map Prod.fst = address.blocks := by
  cases address with
  | notSet addr => rfl
  | carrier carma => exact sizedAddress_fst _ _ carma
  | vme vmema => exact sizedAddress_fst _ _ vmema
  | pmc pcima => exact sizedAddress_fst _ _ pcima
  | pci pcima => exact sizedAddress_fst _ _ pcima

theorem sizedParts_fst (modld : ModlDesc Addr) :
    (sizedParts sizes modld).map Prod.fst = modld.blocks := by
  unfold sizedParts ModlDesc.blocks
  rw [List.map_append, List.map_append, sizedModuleAddress_fst]
  cases modld.extra <;> cases modld.isr <;> rfl

theorem sizedBlocks_fst (drvrd : Node Addr (DrvrDesc Addr)) :
    (sizedBlocks sizes drvrd).map Prod.fst = blocks drvrd := by
  unfold sizedBlocks blocks moduleBlocks
  rw [List.map_cons, List.map_flatMap]
  simp only [List.map_cons, sizedParts_fst]

theorem freeSpace_perm (size : ℕ) (spaces : List (Node Addr S)) :
    (freeSpace size spaces).Perm (spaces.map fun s => (s.addr, size)) := by
  induction spaces with
  | nil => exact List.Perm.refl _
  | cons as next ih =>
    rw [freeSpace, List.map_cons]
    exact (List.perm_append_singleton _ _).trans (ih.cons _)

theorem freeAddress_perm (ma as : ℕ) (n : Option (Node Addr (BusAddress M S Addr))) :
    (freeAddress ma as n).Perm (sizedAddress ma as n) := by
  cases n with
  | none => exact List.Perm.refl _
  | some n => exact (List.perm_append_singleton _ _).trans ((freeSpace_perm as n.val.spaces).cons _)

theorem freeModuleAddress_perm (address : ModuleAddress Addr) :
    (freeModuleAddress sizes address).Perm (sizedModuleAddress sizes address) := by
  cases address with
  | notSet addr => exact List.Perm.refl _
  | carrier carma => exact freeAddress_perm _ _ carma
  | vme vmema => exact freeAddress_perm _ _ vmema
  | pmc pcima => exact freeAddress_perm _ _ pcima
  | pci pcima => exact freeAddress_perm _ _ pcima

theorem insLibFreeModule_perm (modules : List (Node Addr (ModlDesc Addr))) :
    ((insLibFreeModule sizes modules).map Prod.fst).Perm
      (modules.flatMap fun modld => modld.val.blocks) := by
  induction modules with
  | nil => exact List.Perm.refl _
  | cons modld next ih =>
    have hextra : (modld.val.extra.map fun x => (x.addr, strlen x.val)).toList.map Prod.fst =
        (modld.val.extra.map Node.addr).toList := by
      cases modld.val.extra <;> rfl
    have hisr : (modld.val.isr.map fun x => (x.addr, sizes.intrDesc)).toList.map Prod.fst =
        (modld.val.isr.map Node.addr).toList := by
      cases modld.val.isr <;> rfl
    have haddress := (freeModuleAddress_perm sizes modld.val.address).map Prod.fst
    rw [sizedModuleAddress_fst] at haddress
    rw [insLibFreeModule, List.flatMap_cons, List.map_append, List.map_append, List.map_append,
      hextra, hisr, List.append_assoc, List.append_assoc]
    have hblocks : modld.val.blocks = modld.val.address.blocks ++
        ((modld.val.extra.map Node.addr).toList ++ (modld.val.isr.map Node.addr).toList) := by
      rw [ModlDesc.blocks, List.append_assoc]
    rw [hblocks]
    exact (ih.append (haddress.append_right _)).trans List.perm_append_comm

theorem moduleBlocks_perm {L : Type} (modules : List (Node L (ModlDesc L))) :
    (modules.map Node.addr ++ modules.flatMap fun modld => modld.val.blocks).Perm
      (moduleBlocks modules) := by
  induction modules with
  | nil => exact List.Perm.refl _
  | cons modld next ih =>
    simp only [moduleBlocks, List.map_cons, List.flatMap_cons, List.cons_append] at ih ⊢
    refine List.Perm.cons _ ?_
    exact (List.perm_append_comm_assoc _ _ _).trans (ih.append_left _)

theorem freed_perm (drvrd : Node Addr (DrvrDesc Addr)) :
    ((insLibFreeDriver sizes drvrd).map Prod.fst ++ drvrd.val.modules.map Node.addr).Perm
      (blocks drvrd) := by
  have hparts := insLibFreeModule_perm sizes drvrd.val.modules
  rw [insLibFreeDriver, List.map_append, List.append_assoc, blocks]
  refine (List.perm_append_comm_assoc _ _ _).trans (List.Perm.cons _ ?_)
  exact (List.perm_append_comm.trans (hparts.append_left _)).trans (moduleBlocks_perm _)

theorem freesAll_iff (drvrd : Node Addr (DrvrDesc Addr)) :
    FreesAll sizes drvrd ↔ drvrd.val.modules = [] := by
  constructor
  · intro h
    have hall := (h.map Prod.fst).length_eq
    have hfreed := (freed_perm sizes drvrd).length_eq
    rw [sizedBlocks_fst] at hall
    rw [List.length_append, hall, List.length_map] at hfreed
    exact List.eq_nil_of_length_eq_zero (by omega)
  · intro h
    unfold FreesAll insLibFreeDriver sizedBlocks
    rw [h]
    exact List.Perm.refl _

end Walks

/-! ### A copy and its end -/

/-- The blocks that were given to the next `n` requests. -/
def granted (answer : ℕ → Option Addr) (h : Heap) (n : ℕ) : List Addr :=
  (List.range n).filterMap fun i => answer (h.requests + i)

section Count

variable {L : Type}

theorem addressBlocks_erase {M S : Type} (ma : Option (Node L (BusAddress M S L))) :
    (addressBlocks (eraseAddress ma)).length = (addressBlocks ma).length := by
  cases ma with
  | none => rfl
  | some ma => simp [eraseAddress, addressBlocks, BusAddress.erase]

theorem ModlDesc.blocks_erase (modld : ModlDesc L) :
    modld.erase.blocks.length = modld.blocks.length := by
  have haddress : modld.address.erase.blocks.length = modld.address.blocks.length := by
    cases modld.address with
    | notSet addr => rfl
    | carrier carma => exact addressBlocks_erase carma
    | vme vmema => exact addressBlocks_erase vmema
    | pmc pcima => exact addressBlocks_erase pcima
    | pci pcima => exact addressBlocks_erase pcima
  simp only [ModlDesc.blocks, List.length_append, ModlDesc.erase, haddress]
  cases modld.extra <;> cases modld.isr <;> rfl

theorem moduleBlocks_erase (modules : List (Node L (ModlDesc L))) :
    (moduleBlocks (eraseModules modules)).length = (moduleBlocks modules).length := by
  induction modules with
  | nil => rfl
  | cons modld next ih =>
    simp only [moduleBlocks, eraseModules, List.map_cons, List.flatMap_cons, List.length_append,
      List.length_cons, ModlDesc.blocks_erase] at ih ⊢
    omega

theorem blocks_length_of_erase {drvrd src : Node L (DrvrDesc L)}
    (h : drvrd.val.erase = src.val.erase) : (blocks drvrd).length = (blocks src).length := by
  have hmodules : eraseModules drvrd.val.modules = eraseModules src.val.modules :=
    congrArg DrvrDesc.modules h
  rw [blocks, blocks, List.length_cons, List.length_cons, ← moduleBlocks_erase,
    ← moduleBlocks_erase src.val.modules, hmodules]

end Count

/-- **Freeing a copy**: of a driver that is copied without a refusal, the copy is made of the blocks
that were given, and all of them are given back as they were taken exactly if it has no modules. -/
theorem copy_freed_iff (sizes : Sizes) (src : Node Addr (DrvrDesc Addr))
    (al : Allocator (nodes src)) (h : Heap)
    (hall : ∀ i < (blocks src).length, (al.answer (h.requests + i)).isSome) :
    ∃ clone, (insLibCloneOneDriver al.answer (some src) h).1 = some clone ∧
      (blocks clone).Perm (granted al.answer h (blocks src).length) ∧
      (FreesAll sizes clone ↔ src.val.modules = []) := by
  obtain ⟨a, hfirst⟩ := Option.isSome_iff_exists.mp (hall 0 (Nat.succ_pos _))
  obtain ⟨clone, hclone⟩ := insLibCloneOneDriver_granted hfirst src
  have hsucceeds := insLibCloneOneDriver_succeeds al.answer src
  have hgood := (hsucceeds.good_iff h).mpr hall
  have hrequests := hsucceeds.requests h hgood
  obtain ⟨-, new, hperm, hnodup, hnew⟩ := insLibCloneOneDriver_takes al.distinct (some src) h
  rw [hclone] at hgood hperm
  obtain ⟨clone', hclone', herase⟩ := hgood
  obtain rfl := Option.mem_some_iff.mp hclone'
  simp only [Option.toList_some, List.flatMap_singleton, List.nil_append] at hperm
  refine ⟨clone, hclone, ?_, ?_⟩
  · have hsub : new ⊆ granted al.answer h (blocks src).length := by
      intro b hb
      obtain ⟨i, hle, hlt, hi⟩ := hnew b hb
      refine List.mem_filterMap.mpr ⟨i - h.requests, List.mem_range.mpr (by omega), ?_⟩
      rw [Nat.add_sub_cancel' hle]
      exact hi
    have hlength : (granted al.answer h (blocks src).length).length ≤ new.length := by
      rw [← hperm.length_eq, blocks_length_of_erase herase]
      exact (List.length_filterMap_le _ _).trans (List.length_range).le
    exact hperm.trans ((hnodup.subperm hsub).perm_of_length_le hlength)
  · have hmodules : eraseModules clone.val.modules = eraseModules src.val.modules :=
      congrArg DrvrDesc.modules herase
    rw [freesAll_iff]
    constructor
    · intro hnil
      rw [hnil] at hmodules
      exact List.map_eq_nil_iff.mp hmodules.symm
    · intro hnil
      rw [hnil] at hmodules
      exact List.map_eq_nil_iff.mp hmodules

/-- The sizes on a machine of 32 bits. -/
def sizes32 : Sizes := ⟨180, 208, 176, 136, 160, 160, 168, 164, 144⟩

/-- A driver without modules. -/
def bareDriver : Node Addr (DrvrDesc Addr) := ⟨1, { oneModule.val with modules := [] }⟩

/-- Blocks from 10 on, apart from what is in use. -/
def freshBlocks (used : List Addr) (h : ∀ a ∈ used, a < 10) : Allocator used where
  answer i := some (i + 10)
  unused i a ha hmem := by
    cases ha
    exact absurd (h _ hmem) (Nat.not_lt.mpr (Nat.le_add_left 10 i))
  distinct i j a hi hj := by
    cases hi
    simpa using hj.symm

theorem copy_freed_bare : ∃ clone,
    (insLibCloneOneDriver (freshBlocks (nodes bareDriver) (by decide)).answer (some bareDriver)
      ⟨0, []⟩).1 = some clone ∧ FreesAll sizes32 clone := by
  obtain ⟨clone, hclone, -, hfrees⟩ := copy_freed_iff sizes32 bareDriver
    (freshBlocks _ (by decide)) ⟨0, []⟩ (fun _ _ => rfl)
  exact ⟨clone, hclone, hfrees.mpr rfl⟩

/-- One module: its node stays allocated. -/
theorem module_not_freed : ¬ ∀ (sizes : Sizes) (src : Node Addr (DrvrDesc Addr))
    (al : Allocator (nodes src)) (h : Heap),
    (∀ i < (blocks src).length, (al.answer (h.requests + i)).isSome) →
    ∃ clone, (insLibCloneOneDriver al.answer (some src) h).1 = some clone ∧
      FreesAll sizes clone := by
  intro h
  obtain ⟨clone, hclone, hfrees⟩ := h sizes32 oneModule (freshBlocks _ (by decide)) ⟨0, []⟩
    (fun _ _ => rfl)
  cases hclone
  exact absurd hfrees.length_eq (by decide)

end KernelModules.Utils
