import Mathlib.Tactic
import KernelModules.Utils.InstallTree

/-!
# The blocks of a host

`InsLibFreeHost` walks over a host, its drivers, their modules and what these have, and frees the
blocks on the way.

* `remove` takes blocks out of those that are allocated, `blocksOfHost` are the blocks that the walk
  frees; when they are allocated and no two of them are the same, that is all it does
  (`insLibFreeHost_eq`);
* `Slot` is a place that a block is linked to, and `Tree` says that every block that is linked is
  allocated and linked to one place only, the one that a function `parent` tells;
* then the blocks of a host are as they have to be (`Tree.blocksOfHost_nodup`), and an error exit
  frees them without a fault (`Tree.insLibFreeHost_eq`).
-/

namespace KernelModules.Utils.Install

open Function

/-! ### Taking blocks away -/

/-- The blocks `l` are allocated no more. -/
def remove (l : List Block) (s : State) : State :=
  { s with live := fun b => s.live b && decide (b ∉ l) }

section Remove

variable {l : List Block} {b : Block} {s : State}

theorem remove_live : (remove l s).live b = true ↔ s.live b = true ∧ b ∉ l := by
  show (s.live b && decide (b ∉ l)) = true ↔ _
  rw [Bool.and_eq_true, decide_eq_true_iff]

theorem remove_nil (s : State) : remove [] s = s := by
  have hlive : (fun b => s.live b && decide (b ∉ ([] : List Block))) = s.live := by
    funext b
    simp
  unfold remove
  rw [hlive]

theorem remove_remove (l l' : List Block) (s : State) :
    remove l (remove l' s) = remove (l' ++ l) s := by
  have hlive : (remove l (remove l' s)).live = (remove (l' ++ l) s).live := by
    funext b
    show (s.live b && decide (b ∉ l') && decide (b ∉ l)) = (s.live b && decide (b ∉ l' ++ l))
    have hmem : (b ∉ l' ∧ b ∉ l) ↔ b ∉ l' ++ l := by rw [List.mem_append, not_or]
    rw [Bool.and_assoc, ← Bool.decide_and, decide_eq_decide.mpr hmem]
  exact congrArg (fun live => { s with live := live }) hlive

theorem remove_perm {l l' : List Block} (h : l.Perm l') (s : State) : remove l s = remove l' s := by
  have hlive : (remove l s).live = (remove l' s).live := by
    funext b
    show (s.live b && decide (b ∉ l)) = (s.live b && decide (b ∉ l'))
    rw [decide_eq_decide.mpr (not_congr h.mem_iff)]
  exact congrArg (fun live => { s with live := live }) hlive

theorem use_of_live (h : s.live b = true) : s.use b = s := if_pos h

theorem free_of_live (h : s.live b = true) : s.free b = remove [b] s := by
  have hlive : update s.live b false = fun b' => s.live b' && decide (b' ∉ [b]) := by
    funext b'
    by_cases hb : b' = b
    · subst hb
      simp
    · simp [hb]
  unfold State.free remove
  rw [if_pos h, hlive]

theorem free_remove (h : s.live b = true) (hb : b ∉ l) :
    (remove l s).free b = remove (b :: l) s := by
  rw [free_of_live (remove_live.mpr ⟨h, hb⟩), remove_remove]
  exact remove_perm List.perm_append_comm s

end Remove

/-! ### What is freed -/

/-- The blocks of address spaces. -/
def blocksOfSpaces (spaces : List (ℕ × AddressSpace)) : List Block :=
  spaces.map fun as => (as.1, 0)

/-- The blocks of an address. -/
def blocksOfAddress (s : State) (a : ℕ) : List Block := (a, 0) :: blocksOfSpaces (s.addrs a).spaces

/-- The address that is freed with a module: the one it has, when its bus is known. -/
def freedAddress (modld : InsLibModlDesc) : List ℕ :=
  if modld.busType = .notSet then [] else modld.moduleAddress.toList

/-- The blocks that are freed with a module. -/
def blocksOfModule (s : State) (modld : InsLibModlDesc) : List Block :=
  (freedAddress modld).flatMap (blocksOfAddress s) ++
    ((modld.extra.map Prod.fst).toList ++ (modld.isr.map fun isr => (isr.1, 0)).toList)

/-- The blocks that are freed with the modules of a driver. -/
def blocksOfModules (s : State) (modules : List ℕ) : List Block :=
  modules.flatMap fun m => blocksOfModule s (s.modls m)

/-- The blocks that are freed with a driver. -/
def blocksOfDriver (s : State) (d : ℕ) : List Block :=
  (d, 0) :: blocksOfModules s (s.drvrs d).modules

/-- The blocks that are freed with a host. -/
def blocksOfHost (s : State) (h : ℕ) : List Block :=
  (h, 0) :: (s.hosts h).drivers.flatMap (blocksOfDriver s)

section Free

variable {s : State}

theorem insLibFreeSpace_eq {spaces : List (ℕ × AddressSpace)}
    (hnodup : (blocksOfSpaces spaces).Nodup) (hlive : ∀ b ∈ blocksOfSpaces spaces, s.live b = true) :
    insLibFreeSpace spaces s = remove (blocksOfSpaces spaces) s := by
  induction spaces with
  | nil => exact (remove_nil s).symm
  | cons as next ih =>
    obtain ⟨hnot, hrest⟩ := List.nodup_cons.mp hnodup
    have has : s.live (as.1, 0) = true := hlive _ List.mem_cons_self
    rw [insLibFreeSpace, use_of_live has, ih hrest fun b hb => hlive b (List.mem_cons_of_mem _ hb)]
    exact free_remove has hnot

theorem insLibFreeAddress_eq {a : ℕ} (hnodup : (blocksOfAddress s a).Nodup)
    (hlive : ∀ b ∈ blocksOfAddress s a, s.live b = true) :
    insLibFreeAddress a s = remove (blocksOfAddress s a) s := by
  obtain ⟨hnot, hrest⟩ := List.nodup_cons.mp hnodup
  have ha : s.live (a, 0) = true := hlive _ List.mem_cons_self
  unfold insLibFreeAddress
  rw [use_of_live ha,
    insLibFreeSpace_eq hrest fun b hb => hlive b (List.mem_cons_of_mem _ hb)]
  exact free_remove ha hnot

theorem free_toList {l : List Block} (o : Option Block) (hnot : ∀ b ∈ o.toList, b ∉ l)
    (hlive : ∀ b ∈ o.toList, s.live b = true) :
    o.elim (remove l s) (remove l s).free = remove (l ++ o.toList) s := by
  cases o with
  | none =>
    show remove l s = remove (l ++ []) s
    rw [List.append_nil]
  | some b =>
    have hb : b ∈ (some b).toList := Option.mem_toList.mpr rfl
    show (remove l s).free b = _
    rw [free_remove (hlive b hb) (hnot b hb)]
    exact remove_perm (List.perm_append_singleton b l).symm s

theorem freeParts_parts (modld : InsLibModlDesc) (s : State) :
    freeParts modld s =
      let s1 := freeParts { modld with extra := none, isr := none } s
      let s2 := (modld.extra.map Prod.fst).elim s1 s1.free
      (modld.isr.map fun isr => (isr.1, 0)).elim s2 s2.free := by
  unfold freeParts
  cases modld.extra <;> cases modld.isr <;> rfl

theorem freeParts_address {modld : InsLibModlDesc} {l : List Block}
    (hl : (freedAddress modld).flatMap (blocksOfAddress s) = l) (hnodup : l.Nodup)
    (hlive : ∀ b ∈ l, s.live b = true) :
    freeParts { modld with extra := none, isr := none } s = remove l s := by
  subst hl
  by_cases hbus : modld.busType = .notSet
  · have hnone : freedAddress modld = [] := if_pos hbus
    rw [hnone, List.flatMap_nil, remove_nil]
    unfold freeParts
    dsimp only
    rw [hbus]
  · have hfreed : freedAddress modld = modld.moduleAddress.toList := if_neg hbus
    rw [hfreed] at hnodup hlive ⊢
    unfold freeParts
    dsimp only
    cases ha : modld.moduleAddress with
    | none =>
      rw [Option.toList_none, List.flatMap_nil, remove_nil]
      split <;> first | rfl | contradiction
    | some a =>
      rw [ha, Option.toList_some, List.flatMap_singleton] at hnodup hlive
      rw [Option.toList_some, List.flatMap_singleton, ← insLibFreeAddress_eq hnodup hlive]
      split
      · contradiction
      · contradiction
      · rw [Option.some.inj ‹some a = some _›]

theorem freeParts_eq {modld : InsLibModlDesc} (hnodup : (blocksOfModule s modld).Nodup)
    (hlive : ∀ b ∈ blocksOfModule s modld, s.live b = true) :
    freeParts modld s = remove (blocksOfModule s modld) s := by
  obtain ⟨haddress, hrest, hdisjoint⟩ := List.nodup_append'.mp hnodup
  have hextra := free_toList (s := s) (modld.extra.map Prod.fst)
    (fun b hb hmem => hdisjoint hmem (List.mem_append_left _ hb))
    (fun b hb => hlive b (List.mem_append_right _ (List.mem_append_left _ hb)))
  have hisr := free_toList (s := s) (l := (freedAddress modld).flatMap (blocksOfAddress s) ++
      (modld.extra.map Prod.fst).toList) (modld.isr.map fun isr => (isr.1, 0))
    (fun b hb hmem => (List.mem_append.mp hmem).elim
      (fun h => hdisjoint h (List.mem_append_right _ hb))
      (fun h => (List.nodup_append'.mp hrest).2.2 h hb))
    (fun b hb => hlive b (List.mem_append_right _ (List.mem_append_right _ hb)))
  rw [freeParts_parts]
  dsimp only
  rw [freeParts_address rfl haddress fun b hb => hlive b (List.mem_append_left _ hb), hextra, hisr,
    List.append_assoc]
  rfl

theorem insLibFreeModule_eq {modules : List ℕ} (hnodup : (blocksOfModules s modules).Nodup)
    (hlive : ∀ b ∈ blocksOfModules s modules, s.live b = true)
    (hnodes : ∀ m ∈ modules, s.live (m, 0) = true ∧ (m, 0) ∉ blocksOfModules s modules) :
    insLibFreeModule modules s = remove (blocksOfModules s modules) s := by
  induction modules with
  | nil => exact (remove_nil s).symm
  | cons m next ih =>
    obtain ⟨hm, hnext, hdisjoint⟩ := List.nodup_append'.mp hnodup
    obtain ⟨hnode, hnot⟩ := hnodes m List.mem_cons_self
    have hmore : (m, 0) ∉ blocksOfModules s next := fun h => hnot (List.mem_append_right _ h)
    rw [insLibFreeModule, use_of_live hnode,
      ih hnext (fun b hb => hlive b (List.mem_append_right _ hb)) fun m' hm' =>
        ⟨(hnodes m' (List.mem_cons_of_mem _ hm')).1,
          fun h => (hnodes m' (List.mem_cons_of_mem _ hm')).2 (List.mem_append_right _ h)⟩]
    rw [use_of_live (remove_live.mpr ⟨hnode, hmore⟩)]
    show freeParts (s.modls m) (remove (blocksOfModules s next) s) = _
    rw [freeParts_eq (s := remove (blocksOfModules s next) s) hm fun b hb =>
        remove_live.mpr ⟨hlive b (List.mem_append_left _ hb), fun h => hdisjoint hb h⟩,
      remove_remove]
    exact remove_perm List.perm_append_comm s

theorem insLibFreeDriver_eq {drivers : List ℕ} (hnodup : (drivers.flatMap (blocksOfDriver s)).Nodup)
    (hlive : ∀ b ∈ drivers.flatMap (blocksOfDriver s), s.live b = true)
    (hnodes : ∀ d ∈ drivers, ∀ m ∈ (s.drvrs d).modules,
      s.live (m, 0) = true ∧ (m, 0) ∉ drivers.flatMap (blocksOfDriver s)) :
    insLibFreeDriver drivers s = remove (drivers.flatMap (blocksOfDriver s)) s := by
  induction drivers with
  | nil => exact (remove_nil s).symm
  | cons d next ih =>
    rw [List.flatMap_cons] at hnodup hlive hnodes ⊢
    obtain ⟨hd, hnext, hdisjoint⟩ := List.nodup_append'.mp hnodup
    obtain ⟨hnot, hmodules⟩ := List.nodup_cons.mp hd
    have hdriver : s.live (d, 0) = true := hlive _ (List.mem_append_left _ List.mem_cons_self)
    have hmore : (d, 0) ∉ next.flatMap (blocksOfDriver s) := hdisjoint List.mem_cons_self
    have hkept : ∀ b ∈ blocksOfDriver s d,
        (remove (next.flatMap (blocksOfDriver s)) s).live b = true := fun b hb =>
      remove_live.mpr ⟨hlive b (List.mem_append_left _ hb), hdisjoint hb⟩
    rw [insLibFreeDriver, use_of_live hdriver,
      ih hnext (fun b hb => hlive b (List.mem_append_right _ hb)) fun d' hd' m hm =>
        ⟨(hnodes d' (List.mem_cons_of_mem _ hd') m hm).1,
          fun h => (hnodes d' (List.mem_cons_of_mem _ hd') m hm).2 (List.mem_append_right _ h)⟩]
    rw [use_of_live (remove_live.mpr ⟨hdriver, hmore⟩)]
    have hfree : insLibFreeModule (s.drvrs d).modules (remove (next.flatMap (blocksOfDriver s)) s) =
        remove (blocksOfModules s (s.drvrs d).modules)
          (remove (next.flatMap (blocksOfDriver s)) s) := by
      refine insLibFreeModule_eq (s := remove (next.flatMap (blocksOfDriver s)) s) hmodules
        (fun b hb => hkept b (List.mem_cons_of_mem _ hb)) fun m hm => ?_
      obtain ⟨hnode, hout⟩ := hnodes d List.mem_cons_self m hm
      exact ⟨remove_live.mpr ⟨hnode, fun h => hout (List.mem_append_right _ h)⟩,
        fun h => hout (List.mem_append_left _ (List.mem_cons_of_mem _ h))⟩
    show (insLibFreeModule (s.drvrs d).modules (remove _ s)).free (d, 0) = _
    rw [hfree, free_remove (hkept _ List.mem_cons_self) hnot, remove_remove]
    exact remove_perm List.perm_append_comm s

theorem insLibFreeHost_eq {h : ℕ} (hnodup : (blocksOfHost s h).Nodup)
    (hlive : ∀ b ∈ blocksOfHost s h, s.live b = true)
    (hnodes : ∀ d ∈ (s.hosts h).drivers, ∀ m ∈ (s.drvrs d).modules,
      s.live (m, 0) = true ∧ (m, 0) ∉ blocksOfHost s h) :
    insLibFreeHost (some h) s = remove (blocksOfHost s h) s := by
  obtain ⟨hnot, hdrivers⟩ := List.nodup_cons.mp hnodup
  have hhost : s.live (h, 0) = true := hlive _ List.mem_cons_self
  unfold insLibFreeHost
  dsimp only
  rw [use_of_live hhost, insLibFreeDriver_eq hdrivers
    (fun b hb => hlive b (List.mem_cons_of_mem _ hb)) fun d hd m hm =>
      ⟨(hnodes d hd m hm).1, fun h => (hnodes d hd m hm).2 (List.mem_cons_of_mem _ h)⟩]
  exact free_remove hhost hnot

end Free

/-! ### One place for every block -/

/-- What a block can be linked to. -/
inductive Slot
  | host
  | driver (hostd : ℕ)
  | module (drvrd : ℕ)
  | address (modld : ℕ)
  | isr (modld : ℕ)
  | space (address : ℕ)
  deriving DecidableEq, Repr

/-- The blocks `l` are linked to `slot`: they are allocated, and none of them comes twice. -/
structure Owns (parent : ℕ → Slot) (live : Block → Bool) (slot : Slot) (l : List ℕ) : Prop where
  once : l.Nodup
  live : ∀ x ∈ l, live (x, 0) = true
  parent : ∀ x ∈ l, parent x = slot

/-- The extra parameters of module `m` are allocated, and have its number. -/
def OwnsExtra (live : Block → Bool) (m : ℕ) (modld : InsLibModlDesc) : Prop :=
  ∀ x, modld.extra = some x → live x.1 = true ∧ x.1.1 = m ∧ x.1.2 ≠ 0

/-- Every block that is linked is allocated, and linked to its parent only. -/
structure Tree (parent : ℕ → Slot) (s : State) : Prop where
  host : Owns parent s.live .host s.hostd.toList
  drivers : ∀ h, Owns parent s.live (.driver h) (s.hosts h).drivers
  modules : ∀ d, Owns parent s.live (.module d) (s.drvrs d).modules
  address : ∀ m, Owns parent s.live (.address m) (freedAddress (s.modls m))
  isr : ∀ m, Owns parent s.live (.isr m) ((s.modls m).isr.map Prod.fst).toList
  extra : ∀ m, OwnsExtra s.live m (s.modls m)
  spaces : ∀ a, Owns parent s.live (.space a) ((s.addrs a).spaces.map Prod.fst)

/-- The module that a block is a part of, when it is one. -/
def moduleOfBlock (parent : ℕ → Slot) : Block → Option ℕ
  | (x, 0) =>
    match parent x with
    | .address m => some m
    | .isr m => some m
    | .space a =>
      match parent a with
      | .address m => some m
      | _ => none
    | _ => none
  | (m, _ + 1) => some m

namespace Tree

variable {parent : ℕ → Slot} {s : State}

theorem spaces_mem (h : Tree parent s) {a : ℕ} {b : Block}
    (hb : b ∈ blocksOfSpaces (s.addrs a).spaces) :
    s.live b = true ∧ b.2 = 0 ∧ parent b.1 = .space a := by
  obtain ⟨as, has, rfl⟩ := List.mem_map.mp hb
  have hmem : as.1 ∈ (s.addrs a).spaces.map Prod.fst := List.mem_map_of_mem has
  exact ⟨(h.spaces a).live _ hmem, rfl, (h.spaces a).parent _ hmem⟩

theorem module_mem (h : Tree parent s) {m : ℕ} {b : Block}
    (hb : b ∈ blocksOfModule s (s.modls m)) :
    s.live b = true ∧ moduleOfBlock parent b = some m := by
  rcases List.mem_append.mp hb with hb | hb
  · obtain ⟨a, ha, hb⟩ := List.mem_flatMap.mp hb
    have hparent := (h.address m).parent a ha
    rcases List.mem_cons.mp hb with rfl | hb
    · refine ⟨(h.address m).live a ha, ?_⟩
      show (match parent a with
        | .address m => some m
        | .isr m => some m
        | .space a =>
          match parent a with
          | .address m => some m
          | _ => none
        | _ => none) = some m
      rw [hparent]
    · obtain ⟨hlive, hzero, hspace⟩ := h.spaces_mem hb
      obtain ⟨x, k⟩ := b
      dsimp only at hzero hspace
      subst hzero
      refine ⟨hlive, ?_⟩
      simp only [moduleOfBlock, hspace, hparent]
  · rcases List.mem_append.mp hb with hb | hb
    · obtain ⟨x, hx, rfl⟩ := Option.map_eq_some_iff.mp (Option.mem_toList.mp hb)
      obtain ⟨hlive, hm, hk⟩ := h.extra m x hx
      obtain ⟨⟨n, k⟩, v⟩ := x
      obtain ⟨k, rfl⟩ := Nat.exists_eq_succ_of_ne_zero hk
      exact ⟨hlive, congrArg some hm⟩
    · obtain ⟨isr, hisr, rfl⟩ := Option.map_eq_some_iff.mp (Option.mem_toList.mp hb)
      have hmem : isr.1 ∈ ((s.modls m).isr.map Prod.fst).toList := by
        rw [hisr]
        exact Option.mem_toList.mpr rfl
      refine ⟨(h.isr m).live _ hmem, ?_⟩
      simp only [moduleOfBlock, (h.isr m).parent _ hmem]

theorem spaces_nodup (h : Tree parent s) (a : ℕ) : (blocksOfSpaces (s.addrs a).spaces).Nodup := by
  have honce := (h.spaces a).once.map (f := fun x => ((x, 0) : Block)) fun _ _ heq =>
    (Prod.mk.inj heq).1
  rwa [List.map_map] at honce

theorem address_nodup (h : Tree parent s) {m a : ℕ} (ha : a ∈ freedAddress (s.modls m)) :
    (blocksOfAddress s a).Nodup := by
  refine List.nodup_cons.mpr ⟨fun hmem => ?_, h.spaces_nodup a⟩
  have hspace := (h.spaces_mem hmem).2.2
  have haddress := (h.address m).parent a ha
  rw [show parent a = Slot.space a from hspace] at haddress
  cases haddress

theorem freedAddress_cases (modld : InsLibModlDesc) :
    freedAddress modld = [] ∨ ∃ a, freedAddress modld = [a] := by
  unfold freedAddress
  split
  · exact .inl rfl
  · cases modld.moduleAddress with
    | none => exact .inl rfl
    | some a => exact .inr ⟨a, rfl⟩

theorem module_nodup (h : Tree parent s) (m : ℕ) : (blocksOfModule s (s.modls m)).Nodup := by
  -- the kind of a block: extra parameters have a number, the others a parent
  have haddress : ∀ b ∈ (freedAddress (s.modls m)).flatMap (blocksOfAddress s),
      b.2 = 0 ∧ parent b.1 ≠ .isr m := by
    intro b hb
    obtain ⟨a, ha, hb⟩ := List.mem_flatMap.mp hb
    rcases List.mem_cons.mp hb with rfl | hb
    · exact ⟨rfl, by rw [(h.address m).parent a ha]; exact nofun⟩
    · exact ⟨(h.spaces_mem hb).2.1, by rw [(h.spaces_mem hb).2.2]; exact nofun⟩
  have hextra : ∀ b ∈ ((s.modls m).extra.map Prod.fst).toList, b.2 ≠ 0 := by
    intro b hb
    obtain ⟨x, hx, rfl⟩ := Option.map_eq_some_iff.mp (Option.mem_toList.mp hb)
    exact (h.extra m x hx).2.2
  have hisr : ∀ b ∈ ((s.modls m).isr.map fun isr => ((isr.1, 0) : Block)).toList,
      b.2 = 0 ∧ parent b.1 = .isr m := by
    intro b hb
    obtain ⟨isr, hsome, rfl⟩ := Option.map_eq_some_iff.mp (Option.mem_toList.mp hb)
    refine ⟨rfl, (h.isr m).parent _ ?_⟩
    rw [hsome]
    exact Option.mem_toList.mpr rfl
  refine List.nodup_append'.mpr ⟨?_, List.nodup_append'.mpr
    ⟨Option.toList_nodup _, Option.toList_nodup _, fun b hb hb' => hextra b hb (hisr b hb').1⟩,
    fun b hb hb' => ?_⟩
  · rcases freedAddress_cases (s.modls m) with hnone | ⟨a, hone⟩
    · rw [hnone]
      exact List.nodup_nil
    · rw [hone, List.flatMap_singleton]
      exact h.address_nodup (by rw [hone]; exact List.mem_singleton_self a)
  · rcases List.mem_append.mp hb' with hb' | hb'
    · exact hextra b hb' (haddress b hb).1
    · exact (haddress b hb).2 (hisr b hb').2

theorem modules_mem (h : Tree parent s) {d : ℕ} {b : Block}
    (hb : b ∈ blocksOfModules s (s.drvrs d).modules) :
    s.live b = true ∧ ∃ m, moduleOfBlock parent b = some m ∧ parent m = .module d := by
  obtain ⟨m, hm, hb⟩ := List.mem_flatMap.mp hb
  exact ⟨(h.module_mem hb).1, m, (h.module_mem hb).2, (h.modules d).parent m hm⟩

theorem modules_nodup (h : Tree parent s) (d : ℕ) :
    (blocksOfModules s (s.drvrs d).modules).Nodup := by
  refine List.nodup_flatMap.mpr ⟨fun m _ => h.module_nodup m, ?_⟩
  refine (h.modules d).once.pairwise_of_forall_ne fun m _ m' _ hne b hb hb' => hne ?_
  exact Option.some.inj ((h.module_mem hb).2.symm.trans (h.module_mem hb').2)

theorem moduleOfBlock_node {x : ℕ} {slot : Slot} (hparent : parent x = slot)
    (hslot : (∃ h, slot = .driver h) ∨ (∃ d, slot = .module d) ∨ slot = .host) :
    moduleOfBlock parent (x, 0) = none := by
  rcases hslot with ⟨h, rfl⟩ | ⟨d, rfl⟩ | rfl <;> simp only [moduleOfBlock, hparent]

theorem driver_mem (h : Tree parent s) {hostd d : ℕ} (hd : d ∈ (s.hosts hostd).drivers) {b : Block}
    (hb : b ∈ blocksOfDriver s d) :
    s.live b = true ∧ (b = (d, 0) ∨
      ∃ m, moduleOfBlock parent b = some m ∧ parent m = .module d) := by
  rcases List.mem_cons.mp hb with rfl | hb
  · exact ⟨(h.drivers hostd).live d hd, .inl rfl⟩
  · exact ⟨(h.modules_mem hb).1, .inr (h.modules_mem hb).2⟩

theorem driver_nodup (h : Tree parent s) {hostd d : ℕ} (hd : d ∈ (s.hosts hostd).drivers) :
    (blocksOfDriver s d).Nodup := by
  refine List.nodup_cons.mpr ⟨fun hmem => ?_, h.modules_nodup d⟩
  obtain ⟨-, m, hm, -⟩ := h.modules_mem hmem
  rw [moduleOfBlock_node ((h.drivers hostd).parent d hd) (.inl ⟨_, rfl⟩)] at hm
  cases hm

theorem drivers_nodup (h : Tree parent s) (hostd : ℕ) :
    ((s.hosts hostd).drivers.flatMap (blocksOfDriver s)).Nodup := by
  refine List.nodup_flatMap.mpr ⟨fun d hd => h.driver_nodup hd, ?_⟩
  refine (h.drivers hostd).once.pairwise_of_forall_ne fun d hd d' hd' hne b hb hb' => ?_
  have hnode : ∀ d ∈ (s.hosts hostd).drivers, moduleOfBlock parent (d, 0) = none := fun d hd =>
    moduleOfBlock_node ((h.drivers hostd).parent d hd) (.inl ⟨_, rfl⟩)
  rcases (h.driver_mem hd hb).2 with rfl | ⟨m, hm, hparent⟩
  · rcases (h.driver_mem hd' hb').2 with heq | ⟨m, hm, -⟩
    · exact hne (Prod.mk.inj heq).1
    · rw [hnode d hd] at hm
      cases hm
  · rcases (h.driver_mem hd' hb').2 with rfl | ⟨m', hm', hparent'⟩
    · rw [hnode d' hd'] at hm
      cases hm
    · obtain rfl := Option.some.inj (hm.symm.trans hm')
      rw [hparent] at hparent'
      exact hne (Slot.module.inj hparent')

variable {hostd : ℕ}

theorem host_mem (h : Tree parent s) (hhost : s.hostd = some hostd) :
    s.live (hostd, 0) = true ∧ parent hostd = .host := by
  have hmem : hostd ∈ s.hostd.toList := Option.mem_toList.mpr hhost
  exact ⟨h.host.live _ hmem, h.host.parent _ hmem⟩

theorem blocksOfHost_nodup (h : Tree parent s) (hhost : s.hostd = some hostd) :
    (blocksOfHost s hostd).Nodup := by
  have hparent := (h.host_mem hhost).2
  refine List.nodup_cons.mpr ⟨fun hmem => ?_, h.drivers_nodup hostd⟩
  obtain ⟨d, hd, hb⟩ := List.mem_flatMap.mp hmem
  rcases (h.driver_mem hd hb).2 with heq | ⟨m, hm, -⟩
  · obtain rfl := (Prod.mk.inj heq).1
    have hdriver := (h.drivers hostd).parent _ hd
    rw [hparent] at hdriver
    cases hdriver
  · rw [moduleOfBlock_node hparent (.inr (.inr rfl))] at hm
    cases hm

theorem blocksOfHost_live (h : Tree parent s) (hhost : s.hostd = some hostd) {b : Block}
    (hb : b ∈ blocksOfHost s hostd) : s.live b = true := by
  rcases List.mem_cons.mp hb with rfl | hb
  · exact (h.host_mem hhost).1
  · obtain ⟨d, hd, hb⟩ := List.mem_flatMap.mp hb
    exact (h.driver_mem hd hb).1

theorem node_notMem (h : Tree parent s) (hhost : s.hostd = some hostd) {d m : ℕ}
    (hm : m ∈ (s.drvrs d).modules) : (m, 0) ∉ blocksOfHost s hostd := by
  have hparent := (h.modules d).parent m hm
  intro hb
  rcases List.mem_cons.mp hb with heq | hb
  · obtain rfl := (Prod.mk.inj heq).1
    rw [(h.host_mem hhost).2] at hparent
    cases hparent
  · obtain ⟨d', hd', hb⟩ := List.mem_flatMap.mp hb
    rcases (h.driver_mem hd' hb).2 with heq | ⟨m', hm', -⟩
    · obtain rfl := (Prod.mk.inj heq).1
      rw [(h.drivers hostd).parent _ hd'] at hparent
      cases hparent
    · rw [moduleOfBlock_node hparent (.inr (.inl ⟨_, rfl⟩))] at hm'
      cases hm'

theorem insLibFreeHost_eq (h : Tree parent s) :
    insLibFreeHost s.hostd s = remove ((s.hostd.toList).flatMap (blocksOfHost s)) s := by
  cases hhost : s.hostd with
  | none =>
    rw [Option.toList_none, List.flatMap_nil, remove_nil]
    rfl
  | some hostd =>
    rw [Option.toList_some, List.flatMap_singleton]
    exact Install.insLibFreeHost_eq (h.blocksOfHost_nodup hhost)
      (fun b hb => h.blocksOfHost_live hhost hb)
      fun d _ m hm => ⟨(h.modules d).live m hm, h.node_notMem hhost hm⟩

end Tree

end KernelModules.Utils.Install
