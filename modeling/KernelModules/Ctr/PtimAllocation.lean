import Mathlib
import KernelModules.Ctr.Effects
import KernelModules.Lib.FirstFit

/-!
# Room for a PTIM

`CREATE_PTIM_OBJECT` looks for as many adjacent empty slots in the trigger table of a module as the
object has triggers, and takes them.

* `searchSpace_eq` says that the search is a first fit;
* `Created` is what a call that succeeds leaves, `createPtim_iff` when it does: the client's own
  module is not locked, and there is room.
-/

namespace KernelModules.Ctr

open Function KernelModules.Lib

/-- `want` adjacent empty slots of a module, from `start` on. -/
def Room (m : ModuleContext) (want start : ℕ) : Prop :=
  FreeRun (fun i => m.eqpNum i = 0) ramTableSize want start

/-- The object has been bound to the slots from `start` on, and nothing else has changed. -/
structure Created (s s' : WorkingArea) (ptim : PtimBinding) (start : ℕ) : Prop where
  state : s' =
    { s with
      ptim := s.ptim ++ [{ ptim with startIndex := BitVec.ofNat 16 start }]
      moduleContexts := s'.moduleContexts }
  others : ∀ midx, midx ≠ ptim.moduleIndex.toNat →
    s'.moduleContexts midx = s.moduleContexts midx
  slots : Taken (s.moduleContexts ptim.moduleIndex.toNat)
    (s'.moduleContexts ptim.moduleIndex.toNat)
    (fun i => start ≤ i ∧ i < start + ptim.size.toNat) ptim

theorem searchSpace_eq (m : ModuleContext) (want n i size start : ℕ) :
    searchSpace m want n i size start =
      firstFit (fun i => m.eqpNum i = 0) want n i size start := by
  induction n generalizing i size start with
  | zero => rfl
  | succ n ih =>
    unfold searchSpace firstFit
    simp only [ih]

theorem takeSlots_returns (m : ModuleContext) (start size : ℕ) (ptim : PtimBinding) :
    ∃ m', loop (fun j m => some (takeSlot m (start + j) ptim)) size m = some m' :=
  loop_returns (P := fun _ _ => True) trivial fun _ _ _ _ => ⟨_, rfl, trivial⟩

theorem createPtim_cases {s : WorkingArea} {ptim : PtimBinding}
    (hnew : ∀ o ∈ s.ptim, ptim.eqpNum ≠ o.eqpNum) (hlist : s.ptim.length < 2048)
    (hmod : ptim.moduleIndex.toNat < s.modules) (hsize : 1 ≤ ptim.size.toNat) :
    (createPtim s ptim = s.fail .EINVAL ∧
        ∀ start, ¬ Room (s.moduleContexts ptim.moduleIndex.toNat) ptim.size.toNat start) ∨
      ∃ start s', createPtim s ptim = some (.ok (), s') ∧ Created s s' ptim start ∧
        IsLeast {start | Room (s.moduleContexts ptim.moduleIndex.toNat) ptim.size.toNat start}
          start := by
  have hany : ¬ (s.ptim.any fun o => ptim.eqpNum = o.eqpNum) = true := by
    simp only [List.any_eq_true, decide_eq_true_eq, not_exists, not_and]
    exact hnew
  unfold createPtim
  rw [if_neg hany, if_neg (by omega), if_pos hmod]
  dsimp only
  cases hsearch : searchSpace (s.moduleContexts ptim.moduleIndex.toNat) ptim.size.toNat
    ramTableSize 0 0 0 with
  | none =>
    rw [searchSpace_eq] at hsearch
    exact .inl ⟨rfl, firstFit_none hsize hsearch⟩
  | some start =>
    rw [searchSpace_eq] at hsearch
    obtain ⟨m', hm'⟩ := takeSlots_returns (s.moduleContexts ptim.moduleIndex.toNat) start
      ptim.size.toNat ptim
    have htaken := takeSlots_taken hm'
    refine .inr ⟨start,
      { s.setModule ptim.moduleIndex.toNat m' with
        ptim := s.ptim ++ [{ ptim with startIndex := BitVec.ofNat 16 start }] },
      ?_, ⟨rfl, ?_, ?_⟩, firstFit_isLeast hsize hsearch⟩
    · dsimp only
      rw [hm']
      rfl
    · intro midx hne
      exact update_of_ne hne _ _
    · show Taken _ (update s.moduleContexts ptim.moduleIndex.toNat m' ptim.moduleIndex.toNat) _ _
      rw [update_self]
      exact htaken

/-- **Creating a PTIM.**  An unused object for an installed module is created if and only if the
client's own module is not locked and there is room; it then takes the lowest place, and if it
fails nothing changes. -/
theorem createPtim_iff {s : WorkingArea} {cnum : ℕ} (hcnum : cnum < 16)
    (hopen : (s.clientContexts ⟨cnum, hcnum⟩).inUse = true)
    (hown : (s.moduleContexts (s.clientContexts ⟨cnum, hcnum⟩).moduleIndex).inUse = true)
    {ptim : PtimBinding} (hnew : ∀ o ∈ s.ptim, ptim.eqpNum ≠ o.eqpNum)
    (hlist : s.ptim.length < 2048) (hmod : ptim.moduleIndex.toNat < s.modules)
    (hsize : 1 ≤ ptim.size.toNat) :
    ∃ r s', ctrDrvrIoctl s cnum (.createPtim ptim) = some (r, s') ∧
      (r = .ok () ↔ (s.moduleContexts (s.clientContexts ⟨cnum, hcnum⟩).moduleIndex).upLock = false ∧
        ∃ start, Room (s.moduleContexts ptim.moduleIndex.toNat) ptim.size.toNat start) ∧
      (r = .ok () → ∃ start, Created s s' ptim start ∧
        IsLeast {start | Room (s.moduleContexts ptim.moduleIndex.toNat) ptim.size.toNat start}
          start) ∧
      (r ≠ .ok () → s' = s) := by
  have hrun : ctrDrvrIoctl s cnum (.createPtim ptim) =
      if (s.moduleContexts (s.clientContexts ⟨cnum, hcnum⟩).moduleIndex).upLock then
        s.fail .EINVAL
      else createPtim s ptim := by
    rw [ctrDrvrIoctl, dif_pos hcnum]
    dsimp only
    rw [hopen, hown]
    rfl
  rw [hrun]
  by_cases hlock : (s.moduleContexts (s.clientContexts ⟨cnum, hcnum⟩).moduleIndex).upLock = true
  · rw [if_pos hlock]
    refine ⟨_, _, rfl, ⟨(fun h => by cases h), fun h => ?_⟩, (fun h => by cases h), fun _ => rfl⟩
    rw [hlock] at h
    cases h.1
  · rw [if_neg hlock]
    have hunlocked := Bool.eq_false_iff.mpr hlock
    obtain ⟨hfail, hnone⟩ | ⟨start, s', hok, hcreated, hleast⟩ :=
      createPtim_cases hnew hlist hmod hsize
    · rw [hfail]
      refine ⟨_, _, rfl, ⟨(fun h => by cases h), fun h => ?_⟩, (fun h => by cases h), fun _ => rfl⟩
      obtain ⟨-, start, hroom⟩ := h
      exact absurd hroom (hnone start)
    · refine ⟨_, s', hok, iff_of_true rfl ⟨hunlocked, start, hleast.1⟩,
        fun _ => ⟨start, hcreated, hleast⟩, fun h => absurd rfl h⟩

/-- One card and one client, with the lock of the card's module. -/
def oneClient (upLock : Bool) : WorkingArea :=
  { oneModule with
    moduleContexts := fun midx => { blankModule (midx == 0) with upLock := upLock }
    clientContexts := update oneModule.clientContexts firstClient.clientIndex firstClient }

/-- A PTIM of three triggers. -/
def threeTriggers : PtimBinding := ⟨7, 0, 1, 3, 0⟩

theorem room_oneClient (upLock : Bool) : Room ((oneClient upLock).moduleContexts 0) 3 0 :=
  ⟨by decide, fun _ _ _ => rfl⟩

theorem createPtim_iff_three :
    ∃ s', ctrDrvrIoctl (oneClient false) 0 (.createPtim threeTriggers) = some (.ok (), s') ∧
      Created (oneClient false) s' threeTriggers 0 := by
  have hnew : ∀ o ∈ (oneClient false).ptim, threeTriggers.eqpNum ≠ o.eqpNum :=
    fun o ho => by cases ho
  obtain ⟨r, s', hrun, hiff, hok, -⟩ := createPtim_iff (s := oneClient false)
    (show 0 < 16 by decide) rfl rfl hnew (by decide) (by decide) (by decide)
  obtain rfl := hiff.mpr ⟨rfl, 0, room_oneClient false⟩
  obtain ⟨start, hcreated, hleast⟩ := hok rfl
  obtain rfl : start = 0 := Nat.le_zero.mp (hleast.2 (room_oneClient false))
  exact ⟨s', hrun, hcreated⟩

/-- On a locked module the call fails, whatever room there is. -/
theorem createPtim_locked :
    Room ((oneClient true).moduleContexts 0) 3 0 ∧
      ctrDrvrIoctl (oneClient true) 0 (.createPtim threeTriggers) =
        some (.error .EINVAL, oneClient true) :=
  ⟨room_oneClient true, rfl⟩

end KernelModules.Ctr
