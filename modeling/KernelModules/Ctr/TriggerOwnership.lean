import KernelModules.Ctr.Effects

/-!
# Who owns a trigger slot

A PTIM object is created with a run of adjacent slots of one module, which then carry its number
and the class PTIM until the object is destroyed.

* `Ownership` says that the object list and the slots agree: an object owns exactly its run, the
  runs are disjoint, and every slot of class PTIM belongs to an object;
* `OwnInv` is the inductive form, which also knows that no object is numbered zero, the mark of an
  empty slot;
* `MakesPtim` is the one thing that breaks it: a `SET_ACTION` that writes the class PTIM into a
  slot that is numbered zero without being of class HARD, as an instance of CTIM number zero is.
  `ownership_of_reachUnder` is the invariant over every run without it.
-/

namespace KernelModules.Ctr

open Function KernelModules.Lib

/-- Slot `i` is in the run of the object. -/
def PtimBinding.Covers (o : PtimBinding) (i : ℕ) : Prop :=
  o.startIndex.toNat ≤ i ∧ i < o.startIndex.toNat + o.size.toNat

/-- The object list and the trigger tables agree. -/
structure Ownership (s : WorkingArea) : Prop where
  /-- an object's number and class are on the slots of its run and nowhere else -/
  owns : ∀ o ∈ s.ptim, o.startIndex.toNat + o.size.toNat ≤ ramTableSize ∧ ∀ midx i,
    ((s.moduleContexts midx).eqpNum i = o.eqpNum ∧ (s.moduleContexts midx).eqpClass i = .ptim ↔
      midx = o.moduleIndex.toNat ∧ o.Covers i)
  disjoint : ∀ o ∈ s.ptim, ∀ o' ∈ s.ptim, o ≠ o' → o.moduleIndex = o'.moduleIndex →
    ∀ i, ¬ (o.Covers i ∧ o'.Covers i)
  unique : (s.ptim.map PtimBinding.eqpNum).Nodup
  listed : ∀ midx i, (s.moduleContexts midx).eqpClass i = .ptim →
    ∃ o ∈ s.ptim, midx = o.moduleIndex.toNat ∧ o.Covers i
      ∧ (s.moduleContexts midx).eqpNum i = o.eqpNum

/-- The inductive form. -/
structure OwnInv (s : WorkingArea) : Prop where
  bounds : ∀ o ∈ s.ptim,
    o.eqpNum ≠ 0 ∧ o.startIndex.toNat + o.size.toNat ≤ ramTableSize
  holds : ∀ o ∈ s.ptim, ∀ i, o.Covers i →
    (s.moduleContexts o.moduleIndex.toNat).eqpNum i = o.eqpNum
      ∧ (s.moduleContexts o.moduleIndex.toNat).eqpClass i = .ptim
  unique : (s.ptim.map PtimBinding.eqpNum).Nodup
  listed : ∀ midx i, (s.moduleContexts midx).eqpClass i = .ptim →
    ∃ o ∈ s.ptim, midx = o.moduleIndex.toNat ∧ o.Covers i
      ∧ (s.moduleContexts midx).eqpNum i = o.eqpNum

theorem OwnInv.eq_of_eqpNum {s : WorkingArea} (h : OwnInv s) {o o' : PtimBinding} (ho : o ∈ s.ptim)
    (ho' : o' ∈ s.ptim) (heq : o.eqpNum = o'.eqpNum) : o = o' :=
  List.inj_on_of_nodup_map h.unique ho ho' heq

theorem OwnInv.ownership {s : WorkingArea} (h : OwnInv s) : Ownership s where
  owns o ho := by
    refine ⟨(h.bounds o ho).2, fun midx i => ⟨?_, ?_⟩⟩
    · rintro ⟨hnum, hclass⟩
      obtain ⟨o', ho', hmidx, hcov, hnum'⟩ := h.listed midx i hclass
      have heq : o' = o := h.eq_of_eqpNum ho' ho (hnum'.symm.trans hnum)
      exact heq ▸ ⟨hmidx, hcov⟩
    · rintro ⟨rfl, hcov⟩
      exact h.holds o ho i hcov
  disjoint := by
    rintro o ho o' ho' hne hmod i ⟨hcov, hcov'⟩
    have hnum := (h.holds o ho i hcov).1
    rw [hmod, (h.holds o' ho' i hcov').1] at hnum
    exact hne (h.eq_of_eqpNum ho ho' hnum.symm)
  unique := h.unique
  listed := h.listed

theorem OwnInv.not_ptim {s : WorkingArea} (h : OwnInv s) {midx i : ℕ}
    (hempty : (s.moduleContexts midx).eqpNum i = 0) :
    (s.moduleContexts midx).eqpClass i ≠ .ptim := by
  intro hclass
  obtain ⟨o, ho, -, -, hnum⟩ := h.listed midx i hclass
  exact (h.bounds o ho).1 (hnum.symm.trans hempty)

/-! ### Calls that leave the PTIM slots alone -/

/-- The same slots are of class PTIM, with the same numbers. -/
def SamePtim (m m' : ModuleContext) : Prop :=
  ∀ i, (m'.eqpClass i = .ptim ↔ m.eqpClass i = .ptim)
    ∧ (m.eqpClass i = .ptim → m'.eqpNum i = m.eqpNum i)

theorem SamePtim.of_eq {m m' : ModuleContext} (hnum : m'.eqpNum = m.eqpNum)
    (hclass : m'.eqpClass = m.eqpClass) : SamePtim m m' := by
  intro i
  rw [hnum, hclass]
  exact ⟨Iff.rfl, fun _ => rfl⟩

theorem SamePtim.of_update {m m' : ModuleContext} {i : ℕ} {num : U32} {clss : ConnectionClass}
    (hnum : m'.eqpNum = update m.eqpNum i num) (hclass : m'.eqpClass = update m.eqpClass i clss)
    (hbefore : m.eqpClass i ≠ .ptim) (hafter : clss ≠ .ptim) : SamePtim m m' := by
  intro j
  rw [hnum, hclass]
  by_cases hj : j = i
  · subst hj
    rw [update_self, update_self]
    exact ⟨iff_of_false hafter hbefore, fun hp => absurd hp hbefore⟩
  · rw [update_of_ne hj, update_of_ne hj]
    exact ⟨Iff.rfl, fun _ => rfl⟩

theorem SamePtim.dropped {m m' : ModuleContext} {T H : ℕ → Prop} {cmsk : U32}
    (h : Dropped m m' T H cmsk) : SamePtim m m' := by
  intro i
  by_cases hr : T i ∧ Releases m cmsk i
  · by_cases hc : m.eqpClass i = .ctim
    · obtain ⟨-, hclass, -⟩ := h.freed i hr.1 hr.2 hc
      rw [hclass, hc]
      exact ⟨by simp, fun hp => by cases hp⟩
    · obtain ⟨hnum, hclass, -⟩ := h.silenced i hr.1 hr.2 hc
      rw [hnum, hclass]
      exact ⟨Iff.rfl, fun _ => rfl⟩
  · obtain ⟨hnum, hclass, -⟩ := h.kept i hr
    rw [hnum, hclass]
    exact ⟨Iff.rfl, fun _ => rfl⟩

theorem OwnInv.samePtim {s s' : WorkingArea} (h : OwnInv s) (hptim : s'.ptim = s.ptim)
    (hsame : ∀ j, SamePtim (s.moduleContexts j) (s'.moduleContexts j)) : OwnInv s' := by
  refine ⟨?_, ?_, ?_, ?_⟩
  · rw [hptim]
    exact h.bounds
  · rw [hptim]
    intro o ho i hcov
    obtain ⟨hnum, hclass⟩ := h.holds o ho i hcov
    exact ⟨((hsame _ i).2 hclass).trans hnum, (hsame _ i).1.mpr hclass⟩
  · rw [hptim]
    exact h.unique
  · rw [hptim]
    intro midx i hclass
    have hclass' := (hsame midx i).1.mp hclass
    obtain ⟨o, ho, hmidx, hcov, hnum⟩ := h.listed midx i hclass'
    exact ⟨o, ho, hmidx, hcov, ((hsame midx i).2 hclass').trans hnum⟩

theorem OwnInv.setModule {s : WorkingArea} (h : OwnInv s) {midx : ℕ} {m' : ModuleContext}
    (hm : SamePtim (s.moduleContexts midx) m') : OwnInv (s.setModule midx m') := by
  refine h.samePtim rfl fun j => ?_
  by_cases hj : j = midx
  · subst hj
    simpa only [WorkingArea.setModule, update_self] using hm
  · simpa only [WorkingArea.setModule, update_of_ne hj] using SamePtim.of_eq rfl rfl

/-! ### Creating and destroying -/

theorem OwnInv.taken {s : WorkingArea} (h : OwnInv s) {ptim : PtimBinding} {start : ℕ}
    {m' : ModuleContext} (hnum : ptim.eqpNum ≠ 0) (hsize : 1 ≤ ptim.size.toNat)
    (hnew : ∀ o ∈ s.ptim, ptim.eqpNum ≠ o.eqpNum)
    (hsearch : searchSpace (s.moduleContexts ptim.moduleIndex.toNat) ptim.size.toNat ramTableSize
      0 0 0 = some start)
    (ht : Taken (s.moduleContexts ptim.moduleIndex.toNat) m'
      (fun i => start ≤ i ∧ i < start + ptim.size.toNat) ptim) :
    OwnInv { s.setModule ptim.moduleIndex.toNat m' with
      ptim := s.ptim ++ [{ ptim with startIndex := BitVec.ofNat 16 start }] } := by
  obtain ⟨hend, hempty⟩ := searchSpace_empty hsize (.inl rfl) (fun j _ hj => by omega) hsearch
  have hstart : (BitVec.ofNat 16 start).toNat = start := by
    rw [BitVec.toNat_ofNat]
    exact Nat.mod_eq_of_lt (by simp only [ramTableSize] at hend; omega)
  have hmem : ∀ o, o ∈ s.ptim ++ [{ ptim with startIndex := BitVec.ofNat 16 start }] ↔
      o ∈ s.ptim ∨ o = { ptim with startIndex := BitVec.ofNat 16 start } := by
    intro o
    simp
  refine ⟨?_, ?_, ?_, ?_⟩
  · intro o ho
    rcases (hmem o).mp ho with ho | rfl
    · exact h.bounds o ho
    · simp only [hstart]
      exact ⟨hnum, by omega⟩
  · intro o ho i hcov
    rcases (hmem o).mp ho with ho | rfl
    · obtain ⟨hn, hc⟩ := h.holds o ho i hcov
      by_cases hm : o.moduleIndex.toNat = ptim.moduleIndex.toNat
      · rw [hm] at hn hc ⊢
        have hmiss : ¬ (start ≤ i ∧ i < start + ptim.size.toNat) := by
          rintro ⟨hlo, hhi⟩
          exact (h.bounds o ho).1 (hn.symm.trans (hempty i hlo hhi))
        obtain ⟨hn', hc', -⟩ := ht.misses i hmiss
        simp only [WorkingArea.setModule, update_self]
        exact ⟨hn'.trans hn, hc'.trans hc⟩
      · simp only [WorkingArea.setModule, update_of_ne hm]
        exact ⟨hn, hc⟩
    · simp only [PtimBinding.Covers, hstart] at hcov
      obtain ⟨hn, hc, -⟩ := ht.hits i hcov
      simp only [WorkingArea.setModule, update_self]
      exact ⟨hn, hc⟩
  · rw [List.map_append, List.map_singleton, List.nodup_append]
    refine ⟨h.unique, List.nodup_singleton _, ?_⟩
    intro a ha b hb
    obtain ⟨o, ho, rfl⟩ := List.mem_map.mp ha
    rw [List.mem_singleton.mp hb]
    exact (hnew o ho).symm
  · intro midx i hclass
    by_cases hm : midx = ptim.moduleIndex.toNat
    · subst hm
      simp only [WorkingArea.setModule, update_self] at hclass ⊢
      by_cases hhit : start ≤ i ∧ i < start + ptim.size.toNat
      · refine ⟨_, (hmem _).mpr (.inr rfl), rfl, ?_, (ht.hits i hhit).1⟩
        simpa only [PtimBinding.Covers, hstart] using hhit
      · obtain ⟨hn', hc', -⟩ := ht.misses i hhit
        obtain ⟨o, ho, hmod, hcov, hn⟩ := h.listed _ i (hc'.symm.trans hclass)
        exact ⟨o, (hmem o).mpr (.inl ho), hmod, hcov, hn'.trans hn⟩
    · simp only [WorkingArea.setModule, update_of_ne hm] at hclass ⊢
      obtain ⟨o, ho, hmod, hcov, hn⟩ := h.listed midx i hclass
      exact ⟨o, (hmem o).mpr (.inl ho), hmod, hcov, hn⟩

theorem OwnInv.freed {s : WorkingArea} (h : OwnInv s) {ptim : PtimBinding} {m' : ModuleContext}
    (hfound : ∃ i, PtimSlot (s.moduleContexts ptim.moduleIndex.toNat) ptim.eqpNum i)
    (hf : Freed (s.moduleContexts ptim.moduleIndex.toNat) m'
      (PtimSlot (s.moduleContexts ptim.moduleIndex.toNat) ptim.eqpNum)) :
    OwnInv { s.setModule ptim.moduleIndex.toNat m' with
      ptim := removeFirst (fun o => ptim.eqpNum = o.eqpNum) s.ptim } := by
  -- the object of the slots that were found is the one that goes
  obtain ⟨i₀, -, hnum₀, hclass₀⟩ := hfound
  obtain ⟨x, hx, hmod, -, hxnum⟩ := h.listed _ i₀ hclass₀
  have hrest := mem_removeFirst h.unique ptim.eqpNum
  refine ⟨?_, ?_, ?_, ?_⟩
  · intro o ho
    exact h.bounds o ((hrest o).mp ho).1
  · intro o ho i hcov
    obtain ⟨ho, hne⟩ := (hrest o).mp ho
    obtain ⟨hn, hc⟩ := h.holds o ho i hcov
    by_cases hm : o.moduleIndex.toNat = ptim.moduleIndex.toNat
    · rw [hm] at hn hc ⊢
      obtain ⟨hn', hc', -⟩ := hf.misses i fun hh => hne (hn.symm.trans hh.2.1)
      simp only [WorkingArea.setModule, update_self]
      exact ⟨hn'.trans hn, hc'.trans hc⟩
    · simp only [WorkingArea.setModule, update_of_ne hm]
      exact ⟨hn, hc⟩
  · exact nodup_removeFirst h.unique _
  · intro midx i hclass
    by_cases hm : midx = ptim.moduleIndex.toNat
    · subst hm
      simp only [WorkingArea.setModule, update_self] at hclass ⊢
      by_cases hhit : PtimSlot (s.moduleContexts ptim.moduleIndex.toNat) ptim.eqpNum i
      · rw [(hf.hits i hhit).2.1] at hclass
        cases hclass
      · obtain ⟨hn', hc', -⟩ := hf.misses i hhit
        rw [hc'] at hclass
        obtain ⟨o, ho, hmod', hcov, hn⟩ := h.listed _ i hclass
        refine ⟨o, (hrest o).mpr ⟨ho, fun heq => hhit ⟨?_, hn.trans heq, hclass⟩⟩, hmod', hcov,
          hn'.trans hn⟩
        exact lt_of_lt_of_le hcov.2 (h.bounds o ho).2
    · simp only [WorkingArea.setModule, update_of_ne hm] at hclass ⊢
      obtain ⟨o, ho, hmod', hcov, hn⟩ := h.listed midx i hclass
      refine ⟨o, (hrest o).mpr ⟨ho, fun heq => hm ?_⟩, hmod', hcov, hn⟩
      have hox : o = x := h.eq_of_eqpNum ho hx (heq.trans (hnum₀.symm.trans hxnum))
      rw [hmod', hox, ← hmod]

/-! ### The run -/

/-- Objects are created with a number and at least one slot. -/
def Call.PtimRequest : Call → Prop
  | .ioctl _ (.createPtim ptim) => ptim.eqpNum ≠ 0 ∧ 1 ≤ ptim.size.toNat
  | _ => True

/-- `SET_ACTION` writes the class PTIM into a slot that is numbered zero and not of class HARD. -/
def WorkingArea.MakesPtim (s : WorkingArea) (cnum : ℕ) (act : Action) : Prop :=
  s.Serves cnum ∧ 0 < act.triggerNumber.toNat ∧ act.triggerNumber.toNat ≤ ramTableSize
    ∧ (s.moduleContexts (s.clientModule cnum)).eqpNum (act.triggerNumber.toNat - 1) = 0
    ∧ (s.moduleContexts (s.clientModule cnum)).eqpClass (act.triggerNumber.toNat - 1) ≠ .hard
    ∧ act.eqpClass = .ptim

/-- The calls under which ownership is kept. -/
def WorkingArea.ActionRule (s : WorkingArea) : Call → Prop
  | .ioctl cnum (.setAction act) => ¬ s.MakesPtim cnum act
  | _ => True

instance (c : Call) : Decidable c.PtimRequest := by
  unfold Call.PtimRequest
  split <;> infer_instance

instance (s : WorkingArea) (c : Call) : Decidable (s.ActionRule c) := by
  unfold WorkingArea.ActionRule WorkingArea.MakesPtim
  split <;> infer_instance

theorem OwnInv.step {s s' : WorkingArea} {c : Call} (h : OwnInv s) (hreq : c.PtimRequest)
    (hrule : s.ActionRule c) (hs : s.step c = some s') : OwnInv s' := by
  cases effect_of_step hs with
  | quiet hptim hsame =>
    exact h.samePtim hptim fun j => .of_eq (hsame j).eqpNum (hsame j).eqpClass
  | connectPtim hcnum hclass hmidx hc => exact h.setModule (.of_eq hc.eqpNum hc.eqpClass)
  | connectCtim hcnum hclass hi hc => exact h.setModule (.of_eq hc.eqpNum hc.eqpClass)
  | newCtim hcnum hclass hnone hi hn =>
    exact h.setModule (.of_update hn.eqpNum hn.eqpClass (h.not_ptim (emptySlot_some hi).2)
      (by simp))
  | connectHard hcnum hclass hw => exact h.setModule (.of_eq hw.eqpNum hw.eqpClass)
  | disconnect hcnum hnum hd => exact h.setModule (.dropped hd)
  | disconnectAll hcnum hcall hptim hin hout =>
    refine h.samePtim hptim fun j => ?_
    by_cases hj : j < s.modules
    · exact .dropped (hin j hj)
    · rw [hout j (not_lt.mp hj)]
      exact .of_eq rfl rfl
  | @setAction cnum act i m' hcnum hi hlt hclass howned ha =>
    by_cases hempty : (s.moduleContexts (s.clientModule cnum)).eqpNum i = 0
    · by_cases hserved : s.Serves cnum
      · refine h.setModule (.of_update ha.eqpNum ha.eqpClass (h.not_ptim hempty) ?_)
        have hi' : act.triggerNumber.toNat - 1 = i := by omega
        intro hptim
        exact hrule ⟨hserved, by omega, by omega, by rwa [hi'], by rwa [hi'], hptim⟩
      · rw [step_unserved (by trivial) hserved hs]
        exact h
    · obtain ⟨hnum, hsame, -⟩ := howned hempty
      refine h.setModule (.of_eq ?_ ?_)
      · rw [ha.eqpNum, ← hnum, update_eq_self]
      · rw [ha.eqpClass, ← hsame, update_eq_self]
  | createPtim hnew hmod hsearch ht => exact h.taken hreq.1 hreq.2 hnew hsearch ht
  | destroyPtim hidle hfound hf => exact h.freed hfound hf

theorem OwnInv.installed {s : WorkingArea} (h : s.Installed) : OwnInv s := by
  refine ⟨?_, ?_, ?_, ?_⟩
  · simp [h.ptim]
  · simp [h.ptim]
  · simp [h.ptim]
  · intro midx i hclass
    rw [(h.moduleContexts midx).eqpClass i] at hclass
    cases hclass

theorem OwnInv.not_ownership {s s' : WorkingArea} {cnum : ℕ} {act : Action} (h : OwnInv s)
    (hmakes : s.MakesPtim cnum act) (hs : s.step (.ioctl cnum (.setAction act)) = some s') :
    ¬ Ownership s' := by
  obtain ⟨hserved, hpos, hle, hempty, hclass, hptim⟩ := hmakes
  rw [step_served (by trivial) hserved, guardedIoctl, ← clientModule_val] at hs
  unfold setAction writeAction at hs
  dsimp only at hs
  rw [if_pos ⟨hpos, hle⟩, if_neg hclass, if_neg (not_not.mpr hempty)] at hs
  split at hs
  · cases hs
    intro hown
    obtain ⟨o, ho, hmidx, hcov, -⟩ :=
      hown.listed (s.clientModule cnum) (act.triggerNumber.toNat - 1) (by
        simp only [WorkingArea.setModule, update_self]
        exact hptim)
    -- the slot was in that object's run before, and so it was not empty
    have hnum := (h.holds o ho _ hcov).1
    rw [← hmidx, hempty] at hnum
    exact (h.bounds o ho).1 hnum.symm
  · cases hs

/-- **Ownership of the trigger table.**  In every run whose `SET_ACTION`s keep to the rule, the
object list and the trigger tables agree in every state; and from every such state the next call
keeps them in agreement exactly if it keeps to the rule. -/
theorem ownership_of_reachUnder {s : WorkingArea}
    (h : ctrDriver.ReachUnder (fun s c => c.PtimRequest ∧ s.ActionRule c) s) :
    Ownership s ∧ ∀ c s', c.PtimRequest → s.step c = some s' → (Ownership s' ↔ s.ActionRule c) := by
  have hinv : OwnInv s :=
    h.invariant (fun _ => OwnInv.installed) fun _ _ _ hs hok hstep => hs.step hok.1 hok.2 hstep
  refine ⟨hinv.ownership, fun c s' hreq hs => ⟨fun hown => ?_, fun hrule => ?_⟩⟩
  · unfold WorkingArea.ActionRule
    split
    · intro hmakes
      exact hinv.not_ownership hmakes hs hown
    · trivial
  · exact (hinv.step hreq hrule hs).ownership

/-- Client 0 creates PTIM 7 with two slots and sets the action of the second. -/
def actedPtim : WorkingArea :=
  System.runUnder WorkingArea.step (fun s c => c.PtimRequest ∧ s.ActionRule c) oneModule
    [.open 0, .ioctl 0 (.createPtim ⟨7, 0, 1, 2, 0⟩),
      .ioctl 0 (.setAction ⟨2, 7, .ptim, { Trigger.zero with counter := 1, ctim := 5 }, .zero⟩)]

theorem ownership_of_reachUnder_actedPtim :
    actedPtim.ptim = [⟨7, 0, 1, 2, 0⟩]
      ∧ ((actedPtim.moduleContexts 0).trigs 1).ctim = 5
      ∧ Ownership actedPtim := by
  have hstart : ctrDriver.ReachUnder (fun s c => c.PtimRequest ∧ s.ActionRule c) oneModule :=
    System.ReachUnder.init oneModule_installed
  have hreach : ctrDriver.ReachUnder (fun s c => c.PtimRequest ∧ s.ActionRule c) actedPtim :=
    hstart.runUnder _
  exact ⟨by decide +kernel, by decide +kernel, (ownership_of_reachUnder hreach).1⟩

/-- Client 0 creates CTIM 0, connects to it, and writes a PTIM into the slot of the instance. -/
def straySlot : WorkingArea :=
  System.runUnder WorkingArea.step (fun _ c => c.PtimRequest) oneModule
    [.open 0, .ioctl 0 (.createCtim ⟨0, 0x01000000⟩), .ioctl 0 (.connect ⟨1, .ctim, 0⟩),
      .ioctl 0 (.setAction ⟨1, 7, .ptim, .zero, .zero⟩)]

theorem not_ownership_of_straySlot :
    ¬ ∀ s, ctrDriver.ReachUnder (fun _ c => c.PtimRequest) s → Ownership s := by
  intro h
  have hstart : ctrDriver.ReachUnder (fun _ c => c.PtimRequest) oneModule :=
    System.ReachUnder.init oneModule_installed
  have hown : Ownership straySlot := h straySlot (hstart.runUnder _)
  obtain ⟨o, ho, -⟩ := hown.listed 0 0 (by decide +kernel)
  rw [show straySlot.ptim = [] by decide +kernel] at ho
  cases ho

end KernelModules.Ctr
