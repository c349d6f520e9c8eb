import KernelModules.Ctr.ControlFunctions

/-!
# The update lock

`LOCK` is documented to lock all write access to the configuration of a module.  Every ioctl that
writes tests the lock, but the lock of the module its client works with; some of them act on the
module their argument names, or on all modules, and a close tests no lock at all.

* `SameConfiguration` compares the configuration of a module before and after a call;
* `DriverCall.Disturbs` says when a call has something to change on module `j`, from the state
  before it; each function of the driver has one lemma that says when it does;
* `sameConfiguration_iff` is the result for every call by every client: the configuration of a
  locked module stays as it is exactly if the call does not disturb the module.
-/

namespace KernelModules.Ctr

open Function KernelModules.Lib

/-! ### Configurations -/

/-- The tables and the RAM are as they were. -/
structure SameContext (m m' : ModuleContext) : Prop where
  trigs : m'.trigs = m.trigs
  configs : m'.configs = m.configs
  eqpNum : m'.eqpNum = m.eqpNum
  eqpClass : m'.eqpClass = m.eqpClass
  clients : m'.clients = m.clients
  hardClients : m'.hardClients = m.hardClients
  interruptEnable : m'.interruptEnable = m.interruptEnable
  hwTrigs : m'.hwTrigs = m.hwTrigs
  hwConfigs : m'.hwConfigs = m.hwConfigs
  hwInterruptEnable : m'.hwInterruptEnable = m.hwInterruptEnable

/-- The configuration of the module is as it was: the tables, the RAM, and the registers with the
output masks and the active counter configurations. -/
structure SameConfiguration (m m' : ModuleState) : Prop where
  context : SameContext m.context m'.context
  command : m'.registers.command = m.registers.command
  pll : m'.registers.pll = m.registers.pll
  outputByte : m'.registers.outputByte = m.registers.outputByte
  inputDelay : m'.registers.inputDelay = m.registers.inputDelay
  cableId : m'.registers.cableId = m.registers.cableId
  card : m'.registers.card = m.registers.card

theorem SameContext.refl (m : ModuleContext) : SameContext m m :=
  ⟨rfl, rfl, rfl, rfl, rfl, rfl, rfl, rfl, rfl, rfl⟩

theorem SameContext.of_eq {m m' : ModuleContext} (h : m' = m) : SameContext m m' := h ▸ .refl m

theorem SameConfiguration.of_context {m m' : ModuleContext} {r : Registers} :
    SameConfiguration ⟨m, r⟩ ⟨m', r⟩ ↔ SameContext m m' :=
  ⟨SameConfiguration.context, fun h => ⟨h, rfl, rfl, rfl, rfl, rfl, rfl⟩⟩

/-! ### What a call has to change -/

/-- The client has the slots `hit` already, with their interrupts enabled and their bus bits set. -/
def Attached (m : ModuleContext) (hit : ℕ → Prop) (hmsk : ℕ → U32) (cmsk : U32) : Prop :=
  ∀ i, hit i → m.clients i ||| cmsk = m.clients i
    ∧ m.interruptEnable ||| hmsk i = m.interruptEnable
    ∧ (m.hwConfigs i).config ||| busBit = (m.hwConfigs i).config
    ∧ m.hwInterruptEnable = m.interruptEnable

/-- The client has the sources in `srcs` already, with their interrupts enabled. -/
def Plugged (m : ModuleContext) (srcs cmsk : U32) : Prop :=
  ∀ i < interruptSources, srcs.getLsbD i = true → m.hardClients i ||| cmsk = m.hardClients i
    ∧ m.interruptEnable ||| 1#32 <<< i = m.interruptEnable
    ∧ m.hwInterruptEnable = m.interruptEnable

/-- The client has one of the slots `T` or of the sources `H`. -/
def Holds (m : ModuleContext) (T H : ℕ → Prop) (cmsk : U32) : Prop :=
  (∃ i, T i ∧ cmsk &&& m.clients i ≠ 0) ∨ ∃ i, H i ∧ cmsk &&& m.hardClients i ≠ 0

/-- `Connect` to a CTIM finds an instance that the client lacks, or makes one. -/
def WorkingArea.NewCtim (s : WorkingArea) (m : ModuleContext) (eqpNum cmsk : U32) : Prop :=
  (∃ i, ctimSlot m eqpNum = some i ∧ ¬ Attached m (fun k => k = i) (fun _ => 1) cmsk)
    ∨ ctimSlot m eqpNum = none
      ∧ (∃ o, (s.ctim.find? fun o => eqpNum = o.eqpNum) = some o ∧ frameHeader o.frame ≠ 0)
      ∧ emptySlot m ≠ none

/-- `CREATE_PTIM_OBJECT` finds slots for the object, and one of them is not the object's yet. -/
def TakesSlots (m : ModuleContext) (ptim : PtimBinding) : Prop :=
  ∃ start, searchSpace m ptim.size.toNat ramTableSize 0 0 0 = some start
    ∧ ∃ i, start ≤ i ∧ i < start + ptim.size.toNat ∧ ¬ (m.eqpNum i = ptim.eqpNum
      ∧ m.eqpClass i = .ptim ∧ (m.trigs i).counter = ptim.counter.setWidth 32)

/-- `DESTROY_PTIM_OBJECT` finds slots of the object, and none has a client. -/
def FreesSlots (m : ModuleContext) (ptim : PtimBinding) : Prop :=
  (∃ i, PtimSlot m ptim.eqpNum i) ∧ ∀ i, PtimSlot m ptim.eqpNum i → m.clients i = 0

/-- A `DISCONNECT` of everything, or a close, finds something of the client's on module `j`. -/
def WorkingArea.HoldsAny (s : WorkingArea) (cnum j : ℕ) : Prop :=
  j < s.modules ∧ Holds (s.moduleContexts j) (OwnedSlot (s.moduleContexts j))
    (fun i => i < interruptSources) (s.clientMask cnum)

/-- An ioctl of a client that is served has something to change on module `j`, which is not the
one the client works with. -/
def WorkingArea.DisturbsIoctl (s : WorkingArea) (cnum j : ℕ) : Ioctl → Prop
  | .connect conx =>
    match conx.eqpClass with
    | .ptim => getPtimModule s conx.eqpNum = some j
      ∧ ¬ Attached (s.moduleContexts j) (PtimSlot (s.moduleContexts j) conx.eqpNum)
        (fun i => sourceMask ((s.moduleContexts j).trigs i).counter) (s.clientMask cnum)
    | .ctim => conx.moduleOr (s.clientModule cnum) = j
      ∧ s.NewCtim (s.moduleContexts j) conx.eqpNum (s.clientMask cnum)
    | _ => conx.moduleOr (s.clientModule cnum) = j
      ∧ ¬ Plugged (s.moduleContexts j) conx.eqpNum (s.clientMask cnum)
  | .disconnect conx =>
    if conx.eqpNum ≠ 0 then
      conx.module.toNat - 1 = j ∧ Holds (s.moduleContexts j) (NamedSlot (s.moduleContexts j) conx)
        (fun i => conx.eqpClass = .hard ∧ i < interruptSources) (s.clientMask cnum)
    else s.HoldsAny cnum j
  | .createPtim ptim => ptim.moduleIndex.toNat = j ∧ j < s.modules
    ∧ (∀ o ∈ s.ptim, ptim.eqpNum ≠ o.eqpNum) ∧ s.ptim.length < 2048
    ∧ TakesSlots (s.moduleContexts j) ptim
  | .destroyPtim ptim => ptim.moduleIndex.toNat = j ∧ j < s.modules
    ∧ FreesSlots (s.moduleContexts j) ptim
  | _ => False

/-- A call has something to change on module `j`, which is not the one the client works with. -/
def DriverCall.Disturbs (s : WorkingArea) (j : ℕ) : DriverCall → Prop
  | .object (.call (.ioctl cnum cm)) => s.Serves cnum ∧ s.DisturbsIoctl cnum j cm
  | .object (.call (.close cnum)) => cnum < 16 ∧ s.HoldsAny cnum j
  | _ => False

/-! ### Connecting -/

section Connecting

variable {m m' : ModuleContext} {cmsk : U32}

/-- The end of `Connect` on the module. -/
def finished (count : ℕ) (m : ModuleContext) : ModuleContext :=
  if count ≠ 0 then { m with hwInterruptEnable := m.interruptEnable } else m

theorem finishConnect_finished {s s' : WorkingArea} {midx count : ℕ} {r : Except Errno Unit}
    (h : finishConnect s midx count m = some (r, s')) :
    s' = s.setModule midx (finished count m) := by
  unfold finishConnect at h
  unfold finished
  split at h
  · rename_i hcount
    rw [if_pos hcount]
    unfold enableInterrupts at h
    split at h
    · simp only [WorkingArea.ok, Option.bind_some, Option.some.injEq, Prod.mk.injEq,
        BitVec.or_self] at h
      exact h.2.symm
    · cases h
  · rename_i hcount
    rw [if_neg hcount]
    simp only [WorkingArea.fail, Option.some.injEq, Prod.mk.injEq] at h
    exact h.2.symm

theorem connectSlot_eq_self {i : ℕ} {hmsk : U32} (h : connectSlot m i cmsk hmsk = some m')
    (hclients : m.clients i ||| cmsk = m.clients i)
    (henable : m.interruptEnable ||| hmsk = m.interruptEnable)
    (hbus : (m.hwConfigs i).config ||| busBit = (m.hwConfigs i).config) : m' = m := by
  unfold connectSlot at h
  split at h
  · cases h
    simp only [hclients, henable, hbus, update_eq_self]
  · cases h

theorem or_eq_self_iff {x y : U32} :
    x ||| y = x ↔ ∀ c, y.getLsbD c = true → x.getLsbD c = true := by
  constructor
  · intro h c hc
    rw [← h, BitVec.getLsbD_or, hc, Bool.or_true]
  · intro h
    apply BitVec.eq_of_getLsbD_eq
    intro c _
    rw [BitVec.getLsbD_or]
    cases hy : y.getLsbD c
    · rw [Bool.or_false]
    · rw [h c hy, Bool.or_true]

theorem attached_of_same {hit : ℕ → Prop} {hmsk : ℕ → U32} {count : ℕ}
    (hc : Connected m m' hit hmsk cmsk) (hcount : (∃ i, hit i) → count ≠ 0)
    (h : SameContext m (finished count m')) : Attached m hit hmsk cmsk := by
  intro i hi
  have hpos := hcount ⟨i, hi⟩
  simp only [finished, if_pos hpos] at h
  obtain ⟨hclients, hbus⟩ := hc.hits i hi
  refine ⟨?_, ?_, ?_, ?_⟩
  · rw [← hclients, h.clients]
  · rw [or_eq_self_iff]
    intro c hbit
    rw [← h.interruptEnable]
    exact (hc.enable c).mpr (.inr ⟨i, hi, hbit⟩)
  · rw [← hbus, h.hwConfigs]
  · rw [← h.hwInterruptEnable]
    exact h.interruptEnable

theorem finished_eq_self {count : ℕ} (h : count ≠ 0 → m.hwInterruptEnable = m.interruptEnable) :
    finished count m = m := by
  unfold finished
  split
  · rename_i hcount
    have hhw := h hcount
    cases m
    dsimp only at hhw ⊢
    rw [hhw]
  · rfl

theorem connectPtim_count {eqpNum : U32} {count : ℕ}
    (h : connectPtim m eqpNum cmsk = some (count, m')) :
    count ≠ 0 ↔ ∃ i, PtimSlot m eqpNum i := by
  have hloop := loop_invariant (P := fun n (t : ℕ × ModuleContext) =>
    (t.2.eqpNum = m.eqpNum ∧ t.2.eqpClass = m.eqpClass)
      ∧ (t.1 ≠ 0 ↔ ∃ i, i < n ∧ m.eqpNum i = eqpNum ∧ m.eqpClass i = .ptim)) h ?_ ?_
  · exact hloop.2
  · exact ⟨⟨rfl, rfl⟩, by simp⟩
  · rintro i - ⟨n, t⟩ ⟨n', t'⟩ ⟨⟨hnum, hcls⟩, hcount⟩ hs
    dsimp only at hnum hcls hcount hs ⊢
    rw [hnum, hcls] at hs
    split at hs
    · rename_i hhit
      simp only [Option.map_eq_some_iff, Prod.mk.injEq] at hs
      obtain ⟨u, hu, rfl, rfl⟩ := hs
      unfold connectSlot at hu
      split at hu
      · cases hu
        refine ⟨⟨hnum, hcls⟩, fun _ => ?_, fun _ => Nat.succ_ne_zero n⟩
        exact ⟨i, Nat.lt_succ_self i, hhit.1.symm, hhit.2.symm⟩
      · cases hu
    · rename_i hmiss
      cases hs
      refine ⟨⟨hnum, hcls⟩, hcount.trans (exists_congr fun j => ?_)⟩
      exact sweep_miss (P := fun j => m.eqpNum j = eqpNum ∧ m.eqpClass j = .ptim)
        (fun hh => hmiss ⟨hh.1.symm, hh.2.symm⟩) j

theorem connectPtim_same_iff {eqpNum : U32} {count : ℕ}
    (h : connectPtim m eqpNum cmsk = some (count, m')) :
    SameContext m (finished count m') ↔
      Attached m (PtimSlot m eqpNum) (fun i => sourceMask (m.trigs i).counter) cmsk := by
  have hcount := connectPtim_count h
  refine ⟨attached_of_same (connectPtim_connected h) hcount.mpr, fun hatt => ?_⟩
  have hself : m' = m := by
    refine loop_invariant (P := fun _ (t : ℕ × ModuleContext) => t.2 = m) h rfl ?_
    rintro i hi ⟨n, t⟩ ⟨n', t'⟩ rfl hs
    dsimp only at hs ⊢
    split at hs
    · rename_i hhit
      simp only [Option.map_eq_some_iff, Prod.mk.injEq] at hs
      obtain ⟨u, hu, -, rfl⟩ := hs
      obtain ⟨hclients, henable, hbus, -⟩ := hatt i ⟨hi, hhit.1.symm, hhit.2.symm⟩
      exact connectSlot_eq_self hu hclients henable hbus
    · cases hs
      rfl
  rw [hself]
  refine .of_eq (finished_eq_self fun hpos => ?_)
  obtain ⟨i, hi⟩ := hcount.mp hpos
  exact (hatt i hi).2.2.2

theorem connectSlot_same_iff {i : ℕ} {hmsk : U32} (h : connectSlot m i cmsk hmsk = some m') :
    SameContext m (finished 1 m') ↔ Attached m (fun k => k = i) (fun _ => hmsk) cmsk := by
  have hc := (Connected.refl m (fun _ => hmsk) cmsk).connectSlot (i := i) (fun hf => hf) h
  refine ⟨attached_of_same (hc.congr (by simp)) fun _ => Nat.one_ne_zero, fun hatt => ?_⟩
  obtain ⟨hclients, henable, hbus, hhw⟩ := hatt i rfl
  rw [connectSlot_eq_self h hclients henable hbus]
  exact .of_eq (finished_eq_self fun _ => hhw)

theorem newCtimInstance_changes {i : ℕ} {eqpNum frame : U32} (hnone : ctimSlot m eqpNum = none)
    (hempty : emptySlot m = some i) (h : newCtimInstance m i eqpNum frame cmsk = some m') :
    ¬ SameContext m (finished 1 m') := by
  intro hsame
  unfold newCtimInstance at h
  split at h
  · cases h
    have hnum : eqpNum = m.eqpNum i := by
      have heq := congrFun hsame.eqpNum i
      simpa only [finished, ne_eq, Nat.one_ne_zero, not_false_iff, if_true, update_self] using heq
    have hcls : ConnectionClass.ctim = m.eqpClass i := by
      have heq := congrFun hsame.eqpClass i
      simpa only [finished, ne_eq, Nat.one_ne_zero, not_false_iff, if_true, update_self] using heq
    unfold ctimSlot findSlot at hnone
    rw [List.find?_eq_none] at hnone
    have hmem : i ∈ List.range ramTableSize := List.mem_range.mpr (emptySlot_some hempty).1
    exact hnone i hmem (by simp [← hnum, ← hcls])
  · cases h

theorem connectHard_count {eqpNum : U32} {count : ℕ}
    (h : connectHard m eqpNum cmsk = some (count, m')) :
    count ≠ 0 ↔ ∃ i, i < interruptSources ∧ eqpNum.getLsbD i = true := by
  refine loop_invariant (P := fun n (t : ℕ × ModuleContext) =>
    t.1 ≠ 0 ↔ ∃ i, i < n ∧ eqpNum.getLsbD i = true) h (by simp) ?_
  rintro i hi ⟨n, t⟩ ⟨n', t'⟩ hcount hs
  have hwidth : i < 32 := Nat.lt_trans hi (by decide)
  dsimp only at hcount hs ⊢
  split at hs
  · rename_i hand
    cases hs
    refine ⟨fun _ => ?_, fun _ => Nat.succ_ne_zero n⟩
    exact ⟨i, Nat.lt_succ_self i, (and_bit_ne_zero hwidth eqpNum).mp hand⟩
  · rename_i hand
    cases hs
    refine hcount.trans (exists_congr fun j => ?_)
    exact sweep_miss (P := fun j => eqpNum.getLsbD j = true)
      (fun hbit => hand ((and_bit_ne_zero hwidth eqpNum).mpr hbit)) j

theorem connectHard_same_iff {eqpNum : U32} {count : ℕ}
    (h : connectHard m eqpNum cmsk = some (count, m')) :
    SameContext m (finished count m') ↔ Plugged m eqpNum cmsk := by
  have hcount := connectHard_count h
  have hwired := connectHard_wired h
  constructor
  · intro hsame i hi hbit
    have hpos := hcount.mpr ⟨i, hi, hbit⟩
    simp only [finished, if_pos hpos] at hsame
    refine ⟨?_, ?_, ?_⟩
    · have hclients := hwired.hardClients i
      rw [if_pos ⟨hi, hbit⟩] at hclients
      rw [← hclients, hsame.hardClients]
    · rw [or_eq_self_iff]
      intro c hc
      rw [getLsbD_bit (Nat.lt_trans hi (by decide))] at hc
      subst hc
      rw [← hsame.interruptEnable]
      exact (hwired.enable c).mpr (.inr ⟨hi, hbit⟩)
    · rw [← hsame.hwInterruptEnable]
      exact hsame.interruptEnable
  · intro hplug
    have hself : m' = m := by
      refine loop_invariant (P := fun _ (t : ℕ × ModuleContext) => t.2 = m) h rfl ?_
      rintro i hi ⟨n, t⟩ ⟨n', t'⟩ rfl hs
      dsimp only at hs ⊢
      split at hs
      · rename_i hand
        have hbit := (and_bit_ne_zero (Nat.lt_trans hi (by decide)) eqpNum).mp hand
        obtain ⟨hclients, henable, -⟩ := hplug i hi hbit
        cases hs
        simp only [hclients, henable, update_eq_self]
      · cases hs
        rfl
    rw [hself]
    refine .of_eq (finished_eq_self fun hpos => ?_)
    obtain ⟨i, hi, hbit⟩ := hcount.mp hpos
    exact (hplug i hi hbit).2.2

end Connecting

/-! ### Disconnecting -/

section Disconnecting

variable {m m' : ModuleContext} {cmsk : U32}

theorem disConnectOne_eq_self {i : ℕ} {clss : ConnectionClass}
    (h : disConnectOne m i clss cmsk = some m')
    (hclients : clss = .ctim ∨ clss = .ptim → cmsk &&& m.clients i = 0)
    (hhard : clss = .hard → i < interruptSources → cmsk &&& m.hardClients i = 0) : m' = m := by
  have htrigger : ∀ {c : ConnectionClass}, cmsk &&& m.clients i = 0 →
      disConnectTrigger m i c cmsk = some m' → m' = m := by
    intro c hzero hrun
    rw [disConnectTrigger, if_neg (not_not.mpr hzero)] at hrun
    cases hrun
    rfl
  cases clss with
  | ctim => exact htrigger (hclients (.inl rfl)) h
  | ptim => exact htrigger (hclients (.inr rfl)) h
  | other v =>
    cases h
    rfl
  | hard =>
    simp only [disConnectOne, disConnectHard] at h
    split at h
    · rename_i hi
      rw [dropped_of_absent (hhard rfl hi), update_eq_self] at h
      split at h
      · cases h
        rfl
      · cases h
        rfl
    · split at h
      · cases h
        rfl
      · cases h

theorem Holds.not_clients {T H : ℕ → Prop} (h : ¬ Holds m T H cmsk) {i : ℕ} (hi : T i) :
    cmsk &&& m.clients i = 0 := by
  by_contra hne
  exact h (.inl ⟨i, hi, hne⟩)

theorem Holds.not_hardClients {T H : ℕ → Prop} (h : ¬ Holds m T H cmsk) {i : ℕ} (hi : H i) :
    cmsk &&& m.hardClients i = 0 := by
  by_contra hne
  exact h (.inr ⟨i, hi, hne⟩)

theorem and_mask_of_dropped {x cmsk : U32} (h : x &&& ~~~cmsk = x) : cmsk &&& x = 0 := by
  rw [← h]
  exact mask_and_dropped x cmsk

theorem Dropped.not_holds {T H : ℕ → Prop} (hd : Dropped m m' T H cmsk) (h : SameContext m m') :
    ¬ Holds m T H cmsk := by
  rintro (⟨i, hi, hne⟩ | ⟨i, hi, hne⟩)
  · have hclients := (hd.clients i).1 hi
    rw [h.clients] at hclients
    exact hne (and_mask_of_dropped hclients.symm)
  · have hhard := (hd.hardClients i).1 hi
    rw [h.hardClients] at hhard
    exact hne (and_mask_of_dropped hhard.symm)

theorem disConnectSources_eq_self {T : ℕ → Prop}
    (h : disConnectSources m cmsk = some m')
    (hnone : ¬ Holds m T (fun i => i < interruptSources) cmsk) : m' = m := by
  refine loop_invariant (P := fun _ t => t = m) h rfl ?_
  rintro i - t t' rfl hs
  refine disConnectOne_eq_self hs ?_ fun _ hi => Holds.not_hardClients hnone hi
  rintro (hc | hc) <;> cases hc

theorem disConnect_same_iff {conx : Connection}
    (h : (if conx.eqpClass ≠ .hard then disConnectTriggers m conx cmsk
      else disConnectSources m cmsk) = some m') :
    SameContext m m' ↔ ¬ Holds m (NamedSlot m conx)
      (fun i => conx.eqpClass = .hard ∧ i < interruptSources) cmsk := by
  split at h
  · rename_i hclass
    constructor
    · have hd : Dropped m m' (NamedSlot m conx)
          (fun i => conx.eqpClass = .hard ∧ i < interruptSources) cmsk :=
        (disConnectTriggers_dropped hclass h).congr (fun _ => Iff.rfl) (by simp [hclass])
      exact hd.not_holds
    · intro hnone
      refine .of_eq (loop_invariant (P := fun _ t => t = m) h rfl ?_)
      rintro i hi t t' rfl hs
      split at hs
      · rename_i hhit
        refine disConnectOne_eq_self hs (fun hc => ?_) fun hc => absurd hc hclass
        refine Holds.not_clients hnone ⟨hi, hhit.1.symm, hhit.2.symm, ?_⟩
        rw [TriggerClass, ← hhit.2]
        exact hc
      · cases hs
        rfl
  · rename_i hclass
    rw [not_not] at hclass
    have hslots : ∀ i, False ↔ NamedSlot m conx i := by
      intro i
      simp only [NamedSlot, TriggerClass, hclass, false_iff, not_and]
      intro _ _ hc
      simp [hc]
    constructor
    · have hd : Dropped m m' (NamedSlot m conx)
          (fun i => conx.eqpClass = .hard ∧ i < interruptSources) cmsk :=
        (disConnectSources_dropped h).congr hslots (by simp [hclass])
      exact hd.not_holds
    · intro hnone
      refine .of_eq (disConnectSources_eq_self (T := NamedSlot m conx) h ?_)
      simpa only [hclass, true_and] using hnone

theorem disConnectModule_same_iff {m₁ : ModuleContext} (h₁ : disConnectOwned m cmsk = some m₁)
    (h₂ : disConnectSources m₁ cmsk = some m') :
    SameContext m m' ↔ ¬ Holds m (OwnedSlot m) (fun i => i < interruptSources) cmsk := by
  refine ⟨(disConnectModule_dropped h₁ h₂).not_holds, fun hnone => ?_⟩
  have hself : m₁ = m := by
    refine loop_invariant (P := fun _ t => t = m) h₁ rfl ?_
    rintro i hi t t' rfl hs
    split at hs
    · rename_i hown
      exact disConnectOne_eq_self hs (fun hc => Holds.not_clients hnone ⟨hi, hown, hc⟩)
        fun _ hsrc => Holds.not_hardClients hnone hsrc
    · cases hs
      rfl
  subst hself
  exact .of_eq (disConnectSources_eq_self h₂ hnone)

end Disconnecting

/-! ### Objects -/

section Objects

variable {m m' : ModuleContext}

theorem takeSlots_same_iff {start size : ℕ} {ptim : PtimBinding}
    (h : loop (fun j m => some (takeSlot m (start + j) ptim)) size m = some m') :
    SameContext m m' ↔ ∀ i, start ≤ i → i < start + size → m.eqpNum i = ptim.eqpNum
      ∧ m.eqpClass i = .ptim ∧ (m.trigs i).counter = ptim.counter.setWidth 32 := by
  constructor
  · intro hsame i hlo hhi
    obtain ⟨hnum, hcls, hcounter⟩ := (takeSlots_taken h).hits i ⟨hlo, hhi⟩
    rw [hsame.eqpNum] at hnum
    rw [hsame.eqpClass] at hcls
    rw [hsame.trigs] at hcounter
    exact ⟨hnum, hcls, hcounter⟩
  · intro hall
    refine .of_eq (loop_invariant (P := fun _ t => t = m) h rfl ?_)
    rintro j hj t t' rfl hs
    obtain ⟨hnum, hcls, hcounter⟩ := hall (start + j) (by omega) (by omega)
    cases hs
    simp only [takeSlot, ← hnum, ← hcls, ← hcounter, update_eq_self]

theorem Freed.not_same {eqpNum : U32} (hf : Freed m m' (PtimSlot m eqpNum))
    (hfound : ∃ i, PtimSlot m eqpNum i) : ¬ SameContext m m' := by
  intro hsame
  obtain ⟨i, hi⟩ := hfound
  have hcls := (hf.hits i hi).2.1
  rw [hsame.eqpClass, hi.2.2] at hcls
  cases hcls

end Objects

/-! ### Calls -/

section Calls

variable {s s' : WorkingArea} {k : Fin 16} {r : Except Errno Unit}

theorem setModule_same_iff {midx : ℕ} {m' : ModuleContext} {D : Prop}
    (h : SameContext (s.moduleContexts midx) m' ↔ ¬ D) (j : ℕ) :
    SameContext (s.moduleContexts j) ((s.setModule midx m').moduleContexts j)
      ↔ ¬ (midx = j ∧ D) := by
  by_cases hj : midx = j
  · subst hj
    simpa only [WorkingArea.setModule, update_self, true_and] using h
  · simpa only [WorkingArea.setModule, update_of_ne (Ne.symm hj), hj, false_and, not_false_iff,
      iff_true] using SameContext.refl _

theorem same_of_fail {e : Errno} (h : s.fail e = some (r, s')) (j : ℕ) :
    SameContext (s.moduleContexts j) (s'.moduleContexts j) := by
  cases h
  exact .refl _

theorem newCtim_of_some {m : ModuleContext} {eqpNum cmsk : U32} {i : ℕ}
    (h : ctimSlot m eqpNum = some i) :
    s.NewCtim m eqpNum cmsk ↔ ¬ Attached m (fun k => k = i) (fun _ => 1) cmsk := by
  unfold WorkingArea.NewCtim
  rw [h]
  simp

theorem newCtim_of_none {m : ModuleContext} {eqpNum cmsk : U32} (h : ctimSlot m eqpNum = none) :
    s.NewCtim m eqpNum cmsk ↔
      (∃ o, (s.ctim.find? fun o => eqpNum = o.eqpNum) = some o ∧ frameHeader o.frame ≠ 0)
        ∧ emptySlot m ≠ none := by
  unfold WorkingArea.NewCtim
  rw [h]
  simp

theorem connectCtim_disturbs {midx : ℕ} {eqpNum cmsk : U32}
    (h : connectCtim s midx eqpNum cmsk = some (r, s')) (j : ℕ) :
    SameContext (s.moduleContexts j) (s'.moduleContexts j)
      ↔ ¬ (midx = j ∧ s.NewCtim (s.moduleContexts midx) eqpNum cmsk) := by
  unfold connectCtim at h
  dsimp only at h
  split at h
  · rename_i i hi
    simp only [Option.bind_eq_some_iff] at h
    obtain ⟨m, hm, h⟩ := h
    obtain rfl := finishConnect_finished h
    refine setModule_same_iff ?_ j
    rw [newCtim_of_some hi, not_not]
    exact connectSlot_same_iff hm
  · rename_i hnone
    rw [newCtim_of_none hnone]
    split at h
    · rename_i hlist
      refine iff_of_true (same_of_fail h j) ?_
      rintro ⟨-, ⟨o, ho, -⟩, -⟩
      rw [hlist] at ho
      cases ho
    · rename_i o ho
      split at h
      · rename_i hframe
        split at h
        · rename_i hfull
          refine iff_of_true (same_of_fail h j) ?_
          rintro ⟨-, -, hempty⟩
          exact hempty hfull
        · rename_i i hi
          simp only [Option.bind_eq_some_iff] at h
          obtain ⟨m, hm, h⟩ := h
          obtain rfl := finishConnect_finished h
          have hslot : emptySlot (s.moduleContexts midx) = some i := by
            unfold emptySlot
            exact hi
          refine setModule_same_iff (iff_of_false ?_ ?_) j
          · exact newCtimInstance_changes hnone hslot hm
          · refine not_not.mpr ⟨⟨o, ho, hframe⟩, ?_⟩
            rw [hslot]
            simp
      · rename_i hframe
        refine iff_of_true (same_of_fail h j) ?_
        rintro ⟨-, ⟨o', ho', hframe'⟩, -⟩
        rw [ho] at ho'
        cases ho'
        exact hframe hframe'

/-! `Connect` by class. -/

theorem disturbs_connect_ptim {cnum j : ℕ} {conx : Connection} (h : conx.eqpClass = .ptim) :
    s.DisturbsIoctl cnum j (.connect conx) ↔ getPtimModule s conx.eqpNum = some j
      ∧ ¬ Attached (s.moduleContexts j) (PtimSlot (s.moduleContexts j) conx.eqpNum)
        (fun i => sourceMask ((s.moduleContexts j).trigs i).counter) (s.clientMask cnum) := by
  simp only [WorkingArea.DisturbsIoctl, h]

theorem disturbs_connect_ctim {cnum j : ℕ} {conx : Connection} (h : conx.eqpClass = .ctim) :
    s.DisturbsIoctl cnum j (.connect conx) ↔ conx.moduleOr (s.clientModule cnum) = j
      ∧ s.NewCtim (s.moduleContexts j) conx.eqpNum (s.clientMask cnum) := by
  simp only [WorkingArea.DisturbsIoctl, h]

theorem disturbs_connect_hard {cnum j : ℕ} {conx : Connection} (hptim : conx.eqpClass ≠ .ptim)
    (hctim : conx.eqpClass ≠ .ctim) :
    s.DisturbsIoctl cnum j (.connect conx) ↔ conx.moduleOr (s.clientModule cnum) = j
      ∧ ¬ Plugged (s.moduleContexts j) conx.eqpNum (s.clientMask cnum) := by
  cases hclass : conx.eqpClass with
  | ptim => exact absurd hclass hptim
  | ctim => exact absurd hclass hctim
  | hard => simp only [WorkingArea.DisturbsIoctl, hclass]
  | other v => simp only [WorkingArea.DisturbsIoctl, hclass]

theorem connect_disturbs {conx : Connection}
    (h : connect s conx (s.clientContexts k) = some (r, s')) (j : ℕ) :
    SameContext (s.moduleContexts j) (s'.moduleContexts j)
      ↔ ¬ s.DisturbsIoctl k.val j (.connect conx) := by
  unfold connect at h
  dsimp only at h
  split at h
  · rename_i hclass
    rw [disturbs_connect_ptim hclass, clientMask_val]
    split at h
    · rename_i hnone
      refine iff_of_true (same_of_fail h j) ?_
      rw [hnone]
      rintro ⟨hsome, -⟩
      cases hsome
    · rename_i midx hmidx
      simp only [Option.bind_eq_some_iff, Prod.exists] at h
      obtain ⟨count, m, hm, h⟩ := h
      obtain rfl := finishConnect_finished h
      rw [setModule_same_iff ((connectPtim_same_iff hm).trans not_not.symm), hmidx,
        Option.some.injEq]
      refine not_congr (and_congr_right fun hj => ?_)
      rw [hj]
  · rename_i hclass
    rw [disturbs_connect_ctim hclass, connectCtim_disturbs h, clientMask_val, clientModule_val]
    refine not_congr (and_congr_right fun hj => ?_)
    rw [hj]
  · rename_i hptim hctim
    rw [disturbs_connect_hard hptim hctim, clientMask_val, clientModule_val]
    simp only [Option.bind_eq_some_iff, Prod.exists] at h
    obtain ⟨count, m, hm, h⟩ := h
    obtain rfl := finishConnect_finished h
    rw [setModule_same_iff ((connectHard_same_iff hm).trans not_not.symm)]
    refine not_congr (and_congr_right fun hj => ?_)
    rw [hj]

theorem disConnect_disturbs {conx : Connection} (hnum : conx.eqpNum ≠ 0)
    (h : disConnect s conx (s.clientContexts k) = some (r, s')) (j : ℕ) :
    SameContext (s.moduleContexts j) (s'.moduleContexts j)
      ↔ ¬ s.DisturbsIoctl k.val j (.disconnect conx) := by
  simp only [WorkingArea.DisturbsIoctl, if_pos hnum, clientMask_val]
  unfold disConnect at h
  split at h
  · simp only [Option.bind_eq_some_iff] at h
    obtain ⟨m, hm, h⟩ := h
    cases h
    rw [setModule_same_iff (disConnect_same_iff hm)]
    refine not_congr (and_congr_right fun hj => ?_)
    rw [hj]
  · cases h

theorem disConnectAll_modules {ccon : ClientContext} (h : disConnectAll s ccon = some (r, s')) :
    (∀ j < s.modules, ∃ m, disConnectOwned (s.moduleContexts j) ccon.mask = some m
        ∧ disConnectSources m ccon.mask = some (s'.moduleContexts j))
      ∧ ∀ j, s.modules ≤ j → s'.moduleContexts j = s.moduleContexts j := by
  unfold disConnectAll at h
  simp only [Option.bind_eq_some_iff] at h
  obtain ⟨t, hloop, h⟩ := h
  cases h
  refine loop_invariant (P := fun n t =>
    (∀ j < n, ∃ m, disConnectOwned (s.moduleContexts j) ccon.mask = some m
      ∧ disConnectSources m ccon.mask = some (t.moduleContexts j))
    ∧ ∀ j, n ≤ j → t.moduleContexts j = s.moduleContexts j) hloop ?_ ?_
  · exact ⟨fun j hj => absurd hj (Nat.not_lt_zero j), fun _ _ => rfl⟩
  · rintro midx - t t' ⟨hin, hout⟩ hs
    simp only [Option.bind_eq_some_iff, Option.map_eq_some_iff] at hs
    obtain ⟨m₁, h₁, m₂, h₂, rfl⟩ := hs
    rw [hout midx le_rfl] at h₁
    refine ⟨fun j hj => ?_, fun j hj => ?_⟩
    · by_cases hjm : j = midx
      · subst hjm
        simp only [WorkingArea.setModule, update_self]
        exact ⟨m₁, h₁, h₂⟩
      · simp only [WorkingArea.setModule, update_of_ne hjm]
        exact hin j (by omega)
    · have hjm : j ≠ midx := by omega
      simp only [WorkingArea.setModule, update_of_ne hjm]
      exact hout j (by omega)

theorem disConnectAll_disturbs {ccon : ClientContext} (h : disConnectAll s ccon = some (r, s'))
    (j : ℕ) : SameContext (s.moduleContexts j) (s'.moduleContexts j)
      ↔ ¬ (j < s.modules ∧ Holds (s.moduleContexts j) (OwnedSlot (s.moduleContexts j))
        (fun i => i < interruptSources) ccon.mask) := by
  obtain ⟨hin, hout⟩ := disConnectAll_modules h
  by_cases hj : j < s.modules
  · obtain ⟨m, h₁, h₂⟩ := hin j hj
    rw [disConnectModule_same_iff h₁ h₂]
    simp only [hj, true_and]
  · refine iff_of_true (.of_eq (hout j (by omega))) ?_
    exact fun hd => hj hd.1

theorem setAction_elsewhere {midx : ℕ} {act : Action} (h : setAction s midx act = some (r, s'))
    {j : ℕ} (hj : j ≠ midx) : SameContext (s.moduleContexts j) (s'.moduleContexts j) := by
  have hwrite : ∀ m : ModuleContext,
      ((writeAction m (act.triggerNumber.toNat - 1) act).bind fun m => (s.setModule midx m).ok)
        = some (r, s') → SameContext (s.moduleContexts j) (s'.moduleContexts j) := by
    intro m hm
    simp only [Option.bind_eq_some_iff] at hm
    obtain ⟨m', -, hm⟩ := hm
    cases hm
    simpa only [WorkingArea.setModule, update_of_ne hj] using SameContext.refl _
  unfold setAction at h
  dsimp only at h
  split at h
  · split at h
    · exact same_of_fail h j
    · split at h
      · split at h
        · exact same_of_fail h j
        · split at h
          · exact same_of_fail h j
          · split at h
            · exact same_of_fail h j
            · exact hwrite _ h
      · exact hwrite _ h
  · exact same_of_fail h j

theorem createPtim_disturbs {cnum : ℕ} {ptim : PtimBinding}
    (h : createPtim s ptim = some (r, s')) (j : ℕ) :
    SameContext (s.moduleContexts j) (s'.moduleContexts j)
      ↔ ¬ s.DisturbsIoctl cnum j (.createPtim ptim) := by
  simp only [WorkingArea.DisturbsIoctl]
  unfold createPtim at h
  dsimp only at h
  split at h
  · rename_i hlisted
    refine iff_of_true (same_of_fail h j) ?_
    rintro ⟨-, -, hnew, -⟩
    simp only [List.any_eq_true, decide_eq_true_eq] at hlisted
    obtain ⟨o, ho, heq⟩ := hlisted
    exact hnew o ho heq
  · rename_i hnew
    split at h
    · rename_i hfull
      refine iff_of_true (same_of_fail h j) ?_
      rintro ⟨-, -, -, hroom, -⟩
      omega
    · rename_i hroom
      split at h
      · rename_i hmod
        split at h
        · rename_i hnone
          refine iff_of_true (same_of_fail h j) ?_
          rintro ⟨rfl, -, -, -, start, hstart, -⟩
          rw [hnone] at hstart
          cases hstart
        · rename_i start hstart
          simp only [Option.bind_eq_some_iff] at h
          obtain ⟨m, hm, h⟩ := h
          cases h
          have htakes : SameContext (s.moduleContexts ptim.moduleIndex.toNat) m
              ↔ ¬ TakesSlots (s.moduleContexts ptim.moduleIndex.toNat) ptim := by
            rw [takeSlots_same_iff hm]
            constructor
            · rintro hall ⟨start', hstart', i, hlo, hhi, hnot⟩
              rw [hstart] at hstart'
              cases hstart'
              exact hnot (hall i hlo hhi)
            · intro hnone i hlo hhi
              by_contra hnot
              exact hnone ⟨start, hstart, i, hlo, hhi, hnot⟩
          refine (setModule_same_iff htakes j).trans (not_congr (and_congr_right fun hj => ?_))
          subst hj
          simp only [hmod, true_and, List.any_eq_true, decide_eq_true_eq, not_exists, not_and]
            at hnew ⊢
          exact ⟨fun ht => ⟨hnew, by omega, ht⟩, fun ht => ht.2.2⟩
      · rename_i hmod
        refine iff_of_true (same_of_fail h j) ?_
        rintro ⟨rfl, hlt, -⟩
        exact hmod hlt

theorem destroyPtim_disturbs {cnum : ℕ} {ptim : PtimBinding}
    (h : destroyPtim s ptim = some (r, s')) (j : ℕ) :
    SameContext (s.moduleContexts j) (s'.moduleContexts j)
      ↔ ¬ s.DisturbsIoctl cnum j (.destroyPtim ptim) := by
  simp only [WorkingArea.DisturbsIoctl]
  unfold destroyPtim at h
  dsimp only at h
  split at h
  · rename_i hmod
    split at h
    · rename_i hbusy
      refine iff_of_true (same_of_fail h j) ?_
      rintro ⟨rfl, -, -, hidle⟩
      obtain ⟨i, hi, hslot, hused⟩ := hbusy
      exact hused (hidle i ⟨hi, hslot⟩)
    · rename_i hidle
      split at h
      · rename_i hfound
        simp only [Option.bind_eq_some_iff] at h
        obtain ⟨m, hm, h⟩ := h
        cases h
        have hfree : FreesSlots (s.moduleContexts ptim.moduleIndex.toNat) ptim := by
          refine ⟨hfound, ?_⟩
          rintro i ⟨hi, hslot⟩
          by_contra hused
          exact hidle ⟨i, hi, hslot, hused⟩
        have hchange := (freeSlots_freed hm).not_same hfound
        refine (setModule_same_iff (iff_of_false hchange (not_not.mpr hfree)) j).trans ?_
        refine not_congr (and_congr_right fun hj => ?_)
        subst hj
        exact ⟨fun hf => ⟨hmod, hf⟩, And.right⟩
      · rename_i hnone
        refine iff_of_true (same_of_fail h j) ?_
        rintro ⟨rfl, -, hfound, -⟩
        exact hnone hfound
  · rename_i hmod
    refine iff_of_true (same_of_fail h j) ?_
    rintro ⟨rfl, hlt, -⟩
    exact hmod hlt

theorem guardedIoctl_disturbs {cm : Ioctl} {j : ℕ} (hj : j ≠ (s.clientContexts k).moduleIndex)
    (h : guardedIoctl s (s.clientContexts k) cm = some (r, s')) :
    SameContext (s.moduleContexts j) (s'.moduleContexts j) ↔ ¬ s.DisturbsIoctl k.val j cm := by
  cases cm with
  | connect conx => exact connect_disturbs h j
  | disconnect conx =>
    simp only [guardedIoctl] at h
    split at h
    · rename_i hnum
      exact disConnect_disturbs hnum h j
    · rename_i hnum
      rw [disConnectAll_disturbs h j]
      simp only [WorkingArea.DisturbsIoctl, if_neg hnum, WorkingArea.HoldsAny, clientMask_val]
  | setAction act => exact iff_of_true (setAction_elsewhere h hj) id
  | createPtim ptim => exact createPtim_disturbs h j
  | destroyPtim ptim => exact destroyPtim_disturbs h j
  | createCtim ctim =>
    refine iff_of_true ?_ id
    simp only [guardedIoctl, createCtim] at h
    split at h
    · exact same_of_fail h j
    · split at h
      · cases h
        exact .refl _
      · exact same_of_fail h j
  | destroyCtim ctim =>
    refine iff_of_true ?_ id
    simp only [guardedIoctl, destroyCtim] at h
    split at h
    · split at h
      · exact same_of_fail h j
      · cases h
        exact .refl _
    · exact same_of_fail h j
  | setModule | lock | unlock => exact iff_of_true (same_of_fail h j) id

theorem unguarded_same {cm : Ioctl} (hcm : ¬ cm.Guarded)
    (h : decodeIoctl s k cm = some (r, s')) (j : ℕ) :
    SameContext (s.moduleContexts j) (s'.moduleContexts j) := by
  have hset : ∀ {midx : ℕ} {m' : ModuleContext}, SameContext (s.moduleContexts midx) m' →
      SameContext (s.moduleContexts j) ((s.setModule midx m').moduleContexts j) := by
    intro midx m' hm
    exact (setModule_same_iff (iff_of_true hm not_false) j).mpr fun hd => hd.2
  cases cm with
  | setModule lav =>
    simp only [decodeIoctl] at h
    split at h
    · cases h
      exact .refl _
    · exact same_of_fail h j
  | lock =>
    cases h
    exact hset ⟨rfl, rfl, rfl, rfl, rfl, rfl, rfl, rfl, rfl, rfl⟩
  | unlock pw =>
    cases h
    refine hset ?_
    unfold clrUplock
    split
    · exact ⟨rfl, rfl, rfl, rfl, rfl, rfl, rfl, rfl, rfl, rfl⟩
    · exact .refl _
  | _ => exact absurd trivial hcm

theorem ctrDrvrIoctl_disturbs {cnum : ℕ} {cm : Ioctl} {j : ℕ}
    (hlock : (s.moduleContexts j).upLock = true) (h : ctrDrvrIoctl s cnum cm = some (r, s')) :
    SameContext (s.moduleContexts j) (s'.moduleContexts j)
      ↔ ¬ (s.Serves cnum ∧ s.DisturbsIoctl cnum j cm) := by
  have hstep : s.step (.ioctl cnum cm) = some s' := by
    simp only [WorkingArea.step, Call.run, h, Option.map_some]
  by_cases hcm : cm.Guarded
  · by_cases hserves : s.Serves cnum
    · rw [step_served hcm hserves] at hstep
      obtain ⟨⟨r', t⟩, hguard, rfl⟩ := Option.map_eq_some_iff.mp hstep
      -- the client's own module is not the locked one
      have hj : j ≠ (s.clientContexts ⟨cnum, hserves.1⟩).moduleIndex := by
        rintro rfl
        obtain ⟨_, _, _, hopen⟩ := hserves
        rw [hlock] at hopen
        cases hopen
      rw [guardedIoctl_disturbs hj hguard]
      exact not_congr ⟨fun hd => ⟨hserves, hd⟩, And.right⟩
    · obtain rfl := step_unserved hcm hserves hstep
      exact iff_of_true (.refl _) fun hd => hserves hd.1
  · have hquiet : ¬ s.DisturbsIoctl cnum j cm := by
      cases cm <;> first | exact id | exact absurd trivial hcm
    refine iff_of_true ?_ fun hd => hquiet hd.2
    simp only [ctrDrvrIoctl] at h
    split at h
    · split at h
      · exact same_of_fail h j
      · split at h
        · exact same_of_fail h j
        · exact unguarded_same hcm h j
    · exact same_of_fail h j

theorem call_disturbs {c : Call} {j : ℕ} (hlock : (s.moduleContexts j).upLock = true)
    (h : c.run s = some (r, s')) :
    SameContext (s.moduleContexts j) (s'.moduleContexts j)
      ↔ ¬ (DriverCall.object (.call c)).Disturbs s j := by
  cases c with
  | «open» cnum =>
    refine iff_of_true ?_ id
    simp only [Call.run, ctrDrvrOpen] at h
    split at h
    · split at h
      · exact same_of_fail h j
      · cases h
        exact .refl _
    · exact same_of_fail h j
  | close cnum =>
    simp only [Call.run, ctrDrvrClose] at h
    split at h
    · rename_i hcnum
      have hall := disConnectAll_disturbs h j
      refine hall.trans (not_congr ?_)
      simp only [DriverCall.Disturbs, WorkingArea.HoldsAny, hcnum, true_and,
        WorkingArea.clientMask, dif_pos]
    · rename_i hcnum
      exact iff_of_true (same_of_fail h j) fun hd => hcnum hd.1
  | ioctl cnum cm => exact ctrDrvrIoctl_disturbs hlock h
  | memory midx beyond =>
    refine iff_of_true ?_ id
    cases h
    refine (setModule_same_iff (iff_of_true ?_ not_false) j).mpr fun hd => hd.2
    exact ⟨rfl, rfl, rfl, rfl, rfl, rfl, rfl, rfl, rfl, rfl⟩

end Calls

/-! ### The lock -/

theorem unguarded_sameConfiguration {fpga : Fpga} {m m' : ModuleState} {cm : ControlFunction}
    {r : Except Errno Unit} (hcm : cm.guarded = false)
    (h : moduleFunction fpga m cm = some (r, m')) : SameConfiguration m m' := by
  have hrefl : SameConfiguration m m := ⟨.refl _, rfl, rfl, rfl, rfl, rfl, rfl⟩
  cases cm with
  | query q =>
    cases q <;>
    · cases h
      exact hrefl
  | getPllAsyncPeriod =>
    simp only [moduleFunction] at h
    split at h
    · cases h
      exact hrefl
    · cases h
      exact ⟨.refl _, rfl, rfl, rfl, rfl, rfl, rfl⟩
  | _ => cases hcm

theorem control_sameConfiguration {fpga : Fpga} {d d' : Driver} {cnum j : ℕ}
    {cm : ControlFunction} {r : Except Errno Unit}
    (hlock : (d.module j).context.upLock = true)
    (h : d.run fpga (.control cnum cm) = some (r, d')) :
    SameConfiguration (d.module j) (d'.module j) := by
  have hrefl : SameConfiguration (d.module j) (d.module j) :=
    ⟨.refl _, rfl, rfl, rfl, rfl, rfl, rfl⟩
  simp only [Driver.run] at h
  split at h
  · cases h
    exact hrefl
  · rename_i ccon henter
    split at h
    · cases h
      exact hrefl
    · rename_i hguard
      simp only [Option.map_eq_some_iff, Prod.exists, Prod.mk.injEq] at h
      obtain ⟨r', m', hm, -, rfl⟩ := h
      by_cases hj : j = ccon.moduleIndex
      · subst hj
        rw [hlock, Bool.and_true, Bool.not_eq_true] at hguard
        have hsame := unguarded_sameConfiguration hguard hm
        simpa only [Driver.module, Driver.setModule, WorkingArea.setModule, update_self] using hsame
      · simpa only [Driver.module, Driver.setModule, WorkingArea.setModule, update_of_ne hj]
          using hrefl

/-- **The update lock.**  Whatever a client calls, and whichever module it works with, the
configuration of a locked module stays as it is exactly if the call does not disturb the module. -/
theorem sameConfiguration_iff {fpga : Fpga} {d d' : Driver} {c : DriverCall} {j : ℕ}
    {r : Except Errno Unit} (hlock : (d.module j).context.upLock = true)
    (h : d.run fpga c = some (r, d')) :
    SameConfiguration (d.module j) (d'.module j) ↔ ¬ c.Disturbs d.area j := by
  cases c with
  | control cnum cm => exact iff_of_true (control_sameConfiguration hlock h) id
  | object c =>
    simp only [Driver.run, Option.map_eq_some_iff, Prod.exists, Prod.mk.injEq] at h
    obtain ⟨r', s', hrun, -, rfl⟩ := h
    rw [Driver.module, Driver.module, SameConfiguration.of_context]
    cases c with
    | call c => exact call_disturbs hlock hrun
    | changeCtimFrame cnum ctim =>
      refine iff_of_true ?_ id
      obtain rfl | rfl := changeCtimFrame_spec hrun
      · exact .refl _
      · exact .refl _

/-- All calls by all clients. -/
def fullDriver (fpga : Fpga) : System Driver DriverCall :=
  System.ofFun (fun d => d.area.Installed) fun d c => (d.run fpga c).map Prod.snd

/-- A card that keeps everything. -/
def idleFpga : Fpga := ⟨id, fun _ => id⟩

/-- Registers as installed. -/
def blankRegisters : Registers where
  interruptLevel := 2
  interruptVector := 0xB8
  jtgAddress := true
  outputByte := 0
  irqBalance := true
  flashOpen := false
  hptdcOpen := false
  command := 0
  pllAsyncPeriodNs := 0
  inputDelay := 0
  pll := ⟨0, 0, 0, 0, 1950, 100, 337326, 901⟩
  cableId := 0
  card := ⟨0, 0x100, 0, ⟨0, 0, 0, 0, 1950, 100, 337326, 901⟩, 0, 0x2B8, fun _ => ⟨0, 0, ⟨0, 0⟩⟩⟩

/-- Client 1 locks the second of two modules, and client 0 works with the first. -/
def lockedSecond : Driver :=
  System.runUnder (fun d c => (d.run idleFpga c).map Prod.snd) (fun _ _ => True)
    ⟨twoModules, fun _ => blankRegisters⟩
    [.object (.call (.open 1)), .object (.call (.ioctl 1 (.setModule 2))),
      .object (.call (.ioctl 1 .lock)), .object (.call (.open 0))]

theorem reach_lockedSecond : (fullDriver idleFpga).Reach lockedSecond := by
  have hstart : (fullDriver idleFpga).Reach ⟨twoModules, fun _ => blankRegisters⟩ :=
    System.ReachUnder.init (S := fullDriver idleFpga) twoModules_installed
  exact hstart.runUnder _

/-- Client 0 connects to counter 1 of its own module. -/
theorem sameConfiguration_iff_ownModule :
    ∃ r d', lockedSecond.run idleFpga (.object (.call (.ioctl 0 (.connect ⟨1, .hard, 2⟩))))
        = some (r, d')
      ∧ (d'.module 0).context.hardClients 1 = 1
      ∧ SameConfiguration (lockedSecond.module 1) (d'.module 1) := by
  have hlock : (lockedSecond.module 1).context.upLock = true := by decide +kernel
  have hwired : ((lockedSecond.run idleFpga
      (.object (.call (.ioctl 0 (.connect ⟨1, .hard, 2⟩))))).map fun p =>
        (p.2.module 0).context.hardClients 1) = some 1 := by decide +kernel
  obtain ⟨⟨r, d'⟩, hrun, hone⟩ := Option.map_eq_some_iff.mp hwired
  refine ⟨r, d', hrun, hone, (sameConfiguration_iff hlock hrun).mpr ?_⟩
  rintro ⟨-, hmod, -⟩
  exact absurd hmod (by decide)

/-- Client 0 connects to counter 1 of the locked module. -/
theorem not_sameConfiguration_namedModule :
    ¬ ∀ d, (fullDriver idleFpga).Reach d → ∀ c j r d', (d.module j).context.upLock = true →
      d.run idleFpga c = some (r, d') → SameConfiguration (d.module j) (d'.module j) := by
  intro hall
  have hlock : (lockedSecond.module 1).context.upLock = true := by decide +kernel
  have hwired : ((lockedSecond.run idleFpga
      (.object (.call (.ioctl 0 (.connect ⟨2, .hard, 2⟩))))).map fun p =>
        (p.2.module 1).context.hardClients 1) = some 1 := by decide +kernel
  have hfree : (lockedSecond.module 1).context.hardClients 1 = 0 := by decide +kernel
  obtain ⟨⟨r, d'⟩, hrun, hone⟩ := Option.map_eq_some_iff.mp hwired
  have hsame := hall _ reach_lockedSecond _ 1 r d' hlock hrun
  rw [hsame.context.hardClients, hfree] at hone
  exact absurd hone (by decide)

end KernelModules.Ctr
