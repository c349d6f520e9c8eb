import KernelModules.Ctr.Effects
import KernelModules.Lib.Word

/-!
# Setting an action and getting it back

`SET_ACTION` packs a trigger and a counter configuration into four words of the card's RAM, and
`GET_ACTION` reads them from there.

* `autoShiftRight`, `hardToTrigger` and `hardToConfig` unpack, and `getAction` is the ioctl;
* `hardToTrigger_triggerToHard` and `hardToConfig_configToHard` are the round trip of what fits its
  bits, `triggerToHard_hardToTrigger` and `configToHard_hardToConfig` that of any words;
* `setAction_getAction` is the round trip through the driver, with the bus bit overridden.
-/

namespace KernelModules.Ctr

open Function KernelModules.Lib

/-! ### Unpacking -/

/-- The mask when the loop of `AutoShiftRight` ends, with its sign repeated. -/
def shiftedMask : ℕ → U32 → U32
  | 0, m => m
  | n + 1, m => if m &&& 1 ≠ 0 then m else shiftedMask n (m.sshiftRight 1)

/-- `AutoShiftRight`. -/
def autoShiftRight (mask value : U32) : U32 :=
  (value >>> shiftCount 32 mask) &&& shiftedMask 32 mask

/-- `HardToTrigger`; `ctim` is what its static trigger has there from before. -/
def hardToTrigger (ctim : U32) (htrg : HwTrigger) : Trigger where
  ctim := ctim
  frame := htrg.frame
  groupValue := (autoShiftRight trigGroupValueMask htrg.trigger).setWidth 16
  triggerCondition := autoShiftRight trigConditionMask htrg.trigger
  machine := autoShiftRight trigMachineMask htrg.trigger
  counter := autoShiftRight trigCounterMask htrg.trigger
  groupNumber := (autoShiftRight trigGroupNumberMask htrg.trigger).setWidth 16

/-- `HardToConfig`. -/
def hardToConfig (hcnf : HwCounterConfiguration) : CounterConfiguration where
  delay := hcnf.delay
  onZero := autoShiftRight counterConfigOnZeroMask hcnf.config
  start := autoShiftRight counterConfigStartMask hcnf.config
  mode := autoShiftRight counterConfigModeMask hcnf.config
  clock := autoShiftRight counterConfigClockMask hcnf.config
  pulsWidth := autoShiftRight counterConfigPulseWidthMask hcnf.config

/-- `GET_ACTION` on module `midx`; `none` is an access through a null `Map`. -/
def getAction (s : WorkingArea) (midx : ℕ) (triggerNumber ctim : U32) :
    Option (Except Errno Action) :=
  let m := s.moduleContexts midx
  if 0 < triggerNumber.toNat ∧ triggerNumber.toNat ≤ ramTableSize then
    let i := triggerNumber.toNat - 1
    if m.map then
      some (.ok
        { triggerNumber := triggerNumber
          eqpNum := m.eqpNum i
          eqpClass := m.eqpClass i
          trigger := { hardToTrigger ctim (m.hwTrigs i) with ctim := (m.trigs i).ctim }
          config := hardToConfig (m.hwConfigs i) })
    else none
  else some (.error .EINVAL)

/-- `GET_ACTION` on minor device `cnum + 1`. -/
def ctrDrvrGetAction (s : WorkingArea) (cnum : ℕ) (triggerNumber ctim : U32) :
    Option (Except Errno Action) :=
  if h : cnum < 16 then
    let ccon := s.clientContexts ⟨cnum, h⟩
    if ccon.inUse = false then some (.error .EBADF)
    else if (s.moduleContexts ccon.moduleIndex).inUse = false then some (.error .ENODEV)
    else getAction s ccon.moduleIndex triggerNumber ctim
  else some (.error .ENODEV)

/-! ### What fits its bits -/

/-- The fields of a trigger fit theirs. -/
structure Trigger.Fits (t : Trigger) : Prop where
  triggerCondition : t.triggerCondition.toNat < 2 ^ 2
  machine : t.machine.toNat < 2 ^ 3
  counter : t.counter.toNat < 2 ^ 4
  groupNumber : t.groupNumber.toNat < 2 ^ 7

/-- The fields of a configuration fit theirs. -/
structure CounterConfiguration.Fits (c : CounterConfiguration) : Prop where
  onZero : c.onZero.toNat < 2 ^ 2
  start : c.start.toNat < 2 ^ 3
  mode : c.mode.toNat < 2 ^ 2
  clock : c.clock.toNat < 2 ^ 3
  pulsWidth : c.pulsWidth.toNat < 2 ^ 22

section Shift

variable {mask mask' low : U32}

theorem autoShiftRight_or (mask x y : U32) :
    autoShiftRight mask (x ||| y) = autoShiftRight mask x ||| autoShiftRight mask y := by
  rw [autoShiftRight, BitVec.ushiftRight_or_distrib, BitVec.and_or_distrib_right]
  rfl

theorem autoShiftRight_left {n : ℕ} (v : U32) (hn : n ≤ 32) (hv : v.toNat < 2 ^ n)
    (hmask : (mask >>> shiftCount 32 mask) &&& shiftedMask 32 mask = BitVec.ofNat 32 (2 ^ n - 1))
    (hlow : (BitVec.ofNat 32 (2 ^ n - 1) <<< shiftCount 32 mask) >>> shiftCount 32 mask =
      BitVec.ofNat 32 (2 ^ n - 1)) :
    autoShiftRight mask (autoShiftLeft mask v) = v :=
  Word.field_get_put hmask hlow (Word.and_low_eq_self hn hv)

theorem autoShiftRight_other (v : U32)
    (h : (mask' >>> shiftCount 32 mask) &&& shiftedMask 32 mask = 0#32) :
    autoShiftRight mask (autoShiftLeft mask' v) = 0#32 :=
  Word.field_get_other h

theorem autoShiftLeft_right (x : U32)
    (h : BitVec.allOnes 32 <<< shiftCount 32 mask &&& (shiftedMask 32 mask <<< shiftCount 32 mask
      &&& mask) = mask) :
    autoShiftLeft mask (autoShiftRight mask x) = x &&& mask :=
  Word.field_put_get h

end Shift

/-! ### Round trips of the formats -/

theorem hardToTrigger_triggerToHard {t : Trigger} (h : t.Fits) (ctim : U32) :
    hardToTrigger ctim (triggerToHard t) = { t with ctim := ctim } := by
  have hvalue : autoShiftRight trigGroupValueMask (triggerToHard t).trigger =
      t.groupValue.setWidth 32 := by
    have hfit : (t.groupValue.setWidth 32).toNat < 2 ^ 16 := by
      rw [BitVec.toNat_setWidth_of_le (by omega)]
      exact t.groupValue.isLt
    simp only [triggerToHard, autoShiftRight_or]
    rw [autoShiftRight_left (n := 16) _ (by decide) hfit (by decide) (by decide)]
    simp (disch := decide) only [autoShiftRight_other, BitVec.or_zero, BitVec.zero_or]
  have hcondition : autoShiftRight trigConditionMask (triggerToHard t).trigger =
      t.triggerCondition := by
    simp only [triggerToHard, autoShiftRight_or]
    rw [autoShiftRight_left (n := 2) _ (by decide) h.triggerCondition (by decide) (by decide)]
    simp (disch := decide) only [autoShiftRight_other, BitVec.or_zero, BitVec.zero_or]
  have hmachine : autoShiftRight trigMachineMask (triggerToHard t).trigger = t.machine := by
    simp only [triggerToHard, autoShiftRight_or]
    rw [autoShiftRight_left (n := 3) _ (by decide) h.machine (by decide) (by decide)]
    simp (disch := decide) only [autoShiftRight_other, BitVec.or_zero, BitVec.zero_or]
  have hcounter : autoShiftRight trigCounterMask (triggerToHard t).trigger = t.counter := by
    simp only [triggerToHard, autoShiftRight_or]
    rw [autoShiftRight_left (n := 4) _ (by decide) h.counter (by decide) (by decide)]
    simp (disch := decide) only [autoShiftRight_other, BitVec.or_zero, BitVec.zero_or]
  have hnumber : autoShiftRight trigGroupNumberMask (triggerToHard t).trigger =
      t.groupNumber.setWidth 32 := by
    have hfit : (t.groupNumber.setWidth 32).toNat < 2 ^ 7 := by
      rw [BitVec.toNat_setWidth_of_le (by omega)]
      exact h.groupNumber
    simp only [triggerToHard, autoShiftRight_or]
    rw [autoShiftRight_left (n := 7) _ (by decide) hfit (by decide) (by decide)]
    simp (disch := decide) only [autoShiftRight_other, BitVec.or_zero, BitVec.zero_or]
  have hback : ∀ v : BitVec 16, (v.setWidth 32).setWidth 16 = v := by
    intro v
    rw [BitVec.setWidth_setWidth_of_le v (by omega), BitVec.setWidth_eq]
  rw [hardToTrigger, hvalue, hcondition, hmachine, hcounter, hnumber, hback, hback]
  rfl

theorem hardToConfig_configToHard {c : CounterConfiguration} (h : c.Fits) :
    hardToConfig (configToHard c) = c := by
  have honZero : autoShiftRight counterConfigOnZeroMask (configToHard c).config = c.onZero := by
    simp only [configToHard, autoShiftRight_or]
    rw [autoShiftRight_left (n := 2) _ (by decide) h.onZero (by decide) (by decide)]
    simp (disch := decide) only [autoShiftRight_other, BitVec.or_zero, BitVec.zero_or]
  have hstart : autoShiftRight counterConfigStartMask (configToHard c).config = c.start := by
    simp only [configToHard, autoShiftRight_or]
    rw [autoShiftRight_left (n := 3) _ (by decide) h.start (by decide) (by decide)]
    simp (disch := decide) only [autoShiftRight_other, BitVec.or_zero, BitVec.zero_or]
  have hmode : autoShiftRight counterConfigModeMask (configToHard c).config = c.mode := by
    simp only [configToHard, autoShiftRight_or]
    rw [autoShiftRight_left (n := 2) _ (by decide) h.mode (by decide) (by decide)]
    simp (disch := decide) only [autoShiftRight_other, BitVec.or_zero, BitVec.zero_or]
  have hclock : autoShiftRight counterConfigClockMask (configToHard c).config = c.clock := by
    simp only [configToHard, autoShiftRight_or]
    rw [autoShiftRight_left (n := 3) _ (by decide) h.clock (by decide) (by decide)]
    simp (disch := decide) only [autoShiftRight_other, BitVec.or_zero, BitVec.zero_or]
  have hpulsWidth : autoShiftRight counterConfigPulseWidthMask (configToHard c).config =
      c.pulsWidth := by
    simp only [configToHard, autoShiftRight_or]
    rw [autoShiftRight_left (n := 22) _ (by decide) h.pulsWidth (by decide) (by decide)]
    simp (disch := decide) only [autoShiftRight_other, BitVec.or_zero, BitVec.zero_or]
  rw [hardToConfig, honZero, hstart, hmode, hclock, hpulsWidth]
  rfl

theorem setWidth_autoShiftRight {mask : U32} (h : (shiftedMask 32 mask).toNat < 2 ^ 16) (x : U32) :
    ((autoShiftRight mask x).setWidth 16).setWidth 32 = autoShiftRight mask x := by
  apply BitVec.eq_of_toNat_eq
  have hlt : (autoShiftRight mask x).toNat < 2 ^ 16 := by
    rw [autoShiftRight, BitVec.toNat_and]
    exact lt_of_le_of_lt Nat.and_le_right h
  rw [BitVec.toNat_setWidth, BitVec.toNat_setWidth, Nat.mod_eq_of_lt hlt,
    Nat.mod_eq_of_lt (hlt.trans (by norm_num))]

theorem triggerToHard_hardToTrigger (ctim : U32) (w : HwTrigger) :
    triggerToHard (hardToTrigger ctim w) = w := by
  have hmasks : trigGroupValueMask ||| trigConditionMask ||| trigMachineMask ||| trigCounterMask |||
      trigGroupNumberMask = BitVec.allOnes 32 := by
    decide
  have hword : (triggerToHard (hardToTrigger ctim w)).trigger = w.trigger := by
    simp only [triggerToHard, hardToTrigger]
    rw [setWidth_autoShiftRight (by decide), setWidth_autoShiftRight (by decide),
      autoShiftLeft_right _ (by decide), autoShiftLeft_right _ (by decide),
      autoShiftLeft_right _ (by decide), autoShiftLeft_right _ (by decide),
      autoShiftLeft_right _ (by decide), ← BitVec.and_or_distrib_left,
      ← BitVec.and_or_distrib_left, ← BitVec.and_or_distrib_left, ← BitVec.and_or_distrib_left,
      hmasks, BitVec.and_allOnes]
  obtain ⟨frame, trigger⟩ := w
  exact congrArg (HwTrigger.mk frame) hword

theorem configToHard_hardToConfig (w : HwCounterConfiguration) :
    configToHard (hardToConfig w) = w := by
  have hmasks : counterConfigPulseWidthMask ||| counterConfigClockMask ||| counterConfigModeMask |||
      counterConfigStartMask ||| counterConfigOnZeroMask = BitVec.allOnes 32 := by
    decide
  have hword : (configToHard (hardToConfig w)).config = w.config := by
    simp only [configToHard, hardToConfig]
    rw [autoShiftLeft_right _ (by decide), autoShiftLeft_right _ (by decide),
      autoShiftLeft_right _ (by decide), autoShiftLeft_right _ (by decide),
      autoShiftLeft_right _ (by decide), ← BitVec.and_or_distrib_left,
      ← BitVec.and_or_distrib_left, ← BitVec.and_or_distrib_left, ← BitVec.and_or_distrib_left,
      hmasks, BitVec.and_allOnes]
  obtain ⟨config, delay⟩ := w
  exact congrArg (fun config => HwCounterConfiguration.mk config delay) hword

/-! ### The override -/

/-- The bus bit follows the clients, and the rest of the configuration is kept. -/
structure OverridesBus (clients : U32) (c c' : CounterConfiguration) : Prop where
  onZero : c'.onZero &&& ~~~onZeroBus = c.onZero &&& ~~~onZeroBus
  bus : c'.onZero &&& onZeroBus ≠ 0 ↔ clients ≠ 0
  start : c'.start = c.start
  mode : c'.mode = c.mode
  clock : c'.clock = c.clock
  pulsWidth : c'.pulsWidth = c.pulsWidth
  delay : c'.delay = c.delay

theorem overrideBus_overrides (clients : U32) (c : CounterConfiguration) :
    OverridesBus clients c (overrideBus clients c) := by
  unfold overrideBus
  split
  · rename_i hclients
    refine ⟨?_, iff_of_true ?_ hclients, rfl, rfl, rfl, rfl, rfl⟩
    · rw [BitVec.and_or_distrib_right, show onZeroBus &&& ~~~onZeroBus = 0#32 from by decide,
        BitVec.or_zero]
    · intro hzero
      have hbit := congrArg (BitVec.getLsbD · 0) hzero
      simp [onZeroBus] at hbit
  · rename_i hclients
    refine ⟨?_, iff_of_false ?_ hclients, rfl, rfl, rfl, rfl, rfl⟩
    · rw [BitVec.and_assoc, BitVec.and_self]
    · rw [not_not, BitVec.and_assoc, show ~~~onZeroBus &&& onZeroBus = 0#32 from by decide]
      exact BitVec.and_zero

theorem overrideBus_fits (clients : U32) {c : CounterConfiguration} (h : c.Fits) :
    (overrideBus clients c).Fits := by
  unfold overrideBus
  split
  · refine ⟨?_, h.start, h.mode, h.clock, h.pulsWidth⟩
    rw [BitVec.toNat_or]
    exact Nat.or_lt_two_pow h.onZero (by decide)
  · refine ⟨?_, h.start, h.mode, h.clock, h.pulsWidth⟩
    rw [BitVec.toNat_and]
    exact lt_of_le_of_lt Nat.and_le_left h.onZero

/-! ### Through the driver -/

/-- The slots other than `i` of module `midx`, and the other modules, have what they had. -/
structure KeepsOthers (s s' : WorkingArea) (midx i : ℕ) : Prop where
  modules : ∀ k, k ≠ midx → s'.moduleContexts k = s.moduleContexts k
  hwTrigs : ∀ j, j ≠ i →
    (s'.moduleContexts midx).hwTrigs j = (s.moduleContexts midx).hwTrigs j
  hwConfigs : ∀ j, j ≠ i →
    (s'.moduleContexts midx).hwConfigs j = (s.moduleContexts midx).hwConfigs j
  trigs : ∀ j, j ≠ i → (s'.moduleContexts midx).trigs j = (s.moduleContexts midx).trigs j
  configs : ∀ j, j ≠ i → (s'.moduleContexts midx).configs j = (s.moduleContexts midx).configs j
  eqpNum : ∀ j, j ≠ i → (s'.moduleContexts midx).eqpNum j = (s.moduleContexts midx).eqpNum j
  eqpClass : ∀ j, j ≠ i →
    (s'.moduleContexts midx).eqpClass j = (s.moduleContexts midx).eqpClass j

/-- An accepted action is in its slot, in the tables and on the card. -/
structure Written (m m' : ModuleContext) (i : ℕ) (act : Action) : Prop extends
    Acted m m' i act where
  map : m'.map = true
  inUse : m'.inUse = m.inUse
  hwTrigs : m'.hwTrigs = update m.hwTrigs i (triggerToHard act.trigger)
  configs : m'.configs = update m.configs i (overrideBus (m.clients i) act.config)

theorem writeAction_written {m m' : ModuleContext} {i : ℕ} {act : Action}
    (hnum : m.eqpNum i = act.eqpNum) (hclass : m.eqpClass i = act.eqpClass)
    (h : writeAction m i act = some m') : Written m m' i act := by
  unfold writeAction at h
  dsimp only at h
  split at h
  · rename_i hmap
    cases h
    exact
      { clients := rfl
        hardClients := rfl
        interruptEnable := rfl
        eqpNum := by rw [← hnum, update_eq_self]
        eqpClass := by rw [← hclass, update_eq_self]
        trigs := rfl
        hwConfigs := rfl
        map := hmap
        inUse := rfl
        hwTrigs := rfl
        configs := rfl }
  · cases h

theorem setAction_ok {s s' : WorkingArea} {midx : ℕ} {act : Action}
    (h : setAction s midx act = some (.ok (), s')) :
    (0 < act.triggerNumber.toNat ∧ act.triggerNumber.toNat ≤ ramTableSize) ∧
      ∃ m', s' = s.setModule midx m' ∧
        Written (s.moduleContexts midx) m' (act.triggerNumber.toNat - 1) act := by
  unfold setAction at h
  dsimp only at h
  split at h
  · rename_i hrange
    refine ⟨hrange, ?_⟩
    split at h
    · cases h
    · split at h
      · split at h
        · cases h
        · rename_i hnum
          split at h
          · cases h
          · rename_i hclass
            split at h
            · cases h
            · obtain ⟨m', hm', hok⟩ := Option.bind_eq_some_iff.mp h
              cases hok
              exact ⟨m', rfl, writeAction_written (not_not.mp hnum) (not_not.mp hclass) hm'⟩
      · obtain ⟨m', hm', hok⟩ := Option.bind_eq_some_iff.mp h
        cases hok
        have hw := writeAction_written (update_self _ _ _) (update_self _ _ _) hm'
        exact ⟨m', rfl,
          { clients := hw.clients
            hardClients := hw.hardClients
            interruptEnable := hw.interruptEnable
            eqpNum := by rw [hw.eqpNum, update_idem]
            eqpClass := by rw [hw.eqpClass, update_idem]
            trigs := hw.trigs
            hwConfigs := hw.hwConfigs
            map := hw.map
            inUse := hw.inUse
            hwTrigs := hw.hwTrigs
            configs := hw.configs }⟩
  · cases h

theorem ctrDrvrIoctl_setAction {s s' : WorkingArea} {cnum : ℕ} {act : Action}
    (h : ctrDrvrIoctl s cnum (.setAction act) = some (.ok (), s')) :
    ∃ k : Fin 16, k.val = cnum ∧ (s.clientContexts k).inUse = true ∧
      (s.moduleContexts (s.clientContexts k).moduleIndex).inUse = true ∧
      setAction s (s.clientContexts k).moduleIndex act = some (.ok (), s') := by
  unfold ctrDrvrIoctl at h
  split at h
  · rename_i hk
    dsimp only at h
    split at h
    · cases h
    · rename_i hclient
      split at h
      · cases h
      · rename_i hmodule
        unfold decodeIoctl at h
        dsimp only at h
        split at h
        · cases h
        · exact ⟨⟨cnum, hk⟩, rfl, Bool.eq_true_of_not_eq_false hclient,
            Bool.eq_true_of_not_eq_false hmodule, h⟩
  · cases h

/-- **Setting an action and getting it back.**  An action that is accepted and fits its bits comes
back to any client of the module as it was set, with the bus bit of the clients; the other slots
keep what they had; and any words of the card are packed again as they were unpacked. -/
theorem setAction_getAction {s s' : WorkingArea} {cnum : ℕ} {act : Action} (ctim : U32)
    (htrigger : act.trigger.Fits) (hconfig : act.config.Fits)
    (h : ctrDrvrIoctl s cnum (.setAction act) = some (.ok (), s')) :
    (∃ got, ctrDrvrGetAction s' cnum act.triggerNumber ctim = some (.ok got) ∧
      (∀ k : Fin 16, (s.clientContexts k).inUse = true →
        s.clientModule k = s.clientModule cnum →
          ctrDrvrGetAction s' k act.triggerNumber ctim = some (.ok got)) ∧
      got.triggerNumber = act.triggerNumber ∧ got.trigger = act.trigger ∧
      got.eqpNum = act.eqpNum ∧ got.eqpClass = act.eqpClass ∧
      OverridesBus ((s.moduleContexts (s.clientModule cnum)).clients
        (act.triggerNumber.toNat - 1)) act.config got.config) ∧
    KeepsOthers s s' (s.clientModule cnum) (act.triggerNumber.toNat - 1) ∧
    (∀ w, triggerToHard (hardToTrigger ctim w) = w) ∧
    (∀ w, configToHard (hardToConfig w) = w) := by
  obtain ⟨k, rfl, hclient, hmodule, hset⟩ := ctrDrvrIoctl_setAction h
  obtain ⟨hrange, m', rfl, hw⟩ := setAction_ok hset
  have hmidx : s.clientModule k.val = (s.clientContexts k).moduleIndex := by
    rw [WorkingArea.clientModule, dif_pos k.isLt]
  have hself : (s.setModule (s.clientContexts k).moduleIndex m').moduleContexts
      (s.clientContexts k).moduleIndex = m' := update_self _ _ _
  rw [hmidx]
  refine ⟨?_, ?_, triggerToHard_hardToTrigger ctim, configToHard_hardToConfig⟩
  · -- what a client of the module reads
    have hread : ∀ k' : Fin 16, (s.clientContexts k').inUse = true →
        (s.clientContexts k').moduleIndex = (s.clientContexts k).moduleIndex →
          ctrDrvrGetAction (s.setModule (s.clientContexts k).moduleIndex m') k'
            act.triggerNumber ctim = some (.ok ⟨act.triggerNumber, act.eqpNum, act.eqpClass,
              act.trigger, overrideBus ((s.moduleContexts
                (s.clientContexts k).moduleIndex).clients (act.triggerNumber.toNat - 1))
                  act.config⟩) := by
      intro k' hin hmod
      have hinUse : ¬ m'.inUse = false := by
        rw [hw.inUse, hmodule]
        simp
      rw [ctrDrvrGetAction, dif_pos k'.isLt]
      dsimp only
      rw [if_neg (by simp [WorkingArea.setModule, hin])]
      change (if ((s.setModule (s.clientContexts k).moduleIndex m').moduleContexts
        (s.clientContexts k').moduleIndex).inUse = false then _ else
          getAction (s.setModule (s.clientContexts k).moduleIndex m')
            (s.clientContexts k').moduleIndex act.triggerNumber ctim) = _
      rw [hmod, hself, if_neg hinUse, getAction, hself]
      dsimp only
      rw [if_pos hrange, if_pos hw.map, hw.eqpNum, hw.eqpClass, hw.hwTrigs, hw.trigs,
        hw.hwConfigs]
      simp only [update_self]
      rw [hardToTrigger_triggerToHard htrigger,
        hardToConfig_configToHard (overrideBus_fits _ hconfig)]
    refine ⟨_, hread k hclient rfl, ?_, rfl, rfl, rfl, rfl, overrideBus_overrides _ _⟩
    intro k' hin hmod
    rw [WorkingArea.clientModule, dif_pos k'.isLt] at hmod
    exact hread k' hin hmod
  · constructor
    · intro j hj
      exact update_of_ne hj _ _
    all_goals
      intro j hj
      rw [hself]
    · rw [hw.hwTrigs, update_of_ne hj]
    · rw [hw.hwConfigs, update_of_ne hj]
    · rw [hw.trigs, update_of_ne hj]
    · rw [hw.configs, update_of_ne hj]
    · rw [hw.eqpNum, update_of_ne hj]
    · rw [hw.eqpClass, update_of_ne hj]

/-- A driver with one card, on which the first client has CTIM 5 in slot 0 and works with it. -/
def ctimInstalled : WorkingArea :=
  { oneModule with
    moduleContexts := fun midx =>
      if midx = 0 then
        { blankModule true with
          eqpNum := fun i => if i = 0 then 5 else 0
          eqpClass := fun i => if i = 0 then .ctim else .hard
          clients := fun i => if i = 0 then 1 else 0 }
      else blankModule false
    clientContexts := fun _ => ⟨true, ⟨0, Nat.zero_lt_succ 15⟩, 0⟩ }

/-- An action for it with all fields at their bounds. -/
def boundAction : Action where
  triggerNumber := 1
  eqpNum := 5
  eqpClass := .ctim
  trigger := ⟨5, 0x14050000, 3, 7, 0, 127, 0xFFFF⟩
  config := ⟨2, 7, 3, 7, 0x3FFFFF, 0xFFFFFFFF⟩

theorem setAction_getAction_bounds :
    ∃ s' got, ctrDrvrGetAction s' 0 1 0 = some (.ok got) ∧ got.trigger = boundAction.trigger := by
  obtain ⟨s', hs'⟩ : ∃ s', ctrDrvrIoctl ctimInstalled 0 (.setAction boundAction) =
      some (.ok (), s') := ⟨_, rfl⟩
  obtain ⟨⟨got, hget, -, -, htrigger, -⟩, -⟩ := setAction_getAction 0
    ⟨by decide, by decide, by decide, by decide⟩
    ⟨by decide, by decide, by decide, by decide, by decide⟩ hs'
  exact ⟨s', got, hget, htrigger⟩

end KernelModules.Ctr
