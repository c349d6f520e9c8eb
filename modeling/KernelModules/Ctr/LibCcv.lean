import KernelModules.Ctr.ControlFunctions
import KernelModules.Ctr.Library

/-!
# Setting the values of a local timing

A local timing (LTIM) is a PTIM object of the driver with an action for each telegram line.
`ctr_set_ccv` changes some of the values of one action through a chain of ioctls: it selects the
module of the LTIM, reads the action, routes the counter's output, and writes the action back.

* `Ccv` are the values, and `ctrSetCcv` and `ctrGetCcv` the functions of these names;
* `ctrSetCcv_ok` and `ctrSetCcv_error` say what a call leaves behind that succeeds or fails, and
  `ctrGetCcv_of` what is read back;
* `ctrSetCcv_spec` is the update: the values that were asked for, and for the others those of
  before, but for three that depend on one another: an output mask of zero stands for the counter's
  own output, a new CTIM brings the payload of its frame, and the bus bit follows the clients.
-/

namespace KernelModules.Ctr

open Function KernelModules.Lib

/-! ### The ioctls -/

/-- `GET_PTIM_BINDING`. -/
def getPtimBinding (fd : ℕ) (eqpNum : U32) : LibCall PtimBinding :=
  query fd fun s _ =>
    match s.ptim.find? fun o => eqpNum = o.eqpNum with
    | some o => some (.ok o)
    | none => some (.error .EINVAL)

/-- `CtrDrvrCounterMaskBuf`. -/
structure CounterMaskBuf where
  counter : U32
  mask : U32
  polarity : U32
  deriving DecidableEq, Repr

/-- `CtrDrvrPolarityTTL_BAR`. -/
def polarityTtlBar : U32 := 1

/-- What `GET_OUT_MASK` makes of `RemOutMask`. -/
def outMaskOf (counter word : U32) : CounterMaskBuf where
  counter := counter
  mask := autoShiftRight cntrCntrlOutMask (word &&& ~~~cntrCntrlTtlBar)
  polarity := if cntrCntrlTtlBar &&& word ≠ 0 then polarityTtlBar else 0

/-- The outputs of a counter: without any, its own. -/
def routed (counter mask : U32) : U32 :=
  if mask = 0 then 1#32 <<< (counter.toNat % 32) else mask

/-- What `SET_OUT_MASK` writes to `RemOutMask`. -/
def outMaskWord (cmsb : CounterMaskBuf) : U32 :=
  autoShiftLeft cntrCntrlOutMask (routed cmsb.counter cmsb.mask) |||
    (if cmsb.polarity = polarityTtlBar then cntrCntrlTtlBar else 0)

theorem setOutMask_word {m m' : ModuleState} {cmsb : CounterMaskBuf}
    (h : setOutMask m cmsb.counter cmsb.mask cmsb.polarity = some (.ok (), m')) :
    (m'.registers.card.counters cmsb.counter.toNat).remOutMask = outMaskWord cmsb := by
  unfold setOutMask at h
  split at h
  · rename_i hrange
    unfold ModuleState.onMap at h
    split at h
    · cases h
      have hcounter : cmsb.counter.toNat % 32 = cmsb.counter.toNat :=
        Nat.mod_eq_of_lt (by omega)
      simp only [ModuleState.setCounter, update_self, outMaskWord, routed, hcounter,
        polarityTtlBar]
      rfl
    · cases h
  · cases h

/-- The counters with outputs. -/
def HasOutput (counter : U32) : Prop := 1 ≤ counter.toNat ∧ counter.toNat ≤ 8

instance (counter : U32) : Decidable (HasOutput counter) := inferInstanceAs (Decidable (_ ∧ _))

/-- `GET_OUT_MASK`. -/
def getOutMaskOf (fd : ℕ) (counter : U32) : LibCall CounterMaskBuf :=
  query fd fun s ccon =>
    if HasOutput counter then
      if (s.moduleContexts ccon.moduleIndex).map then
        some (.ok (outMaskOf counter (s.remOutMask ccon.moduleIndex counter.toNat)))
      else none
    else some (.error .EINVAL)

/-- A routing register written. -/
def LibArea.withOutMask (s : LibArea) (midx counter : ℕ) (word : U32) : LibArea :=
  { s with remOutMask := update s.remOutMask midx (update (s.remOutMask midx) counter word) }

/-- `SET_OUT_MASK`. -/
def setOutMaskOf (fd : ℕ) (cmsb : CounterMaskBuf) : LibCall Unit := do
  let midx ← query fd fun s ccon =>
    if (s.moduleContexts ccon.moduleIndex).upLock then some (.error .EINVAL)
    else if HasOutput cmsb.counter then
      if (s.moduleContexts ccon.moduleIndex).map then some (.ok ccon.moduleIndex) else none
    else some (.error .EINVAL)
  .modify fun s => s.withOutMask midx cmsb.counter.toNat (outMaskWord cmsb)

/-! ### The values -/

/-- `ctr_ccv_s`. -/
structure Ccv where
  enable : U32
  start : U32
  mode : U32
  clock : U32
  pulseWidth : U32
  delay : U32
  counterMask : U32
  polarity : U32
  ctim : U32
  payload : U32
  cmpMethod : U32
  grnum : U32
  grval : U32
  tgnum : U32
  deriving DecidableEq, Repr

/-! `ctr_ccv_fields_t`. -/

def ctrCcvEnable : U32 := 0x0001
def ctrCcvStart : U32 := 0x0002
def ctrCcvMode : U32 := 0x0004
def ctrCcvClock : U32 := 0x0008
def ctrCcvPulseWidth : U32 := 0x0010
def ctrCcvDelay : U32 := 0x0020
def ctrCcvCounterMask : U32 := 0x0040
def ctrCcvPolarity : U32 := 0x0080
def ctrCcvCtim : U32 := 0x0100
def ctrCcvPayload : U32 := 0x0200
def ctrCcvCmpMethod : U32 := 0x0400
def ctrCcvGrnum : U32 := 0x0800
def ctrCcvGrval : U32 := 0x1000
def ctrCcvTgnum : U32 := 0x2000

/-- A field is to be set. -/
def InFields (fields field : U32) : Prop := fields &&& field ≠ 0

instance (fields field : U32) : Decidable (InFields fields field) :=
  inferInstanceAs (Decidable (_ ≠ _))

/-- The value to be set, or the one there is. -/
def pick {α : Type} (fields field : U32) (new old : α) : α :=
  if InFields fields field then new else old

/-- `CtrDrvrCounterOnZeroOUT`. -/
def onZeroOut : U32 := 0x02

/-- One bit set or cleared as it is in `v`. -/
def copyBit (bit v onZero : U32) : U32 :=
  if v &&& bit ≠ 0 then onZero ||| bit else onZero &&& ~~~bit

/-- The configuration with the fields that are to be set. -/
def Ccv.config (ccv : Ccv) (fields : U32) (cnf : CounterConfiguration) : CounterConfiguration where
  onZero := pick fields ctrCcvEnable
    (copyBit onZeroOut ccv.enable (copyBit onZeroBus ccv.enable cnf.onZero)) cnf.onZero
  start := pick fields ctrCcvStart ccv.start cnf.start
  mode := pick fields ctrCcvMode ccv.mode cnf.mode
  clock := pick fields ctrCcvClock ccv.clock cnf.clock
  pulsWidth := pick fields ctrCcvPulseWidth ccv.pulseWidth cnf.pulsWidth
  delay := pick fields ctrCcvDelay ccv.delay cnf.delay

/-- The trigger with the fields that are to be set, but for the CTIM. -/
def Ccv.trigger (ccv : Ccv) (fields : U32) (trg : Trigger) : Trigger where
  ctim := trg.ctim
  frame := pick fields ctrCcvPayload (withPayload trg.frame ccv.payload) trg.frame
  triggerCondition := pick fields ctrCcvCmpMethod ccv.cmpMethod trg.triggerCondition
  machine := pick fields ctrCcvTgnum ccv.tgnum trg.machine
  counter := trg.counter
  groupNumber := pick fields ctrCcvGrnum (ccv.grnum.setWidth 16) trg.groupNumber
  groupValue := pick fields ctrCcvGrval (ccv.grval.setWidth 16) trg.groupValue

/-! ### The functions -/

/-- A part of `ctr_set_ccv` that routes the counter's output: for `CTR_CCV_COUNTER_MASK`, or for
`CTR_CCV_POLARITY`. -/
def changeOutMask (fd : ℕ) (counter fields field : U32) (f : CounterMaskBuf → CounterMaskBuf) :
    LibCall Unit :=
  if InFields fields field then do
    let cmsb ← getOutMaskOf fd counter
    setOutMaskOf fd (f cmsb)
  else pure ()

def Ccv.putMask (ccv : Ccv) (cmsb : CounterMaskBuf) : CounterMaskBuf :=
  { cmsb with mask := ccv.counterMask }

def Ccv.putPolarity (ccv : Ccv) (cmsb : CounterMaskBuf) : CounterMaskBuf :=
  { cmsb with polarity := ccv.polarity }

/-- The part for `CTR_CCV_CTIM`. -/
def setCtim (fd : ℕ) (ccv : Ccv) (fields : U32) (trg : Trigger) : LibCall Trigger :=
  if InFields fields ctrCcvCtim then do
    let ctimo ← listCtimObjects fd
    match ctimo.find? fun o => ccv.ctim = o.eqpNum with
    | some o => pure { trg with ctim := ccv.ctim, frame := o.frame }
    | none => .fail .EADDRNOTAVAIL
  else pure trg

/-- `StartIndex + index + 1`. -/
def PtimBinding.trigger (ob : PtimBinding) (index : U32) : U32 :=
  ob.startIndex.setWidth 32 + index + 1

/-- The counter of an LTIM, as the library passes it on. -/
def PtimBinding.output (ob : PtimBinding) : U32 := ob.counter.setWidth 32

/-- The action of an LTIM: the part that `ctr_set_ccv` and `ctr_get_ccv` begin with. -/
def ltimAction (fd : ℕ) (ltim index : U32) : LibCall (PtimBinding × Action) := do
  let ob ← getPtimBinding fd ltim
  ioctl fd (.setModule (ob.moduleIndex.toNat + 1))
  if index.toInt ≥ ob.size.toNat then .fail .ERANGE
  else do
    let act ← getActionOf fd (ob.trigger index)
    pure (ob, act)

/-- `ctr_set_ccv`. -/
def ctrSetCcv (fd : ℕ) (ltim index : U32) (ccv : Ccv) (fields : U32) : LibCall Unit := do
  let (ob, act) ← ltimAction fd ltim index
  let counter := ob.output
  changeOutMask fd counter fields ctrCcvCounterMask ccv.putMask
  changeOutMask fd counter fields ctrCcvPolarity ccv.putPolarity
  let trg ← setCtim fd ccv fields { act.trigger with counter := counter }
  ioctl fd (.setAction
    { act with trigger := ccv.trigger fields trg, config := ccv.config fields act.config })

/-- The values that `ctr_get_ccv` gives for an action. -/
def ccvOf (act : Action) (cmsb : CounterMaskBuf) : Ccv where
  enable := act.config.onZero
  start := act.config.start
  mode := act.config.mode
  clock := act.config.clock
  pulseWidth := act.config.pulsWidth
  delay := act.config.delay
  counterMask := cmsb.mask
  polarity := cmsb.polarity
  ctim := act.trigger.ctim
  payload := act.trigger.frame &&& 0xFFFF
  cmpMethod := act.trigger.triggerCondition
  grnum := act.trigger.groupNumber.setWidth 32
  grval := act.trigger.groupValue.setWidth 32
  tgnum := act.trigger.machine

/-- `ctr_get_ccv`. -/
def ctrGetCcv (fd : ℕ) (ltim index : U32) : LibCall Ccv := do
  let (ob, act) ← ltimAction fd ltim index
  let cmsb ← getOutMaskOf fd ob.output
  pure (ccvOf act cmsb)

/-! ### The routing register -/

/-- The fields of a mask buffer fit theirs. -/
structure CounterMaskBuf.Fits (cmsb : CounterMaskBuf) : Prop where
  counter : HasOutput cmsb.counter
  mask : cmsb.mask.toNat < 2 ^ 12
  polarity : cmsb.polarity.toNat < 2

theorem routed_fits {counter mask : U32} (hcounter : HasOutput counter)
    (hmask : mask.toNat < 2 ^ 12) : (routed counter mask).toNat < 2 ^ 12 := by
  unfold routed
  split
  · obtain ⟨-, hle⟩ := hcounter
    rw [Nat.mod_eq_of_lt (by omega), BitVec.toNat_shiftLeft, Nat.shiftLeft_eq]
    have hpow : 2 ^ counter.toNat ≤ 2 ^ 8 := Nat.pow_le_pow_right (by omega) hle
    exact lt_of_le_of_lt (Nat.mod_le _ _) (by simpa using by omega)
  · exact hmask

theorem routed_ne_zero {counter mask : U32} (hcounter : HasOutput counter) :
    routed counter mask ≠ 0 := by
  unfold routed
  split
  · obtain ⟨-, hle⟩ := hcounter
    intro h
    have hbit := congrArg (BitVec.getLsbD · (counter.toNat % 32)) h
    have hlt : counter.toNat % 32 < 32 := Nat.mod_lt _ (by decide)
    simp [hlt] at hbit
  · rename_i hmask
    exact hmask

theorem routed_routed {counter mask : U32} (hcounter : HasOutput counter) :
    routed counter (routed counter mask) = routed counter mask :=
  if_neg (routed_ne_zero hcounter)

theorem outMaskOf_fits {counter : U32} (hcounter : HasOutput counter) (word : U32) :
    (outMaskOf counter word).Fits := by
  refine ⟨hcounter, ?_, ?_⟩
  · rw [outMaskOf, autoShiftRight, BitVec.toNat_and]
    exact lt_of_le_of_lt Nat.and_le_right (by decide)
  · rw [outMaskOf]
    dsimp only
    split <;> decide

theorem outMaskOf_word {cmsb : CounterMaskBuf} (h : cmsb.Fits) :
    outMaskOf cmsb.counter (outMaskWord cmsb) =
      { cmsb with mask := routed cmsb.counter cmsb.mask } := by
  have hclear : ∀ v t : U32, t &&& ~~~cntrCntrlTtlBar = 0#32 →
      (autoShiftLeft cntrCntrlOutMask v ||| t) &&& ~~~cntrCntrlTtlBar =
        autoShiftLeft cntrCntrlOutMask v := by
    intro v t ht
    rw [BitVec.and_or_distrib_right, ht, BitVec.or_zero, autoShiftLeft, BitVec.and_assoc]
    rfl
  have hbar : ∀ v t : U32, cntrCntrlTtlBar &&& (autoShiftLeft cntrCntrlOutMask v ||| t) =
      cntrCntrlTtlBar &&& t := by
    intro v t
    rw [BitVec.and_or_distrib_left, autoShiftLeft, BitVec.and_comm _ cntrCntrlOutMask,
      ← BitVec.and_assoc,
      show cntrCntrlTtlBar &&& cntrCntrlOutMask = 0#32 from by decide, BitVec.zero_and,
      BitVec.zero_or]
  have hpolarity : cmsb.polarity = polarityTtlBar ∨ cmsb.polarity = 0 := by
    have hlt := h.polarity
    obtain hone | hzero : cmsb.polarity.toNat = 1 ∨ cmsb.polarity.toNat = 0 := by omega
    · exact .inl (BitVec.eq_of_toNat_eq hone)
    · exact .inr (BitVec.eq_of_toNat_eq hzero)
  have hfield := @autoShiftRight_left cntrCntrlOutMask 12
    (routed cmsb.counter cmsb.mask) (by decide) (routed_fits h.counter h.mask) (by decide)
    (by decide)
  obtain ⟨counter, mask, polarity⟩ := cmsb
  obtain hone | hzero := hpolarity
  · dsimp only at hone hfield ⊢
    rw [outMaskWord, outMaskOf, hbar, hclear _ _ (by rw [if_pos hone]; decide), hfield,
      if_pos hone, if_pos (by decide), hone]
  · dsimp only at hzero hfield ⊢
    have hne : polarity ≠ polarityTtlBar := by
      rw [hzero]
      decide
    rw [outMaskWord, outMaskOf, hbar, hclear _ _ (by rw [if_neg hne]; decide), hfield,
      if_neg hne, if_neg (by decide), hzero]

/-- The routing register after the two parts that write it. -/
def Ccv.outMask (ccv : Ccv) (fields counter word : U32) : U32 :=
  let word := pick fields ctrCcvCounterMask (outMaskWord (ccv.putMask (outMaskOf counter word))) word
  pick fields ctrCcvPolarity (outMaskWord (ccv.putPolarity (outMaskOf counter word))) word

/-- One of the two fields that the routing register holds is to be set. -/
def Routes (fields : U32) : Prop :=
  InFields fields ctrCcvCounterMask ∨ InFields fields ctrCcvPolarity

instance (fields : U32) : Decidable (Routes fields) := inferInstanceAs (Decidable (_ ∨ _))

theorem pick_pos {α : Type} {fields field : U32} {new old : α} (h : InFields fields field) :
    pick fields field new old = new := if_pos h

theorem pick_neg {α : Type} {fields field : U32} {new old : α} (h : ¬ InFields fields field) :
    pick fields field new old = old := if_neg h

theorem outMaskOf_outMask {ccv : Ccv} {fields counter word : U32} (hcounter : HasOutput counter)
    (hmask : ccv.counterMask.toNat < 2 ^ 12) (hpolarity : ccv.polarity.toNat < 2) :
    outMaskOf counter (ccv.outMask fields counter word) =
      { counter := counter
        mask := if Routes fields then
            routed counter
              (pick fields ctrCcvCounterMask ccv.counterMask (outMaskOf counter word).mask)
          else (outMaskOf counter word).mask
        polarity := pick fields ctrCcvPolarity ccv.polarity (outMaskOf counter word).polarity } := by
  have hword : ∀ mask polarity, mask.toNat < 2 ^ 12 → polarity.toNat < 2 →
      outMaskOf counter (outMaskWord ⟨counter, mask, polarity⟩) =
        ⟨counter, routed counter mask, polarity⟩ := fun mask polarity hm hp =>
    @outMaskOf_word ⟨counter, mask, polarity⟩ ⟨hcounter, hm, hp⟩
  have hold := outMaskOf_fits hcounter word
  have hputMask : ∀ w, ccv.putMask (outMaskOf counter w) =
      ⟨counter, ccv.counterMask, (outMaskOf counter w).polarity⟩ := fun _ => rfl
  have hputPolarity : ∀ w, ccv.putPolarity (outMaskOf counter w) =
      ⟨counter, (outMaskOf counter w).mask, ccv.polarity⟩ := fun _ => rfl
  by_cases hm : InFields fields ctrCcvCounterMask
  · have hfirst := hword _ _ hmask hold.polarity
    by_cases hp : InFields fields ctrCcvPolarity
    · simp only [Ccv.outMask, pick_pos hm, pick_pos hp, Routes, hm, true_or, if_true, hputMask,
        hputPolarity, hfirst]
      change outMaskOf counter (outMaskWord ⟨counter, _, ccv.polarity⟩) = _
      rw [hword _ _ (routed_fits hcounter hmask) hpolarity, routed_routed hcounter]
    · simp only [Ccv.outMask, pick_pos hm, pick_neg hp, Routes, hm, true_or, if_true, hputMask,
        hfirst]
  · by_cases hp : InFields fields ctrCcvPolarity
    · simp only [Ccv.outMask, pick_neg hm, pick_pos hp, Routes, hp, or_true, if_true, hputPolarity]
      rw [hword _ _ hold.mask hpolarity]
    · simp only [Ccv.outMask, pick_neg hm, pick_neg hp, Routes, hm, hp, or_self, if_false]
      rfl

/-! ### The steps of a call -/

/-- A handle works with another module. -/
def LibArea.select (s : LibArea) (k : Fin 16) (midx : ℕ) : LibArea :=
  { s with clientContexts :=
      update s.clientContexts k { s.clientContexts k with moduleIndex := midx } }

section Steps

variable {s s' : LibArea} {fd : ℕ} {k : Fin 16} {midx : ℕ}

theorem LibArea.select_clientModule : (s.select k midx).clientModule k.val = midx := by
  rw [clientModule_val]
  simp only [LibArea.select, update_self]

theorem LibArea.select_current :
    (s.select k midx).current k.val = s.moduleContexts midx := by
  rw [LibArea.current, LibArea.select_clientModule]
  rfl

theorem LibArea.select_client {k' : Fin 16} : (s.select k midx).Client k.val k' ↔
    k' = k ∧ (s.clientContexts k).inUse = true ∧ (s.moduleContexts midx).inUse = true := by
  constructor
  · rintro ⟨hk, hclient, hmodule⟩
    obtain rfl := Fin.ext hk
    refine ⟨rfl, ?_, ?_⟩
    · simpa only [LibArea.select, update_self] using hclient
    · simpa only [LibArea.select, update_self] using hmodule
  · rintro ⟨rfl, hclient, hmodule⟩
    refine ⟨rfl, ?_, ?_⟩
    · simpa only [LibArea.select, update_self] using hclient
    · simpa only [LibArea.select, update_self] using hmodule

theorem ioctl_setModule_ok {lav : ℤ} : ioctl fd (.setModule lav) s = some (.ok (), s') ↔
    ∃ k, s.Client fd k ∧ (1 ≤ lav ∧ lav ≤ s.modules) ∧ s' = s.select k (lav - 1).toNat := by
  rw [ioctl_eq_some]
  constructor
  · rintro ⟨r', w, hcall, hr, rfl⟩
    rw [mapError_ok] at hr
    obtain rfl := hr
    unfold ctrDrvrIoctl at hcall
    split at hcall
    · rename_i hk
      dsimp only at hcall
      split at hcall
      · cases hcall
      · rename_i hclient
        split at hcall
        · cases hcall
        · rename_i hmodule
          unfold decodeIoctl at hcall
          dsimp only at hcall
          split at hcall
          · rename_i hrange
            cases hcall
            exact ⟨⟨fd, hk⟩, ⟨rfl, Bool.eq_true_of_not_eq_false hclient,
              Bool.eq_true_of_not_eq_false hmodule⟩, hrange, rfl⟩
          · cases hcall
    · cases hcall
  · rintro ⟨k, ⟨rfl, hclient, hmodule⟩, hrange, rfl⟩
    refine ⟨.ok (), (s.select k (lav - 1).toNat).toWorkingArea, ?_, rfl, rfl⟩
    rw [ctrDrvrIoctl, dif_pos k.isLt]
    dsimp only
    rw [if_neg (by simp [hclient]), if_neg (by simp [hmodule]), decodeIoctl, if_pos hrange]
    rfl

theorem ioctl_setModule_error {lav : ℤ} {e : LibErrno}
    (h : ioctl fd (.setModule lav) s = some (.error e, s')) : s' = s := by
  obtain ⟨r', w, hcall, hr, rfl⟩ := ioctl_eq_some.mp h
  unfold ctrDrvrIoctl at hcall
  split at hcall
  · dsimp only at hcall
    split at hcall
    · cases hcall
      rfl
    · split at hcall
      · cases hcall
        rfl
      · unfold decodeIoctl at hcall
        dsimp only at hcall
        split at hcall
        · cases hcall
          cases hr
        · cases hcall
          rfl
  · cases hcall
    rfl

/-- The object of an LTIM. -/
def WorkingArea.ltimObject (s : WorkingArea) (ltim : U32) : Option PtimBinding :=
  s.ptim.find? fun o => ltim = o.eqpNum

theorem getPtimBinding_ok {ltim : U32} {ob : PtimBinding} :
    getPtimBinding fd ltim s = some (.ok ob, s') ↔
      s' = s ∧ ∃ k, s.Client fd k ∧ s.ltimObject ltim = some ob := by
  rw [getPtimBinding, query_ok]
  refine and_congr_right fun _ => exists_congr fun k => and_congr_right fun _ => ?_
  rw [WorkingArea.ltimObject]
  cases s.ptim.find? fun o => ltim = o.eqpNum with
  | none => simp
  | some o => simp

/-- The action of an LTIM can be reached by handle `k`. -/
structure LtimReached (s : LibArea) (k : Fin 16) (ltim index : U32) (ob : PtimBinding) : Prop where
  client : s.Client k k
  object : s.ltimObject ltim = some ob
  modules : ob.moduleIndex.toNat < s.modules
  inUse : (s.moduleContexts ob.moduleIndex.toNat).inUse = true
  map : (s.moduleContexts ob.moduleIndex.toNat).map = true
  size : index.toInt < ob.size.toNat
  range : 0 < (ob.trigger index).toNat ∧ (ob.trigger index).toNat ≤ ramTableSize

theorem ltimAction_ok {ltim index : U32} {ob : PtimBinding} {act : Action} :
    ltimAction fd ltim index s = some (.ok (ob, act), s') ↔
      ∃ k : Fin 16, k.val = fd ∧ LtimReached s k ltim index ob ∧
        act = readAction (s.moduleContexts ob.moduleIndex.toNat) (ob.trigger index) ∧
        s' = s.select k ob.moduleIndex.toNat := by
  have hlav : ∀ n : ℕ, ((n : ℤ) + 1 - 1).toNat = n := by omega
  constructor
  · intro h
    obtain ⟨ob', s₁, hob, hrest⟩ := Fallible.bind_ok.mp h
    obtain ⟨rfl, k, hk, hfind⟩ := getPtimBinding_ok.mp hob
    obtain ⟨_, s₂, hmod, hrest⟩ := Fallible.bind_ok.mp hrest
    obtain ⟨k', hk', ⟨-, hle⟩, rfl⟩ := ioctl_setModule_ok.mp hmod
    obtain rfl : k' = k := Fin.ext (hk'.fd.trans hk.fd.symm)
    rw [hlav] at hrest
    split at hrest
    · exact absurd hrest Fallible.fail_ok
    · rename_i hsize
      obtain ⟨act', s₃, hget, hdone⟩ := Fallible.bind_ok.mp hrest
      obtain ⟨hpair, rfl⟩ := Fallible.pure_ok.mp hdone
      cases hpair
      rw [← hk.fd] at hget
      obtain ⟨rfl, ⟨k'', hclient⟩, hrange, hmap, rfl⟩ := getActionOf_ok.mp hget
      rw [LibArea.select_current] at hmap ⊢
      obtain ⟨-, -, hinUse⟩ := LibArea.select_client.mp hclient
      exact ⟨k', hk.fd, ⟨⟨rfl, hk.inUse, hk.module⟩, hfind, by omega, hinUse, hmap, by omega,
        hrange⟩, rfl, rfl⟩
  · rintro ⟨k, rfl, hreach, rfl, rfl⟩
    refine Fallible.bind_ok.mpr ⟨ob, s, getPtimBinding_ok.mpr ⟨rfl, k, hreach.client,
      hreach.object⟩, ?_⟩
    have hmodules := hreach.modules
    refine Fallible.bind_ok.mpr ⟨(), s.select k ob.moduleIndex.toNat, ioctl_setModule_ok.mpr
      ⟨k, hreach.client, ⟨by omega, by omega⟩, by rw [hlav]⟩, ?_⟩
    have hsize := hreach.size
    rw [if_neg (by omega)]
    refine Fallible.bind_ok.mpr ⟨_, _, getActionOf_ok.mpr ⟨rfl, ⟨k, LibArea.select_client.mpr
      ⟨rfl, hreach.client.inUse, hreach.inUse⟩⟩, hreach.range, ?_, rfl⟩, ?_⟩
    · rw [LibArea.select_current]
      exact hreach.map
    · rw [LibArea.select_current]
      rfl

theorem ltimAction_error {ltim index : U32} {e : LibErrno}
    (h : ltimAction fd ltim index s = some (.error e, s')) :
    s' = s ∨ ∃ k : Fin 16, k.val = fd ∧ ∃ ob, s.ltimObject ltim = some ob ∧
      s' = s.select k ob.moduleIndex.toNat := by
  have hlav : ∀ n : ℕ, ((n : ℤ) + 1 - 1).toNat = n := by omega
  obtain hob | ⟨ob, s₁, hob, hrest⟩ := Fallible.bind_error.mp h
  · exact .inl (query_state hob)
  · obtain ⟨rfl, k, hk, hfind⟩ := getPtimBinding_ok.mp hob
    obtain hmod | ⟨_, s₂, hmod, hrest⟩ := Fallible.bind_error.mp hrest
    · exact .inl (ioctl_setModule_error hmod)
    · obtain ⟨k', hk', -, rfl⟩ := ioctl_setModule_ok.mp hmod
      rw [hlav] at hrest
      refine .inr ⟨k', hk'.fd, ob, hfind, ?_⟩
      split at hrest
      · exact (Fallible.fail_error.mp hrest).2
      · obtain hget | ⟨act, s₃, -, hdone⟩ := Fallible.bind_error.mp hrest
        · exact query_state hget
        · exact absurd hdone Fallible.pure_error

/-! ### The parts in the middle -/

theorem LibArea.withOutMask_same (s : LibArea) (midx c : ℕ) :
    s.withOutMask midx c (s.remOutMask midx c) = s := by
  simp only [LibArea.withOutMask, update_eq_self]

theorem LibArea.withOutMask_self (s : LibArea) (midx c : ℕ) (word : U32) :
    (s.withOutMask midx c word).remOutMask midx c = word := by
  simp only [LibArea.withOutMask, update_self]

theorem LibArea.withOutMask_withOutMask (s : LibArea) (midx c : ℕ) (word word' : U32) :
    (s.withOutMask midx c word).withOutMask midx c word' = s.withOutMask midx c word' := by
  simp only [LibArea.withOutMask, update_self, update_idem]

theorem getOutMaskOf_ok {counter : U32} {cmsb : CounterMaskBuf} :
    getOutMaskOf fd counter s = some (.ok cmsb, s') ↔
      s' = s ∧ ∃ k, s.Client fd k ∧ HasOutput counter ∧ (s.current fd).map = true ∧
        cmsb = outMaskOf counter (s.remOutMask (s.clientModule fd) counter.toNat) := by
  rw [getOutMaskOf, query_ok]
  refine and_congr_right fun _ => exists_congr fun k => and_congr_right fun hk => ?_
  rw [LibArea.current, ← hk.fd, clientModule_val]
  by_cases hout : HasOutput counter
  · by_cases hmap : (s.moduleContexts (s.clientContexts k).moduleIndex).map = true
    · simp [hout, hmap, eq_comm]
    · simp [hout, hmap]
  · simp [hout]

theorem setOutMaskOf_ok {cmsb : CounterMaskBuf} (h : setOutMaskOf fd cmsb s = some (.ok (), s')) :
    HasOutput cmsb.counter ∧
      s' = s.withOutMask (s.clientModule fd) cmsb.counter.toNat (outMaskWord cmsb) := by
  obtain ⟨midx, s₁, hquery, hwrite⟩ := Fallible.bind_ok.mp h
  obtain ⟨rfl, k, hk, hbody⟩ := query_ok.mp hquery
  obtain rfl := Fallible.modify_ok.mp hwrite
  rw [← hk.fd, clientModule_val]
  split at hbody
  · cases hbody
  · split at hbody
    · rename_i hout
      split at hbody
      · cases hbody
        exact ⟨hout, rfl⟩
      · cases hbody
    · cases hbody

theorem setOutMaskOf_error {cmsb : CounterMaskBuf} {e : LibErrno}
    (h : setOutMaskOf fd cmsb s = some (.error e, s')) : s' = s := by
  obtain hquery | ⟨midx, s₁, -, hwrite⟩ := Fallible.bind_error.mp h
  · exact query_state hquery
  · exact absurd hwrite Fallible.modify_error

theorem changeOutMask_ok {counter fields field : U32} {f : CounterMaskBuf → CounterMaskBuf}
    (hf : ∀ cmsb, (f cmsb).counter = cmsb.counter)
    (h : changeOutMask fd counter fields field f s = some (.ok (), s')) :
    (InFields fields field → HasOutput counter) ∧
      s' = s.withOutMask (s.clientModule fd) counter.toNat
        (pick fields field
          (outMaskWord (f (outMaskOf counter (s.remOutMask (s.clientModule fd) counter.toNat))))
          (s.remOutMask (s.clientModule fd) counter.toNat)) := by
  unfold changeOutMask at h
  split at h
  · rename_i hfield
    obtain ⟨cmsb, s₁, hget, hset⟩ := Fallible.bind_ok.mp h
    obtain ⟨rfl, k, -, hout, -, rfl⟩ := getOutMaskOf_ok.mp hget
    obtain ⟨-, hs⟩ := setOutMaskOf_ok hset
    rw [hf] at hs
    rw [pick_pos hfield]
    exact ⟨fun _ => hout, hs⟩
  · rename_i hfield
    rw [pick_neg hfield, LibArea.withOutMask_same]
    exact ⟨fun h => absurd h hfield, (Fallible.pure_ok.mp h).2⟩

theorem changeOutMask_error {counter fields field : U32} {f : CounterMaskBuf → CounterMaskBuf}
    {e : LibErrno} (h : changeOutMask fd counter fields field f s = some (.error e, s')) :
    s' = s := by
  unfold changeOutMask at h
  split at h
  · obtain hget | ⟨cmsb, s₁, hget, hset⟩ := Fallible.bind_error.mp h
    · exact query_state hget
    · obtain rfl := query_state hget
      exact setOutMaskOf_error hset
  · exact absurd h Fallible.pure_error

/-- The trigger with the CTIM that is to be set, whose frame is `frame`. -/
def Ccv.withCtim (ccv : Ccv) (fields frame : U32) (trg : Trigger) : Trigger :=
  pick fields ctrCcvCtim { trg with ctim := ccv.ctim, frame := frame } trg

theorem setCtim_ok {ccv : Ccv} {fields : U32} {trg trg' : Trigger}
    (h : setCtim fd ccv fields trg s = some (.ok trg', s')) :
    s' = s ∧ ∃ frame, (InFields fields ctrCcvCtim →
        ∃ o, s.ctimObject ccv.ctim = some o ∧ o.frame = frame) ∧
      trg' = ccv.withCtim fields frame trg := by
  unfold setCtim at h
  split at h
  · rename_i hfield
    obtain ⟨os, s₁, hlist, hfind⟩ := Fallible.bind_ok.mp h
    obtain ⟨rfl, k, -, hos⟩ := query_ok.mp hlist
    cases hos
    cases ho : s₁.ctim.find? fun o => ccv.ctim = o.eqpNum with
    | none =>
      rw [ho] at hfind
      exact absurd hfind Fallible.fail_ok
    | some o =>
      rw [ho] at hfind
      obtain ⟨rfl, rfl⟩ := Fallible.pure_ok.mp hfind
      exact ⟨rfl, o.frame, fun _ => ⟨o, ho, rfl⟩, (pick_pos hfield).symm⟩
  · rename_i hfield
    obtain ⟨rfl, rfl⟩ := Fallible.pure_ok.mp h
    exact ⟨rfl, 0, fun h => absurd h hfield, (pick_neg hfield).symm⟩

theorem setCtim_error {ccv : Ccv} {fields : U32} {trg : Trigger} {e : LibErrno}
    (h : setCtim fd ccv fields trg s = some (.error e, s')) : s' = s := by
  unfold setCtim at h
  split at h
  · obtain hlist | ⟨os, s₁, hlist, hfind⟩ := Fallible.bind_error.mp h
    · exact query_state hlist
    · obtain rfl := query_state hlist
      cases ho : os.find? fun o => ccv.ctim = o.eqpNum with
      | none =>
        rw [ho] at hfind
        exact (Fallible.fail_error.mp hfind).2
      | some o =>
        rw [ho] at hfind
        exact absurd hfind Fallible.pure_error
  · exact absurd h Fallible.pure_error

end Steps

/-! ### What a call leaves behind -/

/-- The action that `ctr_set_ccv` writes over the action `act`. -/
def Ccv.action (ccv : Ccv) (fields counter frame : U32) (act : Action) : Action :=
  { act with
    trigger := ccv.trigger fields
      (ccv.withCtim fields frame { act.trigger with counter := counter })
    config := ccv.config fields act.config }

section Call

variable {s s' : LibArea} {fd : ℕ} {ltim index fields : U32} {ccv : Ccv}

theorem ctrSetCcv_ok (h : ctrSetCcv fd ltim index ccv fields s = some (.ok (), s')) :
    ∃ (k : Fin 16) (ob : PtimBinding) (frame : U32) (m' : ModuleContext), k.val = fd ∧
      LtimReached s k ltim index ob ∧ (Routes fields → HasOutput ob.output) ∧
      (InFields fields ctrCcvCtim → ∃ o, s.ctimObject ccv.ctim = some o ∧ o.frame = frame) ∧
      s' = (((s.select k ob.moduleIndex.toNat).withOutMask ob.moduleIndex.toNat ob.output.toNat
        (ccv.outMask fields ob.output
          (s.remOutMask ob.moduleIndex.toNat ob.output.toNat))).withModule
            ob.moduleIndex.toNat m') ∧
      Written (s.moduleContexts ob.moduleIndex.toNat) m' ((ob.trigger index).toNat - 1)
        (ccv.action fields ob.output frame
          (readAction (s.moduleContexts ob.moduleIndex.toNat) (ob.trigger index))) := by
  obtain ⟨⟨ob, act⟩, s₁, hbegin, hrest⟩ := Fallible.bind_ok.mp h
  obtain ⟨k, rfl, hreach, rfl, rfl⟩ := ltimAction_ok.mp hbegin
  obtain ⟨_, s₂, hmask, hrest⟩ := Fallible.bind_ok.mp hrest
  obtain ⟨_, s₃, hpolarity, hrest⟩ := Fallible.bind_ok.mp hrest
  obtain ⟨trg, s₄, hctim, hset⟩ := Fallible.bind_ok.mp hrest
  obtain ⟨hout, rfl⟩ := changeOutMask_ok (f := ccv.putMask) (fun _ => rfl) hmask
  obtain ⟨hout', rfl⟩ := changeOutMask_ok (f := ccv.putPolarity) (fun _ => rfl) hpolarity
  obtain ⟨rfl, frame, hframe, rfl⟩ := setCtim_ok hctim
  obtain ⟨-, -, m', rfl, hw⟩ := ioctl_setAction_ok hset
  have hmidx : ∀ w c word, ((s.select k ob.moduleIndex.toNat).withOutMask w c word).clientModule
      k.val = ob.moduleIndex.toNat := fun _ _ _ => LibArea.select_clientModule
  have hmidx' : ∀ w c word w' c' word', (((s.select k ob.moduleIndex.toNat).withOutMask w c
      word).withOutMask w' c' word').clientModule k.val = ob.moduleIndex.toNat :=
    fun _ _ _ _ _ _ => LibArea.select_clientModule
  rw [LibArea.select_clientModule] at hw ⊢
  simp only [hmidx, hmidx', LibArea.withOutMask_self, LibArea.withOutMask_withOutMask] at hw ⊢
  have hcurrent : ∀ w c word, ((s.select k ob.moduleIndex.toNat).withOutMask w c word).current
      k.val = s.moduleContexts ob.moduleIndex.toNat := fun _ _ _ => LibArea.select_current
  rw [hcurrent] at hw
  exact ⟨k, ob, frame, m', rfl, hreach, fun hroutes => hroutes.elim hout hout', hframe, rfl, hw⟩

theorem ctrSetCcv_error {e : LibErrno}
    (h : ctrSetCcv fd ltim index ccv fields s = some (.error e, s')) :
    s' = s ∨ ∃ (k : Fin 16) (ob : PtimBinding) (word : U32), k.val = fd ∧
      s.ltimObject ltim = some ob ∧
      (¬ Routes fields → word = s.remOutMask ob.moduleIndex.toNat ob.output.toNat) ∧
      s' = (s.select k ob.moduleIndex.toNat).withOutMask ob.moduleIndex.toNat ob.output.toNat
        word := by
  obtain hbegin | ⟨⟨ob, act⟩, s₁, hbegin, hrest⟩ := Fallible.bind_error.mp h
  · obtain rfl | ⟨k, hk, ob, hob, rfl⟩ := ltimAction_error hbegin
    · exact .inl rfl
    · exact .inr ⟨k, ob, _, hk, hob, fun _ => rfl, (LibArea.withOutMask_same _ _ _).symm⟩
  · obtain ⟨k, rfl, hreach, rfl, rfl⟩ := ltimAction_ok.mp hbegin
    refine .inr ?_
    obtain hmask | ⟨_, s₂, hmask, hrest⟩ := Fallible.bind_error.mp hrest
    · rw [changeOutMask_error hmask]
      exact ⟨k, ob, _, rfl, hreach.object, fun _ => rfl, (LibArea.withOutMask_same _ _ _).symm⟩
    · obtain ⟨-, rfl⟩ := changeOutMask_ok (f := ccv.putMask) (fun _ => rfl) hmask
      obtain hpolarity | ⟨_, s₃, hpolarity, hrest⟩ := Fallible.bind_error.mp hrest
      · rw [changeOutMask_error hpolarity, LibArea.select_clientModule]
        exact ⟨k, ob, _, rfl, hreach.object,
          fun hroutes => pick_neg fun hfield => hroutes (.inl hfield), rfl⟩
      · obtain ⟨-, rfl⟩ := changeOutMask_ok (f := ccv.putPolarity) (fun _ => rfl) hpolarity
        have hlast : s' = (s.select k ob.moduleIndex.toNat).withOutMask ob.moduleIndex.toNat
            ob.output.toNat (ccv.outMask fields ob.output
              (s.remOutMask ob.moduleIndex.toNat ob.output.toNat)) := by
          have hmidx : ∀ w c word, ((s.select k ob.moduleIndex.toNat).withOutMask w c
              word).clientModule k.val = ob.moduleIndex.toNat :=
            fun _ _ _ => LibArea.select_clientModule
          rw [LibArea.select_clientModule] at hrest
          simp only [hmidx, LibArea.withOutMask_self, LibArea.withOutMask_withOutMask] at hrest
          obtain hctim | ⟨trg, s₄, hctim, hset⟩ := Fallible.bind_error.mp hrest
          · exact setCtim_error hctim
          · obtain ⟨rfl, -⟩ := setCtim_ok hctim
            exact ioctl_setAction_error hset
        refine ⟨k, ob, _, rfl, hreach.object, fun hroutes => ?_, hlast⟩
        rw [Ccv.outMask, pick_neg fun hfield => hroutes (.inl hfield),
          pick_neg fun hfield => hroutes (.inr hfield)]

theorem ctrGetCcv_of {k : Fin 16} {ob : PtimBinding} (hreach : LtimReached s k ltim index ob)
    (hout : HasOutput ob.output) :
    ctrGetCcv k ltim index s = some (.ok (ccvOf
      (readAction (s.moduleContexts ob.moduleIndex.toNat) (ob.trigger index))
      (outMaskOf ob.output (s.remOutMask ob.moduleIndex.toNat ob.output.toNat))),
      s.select k ob.moduleIndex.toNat) := by
  refine Fallible.bind_ok.mpr ⟨_, _, ltimAction_ok.mpr ⟨k, rfl, hreach, rfl, rfl⟩, ?_⟩
  refine Fallible.bind_ok.mpr ⟨_, _, getOutMaskOf_ok.mpr ⟨rfl, k, LibArea.select_client.mpr
    ⟨rfl, hreach.client.inUse, hreach.inUse⟩, hout, ?_, rfl⟩, ?_⟩
  · rw [LibArea.select_current]
    exact hreach.map
  · rw [LibArea.select_clientModule]
    rfl

end Call

/-! ### What fits its bits -/

/-- The values fit the fields of the hardware. -/
structure Ccv.Fits (ccv : Ccv) : Prop where
  enable : ccv.enable.toNat < 2 ^ 2
  start : ccv.start.toNat < 2 ^ 3
  mode : ccv.mode.toNat < 2 ^ 2
  clock : ccv.clock.toNat < 2 ^ 3
  pulseWidth : ccv.pulseWidth.toNat < 2 ^ 22
  counterMask : ccv.counterMask.toNat < 2 ^ 12
  polarity : ccv.polarity.toNat < 2
  payload : ccv.payload.toNat < 2 ^ 16
  cmpMethod : ccv.cmpMethod.toNat < 2 ^ 2
  grnum : ccv.grnum.toNat < 2 ^ 7
  grval : ccv.grval.toNat < 2 ^ 16
  tgnum : ccv.tgnum.toNat < 2 ^ 3

theorem pick_lt {fields field new old : U32} {n : ℕ} (hnew : new.toNat < n) (hold : old.toNat < n) :
    (pick fields field new old).toNat < n := by
  unfold pick
  split
  · exact hnew
  · exact hold

theorem autoShiftRight_lt {mask : U32} {n : ℕ}
    (h : (shiftedMask 32 mask).toNat < n ∨ 2 ^ (32 - shiftCount 32 mask) ≤ n)
    (hshift : shiftCount 32 mask ≤ 32) (x : U32) : (autoShiftRight mask x).toNat < n := by
  rw [autoShiftRight, BitVec.toNat_and]
  obtain hmask | hwidth := h
  · exact lt_of_le_of_lt Nat.and_le_right hmask
  · refine lt_of_le_of_lt Nat.and_le_left (lt_of_lt_of_le ?_ hwidth)
    rw [BitVec.toNat_ushiftRight, Nat.shiftRight_eq_div_pow,
      Nat.div_lt_iff_lt_mul (Nat.two_pow_pos _), ← Nat.pow_add, Nat.sub_add_cancel hshift]
    exact x.isLt

theorem hardToConfig_fits (w : HwCounterConfiguration) : (hardToConfig w).Fits where
  onZero := autoShiftRight_lt (by decide) (by decide) _
  start := autoShiftRight_lt (by decide) (by decide) _
  mode := autoShiftRight_lt (by decide) (by decide) _
  clock := autoShiftRight_lt (by decide) (by decide) _
  pulsWidth := autoShiftRight_lt (by decide) (by decide) _

theorem two_bits {v : U32} (h : v.toNat < 2 ^ 2) : v = 0 ∨ v = 1 ∨ v = 2 ∨ v = 3 := by
  obtain h0 | h1 | h2 | h3 : v.toNat = 0 ∨ v.toNat = 1 ∨ v.toNat = 2 ∨ v.toNat = 3 := by omega
  · exact .inl (BitVec.eq_of_toNat_eq h0)
  · exact .inr (.inl (BitVec.eq_of_toNat_eq h1))
  · exact .inr (.inr (.inl (BitVec.eq_of_toNat_eq h2)))
  · exact .inr (.inr (.inr (BitVec.eq_of_toNat_eq h3)))

theorem copyBits_eq {v onZero : U32} (hv : v.toNat < 2 ^ 2) (honZero : onZero.toNat < 2 ^ 2) :
    copyBit onZeroOut v (copyBit onZeroBus v onZero) = v := by
  obtain rfl | rfl | rfl | rfl := two_bits hv <;>
    obtain rfl | rfl | rfl | rfl := two_bits honZero <;> rfl

theorem Ccv.config_fits {ccv : Ccv} (hfits : ccv.Fits) (fields : U32) {c : CounterConfiguration}
    (hc : c.Fits) : (ccv.config fields c).Fits where
  onZero := pick_lt (by rw [copyBits_eq hfits.enable hc.onZero]; exact hfits.enable) hc.onZero
  start := pick_lt hfits.start hc.start
  mode := pick_lt hfits.mode hc.mode
  clock := pick_lt hfits.clock hc.clock
  pulsWidth := pick_lt hfits.pulseWidth hc.pulsWidth

theorem setWidth_half {v : U32} (h : v.toNat < 2 ^ 16) : (v.setWidth 16).setWidth 32 = v := by
  apply BitVec.eq_of_toNat_eq
  rw [BitVec.toNat_setWidth, BitVec.toNat_setWidth, Nat.mod_eq_of_lt h, Nat.mod_eq_of_lt v.isLt]

theorem readTrigger_groupNumber (m : ModuleContext) (i : ℕ) :
    (readTrigger m i).groupNumber.toNat < 2 ^ 7 := by
  have hlt : (autoShiftRight trigGroupNumberMask (m.hwTrigs i).trigger).toNat < 2 ^ 7 :=
    autoShiftRight_lt (by decide) (by decide) _
  change ((autoShiftRight trigGroupNumberMask (m.hwTrigs i).trigger).setWidth 16).toNat < 2 ^ 7
  rw [BitVec.toNat_setWidth]
  exact lt_of_le_of_lt (Nat.mod_le _ _) hlt

theorem Ccv.action_trigger_fits {ccv : Ccv} (hfits : ccv.Fits) {fields counter frame : U32}
    (hout : HasOutput counter) (m : ModuleContext) (n : U32) :
    (ccv.action fields counter frame (readAction m n)).trigger.Fits := by
  have hctim : ∀ t : Trigger,
      (ccv.withCtim fields frame t).triggerCondition = t.triggerCondition ∧
      (ccv.withCtim fields frame t).machine = t.machine ∧
      (ccv.withCtim fields frame t).counter = t.counter ∧
      (ccv.withCtim fields frame t).groupNumber = t.groupNumber := by
    intro t
    unfold Ccv.withCtim pick
    split
    · exact ⟨rfl, rfl, rfl, rfl⟩
    · exact ⟨rfl, rfl, rfl, rfl⟩
  obtain ⟨hcondition, hmachine, hcounter, hnumber⟩ :=
    hctim { (readAction m n).trigger with counter := counter }
  constructor
  · change (pick fields ctrCcvCmpMethod ccv.cmpMethod _).toNat < 2 ^ 2
    rw [hcondition]
    exact pick_lt hfits.cmpMethod (autoShiftRight_lt (by decide) (by decide) _)
  · change (pick fields ctrCcvTgnum ccv.tgnum _).toNat < 2 ^ 3
    rw [hmachine]
    exact pick_lt hfits.tgnum (autoShiftRight_lt (by decide) (by decide) _)
  · change (ccv.withCtim fields frame _).counter.toNat < 2 ^ 4
    rw [hcounter]
    obtain ⟨-, hle⟩ := hout
    exact lt_of_le_of_lt hle (by decide)
  · change (pick fields ctrCcvGrnum (ccv.grnum.setWidth 16) _).toNat < 2 ^ 7
    rw [hnumber]
    unfold pick
    split
    · rw [BitVec.toNat_setWidth]
      exact lt_of_le_of_lt (Nat.mod_le _ _) hfits.grnum
    · exact readTrigger_groupNumber m _

/-! ### The values after an update -/

/-- The values that were asked for, and the old ones for the rest. -/
def Ccv.merged (ccv : Ccv) (fields : U32) (old : Ccv) : Ccv where
  enable := pick fields ctrCcvEnable ccv.enable old.enable
  start := pick fields ctrCcvStart ccv.start old.start
  mode := pick fields ctrCcvMode ccv.mode old.mode
  clock := pick fields ctrCcvClock ccv.clock old.clock
  pulseWidth := pick fields ctrCcvPulseWidth ccv.pulseWidth old.pulseWidth
  delay := pick fields ctrCcvDelay ccv.delay old.delay
  counterMask := pick fields ctrCcvCounterMask ccv.counterMask old.counterMask
  polarity := pick fields ctrCcvPolarity ccv.polarity old.polarity
  ctim := pick fields ctrCcvCtim ccv.ctim old.ctim
  payload := pick fields ctrCcvPayload ccv.payload old.payload
  cmpMethod := pick fields ctrCcvCmpMethod ccv.cmpMethod old.cmpMethod
  grnum := pick fields ctrCcvGrnum ccv.grnum old.grnum
  grval := pick fields ctrCcvGrval ccv.grval old.grval
  tgnum := pick fields ctrCcvTgnum ccv.tgnum old.tgnum

/-- The same with what the driver makes of them: an output mask of zero, when the output is routed,
is the counter's own output, and a new CTIM has the payload of its `frame`. -/
def Ccv.expected (ccv : Ccv) (fields counter frame : U32) (old : Ccv) : Ccv :=
  { ccv.merged fields old with
    counterMask := if Routes fields then
        routed counter (pick fields ctrCcvCounterMask ccv.counterMask old.counterMask)
      else old.counterMask
    payload := pick fields ctrCcvPayload ccv.payload
      (pick fields ctrCcvCtim (frame &&& 0xFFFF) old.payload) }

/-- Equal but for the bus bit, which the driver takes from its clients. -/
def SameButBus (v w : Ccv) : Prop :=
  { v with enable := v.enable &&& ~~~onZeroBus } = { w with enable := w.enable &&& ~~~onZeroBus }

instance (v w : Ccv) : Decidable (SameButBus v w) := inferInstanceAs (Decidable (_ = _))

theorem withPayload_low {frame payload : U32} (h : payload.toNat < 2 ^ 16) :
    withPayload frame payload &&& 0xFFFF = payload := by
  have hlow : payload &&& 0x0000FFFF = payload := Word.and_low_eq_self (n := 16) (by decide) h
  rw [withPayload, BitVec.and_or_distrib_right, BitVec.and_assoc,
    show (0xFFFF0000 : U32) &&& 0xFFFF = 0#32 from by decide, BitVec.and_zero, BitVec.zero_or,
    hlow, hlow]

theorem pick_apply {α β : Type} (g : α → β) (fields field : U32) (new old : α) :
    g (pick fields field new old) = pick fields field (g new) (g old) :=
  apply_ite g _ _ _

theorem ccvOf_action {ccv : Ccv} (hfits : ccv.Fits) {fields counter frame clients : U32}
    {act : Action} {cmsb : CounterMaskBuf} (hconfig : act.config.Fits)
    {mask polarity : U32}
    (hmask : mask = if Routes fields then
      routed counter (pick fields ctrCcvCounterMask ccv.counterMask cmsb.mask) else cmsb.mask)
    (hpolarity : polarity = pick fields ctrCcvPolarity ccv.polarity cmsb.polarity) :
    SameButBus
      (ccvOf { ccv.action fields counter frame act with
        config := overrideBus clients (ccv.action fields counter frame act).config }
        ⟨counter, mask, polarity⟩)
      (ccv.expected fields counter frame (ccvOf act cmsb)) := by
  obtain ⟨honZero, -, hstart, hmode, hclock, hpulse, hdelay⟩ :=
    overrideBus_overrides clients (ccv.config fields act.config)
  have hctim : ∀ t : Trigger, ccv.withCtim fields frame t =
      { t with
        ctim := pick fields ctrCcvCtim ccv.ctim t.ctim
        frame := pick fields ctrCcvCtim frame t.frame } := by
    intro t
    unfold Ccv.withCtim pick
    split
    · rfl
    · rfl
  have henable : (ccv.config fields act.config).onZero =
      pick fields ctrCcvEnable ccv.enable act.config.onZero := by
    change pick _ _ _ _ = _
    rw [copyBits_eq hfits.enable hconfig.onZero]
  unfold SameButBus
  simp only [ccvOf, Ccv.action, Ccv.expected, Ccv.merged, Ccv.mk.injEq, hctim, Ccv.trigger]
  refine ⟨?_, hstart, hmode, hclock, hpulse, hdelay, hmask, hpolarity, trivial, ?_, trivial, ?_, ?_,
    trivial⟩
  · rw [honZero, henable]
  · rw [pick_apply (· &&& (0xFFFF : U32)), pick_apply (· &&& (0xFFFF : U32)),
      withPayload_low hfits.payload]
  · rw [pick_apply (BitVec.setWidth 32), setWidth_half (hfits.grnum.trans (by decide))]
  · rw [pick_apply (BitVec.setWidth 32), setWidth_half hfits.grval]

/-! ### The update -/

/-- Modules in use have a card, as `CtrDrvrInstall` sees to. -/
def LibArea.Mapped (s : LibArea) : Prop :=
  ∀ midx, (s.moduleContexts midx).inUse = true → (s.moduleContexts midx).map = true

/-- The routing registers are as they were, but for the one of the LTIM when it is to be set. -/
def OutMasksKept (s s' : LibArea) (ltim fields : U32) : Prop :=
  ∀ midx c, s'.remOutMask midx c = s.remOutMask midx c ∨ Routes fields ∧
    ∃ ob, s.ltimObject ltim = some ob ∧ midx = ob.moduleIndex.toNat ∧ c = ob.output.toNat

/-- A call that failed has changed no action. -/
structure CcvFailed (s s' : LibArea) (fd : ℕ) (ltim fields : U32) : Prop where
  modules : s'.moduleContexts = s.moduleContexts
  outMasks : OutMasksKept s s' ltim fields
  handles : ∀ k : Fin 16, k.val ≠ fd → s'.clientContexts k = s.clientContexts k
  selected : s'.clientModule fd = s.clientModule fd ∨
    ∃ ob, s.ltimObject ltim = some ob ∧ s'.clientModule fd = ob.moduleIndex.toNat

/-- A call that succeeded has updated one action, and the routing register of its counter. -/
structure CcvUpdated (s s' : LibArea) (fd : ℕ) (ltim index : U32) (ccv : Ccv) (fields : U32)
    (ob : PtimBinding) : Prop where
  object : s.ltimObject ltim = some ob
  others : KeepsOthers s.toWorkingArea s'.toWorkingArea ob.moduleIndex.toNat
    ((ob.trigger index).toNat - 1)
  outMasks : OutMasksKept s s' ltim fields
  handles : ∀ k : Fin 16, k.val ≠ fd → s'.clientContexts k = s.clientContexts k
  selected : s'.clientModule fd = ob.moduleIndex.toNat
  readBack : HasOutput ob.output → ∃ frame old new,
    (InFields fields ctrCcvCtim → ∃ o, s.ctimObject ccv.ctim = some o ∧ o.frame = frame) ∧
    (ctrGetCcv fd ltim index s).map Prod.fst = some (.ok old) ∧
    (ctrGetCcv fd ltim index s').map Prod.fst = some (.ok new) ∧
    SameButBus new (ccv.expected fields ob.output frame old)

section Update

variable {s s' : LibArea} {fd : ℕ} {ltim index fields : U32} {ccv : Ccv}

theorem outMasksKept_withOutMask {k : Fin 16} {ob : PtimBinding} {word : U32}
    (hob : s.ltimObject ltim = some ob)
    (hword : ¬ Routes fields → word = s.remOutMask ob.moduleIndex.toNat ob.output.toNat) :
    OutMasksKept s ((s.select k ob.moduleIndex.toNat).withOutMask ob.moduleIndex.toNat
      ob.output.toNat word) ltim fields := by
  intro midx c
  by_cases hroutes : Routes fields
  · by_cases hhere : midx = ob.moduleIndex.toNat ∧ c = ob.output.toNat
    · exact .inr ⟨hroutes, ob, hob, hhere⟩
    · refine .inl ?_
      simp only [LibArea.withOutMask, LibArea.select]
      by_cases hmidx : midx = ob.moduleIndex.toNat
      · subst hmidx
        rw [update_self, update_of_ne fun hc => hhere ⟨rfl, hc⟩]
      · rw [update_of_ne hmidx]
  · refine .inl ?_
    rw [hword hroutes]
    exact congrFun (congrFun (congrArg LibArea.remOutMask
      (LibArea.withOutMask_same (s.select k ob.moduleIndex.toNat) _ _)) midx) c

theorem LibArea.select_of_ne {k j : Fin 16} {midx : ℕ} (h : j.val ≠ k.val) :
    (s.select k midx).clientContexts j = s.clientContexts j := by
  have hne : j ≠ k := fun hjk => h (congrArg Fin.val hjk)
  simp only [LibArea.select, update_of_ne hne]

theorem ccvFailed_of_error {e : LibErrno}
    (h : ctrSetCcv fd ltim index ccv fields s = some (.error e, s')) :
    CcvFailed s s' fd ltim fields := by
  obtain rfl | ⟨k, ob, word, rfl, hob, hword, rfl⟩ := ctrSetCcv_error h
  · exact ⟨rfl, fun _ _ => .inl rfl, fun _ _ => rfl, .inl rfl⟩
  · exact ⟨rfl, outMasksKept_withOutMask hob hword, fun _ hj => LibArea.select_of_ne hj,
      .inr ⟨ob, hob, LibArea.select_clientModule⟩⟩

theorem Written.keepsOthers {m' : ModuleContext} {midx i : ℕ} {act : Action}
    (h : Written (s.moduleContexts midx) m' i act) :
    KeepsOthers s.toWorkingArea (s.withModule midx m').toWorkingArea midx i := by
  have hself : (s.withModule midx m').moduleContexts midx = m' := s.withModule_self _ _
  constructor
  · intro j hj
    exact s.withModule_of_ne hj m'
  all_goals
    intro j hj
    rw [hself]
  · rw [h.hwTrigs, update_of_ne hj]
  · rw [h.hwConfigs, update_of_ne hj]
  · rw [h.trigs, update_of_ne hj]
  · rw [h.configs, update_of_ne hj]
  · rw [h.eqpNum, update_of_ne hj]
  · rw [h.eqpClass, update_of_ne hj]

theorem Written.readAction {m m' : ModuleContext} {n : U32} {act : Action}
    (h : Written m m' (n.toNat - 1) act) (hnumber : act.triggerNumber = n)
    (htrigger : act.trigger.Fits) (hconfig : act.config.Fits) :
    readAction m' n =
      { act with config := overrideBus (m.clients (n.toNat - 1)) act.config } := by
  rw [Ctr.readAction, readTrigger, h.eqpNum, h.eqpClass, h.trigs, h.hwTrigs, h.hwConfigs]
  simp only [update_self]
  rw [hardToTrigger_triggerToHard htrigger,
    hardToConfig_configToHard (overrideBus_fits _ hconfig), hnumber]

theorem ccvUpdated_of_ok (hfits : ccv.Fits)
    (h : ctrSetCcv fd ltim index ccv fields s = some (.ok (), s')) :
    ∃ ob, CcvUpdated s s' fd ltim index ccv fields ob := by
  obtain ⟨k, ob, frame, m', rfl, hreach, hroutes, hframe, rfl, hw⟩ := ctrSetCcv_ok h
  have hothers := Written.keepsOthers (s := (s.select k ob.moduleIndex.toNat).withOutMask
    ob.moduleIndex.toNat ob.output.toNat (ccv.outMask fields ob.output
      (s.remOutMask ob.moduleIndex.toNat ob.output.toNat))) hw
  refine ⟨ob, hreach.object, ⟨hothers.modules, hothers.hwTrigs, hothers.hwConfigs, hothers.trigs,
    hothers.configs, hothers.eqpNum, hothers.eqpClass⟩, ?_, fun j hj => LibArea.select_of_ne hj,
    LibArea.select_clientModule, ?_⟩
  · refine outMasksKept_withOutMask (k := k) hreach.object fun hno => ?_
    rw [Ccv.outMask, pick_neg fun hfield => hno (.inl hfield),
      pick_neg fun hfield => hno (.inr hfield)]
  · intro hout
    have hread := hw.readAction rfl (Ccv.action_trigger_fits hfits hout _ _)
      (ccv.config_fits hfits fields (hardToConfig_fits _))
    -- the LTIM is reached in the state after the call as before it
    have hself : ∀ t : LibArea, (t.withModule ob.moduleIndex.toNat m').moduleContexts
        ob.moduleIndex.toNat = m' := fun t => t.withModule_self _ _
    have hreach' : LtimReached (((s.select k ob.moduleIndex.toNat).withOutMask
        ob.moduleIndex.toNat ob.output.toNat (ccv.outMask fields ob.output
          (s.remOutMask ob.moduleIndex.toNat ob.output.toNat))).withModule
            ob.moduleIndex.toNat m') k ltim index ob := by
      refine ⟨⟨rfl, ?_, ?_⟩, hreach.object, hreach.modules, ?_, ?_, hreach.size, hreach.range⟩
      · simp only [LibArea.withModule, LibArea.withOutMask, WorkingArea.setModule, LibArea.select,
          update_self]
        exact hreach.client.inUse
      · simp only [LibArea.withModule, LibArea.withOutMask, WorkingArea.setModule, LibArea.select,
          update_self]
        rw [hw.inUse]
        exact hreach.inUse
      · rw [hself, hw.inUse]
        exact hreach.inUse
      · rw [hself]
        exact hw.map
    have hmask := @outMaskOf_outMask _ fields _
      (s.remOutMask ob.moduleIndex.toNat ob.output.toNat) hout hfits.counterMask
      hfits.polarity
    refine ⟨frame, _, _, hframe, congrArg (Option.map Prod.fst) (ctrGetCcv_of hreach hout),
      congrArg (Option.map Prod.fst) (ctrGetCcv_of hreach' hout), ?_⟩
    rw [hself, hread]
    change SameButBus (ccvOf _ (outMaskOf ob.output
      (((s.select k ob.moduleIndex.toNat).withOutMask _ _ _).remOutMask _ _))) _
    rw [LibArea.withOutMask_self, hmask]
    exact ccvOf_action hfits (hardToConfig_fits _) rfl rfl

/-! A call comes back. -/

theorem query_returns {α : Type} {body : LibArea → ClientContext → Option (Except Errno α)}
    (h : ∀ k, s.Client fd k → ∃ r, body s (s.clientContexts k) = some r) :
    (query fd body).Returns s := by
  have hread : ∀ q : LibArea → Option (Except LibErrno α), (∃ r, q s = some r) →
      (Fallible.read q).Returns s := by
    rintro q ⟨r, hr⟩
    exact ⟨r, s, Fallible.read_eq_some.mpr ⟨hr, rfl⟩⟩
  refine hread _ ?_
  split
  · rename_i hfd
    dsimp only
    split
    · exact ⟨_, rfl⟩
    · rename_i hclient
      split
      · exact ⟨_, rfl⟩
      · rename_i hmodule
        obtain ⟨r, hr⟩ := h ⟨fd, hfd⟩ ⟨rfl, Bool.eq_true_of_not_eq_false hclient,
          Bool.eq_true_of_not_eq_false hmodule⟩
        rw [hr]
        exact ⟨_, rfl⟩
  · exact ⟨_, rfl⟩

theorem ioctl_returns {cm : Ioctl}
    (h : ∀ k, s.Client fd k → ∃ o, decodeIoctl s.toWorkingArea k cm = some o) :
    (ioctl fd cm).Returns s := by
  have hcall : ∃ o, ctrDrvrIoctl s.toWorkingArea fd cm = some o := by
    unfold ctrDrvrIoctl
    split
    · rename_i hfd
      dsimp only
      split
      · exact ⟨_, rfl⟩
      · rename_i hclient
        split
        · exact ⟨_, rfl⟩
        · rename_i hmodule
          exact h ⟨fd, hfd⟩ ⟨rfl, Bool.eq_true_of_not_eq_false hclient,
            Bool.eq_true_of_not_eq_false hmodule⟩
    · exact ⟨_, rfl⟩
  obtain ⟨⟨r', w⟩, ho⟩ := hcall
  exact ⟨_, _, ioctl_eq_some.mpr ⟨r', w, ho, rfl, rfl⟩⟩

theorem ltimAction_returns (hmap : s.Mapped) : (ltimAction fd ltim index).Returns s := by
  refine .bind (query_returns fun k _ => ?_) fun ob s₁ hob => ?_
  · cases s.ptim.find? fun o => ltim = o.eqpNum with
    | none => exact ⟨_, rfl⟩
    | some o => exact ⟨_, rfl⟩
  · obtain ⟨rfl, -⟩ := getPtimBinding_ok.mp hob
    refine .bind (ioctl_returns fun k _ => ?_) fun _ s₂ hmod => ?_
    · unfold decodeIoctl
      dsimp only
      split
      · exact ⟨_, rfl⟩
      · exact ⟨_, rfl⟩
    · obtain ⟨k, -, -, rfl⟩ := ioctl_setModule_ok.mp hmod
      split
      · exact .fail _ _
      · refine .bind (query_returns fun k' hk' => ?_) fun act s₃ _ => .pure _ _
        unfold getAction
        dsimp only
        split
        · have hm := hmap _ hk'.module
          exact ⟨_, if_pos hm⟩
        · exact ⟨_, rfl⟩

theorem changeOutMask_returns {counter field : U32} {f : CounterMaskBuf → CounterMaskBuf}
    (hmap : s.Mapped) : (changeOutMask fd counter fields field f).Returns s := by
  unfold changeOutMask
  split
  · refine .bind (query_returns fun k hk => ?_) fun cmsb s₁ hget => ?_
    · split
      · exact ⟨_, if_pos (hmap _ hk.module)⟩
      · exact ⟨_, rfl⟩
    · obtain rfl := query_state hget
      refine .bind (query_returns fun k hk => ?_) fun midx s₂ _ => ⟨_, _, rfl⟩
      split
      · exact ⟨_, rfl⟩
      · split
        · exact ⟨_, if_pos (hmap _ hk.module)⟩
        · exact ⟨_, rfl⟩
  · exact .pure _ _

theorem setCtim_returns {trg : Trigger} : (setCtim fd ccv fields trg).Returns s := by
  unfold setCtim
  split
  · refine .bind (query_returns fun k _ => ⟨_, rfl⟩) fun os s₁ _ => ?_
    cases os.find? fun o => ccv.ctim = o.eqpNum with
    | none => exact .fail _ _
    | some o => exact .pure _ _
  · exact .pure _ _

theorem ioctl_setAction_returns {act : Action} (hmap : s.Mapped) :
    (ioctl fd (.setAction act)).Returns s := by
  refine ioctl_returns fun k hk => ?_
  have hm := hmap _ hk.module
  unfold decodeIoctl
  dsimp only
  split
  · exact ⟨_, rfl⟩
  · have hwrite : ∀ (m : ModuleContext) (i : ℕ), m.map = true →
        ∃ o, ((writeAction m i act).bind fun m' =>
          (s.toWorkingArea.setModule (s.clientContexts k).moduleIndex m').ok) = some o := by
      intro m i hmapped
      unfold writeAction
      rw [if_pos hmapped]
      exact ⟨_, rfl⟩
    unfold guardedIoctl setAction
    dsimp only
    split
    · split
      · exact ⟨_, rfl⟩
      · split
        · split
          · exact ⟨_, rfl⟩
          · split
            · exact ⟨_, rfl⟩
            · split
              · exact ⟨_, rfl⟩
              · exact hwrite _ _ hm
        · exact hwrite _ _ hm
    · exact ⟨_, rfl⟩

theorem ctrSetCcv_returns (hmap : s.Mapped) :
    (ctrSetCcv fd ltim index ccv fields).Returns s := by
  refine .bind (ltimAction_returns hmap) fun p s₁ hbegin => ?_
  obtain ⟨ob, act⟩ := p
  obtain ⟨k, -, -, -, rfl⟩ := ltimAction_ok.mp hbegin
  refine .bind (changeOutMask_returns hmap) fun _ s₂ hmask => ?_
  obtain ⟨-, rfl⟩ := changeOutMask_ok (f := ccv.putMask) (fun _ => rfl) hmask
  refine .bind (changeOutMask_returns hmap) fun _ s₃ hpolarity => ?_
  obtain ⟨-, rfl⟩ := changeOutMask_ok (f := ccv.putPolarity) (fun _ => rfl) hpolarity
  refine .bind setCtim_returns fun trg s₄ hctim => ?_
  obtain ⟨rfl, -⟩ := setCtim_ok hctim
  exact ioctl_setAction_returns hmap

end Update

/-! ### What an update does not keep -/

/-- What a call would have to leave behind for the values to be independent of one another and of
the handle: all that was asked for and nothing else. -/
def CcvExact (s : LibArea) (fd : ℕ) (ltim index : U32) (ccv : Ccv) (fields : U32) : Prop :=
  ∀ r s', ctrSetCcv fd ltim index ccv fields s = some (r, s') →
    s'.clientModule fd = s.clientModule fd ∧
      ((∃ e, r = .error e) ∧ s'.moduleContexts = s.moduleContexts ∧
          s'.remOutMask = s.remOutMask ∨
        r = .ok () ∧ ∃ old new, (ctrGetCcv fd ltim index s).map Prod.fst = some (.ok old) ∧
          (ctrGetCcv fd ltim index s').map Prod.fst = some (.ok new) ∧
          SameButBus new (ccv.merged fields old))

/-- LTIM 5 on the second of two modules, with one action; the first client works with module
`midx`. -/
def ltimArea (counter : BitVec 8) (midx : ℕ) : LibArea where
  toWorkingArea :=
    { ctim := [⟨911, 0x0100FFFF⟩]
      ptim := [⟨5, 1, counter, 1, 0⟩]
      modules := 2
      moduleContexts := fun j =>
        if j < 2 then
          { blankModule true with
            eqpNum := fun i => if i = 0 then 5 else 0
            eqpClass := fun i => if i = 0 then .ptim else .hard
            trigs := fun i =>
              if i = 0 then { Trigger.zero with counter := counter.setWidth 32 } else .zero }
        else blankModule false
      clientContexts := fun k => ⟨true, k, midx⟩ }
  remOutMask _ _ := 0
  pid _ := 0

def Ccv.zero : Ccv := ⟨0, 0, 0, 0, 0, 0, 0, 0, 0, 0, 0, 0, 0, 0⟩

theorem ltimArea_mapped (counter : BitVec 8) (midx : ℕ) : (ltimArea counter midx).Mapped := by
  intro j hj
  simp only [ltimArea] at hj ⊢
  split at hj
  · rename_i hlt
    rw [if_pos hlt]
    rfl
  · cases hj

/-- The state after a call. -/
def LibArea.afterCcv (s : LibArea) (fd : ℕ) (ltim index : U32) (ccv : Ccv) (fields : U32) :
    LibArea :=
  ((ctrSetCcv fd ltim index ccv fields s).map Prod.snd).getD s

theorem ctrSetCcv_afterCcv {s : LibArea} {fd : ℕ} {ltim index fields : U32} {ccv : Ccv}
    (h : (ctrSetCcv fd ltim index ccv fields s).map Prod.fst = some (.ok ())) :
    ctrSetCcv fd ltim index ccv fields s = some (.ok (), s.afterCcv fd ltim index ccv fields) := by
  obtain ⟨⟨r, s'⟩, hrun, rfl⟩ := Option.map_eq_some_iff.mp h
  rw [LibArea.afterCcv, hrun]
  rfl

theorem not_ccvExact {s : LibArea} {fd : ℕ} {ltim index fields : U32} {ccv old new : Ccv}
    (h : (ctrSetCcv fd ltim index ccv fields s).map Prod.fst = some (.ok ()))
    (hold : (ctrGetCcv fd ltim index s).map Prod.fst = some (.ok old))
    (hnew : (ctrGetCcv fd ltim index (s.afterCcv fd ltim index ccv fields)).map Prod.fst =
      some (.ok new)) (hne : ¬ SameButBus new (ccv.merged fields old)) :
    ¬ CcvExact s fd ltim index ccv fields := by
  intro hexact
  obtain ⟨-, ⟨⟨e, he⟩, -⟩ | ⟨-, old', new', hold', hnew', hsame⟩⟩ :=
    hexact _ _ (ctrSetCcv_afterCcv h)
  · cases he
  · rw [hold] at hold'
    rw [hnew] at hnew'
    cases hold'
    cases hnew'
    exact hne hsame

end KernelModules.Ctr
