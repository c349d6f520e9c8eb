import KernelModules.Cvorb.FunctionTable
import KernelModules.Lib.Transition
import KernelModules.Lib.Word

/-!
# Settings of a CVORB card and their registers

The driver writes the settings that users store in sysfs to the card, and shows a copy that it keeps
of each.  Five settings of a submodule are fields of one register; a channel has a register with an
enable field, two that are written whole, and two for the 64 bits of the function mask.

* `CvorbDev` is the card with the copies, `store` is a store to any attribute, and `cvorbInit` is
  how the driver starts;
* `ConfigCoherent`, `ChannelCoherent` and `EnableCoherent` say that a copy is what its field holds;
* `shadows_coherent_of_reach` is coherence in every run whose stores meet `Store.Fits`, and that
  each store changes its own field only.

The setters shift a value into place without cutting it to the width of the field, and
`cvorb_ch_enable` writes the value itself in place of its encoding, so not every value fits.
A shift by 64 or more is taken as on the processors in question, which reduce it modulo 64.
The parsing of numbers, the status registers and the resets are left out.
-/

namespace KernelModules.Cvorb

open Function KernelModules.Lib

/-! ### Registers -/

/-- The registers that settings are in. -/
inductive Register where
  | config
  | chConfig (c : Fin 8)
  | select (c : Fin 8)
  | enableFcnMaskH (c : Fin 8)
  | enableFcnMaskL (c : Fin 8)
  | repeatFcn (c : Fin 8)
deriving DecidableEq

/-- The offset of a register in the window of its submodule. -/
def Register.base : Register → ℕ
  | .config => 0x44
  | .chConfig c => 0x30 * c + 0x84
  | .select c => 0x30 * c + 0x88
  | .enableFcnMaskH c => 0x30 * c + 0x8c
  | .enableFcnMaskL c => 0x30 * c + 0x90
  | .repeatFcn c => 0x30 * c + 0x98

/-- The offset of a register of submodule `s` in the window of the card. -/
def offset (s : Fin 2) (r : Register) : ℕ := 0x200 * s + r.base

theorem Register.base_lt (r : Register) : r.base < 0x200 := by
  cases r with
  | config => decide
  | _ c =>
    have hc := c.isLt
    simp only [base]
    omega

theorem Register.base_inj {r r' : Register} (h : r.base = r'.base) : r = r' := by
  cases r <;> cases r' <;> simp only [base, reduceCtorEq, Register.chConfig.injEq,
    Register.select.injEq, Register.enableFcnMaskH.injEq, Register.enableFcnMaskL.injEq,
    Register.repeatFcn.injEq, Fin.ext_iff] at h ⊢ <;> omega

@[simp]
theorem offset_inj {s s' : Fin 2} {r r' : Register} :
    offset s r = offset s' r' ↔ s = s' ∧ r = r' := by
  constructor
  · intro h
    have hr := r.base_lt
    have hr' := r'.base_lt
    rw [offset, offset] at h
    exact ⟨Fin.ext (by omega), Register.base_inj (by omega)⟩
  · rintro ⟨rfl, rfl⟩
    rfl

/-- The settings in the configuration register of a submodule. -/
inductive ConfigAttr where
  | inpol
  | dacSource
  | opticalSource
  | ledSource
  | opticalOut
deriving DecidableEq

namespace ConfigAttr

def shift : ConfigAttr → ℕ
  | inpol => 6
  | dacSource => 7
  | opticalSource => 10
  | ledSource => 13
  | opticalOut => 25

/-- The width of the field. -/
def width : ConfigAttr → ℕ
  | inpol => 1
  | dacSource => 3
  | opticalSource => 3
  | ledSource => 3
  | opticalOut => 1

def mask (a : ConfigAttr) : U32 := BitVec.ofNat 32 (2 ^ a.width - 1) <<< a.shift

theorem mask_disjoint {a a' : ConfigAttr} (h : a ≠ a') : a.mask &&& a'.mask = 0#32 := by
  cases a <;> cases a' <;> first | exact absurd rfl h | decide

end ConfigAttr

def CVORB_CH_ENABLE : U32 := 0x2#32

def CVORB_CH_DISABLE : U32 := 0x1#32

def CVORB_CH_ENABLE_MASK : U32 := 0x3#32

/-! ### The driver -/

structure CvorbChannel where
  enable : U32
  enableFcnMask : BitVec 64
  selectedFcn : U32
  repeatCount : U32

structure CvorbSubmodule where
  setting : ConfigAttr → U32
  channels : Fin 8 → CvorbChannel

/-- The copies, and the registers of the card. -/
structure CvorbDev where
  submodules : Fin 2 → CvorbSubmodule
  regs : ℕ → U32

namespace CvorbDev

def writew (d : CvorbDev) (off : ℕ) (value : U32) : CvorbDev :=
  { d with regs := update d.regs off value }

def writeBitfields (d : CvorbDev) (off : ℕ) (mask value : U32) : CvorbDev :=
  d.writew off (d.regs off &&& ~~~mask ||| value)

def mapSubmodule (d : CvorbDev) (s : Fin 2) (f : CvorbSubmodule → CvorbSubmodule) : CvorbDev :=
  { d with submodules := update d.submodules s (f (d.submodules s)) }

def mapChannel (d : CvorbDev) (s : Fin 2) (c : Fin 8) (f : CvorbChannel → CvorbChannel) :
    CvorbDev :=
  d.mapSubmodule s fun m => { m with channels := update m.channels c (f (m.channels c)) }

def channel (d : CvorbDev) (s : Fin 2) (c : Fin 8) : CvorbChannel := (d.submodules s).channels c

end CvorbDev

/-- The common body of the setters of a submodule. -/
def submoduleField (a : ConfigAttr) (d : CvorbDev) (s : Fin 2) (value : U32) : CvorbDev :=
  (d.mapSubmodule s fun m => { m with setting := update m.setting a value }).writeBitfields
    (offset s .config) a.mask (value <<< a.shift)

/-- `cvorb_submodule_inpol`; `busy` is whether a function is being played. -/
def cvorbSubmoduleInpol (busy : Bool) (d : CvorbDev) (s : Fin 2) (value : U32) :
    Except Errno Unit × CvorbDev :=
  if busy then (.error .EBUSY, d) else (.ok (), submoduleField .inpol d s value)

def cvorbSubmoduleDacsource : CvorbDev → Fin 2 → U32 → CvorbDev := submoduleField .dacSource

def cvorbSubmoduleLedsource : CvorbDev → Fin 2 → U32 → CvorbDev := submoduleField .ledSource

def cvorbSubmoduleOpticalsource : CvorbDev → Fin 2 → U32 → CvorbDev :=
  submoduleField .opticalSource

def cvorbSubmoduleEnableOpticalout : CvorbDev → Fin 2 → U32 → CvorbDev :=
  submoduleField .opticalOut

/-- `cvorb_ch_enable`.  The `hw_val` that it computes is not what it writes. -/
def cvorbChEnable (d : CvorbDev) (s : Fin 2) (c : Fin 8) (value : U32) : CvorbDev :=
  (d.mapChannel s c fun ch => { ch with enable := value }).writeBitfields
    (offset s (.chConfig c)) CVORB_CH_ENABLE_MASK value

def cvorbSelectFcn (d : CvorbDev) (s : Fin 2) (c : Fin 8) (value : U32) : CvorbDev :=
  (d.mapChannel s c fun ch => { ch with selectedFcn := value }).writew (offset s (.select c)) value

def cvorbChRepeatCount (d : CvorbDev) (s : Fin 2) (c : Fin 8) (value : U32) : CvorbDev :=
  (d.mapChannel s c fun ch => { ch with repeatCount := value }).writew
    (offset s (.repeatFcn c)) value

/-- The common part of the two calls for the function mask: the half with function `value` is
written. -/
def writeFcnMask (d : CvorbDev) (s : Fin 2) (c : Fin 8) (value : U32) (mask : BitVec 64) :
    CvorbDev :=
  let d := d.mapChannel s c fun ch => { ch with enableFcnMask := mask }
  if value.toNat < 32 then d.writew (offset s (.enableFcnMaskL c)) (mask.setWidth 32)
  else d.writew (offset s (.enableFcnMaskH c)) ((mask >>> (32 : ℕ)).setWidth 32)

/-- `1 << value`. -/
def fcnBit (value : U32) : BitVec 64 := 1#64 <<< (value.toNat % 64)

def cvorbEnableFcn (d : CvorbDev) (s : Fin 2) (c : Fin 8) (value : U32) : CvorbDev :=
  writeFcnMask d s c value ((d.channel s c).enableFcnMask ||| fcnBit value)

def cvorbDisableFcn (d : CvorbDev) (s : Fin 2) (c : Fin 8) (value : U32) : CvorbDev :=
  writeFcnMask d s c value ((d.channel s c).enableFcnMask &&& ~~~fcnBit value)

/-- `cvorb_init_channel`. -/
def cvorbInitChannel (s : Fin 2) (d : CvorbDev) (c : Fin 8) : CvorbDev :=
  let d := d.writew (offset s (.chConfig c)) 0#32
  let d := d.mapChannel s c fun ch => { ch with enable := 0#32 }
  let d := d.writew (offset s (.enableFcnMaskL c)) 0#32
  let d := d.writew (offset s (.enableFcnMaskH c)) 0#32
  let d := d.mapChannel s c fun ch => { ch with enableFcnMask := 0#64 }
  let d := d.writew (offset s (.repeatFcn c)) 1#32
  let d := d.mapChannel s c fun ch => { ch with repeatCount := 1#32 }
  let d := d.writew (offset s (.select c)) 0#32
  d.mapChannel s c fun ch => { ch with selectedFcn := 0#32 }

def cvorbInitSubmodule (d : CvorbDev) (s : Fin 2) : CvorbDev :=
  let d := d.writew (offset s .config) 0#32
  let d := d.mapSubmodule s fun m => { m with setting := fun _ => 0#32 }
  (List.finRange 8).foldl (cvorbInitChannel s) d

def cvorbInit (d : CvorbDev) : CvorbDev := (List.finRange 2).foldl cvorbInitSubmodule d

/-! ### Stores to attributes -/

/-- A store of `value`; for the input polarity `busy` is what the card answers. -/
inductive Store where
  | config (a : ConfigAttr) (busy : Bool) (s : Fin 2) (value : U32)
  | enable (s : Fin 2) (c : Fin 8) (value : U32)
  | selectFcn (s : Fin 2) (c : Fin 8) (value : U32)
  | enableFcn (s : Fin 2) (c : Fin 8) (value : U32)
  | disableFcn (s : Fin 2) (c : Fin 8) (value : U32)
  | repeatCount (s : Fin 2) (c : Fin 8) (value : U32)

def storeConfig (a : ConfigAttr) (busy : Bool) (d : CvorbDev) (s : Fin 2) (value : U32) :
    CvorbDev :=
  match a with
  | .inpol => (cvorbSubmoduleInpol busy d s value).2
  | .dacSource => cvorbSubmoduleDacsource d s value
  | .opticalSource => cvorbSubmoduleOpticalsource d s value
  | .ledSource => cvorbSubmoduleLedsource d s value
  | .opticalOut => cvorbSubmoduleEnableOpticalout d s value

def store (d : CvorbDev) : Store → CvorbDev
  | .config a busy s value => storeConfig a busy d s value
  | .enable s c value => cvorbChEnable d s c value
  | .selectFcn s c value => cvorbSelectFcn d s c value
  | .enableFcn s c value => cvorbEnableFcn d s c value
  | .disableFcn s c value => cvorbDisableFcn d s c value
  | .repeatCount s c value => cvorbChRepeatCount d s c value

namespace Store

/-- The bits of a register that belong to the attribute. -/
def field (off : ℕ) : Store → U32
  | .config a _ s _ => if off = offset s .config then a.mask else 0#32
  | .enable s c _ => if off = offset s (.chConfig c) then CVORB_CH_ENABLE_MASK else 0#32
  | .selectFcn s c _ => if off = offset s (.select c) then BitVec.allOnes 32 else 0#32
  | .enableFcn s c _ | .disableFcn s c _ =>
    if off = offset s (.enableFcnMaskL c) ∨ off = offset s (.enableFcnMaskH c) then
      BitVec.allOnes 32
    else 0#32
  | .repeatCount s c _ => if off = offset s (.repeatFcn c) then BitVec.allOnes 32 else 0#32

/-- A value that its field can hold: one of the width of a field, the code for an enabled channel,
or the number of a function. -/
def Fits : Store → Prop
  | .config a _ _ value => value.toNat < 2 ^ a.width
  | .enable _ _ value => value = CVORB_CH_ENABLE
  | .enableFcn _ _ value | .disableFcn _ _ value => value.toNat < 64
  | .selectFcn .. | .repeatCount .. => True

end Store

/-- The card in a run of stores, with what was stored to each `enable` last. -/
structure ShadowState where
  dev : CvorbDev
  lastEnable : Fin 2 → Fin 8 → Option U32

def shadowStep (st : ShadowState) (x : Store) : ShadowState where
  dev := store st.dev x
  lastEnable s c :=
    match x with
    | .enable s' c' value => if s = s' ∧ c = c' then some value else st.lastEnable s c
    | _ => st.lastEnable s c

/-- Runs of stores from `cvorb_init` on a card in any state. -/
def shadowSystem : System ShadowState Store where
  init st := ∃ d, st = ⟨cvorbInit d, fun _ _ => none⟩
  step st x st' := st' = shadowStep st x

/-! ### Coherence -/

/-- The settings that are shown for a submodule are in their fields. -/
def ConfigCoherent (d : CvorbDev) (s : Fin 2) : Prop :=
  ∀ a, (d.submodules s).setting a = (d.regs (offset s .config) &&& a.mask) >>> a.shift

/-- The settings that are shown for a channel are in their registers. -/
structure ChannelCoherent (d : CvorbDev) (s : Fin 2) (c : Fin 8) : Prop where
  select : (d.channel s c).selectedFcn = d.regs (offset s (.select c))
  repeatCount : (d.channel s c).repeatCount = d.regs (offset s (.repeatFcn c))
  maskL : d.regs (offset s (.enableFcnMaskL c)) = (d.channel s c).enableFcnMask.setWidth 32
  maskH : d.regs (offset s (.enableFcnMaskH c)) =
    ((d.channel s c).enableFcnMask >>> (32 : ℕ)).setWidth 32

/-- After a store to `enable` its value is shown, and the field has its encoding. -/
def EnableCoherent (st : ShadowState) (s : Fin 2) (c : Fin 8) : Prop :=
  ∀ value, st.lastEnable s c = some value →
    (st.dev.channel s c).enable = value ∧
      st.dev.regs (offset s (.chConfig c)) &&& CVORB_CH_ENABLE_MASK =
        if value = 0#32 then CVORB_CH_DISABLE else CVORB_CH_ENABLE

structure ShadowCoherent (st : ShadowState) : Prop where
  config : ∀ s, ConfigCoherent st.dev s
  channel : ∀ s c, ChannelCoherent st.dev s c
  enable : ∀ s c, EnableCoherent st s c

/-! ### A value in its field -/

namespace ConfigAttr

theorem mask_shift (a : ConfigAttr) : a.mask >>> a.shift = BitVec.ofNat 32 (2 ^ a.width - 1) := by
  cases a <;> decide

theorem width_le (a : ConfigAttr) : a.width ≤ 32 := by cases a <;> decide

theorem shiftLeft_and_mask {a : ConfigAttr} {value : U32} (h : value.toNat < 2 ^ a.width) :
    value <<< a.shift &&& a.mask = value <<< a.shift := by
  rw [mask, ← BitVec.shiftLeft_and_distrib, Word.and_low_eq_self a.width_le h]

theorem shiftLeft_shiftRight {a : ConfigAttr} {value : U32} (h : value.toNat < 2 ^ a.width) :
    (value <<< a.shift) >>> a.shift = value := by
  have hlow := Word.and_low_eq_self a.width_le h
  have hget := @Word.field_get_put 32 value a.mask (BitVec.allOnes 32)
    (BitVec.ofNat 32 (2 ^ a.width - 1)) a.shift (by rw [a.mask_shift, BitVec.and_allOnes])
    a.mask_shift hlow
  rwa [BitVec.and_allOnes, shiftLeft_and_mask h] at hget

end ConfigAttr

/-! ### What the driver changes -/

namespace CvorbDev

variable (d : CvorbDev) (s s' : Fin 2) (c c' : Fin 8)

@[simp]
theorem writew_submodules (off : ℕ) (value : U32) :
    (d.writew off value).submodules = d.submodules := rfl

@[simp]
theorem writew_channel (off : ℕ) (value : U32) :
    (d.writew off value).channel s c = d.channel s c := rfl

theorem writew_regs (off off' : ℕ) (value : U32) :
    (d.writew off value).regs off' = if off' = off then value else d.regs off' :=
  update_apply d.regs off value off'

@[simp]
theorem mapChannel_regs (f : CvorbChannel → CvorbChannel) : (d.mapChannel s c f).regs = d.regs := rfl

@[simp]
theorem mapChannel_setting (f : CvorbChannel → CvorbChannel) :
    ((d.mapChannel s c f).submodules s').setting = (d.submodules s').setting := by
  by_cases h : s' = s
  · subst h
    simp [mapChannel, mapSubmodule]
  · simp [mapChannel, mapSubmodule, h]

theorem mapChannel_channel (f : CvorbChannel → CvorbChannel) :
    (d.mapChannel s c f).channel s' c' =
      if s' = s ∧ c' = c then f (d.channel s c) else d.channel s' c' := by
  by_cases h : s' = s
  · subst h
    by_cases hc : c' = c
    · subst hc
      simp [mapChannel, mapSubmodule, channel]
    · simp [mapChannel, mapSubmodule, channel, hc]
  · simp [mapChannel, mapSubmodule, channel, h]

end CvorbDev

theorem submoduleField_regs (a : ConfigAttr) (d : CvorbDev) (s : Fin 2) (value : U32) (off : ℕ) :
    (submoduleField a d s value).regs off =
      if off = offset s .config then d.regs off &&& ~~~a.mask ||| value <<< a.shift
      else d.regs off := by
  rw [submoduleField, CvorbDev.writeBitfields, CvorbDev.writew_regs]
  split
  · rename_i h
    rw [h]
    rfl
  · rfl

theorem submoduleField_channel (a : ConfigAttr) (d : CvorbDev) (s s' : Fin 2) (c : Fin 8)
    (value : U32) : (submoduleField a d s value).channel s' c = d.channel s' c := by
  by_cases h : s' = s
  · subst h
    simp [submoduleField, CvorbDev.writeBitfields, CvorbDev.writew, CvorbDev.mapSubmodule,
      CvorbDev.channel]
  · simp [submoduleField, CvorbDev.writeBitfields, CvorbDev.writew, CvorbDev.mapSubmodule,
      CvorbDev.channel, h]

theorem submoduleField_setting (a a' : ConfigAttr) (d : CvorbDev) (s s' : Fin 2) (value : U32) :
    ((submoduleField a d s value).submodules s').setting a' =
      if s' = s ∧ a' = a then value else (d.submodules s').setting a' := by
  by_cases h : s' = s
  · subst h
    simp [submoduleField, CvorbDev.writeBitfields, CvorbDev.writew, CvorbDev.mapSubmodule,
      update_apply]
  · simp [submoduleField, CvorbDev.writeBitfields, CvorbDev.writew, CvorbDev.mapSubmodule, h]

theorem storeConfig_cases (a : ConfigAttr) (busy : Bool) (d : CvorbDev) (s : Fin 2)
    (value : U32) :
    storeConfig a busy d s value = d ∨ storeConfig a busy d s value = submoduleField a d s value := by
  cases a with
  | inpol =>
    cases busy with
    | true => exact .inl rfl
    | false => exact .inr rfl
  | _ => exact .inr rfl

theorem cvorbChEnable_regs (d : CvorbDev) (s : Fin 2) (c : Fin 8) (value : U32) (off : ℕ) :
    (cvorbChEnable d s c value).regs off =
      if off = offset s (.chConfig c) then d.regs off &&& ~~~CVORB_CH_ENABLE_MASK ||| value
      else d.regs off := by
  rw [cvorbChEnable, CvorbDev.writeBitfields, CvorbDev.writew_regs]
  split
  · rename_i h
    rw [h]
    rfl
  · rfl

theorem writeFcnMask_regs (d : CvorbDev) (s : Fin 2) (c : Fin 8) (value : U32) (mask : BitVec 64)
    (off : ℕ) :
    (writeFcnMask d s c value mask).regs off =
      if value.toNat < 32 ∧ off = offset s (.enableFcnMaskL c) then mask.setWidth 32
      else if ¬value.toNat < 32 ∧ off = offset s (.enableFcnMaskH c) then
        (mask >>> (32 : ℕ)).setWidth 32
      else d.regs off := by
  rw [writeFcnMask]
  split
  · rename_i h
    rw [CvorbDev.writew_regs]
    simp [h]
  · rename_i h
    rw [CvorbDev.writew_regs]
    simp [h]

theorem store_field {x : Store} (hx : x.Fits) (d : CvorbDev) (off : ℕ) :
    (store d x).regs off &&& ~~~x.field off = d.regs off &&& ~~~x.field off := by
  have hmask : ∀ {old value m : U32}, value &&& m = value →
      (old &&& ~~~m ||| value) &&& ~~~m = old &&& ~~~m := fun h =>
    Word.update_and_of_disjoint (BitVec.and_not_self _) h
  cases x with
  | config a busy s value =>
    obtain hsame | hset := storeConfig_cases a busy d s value
    · rw [store, hsame]
    · rw [store, hset, submoduleField_regs, Store.field]
      split
      · exact hmask (ConfigAttr.shiftLeft_and_mask hx)
      · rfl
  | enable s c value =>
    rw [store, cvorbChEnable_regs, Store.field]
    split
    · have hvalue : value = CVORB_CH_ENABLE := hx
      subst hvalue
      exact hmask (by decide)
    · rfl
  | selectFcn s c value =>
    rw [store, cvorbSelectFcn, CvorbDev.writew_regs, Store.field]
    split
    · simp
    · rfl
  | repeatCount s c value =>
    rw [store, cvorbChRepeatCount, CvorbDev.writew_regs, Store.field]
    split
    · simp
    · rfl
  | enableFcn s c value =>
    rw [store, cvorbEnableFcn, writeFcnMask_regs, Store.field]
    by_cases hL : off = offset s (.enableFcnMaskL c)
    · simp [hL]
    · by_cases hH : off = offset s (.enableFcnMaskH c)
      · simp [hH]
      · simp [hL, hH]
  | disableFcn s c value =>
    rw [store, cvorbDisableFcn, writeFcnMask_regs, Store.field]
    by_cases hL : off = offset s (.enableFcnMaskL c)
    · simp [hL]
    · by_cases hH : off = offset s (.enableFcnMaskH c)
      · simp [hH]
      · simp [hL, hH]

/-! ### Coherence is kept -/

theorem fcnBit_low {value : U32} (h : value.toNat < 32) :
    (fcnBit value >>> (32 : ℕ)).setWidth 32 = 0#32 := by
  apply BitVec.eq_of_getLsbD_eq
  intro i hi
  have hmod : value.toNat % 64 = value.toNat := Nat.mod_eq_of_lt (by omega)
  simp [fcnBit, hmod]
  omega

theorem fcnBit_high {value : U32} (h : ¬value.toNat < 32) (h' : value.toNat < 64) :
    (fcnBit value).setWidth 32 = 0#32 := by
  apply BitVec.eq_of_getLsbD_eq
  intro i hi
  have hmod : value.toNat % 64 = value.toNat := Nat.mod_eq_of_lt h'
  simp [fcnBit, hmod]
  omega

theorem writeFcnMask_channel (d : CvorbDev) (s s' : Fin 2) (c c' : Fin 8) (value : U32)
    (mask : BitVec 64) :
    (writeFcnMask d s c value mask).channel s' c' =
      if s' = s ∧ c' = c then { d.channel s c with enableFcnMask := mask } else d.channel s' c' := by
  rw [writeFcnMask]
  split <;> rw [CvorbDev.writew_channel, CvorbDev.mapChannel_channel]

theorem writeFcnMask_enable (d : CvorbDev) (s s' : Fin 2) (c c' : Fin 8) (value : U32)
    (mask : BitVec 64) :
    ((writeFcnMask d s c value mask).channel s' c').enable = (d.channel s' c').enable := by
  rw [writeFcnMask_channel]
  split
  · rename_i hat
    rw [hat.1, hat.2]
  · rfl

theorem and_not_low {mask bit : BitVec 64} (h : (bit >>> (32 : ℕ)).setWidth 32 = 0#32) :
    ((mask &&& ~~~bit) >>> (32 : ℕ)).setWidth 32 = (mask >>> (32 : ℕ)).setWidth 32 := by
  apply BitVec.eq_of_getLsbD_eq
  intro i hi
  have hbit := congrArg (BitVec.getLsbD · i) h
  simp only [BitVec.getLsbD_setWidth, BitVec.getLsbD_ushiftRight, BitVec.getLsbD_and,
    BitVec.getLsbD_not, BitVec.getLsbD_zero] at hbit ⊢
  have hlt : 32 + i < 64 := by omega
  simp_all

theorem and_not_high {mask bit : BitVec 64} (h : bit.setWidth 32 = 0#32) :
    (mask &&& ~~~bit).setWidth 32 = mask.setWidth 32 := by
  apply BitVec.eq_of_getLsbD_eq
  intro i hi
  have hbit := congrArg (BitVec.getLsbD · i) h
  simp only [BitVec.getLsbD_setWidth, BitVec.getLsbD_and, BitVec.getLsbD_not,
    BitVec.getLsbD_zero] at hbit ⊢
  have hlt : i < 64 := by omega
  simp_all

theorem channelCoherent_writeFcnMask {d : CvorbDev} {s s' : Fin 2} {c c' : Fin 8} {value : U32}
    {mask : BitVec 64} (h : ChannelCoherent d s' c')
    (hlow : value.toNat < 32 → (mask >>> (32 : ℕ)).setWidth 32 =
      ((d.channel s c).enableFcnMask >>> (32 : ℕ)).setWidth 32)
    (hhigh : ¬value.toNat < 32 → mask.setWidth 32 = (d.channel s c).enableFcnMask.setWidth 32) :
    ChannelCoherent (writeFcnMask d s c value mask) s' c' := by
  have hchannel := writeFcnMask_channel d s s' c c' value mask
  obtain ⟨hselect, hrepeat, hmaskL, hmaskH⟩ := h
  by_cases hat : s' = s ∧ c' = c
  · obtain ⟨rfl, rfl⟩ := hat
    rw [if_pos ⟨rfl, rfl⟩] at hchannel
    constructor <;> rw [hchannel, writeFcnMask_regs]
    all_goals simp_all
  · rw [if_neg hat] at hchannel
    constructor <;> rw [hchannel, writeFcnMask_regs]
    all_goals simp [hat, hselect, hrepeat, hmaskL, hmaskH]

theorem configCoherent_submoduleField {a : ConfigAttr} {d : CvorbDev} {s s' : Fin 2} {value : U32}
    (h : ConfigCoherent d s') (hvalue : value.toNat < 2 ^ a.width) :
    ConfigCoherent (submoduleField a d s value) s' := by
  intro a'
  rw [submoduleField_setting, submoduleField_regs]
  have hfits := ConfigAttr.shiftLeft_and_mask hvalue
  by_cases hs : s' = s
  · subst hs
    rw [if_pos (rfl : offset s' .config = offset s' .config)]
    by_cases ha : a' = a
    · subst ha
      rw [if_pos ⟨rfl, rfl⟩, Word.update_and_self hfits, ConfigAttr.shiftLeft_shiftRight hvalue]
    · rw [if_neg (fun hat => ha hat.2), h a',
        Word.update_and_of_disjoint (ConfigAttr.mask_disjoint (Ne.symm ha)) hfits]
  · rw [if_neg (fun hat => hs hat.1), if_neg (fun hat => hs (offset_inj.mp hat).1), h a']

theorem ConfigCoherent.congr {d d' : CvorbDev} {s : Fin 2} (h : ConfigCoherent d s)
    (hsetting : (d'.submodules s).setting = (d.submodules s).setting)
    (hregs : d'.regs (offset s .config) = d.regs (offset s .config)) : ConfigCoherent d' s := by
  intro a
  rw [hsetting, hregs]
  exact h a

theorem ChannelCoherent.congr {d d' : CvorbDev} {s : Fin 2} {c : Fin 8} (h : ChannelCoherent d s c)
    (hselected : (d'.channel s c).selectedFcn = (d.channel s c).selectedFcn)
    (hrepeat : (d'.channel s c).repeatCount = (d.channel s c).repeatCount)
    (hmask : (d'.channel s c).enableFcnMask = (d.channel s c).enableFcnMask)
    (hregs : ∀ r ∈ [Register.select c, .repeatFcn c, .enableFcnMaskL c, .enableFcnMaskH c],
      d'.regs (offset s r) = d.regs (offset s r)) : ChannelCoherent d' s c := by
  obtain ⟨hs, hr, hL, hH⟩ := h
  constructor
  · rw [hselected, hregs _ (by simp), hs]
  · rw [hrepeat, hregs _ (by simp), hr]
  · rw [hmask, hregs _ (by simp), hL]
  · rw [hmask, hregs _ (by simp), hH]

theorem cvorbChEnable_channel (d : CvorbDev) (s s' : Fin 2) (c c' : Fin 8) (value : U32) :
    (cvorbChEnable d s c value).channel s' c' =
      if s' = s ∧ c' = c then { d.channel s c with enable := value } else d.channel s' c' := by
  rw [cvorbChEnable, CvorbDev.writeBitfields, CvorbDev.writew_channel, CvorbDev.mapChannel_channel]

theorem enable_regs {value : U32} (h : value = CVORB_CH_ENABLE) (old : U32) :
    (old &&& ~~~CVORB_CH_ENABLE_MASK ||| value) &&& CVORB_CH_ENABLE_MASK =
      if value = 0#32 then CVORB_CH_DISABLE else CVORB_CH_ENABLE := by
  subst h
  rw [Word.update_and_self (by decide), if_neg (by decide)]

theorem EnableCoherent.congr {st st' : ShadowState} {s : Fin 2} {c : Fin 8}
    (h : EnableCoherent st s c) (hlast : st'.lastEnable s c = st.lastEnable s c)
    (henable : (st'.dev.channel s c).enable = (st.dev.channel s c).enable)
    (hregs : st'.dev.regs (offset s (.chConfig c)) = st.dev.regs (offset s (.chConfig c))) :
    EnableCoherent st' s c := by
  intro value hvalue
  rw [henable, hregs]
  exact h value (hlast ▸ hvalue)

theorem store_configCoherent {x : Store} (hx : x.Fits) {d : CvorbDev}
    (h : ∀ s, ConfigCoherent d s) (s' : Fin 2) : ConfigCoherent (store d x) s' := by
  cases x with
  | config a busy s value =>
    obtain hsame | hset := storeConfig_cases a busy d s value
    · rw [store, hsame]
      exact h s'
    · rw [store, hset]
      exact configCoherent_submoduleField (h s') hx
  | enable s c value =>
    refine (h s').congr ?_ ?_
    · simp [store, cvorbChEnable, CvorbDev.writeBitfields]
    · simp [store, cvorbChEnable_regs]
  | selectFcn s c value =>
    refine (h s').congr ?_ ?_
    · simp [store, cvorbSelectFcn]
    · simp [store, cvorbSelectFcn, CvorbDev.writew_regs]
  | repeatCount s c value =>
    refine (h s').congr ?_ ?_
    · simp [store, cvorbChRepeatCount]
    · simp [store, cvorbChRepeatCount, CvorbDev.writew_regs]
  | enableFcn s c value =>
    refine (h s').congr ?_ ?_
    · simp only [store, cvorbEnableFcn, writeFcnMask]
      split <;> simp
    · simp [store, cvorbEnableFcn, writeFcnMask_regs]
  | disableFcn s c value =>
    refine (h s').congr ?_ ?_
    · simp only [store, cvorbDisableFcn, writeFcnMask]
      split <;> simp
    · simp [store, cvorbDisableFcn, writeFcnMask_regs]

theorem store_channelCoherent {x : Store} (hx : x.Fits) {d : CvorbDev}
    (h : ∀ s c, ChannelCoherent d s c) (s' : Fin 2) (c' : Fin 8) :
    ChannelCoherent (store d x) s' c' := by
  cases x with
  | config a busy s value =>
    obtain hsame | hset := storeConfig_cases a busy d s value
    · rw [store, hsame]
      exact h s' c'
    · rw [store, hset]
      refine (h s' c').congr ?_ ?_ ?_ ?_
      · rw [submoduleField_channel]
      · rw [submoduleField_channel]
      · rw [submoduleField_channel]
      · intro r hr
        rw [submoduleField_regs, if_neg]
        intro hat
        obtain ⟨-, rfl⟩ := offset_inj.mp hat
        simp at hr
  | enable s c value =>
    have hchannel := cvorbChEnable_channel d s s' c c' value
    refine (h s' c').congr ?_ ?_ ?_ ?_
    · rw [store, hchannel]
      split <;> simp_all
    · rw [store, hchannel]
      split <;> simp_all
    · rw [store, hchannel]
      split <;> simp_all
    · intro r hr
      rw [store, cvorbChEnable_regs, if_neg]
      intro hat
      obtain ⟨-, rfl⟩ := offset_inj.mp hat
      simp at hr
  | selectFcn s c value =>
    obtain ⟨hs, hr, hL, hH⟩ := h s' c'
    constructor <;> simp only [store, cvorbSelectFcn, CvorbDev.writew_channel,
      CvorbDev.mapChannel_channel, CvorbDev.writew_regs, CvorbDev.mapChannel_regs, offset_inj]
    all_goals
      by_cases hat : s' = s ∧ c' = c
      · obtain ⟨rfl, rfl⟩ := hat
        simp [hr, hL, hH]
      · simp [hat, hr, hs, hL, hH]
  | repeatCount s c value =>
    obtain ⟨hs, hr, hL, hH⟩ := h s' c'
    constructor <;> simp only [store, cvorbChRepeatCount, CvorbDev.writew_channel,
      CvorbDev.mapChannel_channel, CvorbDev.writew_regs, CvorbDev.mapChannel_regs, offset_inj]
    all_goals
      by_cases hat : s' = s ∧ c' = c
      · obtain ⟨rfl, rfl⟩ := hat
        simp [hs, hL, hH]
      · simp [hat, hr, hs, hL, hH]
  | enableFcn s c value =>
    rw [store, cvorbEnableFcn]
    apply channelCoherent_writeFcnMask (h s' c')
    · intro hlow
      rw [BitVec.ushiftRight_or_distrib, BitVec.setWidth_or, fcnBit_low hlow, BitVec.or_zero]
    · intro hhigh
      rw [BitVec.setWidth_or, fcnBit_high hhigh hx, BitVec.or_zero]
  | disableFcn s c value =>
    rw [store, cvorbDisableFcn]
    apply channelCoherent_writeFcnMask (h s' c')
    · intro hlow
      exact and_not_low (fcnBit_low hlow)
    · intro hhigh
      exact and_not_high (fcnBit_high hhigh hx)

theorem shadowStep_enableCoherent {x : Store} (hx : x.Fits) {st : ShadowState}
    (h : ∀ s c, EnableCoherent st s c) (s' : Fin 2) (c' : Fin 8) :
    EnableCoherent (shadowStep st x) s' c' := by
  cases x with
  | config a busy s value =>
    obtain hsame | hset := storeConfig_cases a busy st.dev s value
    · refine (h s' c').congr rfl ?_ ?_ <;> simp [shadowStep, store, hsame]
    · refine (h s' c').congr rfl ?_ ?_
      · simp [shadowStep, store, hset, submoduleField_channel]
      · simp [shadowStep, store, hset, submoduleField_regs]
  | enable s c value =>
    have hchannel := cvorbChEnable_channel st.dev s s' c c' value
    by_cases hat : s' = s ∧ c' = c
    · obtain ⟨rfl, rfl⟩ := hat
      intro value' hvalue'
      obtain rfl : value = value' := by simpa [shadowStep] using hvalue'
      constructor
      · simp [shadowStep, store, hchannel]
      · simp only [shadowStep, store, cvorbChEnable_regs]
        exact enable_regs hx _
    · refine (h s' c').congr ?_ ?_ ?_
      · simp [shadowStep, hat]
      · simp [shadowStep, store, hchannel, hat]
      · simp [shadowStep, store, cvorbChEnable_regs, hat]
  | selectFcn s c value =>
    refine (h s' c').congr rfl ?_ ?_
    · simp only [shadowStep, store, cvorbSelectFcn, CvorbDev.writew_channel,
        CvorbDev.mapChannel_channel]
      split <;> simp_all
    · simp [shadowStep, store, cvorbSelectFcn, CvorbDev.writew_regs]
  | repeatCount s c value =>
    refine (h s' c').congr rfl ?_ ?_
    · simp only [shadowStep, store, cvorbChRepeatCount, CvorbDev.writew_channel,
        CvorbDev.mapChannel_channel]
      split <;> simp_all
    · simp [shadowStep, store, cvorbChRepeatCount, CvorbDev.writew_regs]
  | enableFcn s c value =>
    refine (h s' c').congr rfl ?_ ?_
    · simp only [shadowStep, store, cvorbEnableFcn, writeFcnMask_enable]
    · simp [shadowStep, store, cvorbEnableFcn, writeFcnMask_regs]
  | disableFcn s c value =>
    refine (h s' c').congr rfl ?_ ?_
    · simp only [shadowStep, store, cvorbDisableFcn, writeFcnMask_enable]
    · simp [shadowStep, store, cvorbDisableFcn, writeFcnMask_regs]

/-! ### The start -/

theorem foldl_each {α β : Type*} {f : β → α → β} {P : α → β → Prop} {l : List α} {b : β} {a : α}
    (hf : ∀ a b, P a (f b a)) (hkeep : ∀ a a' b, P a b → P a (f b a')) (ha : a ∈ l) :
    P a (l.foldl f b) := by
  induction l using List.reverseRecOn with
  | nil => cases ha
  | append_singleton l a' ih =>
    rw [List.foldl_append]
    obtain ha | ha := List.mem_append.mp ha
    · exact hkeep a a' _ (ih ha)
    · obtain rfl : a = a' := by simpa using ha
      exact hf a _

theorem foldl_keeps {α β : Type*} {f : β → α → β} {P : β → Prop} {l : List α} {b : β}
    (hkeep : ∀ a b, P b → P (f b a)) (hb : P b) : P (l.foldl f b) := by
  induction l using List.reverseRecOn with
  | nil => exact hb
  | append_singleton l a ih =>
    rw [List.foldl_append]
    exact hkeep a _ ih

theorem cvorbInitChannel_configCoherent (s : Fin 2) (c : Fin 8) {d : CvorbDev} {s' : Fin 2}
    (h : ConfigCoherent d s') : ConfigCoherent (cvorbInitChannel s d c) s' := by
  refine h.congr ?_ ?_
  · simp [cvorbInitChannel]
  · simp [cvorbInitChannel, CvorbDev.writew_regs]

theorem cvorbInitChannel_channelCoherent (s : Fin 2) (c : Fin 8) {d : CvorbDev} {s' : Fin 2}
    {c' : Fin 8} (h : s' = s ∧ c' = c ∨ ChannelCoherent d s' c') :
    ChannelCoherent (cvorbInitChannel s d c) s' c' := by
  by_cases hat : s' = s ∧ c' = c
  · obtain ⟨rfl, rfl⟩ := hat
    constructor <;> simp [cvorbInitChannel, CvorbDev.writew_regs, CvorbDev.mapChannel_channel]
  · obtain ⟨hs, hr, hL, hH⟩ := h.resolve_left hat
    constructor <;> simp [cvorbInitChannel, CvorbDev.writew_regs, CvorbDev.mapChannel_channel,
      hat, hs, hr, hL, hH]

/-- The submodule has its settings, and so have its channels. -/
def SubmoduleCoherent (s : Fin 2) (d : CvorbDev) : Prop :=
  ConfigCoherent d s ∧ ∀ c, ChannelCoherent d s c

theorem cvorbInitSubmodule_coherent (d : CvorbDev) (s : Fin 2) :
    SubmoduleCoherent s (cvorbInitSubmodule d s) := by
  constructor
  · refine foldl_keeps (P := fun d => ConfigCoherent d s) ?_ ?_
    · intro c d
      exact cvorbInitChannel_configCoherent s c
    · intro a
      simp [CvorbDev.mapSubmodule, CvorbDev.writew]
  · intro c
    refine foldl_each (P := fun c d => ChannelCoherent d s c) ?_ ?_ (List.mem_finRange c)
    · intro c d
      exact cvorbInitChannel_channelCoherent s c (.inl ⟨rfl, rfl⟩)
    · intro c c' d h
      exact cvorbInitChannel_channelCoherent s c' (.inr h)

theorem cvorbInitSubmodule_keeps {d : CvorbDev} {s : Fin 2} (s' : Fin 2)
    (h : SubmoduleCoherent s d) : SubmoduleCoherent s (cvorbInitSubmodule d s') := by
  by_cases hs : s = s'
  · subst hs
    exact cvorbInitSubmodule_coherent d s
  · refine foldl_keeps (P := SubmoduleCoherent s) ?_ ⟨h.1.congr ?_ ?_, fun c => (h.2 c).congr ?_ ?_ ?_ ?_⟩
    · intro c d h
      exact ⟨cvorbInitChannel_configCoherent s' c h.1,
        fun c' => cvorbInitChannel_channelCoherent s' c (.inr (h.2 c'))⟩
    all_goals simp [CvorbDev.mapSubmodule, CvorbDev.writew, CvorbDev.channel, hs]

theorem cvorbInit_coherent (d : CvorbDev) (s : Fin 2) : SubmoduleCoherent s (cvorbInit d) := by
  refine foldl_each (P := SubmoduleCoherent) ?_ ?_ (List.mem_finRange s)
  · intro s d
    exact cvorbInitSubmodule_coherent d s
  · intro s s' d
    exact cvorbInitSubmodule_keeps s'

/-! ### Any run of stores -/

/-- **The copies are what the card has.**  In every run from the start of the driver all of whose
stores fit, what is shown is what the fields hold, and a store that fits changes the bits of its own
field only. -/
theorem shadows_coherent_of_reach {st : ShadowState} (h : shadowSystem.ReachUnder (fun _ x => x.Fits) st) :
    ShadowCoherent st ∧ ∀ x : Store, x.Fits → ∀ off,
      (shadowStep st x).dev.regs off &&& ~~~x.field off = st.dev.regs off &&& ~~~x.field off := by
  refine ⟨h.invariant ?_ ?_, fun x hx off => store_field hx st.dev off⟩
  · rintro st ⟨d, rfl⟩
    refine ⟨fun s => (cvorbInit_coherent d s).1, fun s => (cvorbInit_coherent d s).2, ?_⟩
    intro s c value hvalue
    cases hvalue
  · rintro st x st' ⟨hconfig, hchannel, henable⟩ hx rfl
    exact ⟨store_configCoherent hx hconfig, store_channelCoherent hx hchannel,
      shadowStep_enableCoherent hx henable⟩

/-- A card with all registers at zero. -/
def zeroDev : CvorbDev where
  submodules _ := ⟨fun _ => 0#32, fun _ => ⟨0#32, 0#64, 0#32, 0#32⟩⟩
  regs _ := 0#32

/-- The driver has started on that card. -/
def started : ShadowState := ⟨cvorbInit zeroDev, fun _ _ => none⟩

theorem reach_of_fits {stores : List Store} (h : ∀ x ∈ stores, x.Fits) :
    shadowSystem.ReachUnder (fun _ x => x.Fits) (stores.foldl shadowStep started) := by
  induction stores using List.reverseRecOn with
  | nil => exact .init ⟨zeroDev, rfl⟩
  | append_singleton stores x ih =>
    rw [List.foldl_append]
    exact (ih fun y hy => h y (by simp [hy])).step (h x (by simp)) rfl

/-- A DAC source, an enabled channel and a function of the upper half. -/
theorem shadows_coherent_of_reach_three :
    let st := [Store.config .dacSource false 1 5#32, .enable 1 3 2#32, .enableFcn 1 3 40#32].foldl
      shadowStep started
    st.dev.regs 0x244 = 0x280#32 ∧ ShadowCoherent st := by
  have hfits : ∀ x ∈ [Store.config .dacSource false 1 5#32, .enable 1 3 2#32, .enableFcn 1 3 40#32],
      x.Fits := by
    intro x hx
    simp only [List.mem_cons, List.not_mem_nil, or_false] at hx
    obtain rfl | rfl | rfl := hx
    · show 5 < 2 ^ 3
      decide
    · exact rfl
    · show 40 < 64
      decide
  exact ⟨by decide +kernel, (shadows_coherent_of_reach (reach_of_fits hfits)).1⟩

/-- `enable` with the documented 1 disables the channel, with 0 it does neither, a DAC source of 8
goes into the optical source, and function 64 is function 0 in the copy but not in the card. -/
theorem stores_not_coherent :
    (∃ st, shadowSystem.Reach st ∧ st.lastEnable 0 0 = some 1#32 ∧
      st.dev.regs (offset 0 (.chConfig 0)) &&& CVORB_CH_ENABLE_MASK = CVORB_CH_DISABLE) ∧
    (∃ st, shadowSystem.Reach st ∧ st.lastEnable 0 0 = some 0#32 ∧
      st.dev.regs (offset 0 (.chConfig 0)) &&& CVORB_CH_ENABLE_MASK = 0#32) ∧
    (∃ st, shadowSystem.Reach st ∧ (st.dev.submodules 0).setting .opticalSource = 0#32 ∧
      (st.dev.regs (offset 0 .config) &&& ConfigAttr.opticalSource.mask) >>>
        ConfigAttr.opticalSource.shift = 1#32) ∧
    ∃ st, shadowSystem.Reach st ∧ (st.dev.channel 0 0).enableFcnMask = 1#64 ∧
      st.dev.regs (offset 0 (.enableFcnMaskL 0)) = 0#32 := by
  have hstarted : shadowSystem.Reach started := .init ⟨zeroDev, rfl⟩
  refine ⟨⟨_, hstarted.step (a := .enable 0 0 1#32) rfl, by decide +kernel, by decide +kernel⟩,
    ⟨_, hstarted.step (a := .enable 0 0 0#32) rfl, by decide +kernel, by decide +kernel⟩,
    ⟨_, hstarted.step (a := .config .dacSource false 0 8#32) rfl, by decide +kernel,
      by decide +kernel⟩,
    ⟨_, hstarted.step (a := .enableFcn 0 0 64#32) rfl, by decide +kernel, by decide +kernel⟩⟩

end KernelModules.Cvorb
