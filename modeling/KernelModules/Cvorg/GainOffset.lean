import KernelModules.Cvorg.StoreSequence
import KernelModules.Lib.Transition

/-!
# Gain and offset of a CVORG channel

With an output offset of 2.5 V only a gain of 14 dB may be applied.  The static gain is in the
configuration register of the channel, and each block of a loaded sequence can have a gain of its
own.

* `GainState` is what the driver keeps of a channel, with its registers and the number of blocks of
  the sequence that was stored last;
* `chanOffset`, `chanOutputGain`, `chanLoadseq` and `reset` are the calls that have to do with the
  rule, `gainSystem` takes them in any order;
* `GainSafe` is the rule.  `chanOffset` looks at the static gain only, so the offset can be set over
  a loaded sequence with another gain (`BlocksFit`, `dynamicGain_not_safe`); `gainSafe_of_reach` is
  what holds of all other runs.
-/

namespace KernelModules.Cvorg

open Function KernelModules.Lib KernelModules.Lib.Word

/-! ### Registers and state -/

/-- `CVORG_CONFIG`. -/
def CONFIG : ℕ := 0x44

def CTL : ℕ := 0x24

def CONFIG_MODE : U32 := 0xf

def CONFIG_MODE_NORMAL : U32 := 0x1

def CONFIG_SEQREADY : U32 := 1 <<< 4

def CONFIG_OUT_OFFSET : U32 := 1 <<< 5

def CONFIG_INPOL : U32 := 1 <<< 6

def CONFIG_OUT_GAIN_MASK : U32 := 0x7 <<< 7

def CONFIG_OUT_ENABLE : U32 := 1 <<< 10

/-- `enum cvorg_outoff`. -/
inductive OutOffset
  | OFFSET_0V | OFFSET_2_5V
  deriving DecidableEq, Repr

/-- `struct cvorg_channel`, with the registers of the channel and the number of blocks that the last
stored sequence has. -/
structure GainState where
  channel : Channel
  inpol : Bool
  outoff : OutOffset
  outgain : ℤ
  outEnabled : Bool
  loaded : ℕ

/-- The errors of the calls; `failed` is `-1`. -/
inductive ChanError
  | EBUSY | EINVAL | failed
  deriving DecidableEq, Repr

/-- `cvorg_invalid_gain_offset`. -/
def invalidGainOffset (gain : ℤ) (offset : OutOffset) : Bool :=
  offset = .OFFSET_2_5V && gain ≠ 14

/-- `cvorg_check_gain_offset_wv`. -/
def checkGainOffsetWv (s : GainState) (wv : Wave) : Bool :=
  wv.dynamicGain ≠ 0 && invalidGainOffset wv.gainVal s.outoff

/-! ### Lengths of waveforms -/

/-- `cvorg_freqlimits`. -/
def freqlimits : List (U32 × U32) :=
  [(1, 16), (10, 60), (25, 1250), (50, 3300), (60, 4700), (80, 9300), (100, 23200)]

/-- `cvorg_freqlimit_range`. -/
def freqlimitRange (mhz : U32) : ℕ :=
  match (List.range 6).find? fun i =>
      mhz < (freqlimits.getD i (0, 0)).1 && mhz < (freqlimits.getD (i + 1) (0, 0)).1 with
  | some i => i
  | none => if mhz ≤ 1 then 0 else 5

/-- `cvorg_freqlimit_check`. -/
def freqlimitCheck (length hz : U32) : Bool :=
  if 100002000 < hz then true
  else
    let mhz := hz / 1000000 + if hz % 1000000 = 0 then 0 else 1
    let mhz := if 100 < mhz then 100 else mhz
    let i := freqlimitRange mhz
    let p1 := freqlimits.getD i (0, 0)
    let p2 := freqlimits.getD (i + 1) (0, 0)
    let m := (p2.2 - p1.2) / (p2.1 - p1.1)
    length < if m = 0 then p2.2 else m * (mhz - p1.1) + p1.2

/-- `cvorg_invalid_freqlimit`, with the reading of `CVORG_SAMPFREQ`. -/
def invalidFreqlimit (seq : Seq) (wv : Wave) (sampfreq : U32) : Bool :=
  (seq.nr = 0 || 2 < seq.waves.length) && wv.recurr ≠ 0 &&
    freqlimitCheck (wv.recurr * wv.size / 2) sampfreq

/-! ### The calls -/

namespace GainState

/-- `__cvorg_apply_channel_inpol`. -/
def applyInpol (s : GainState) : GainState :=
  { s with channel :=
      if s.inpol then s.channel.ochan CONFIG CONFIG_INPOL
      else s.channel.achan CONFIG (~~~CONFIG_INPOL) }

/-- `__cvorg_apply_channel_outoff`. -/
def applyOutoff (s : GainState) : GainState :=
  { s with channel :=
      if s.outoff = .OFFSET_0V then s.channel.achan CONFIG (~~~CONFIG_OUT_OFFSET)
      else s.channel.ochan CONFIG CONFIG_OUT_OFFSET }

/-- `__cvorg_apply_channel_outgain`. -/
def applyOutgain (s : GainState) : GainState :=
  { s with channel := s.channel.uchan CONFIG (gainToHw s.outgain <<< 7) CONFIG_OUT_GAIN_MASK }

/-- `__cvorg_apply_channel_out_enable`. -/
def applyOutEnable (s : GainState) : GainState :=
  { s with channel :=
      if s.outEnabled then s.channel.ochan CONFIG CONFIG_OUT_ENABLE
      else s.channel.achan CONFIG (~~~CONFIG_OUT_ENABLE) }

/-- `cvorg_quiesce_channel`. -/
def quiesce (s : GainState) : GainState :=
  let c := s.channel.achan CONFIG (~~~CONFIG_SEQREADY)
  { s with channel := c.wchan CTL (1 <<< 6) }

/-- `play_wv`, without the waiting. -/
def playWv (s : GainState) : GainState :=
  let c := s.channel.uchan CONFIG (CONFIG_MODE_NORMAL ||| CONFIG_SEQREADY) CONFIG_MODE
  { s with channel := c.wchan CTL (1 <<< 8) }

end GainState

/-- `cvorg_chan_offset`, setting. -/
def chanOffset (s : GainState) (offset : U32) : Except ChanError Unit × GainState :=
  if offset = 1 ∧ s.outgain ≠ 14 then (.error .EINVAL, s)
  else
    (.ok (), GainState.applyOutoff
      { s with outoff := if offset = 1 then .OFFSET_2_5V else .OFFSET_0V })

/-- `cvorg_chan_output_gain`, setting; `busy` is the answer of `__cvorg_channel_busy`. -/
def chanOutputGain (s : GainState) (busy : Bool) (outgain : ℤ) :
    Except ChanError Unit × GainState :=
  let gain := gainApprox outgain
  if busy then (.error .EBUSY, s)
  else if invalidGainOffset gain s.outoff then (.error .EINVAL, s)
  else (.ok (), GainState.applyOutgain { s with outgain := gain })

/-- The answers of the module and of the kernel while a sequence is loaded: whether the channel is
ready, the two readings of the sampling frequency for each waveform, whether the waveforms can be
copied, the status while the SRAM is waited for, and whether the gains can be copied back. -/
structure LoadEnv where
  order : ByteOrder
  ready : Bool
  sampfreq : ℕ → U32 × U32
  copied : Bool
  status : ℕ → U32
  writtenBack : Bool

/-- `cvorg_invalid_seq`. -/
def invalidSeq (env : LoadEnv) (s : GainState) (seq : Seq) : Bool :=
  seq.waves.length = 0 ||
    seq.waves.zipIdx.any fun w =>
      checkGainOffsetWv s w.1 || invalidFreqlimit seq w.1 (env.sampfreq w.2).1 ||
        (50000000 < (env.sampfreq w.2).2 && w.1.size / 2 < 2)

/-- `cvorg_chan_loadseq`. -/
def chanLoadseq (env : LoadEnv) (s : GainState) (seq : Seq) : Except ChanError Unit × GainState :=
  let s := { s with channel := s.channel.wchan CTL (1 <<< 2) }
  if !env.ready then (.error .EBUSY, s)
  else if invalidSeq env s seq then (.error .EINVAL, s)
  else if !env.copied then (.error .failed, s)
  else
    let s := s.quiesce
    match storeseq env.order env.status s.channel seq with
    | .error _ => (.error .failed, s)
    | .ok (channel, _) =>
      let s := GainState.playWv { s with channel := channel, loaded := seq.waves.length }
      if env.writtenBack then (.ok (), s) else (.error .failed, s)

/-- `cvorg_reset` for one channel; `fpga` is what the resets of the module and of the channel do to
its registers. -/
def reset (fpga : Channel → Channel) (s : GainState) : GainState :=
  let s : GainState :=
    { s with
      channel := fpga s.channel
      inpol := false
      outoff := .OFFSET_0V
      outgain := 20
      outEnabled := false }
  s.applyInpol.applyOutoff.applyOutgain.applyOutEnable

/-! ### Runs -/

/-- The calls, each with what it is given. -/
inductive GainCall
  | offset (offset : U32)
  | outputGain (busy : Bool) (outgain : ℤ)
  | loadseq (env : LoadEnv) (seq : Seq)
  | reset (fpga : Channel → Channel)

/-- A call and the state after it. -/
def gainStep (s : GainState) : GainCall → Option GainState
  | .offset offset => some (chanOffset s offset).2
  | .outputGain busy outgain => some (chanOutputGain s busy outgain).2
  | .loadseq env seq => some (chanLoadseq env s seq).2
  | .reset fpga => some (reset fpga s)

/-- A channel from its installation on, which resets it; nothing is loaded then. -/
def gainSystem : System GainState GainCall :=
  System.ofFun (fun s => ∃ fpga s₀, s₀.loaded = 0 ∧ s = reset fpga s₀) gainStep

/-- The gain in the configuration register. -/
def Channel.configGain (c : Channel) : U32 := (c.regs CONFIG &&& CONFIG_OUT_GAIN_MASK) >>> 7

/-- The blocks of the loaded sequence have no other gain than 14 dB of their own. -/
def BlocksFit (s : GainState) : Prop :=
  ∀ i < s.loaded, ∀ g ∈ s.channel.blockGain i, g = gainToHw 14

instance (s : GainState) : Decidable (BlocksFit s) :=
  decidable_of_iff (∀ i < s.loaded, (s.channel.blockGain i).all (· == gainToHw 14) = true)
    (by simp [BlocksFit, Option.all_eq_true])

/-- **The rule**: at 2.5 V the static gain, in the driver and in the module, and all gains of the
loaded sequence are 14 dB. -/
def GainSafe (s : GainState) : Prop :=
  s.outoff = .OFFSET_2_5V →
    s.outgain = 14 ∧ s.channel.configGain = gainToHw 14 ∧ BlocksFit s

/-- The condition on a call: the offset of 2.5 V is not applied over a sequence with another gain.
-/
def MeetsOffset (s : GainState) : GainCall → Prop
  | .offset offset => offset = 1 → s.outgain = 14 → BlocksFit s
  | _ => True

instance (s : GainState) (a : GainCall) : Decidable (MeetsOffset s a) :=
  match a with
  | .offset offset => inferInstanceAs (Decidable (offset = 1 → s.outgain = 14 → BlocksFit s))
  | .outputGain _ _ => .isTrue trivial
  | .loadseq _ _ => .isTrue trivial
  | .reset _ => .isTrue trivial

/-! ### What the calls leave alone -/

/-- The blocks of a channel are behind the other registers. -/
def SameBlocks (c c' : Channel) : Prop := ∀ r, 0x60 ≤ r → c'.regs r = c.regs r

theorem SameBlocks.trans {c c' c'' : Channel} (h : SameBlocks c c') (h' : SameBlocks c' c'') :
    SameBlocks c c'' := fun r hr => (h' r hr).trans (h r hr)

theorem SameBlocks.blockGain {c c' : Channel} (h : SameBlocks c c') (i : ℕ) :
    c'.blockGain i = c.blockGain i := by
  have hword : c'.nextWord i = c.nextWord i := h _ (by unfold blockOffset; omega)
  rw [Channel.blockGain, Channel.blockGain, hword]

theorem sameBlocks_wchan (c : Channel) {offset : ℕ} (h : offset < 0x60) (value : U32) :
    SameBlocks c (c.wchan offset value) := by
  intro r hr
  rw [Channel.wchan_regs]
  exact update_of_ne (by omega) _ _

theorem sameBlocks_achan (c : Channel) {offset : ℕ} (h : offset < 0x60) (value : U32) :
    SameBlocks c (c.achan offset value) := sameBlocks_wchan c h _

theorem sameBlocks_ochan (c : Channel) {offset : ℕ} (h : offset < 0x60) (value : U32) :
    SameBlocks c (c.ochan offset value) := sameBlocks_wchan c h _

theorem sameBlocks_uchan (c : Channel) {offset : ℕ} (h : offset < 0x60) (value mask : U32) :
    SameBlocks c (c.uchan offset value mask) :=
  (sameBlocks_achan c h _).trans (sameBlocks_ochan _ h _)

/-! ### The gain in the configuration register -/

theorem configGain_wchan (c : Channel) {offset : ℕ} (h : offset ≠ CONFIG) (value : U32) :
    (c.wchan offset value).configGain = c.configGain := by
  rw [Channel.configGain, Channel.wchan_regs, update_of_ne h.symm]
  rfl

theorem configGain_achan (c : Channel) {m : U32} (h : m &&& CONFIG_OUT_GAIN_MASK = 0) :
    (c.achan CONFIG (~~~m)).configGain = c.configGain := by
  rw [Channel.configGain, Channel.achan, Channel.wchan_regs, update_self,
    and_not_and_of_disjoint h]
  rfl

theorem configGain_ochan (c : Channel) {m : U32} (h : m &&& CONFIG_OUT_GAIN_MASK = 0) :
    (c.ochan CONFIG m).configGain = c.configGain := by
  rw [Channel.configGain, Channel.ochan, Channel.wchan_regs, update_self, or_and_of_disjoint h]
  rfl

theorem configGain_applyOutgain (s : GainState) :
    s.applyOutgain.channel.configGain = gainToHw s.outgain := by
  have hfit : gainToHw s.outgain <<< 7 &&& CONFIG_OUT_GAIN_MASK = gainToHw s.outgain <<< 7 := by
    unfold gainToHw
    split <;> decide
  have hshift : (gainToHw s.outgain <<< 7) >>> 7 = gainToHw s.outgain := by
    unfold gainToHw
    split <;> decide
  rw [Channel.configGain, GainState.applyOutgain, Channel.uchan_regs, update_self,
    update_and_self hfit, hshift]

theorem configGain_applyOutoff (s : GainState) :
    s.applyOutoff.channel.configGain = s.channel.configGain := by
  unfold GainState.applyOutoff
  dsimp only
  split
  · exact configGain_achan _ (by decide)
  · exact configGain_ochan _ (by decide)

theorem configGain_applyOutEnable (s : GainState) :
    s.applyOutEnable.channel.configGain = s.channel.configGain := by
  unfold GainState.applyOutEnable
  dsimp only
  split
  · exact configGain_ochan _ (by decide)
  · exact configGain_achan _ (by decide)

theorem sameBlocks_applyOutoff (s : GainState) : SameBlocks s.channel s.applyOutoff.channel := by
  unfold GainState.applyOutoff
  dsimp only
  split
  · exact sameBlocks_achan _ (by decide) _
  · exact sameBlocks_ochan _ (by decide) _

/-! ### Storing a sequence -/

section Store

variable {o : ByteOrder} {n i : ℕ} {ramaddr : U32} {wvs : List Wave} {c : Channel}

theorem storeWaves_regs_of_lt {r : ℕ} (hr : r < 0x60) :
    (storeWaves o n i ramaddr wvs c).1.regs r = c.regs r := by
  induction wvs generalizing i ramaddr c with
  | nil => rfl
  | cons wv wvs ih =>
    have hout : ∀ b f, r ≠ blockOffset b + f := by
      intro b f
      unfold blockOffset
      omega
    rw [storeWaves]
    dsimp only
    rw [ih, storeWave_regs]
    dsimp only
    rw [update_of_ne (hout _ _), update_of_ne (hout _ _), update_of_ne (hout _ _),
      update_of_ne (hout _ _)]
    split
    · exact update_of_ne (hout _ _) _ _
    · rfl

theorem storeseq_gains {status : ℕ → U32} {seq : Seq} {r : Channel × Seq}
    (h : storeseq o status c seq = .ok r) :
    r.1.configGain = c.configGain ∧
      ∀ j wv, seq.waves[j]? = some wv → r.1.blockGain j = waveGain wv := by
  obtain ⟨-, hmax, hsize, rfl⟩ := storeseq_ok h
  have hmax' : (foldCycles seq).waves.length ≤ 26 := by
    rw [foldCycles_length]
    exact hmax
  have htotal : totalSize (foldCycles seq).waves ≤ 0x200000 := by
    rw [foldCycles_totalSize]
    exact hsize
  constructor
  · have hconfig : (storeseqBody o c seq).1.regs CONFIG = (c.wchan SEQNR (foldCycles seq).nr).regs
        CONFIG := storeWaves_regs_of_lt (by decide)
    rw [Channel.configGain, hconfig]
    exact configGain_wchan c (by decide) _
  · intro j wv hj
    exact (storeWaves_carries hmax' htotal (foldCycles_getElem? hj)).2.1

end Store

/-! ### The rule over all runs -/

/-- The invariant: the module has the static gain of the driver, and the rule holds. -/
structure GainInv (s : GainState) : Prop where
  config : s.channel.configGain = gainToHw s.outgain
  safe : GainSafe s

theorem BlocksFit.congr {s s' : GainState} (h : BlocksFit s)
    (hsame : SameBlocks s.channel s'.channel) (hloaded : s'.loaded = s.loaded) :
    BlocksFit s' := by
  intro i hi g hg
  rw [hsame.blockGain] at hg
  rw [hloaded] at hi
  exact h i hi g hg

namespace GainInv

variable {s : GainState}

theorem congr {s' : GainState} (h : GainInv s) (hoff : s'.outoff = s.outoff)
    (hgain : s'.outgain = s.outgain) (hloaded : s'.loaded = s.loaded)
    (hconfig : s'.channel.configGain = s.channel.configGain)
    (hsame : SameBlocks s.channel s'.channel) : GainInv s' where
  config := by rw [hconfig, hgain, h.config]
  safe hat := by
    rw [hoff] at hat
    obtain ⟨hstatic, hreg, hblocks⟩ := h.safe hat
    exact ⟨hgain.trans hstatic, hconfig.trans hreg, hblocks.congr hsame hloaded⟩

theorem chanOffset (h : GainInv s) {offset : U32} :
    (offset = 1 → s.outgain = 14 → BlocksFit s) → GainInv (chanOffset s offset).2 := by
  intro hblocks
  unfold Cvorg.chanOffset
  split
  · exact h
  · rename_i hnot
    refine ⟨(configGain_applyOutoff _).trans h.config, fun hat => ?_⟩
    have hoff : offset = 1 := by
      by_contra hne
      have hzero : (if offset = 1 then OutOffset.OFFSET_2_5V else .OFFSET_0V) = .OFFSET_2_5V := hat
      rw [if_neg hne] at hzero
      cases hzero
    have hstatic : s.outgain = 14 := by
      by_contra hne
      exact hnot ⟨hoff, hne⟩
    refine ⟨hstatic, ?_, (hblocks hoff hstatic).congr (sameBlocks_applyOutoff _) rfl⟩
    rw [← hstatic]
    exact (configGain_applyOutoff _).trans h.config

theorem chanOutputGain (h : GainInv s) (busy : Bool) (outgain : ℤ) :
    GainInv (chanOutputGain s busy outgain).2 := by
  unfold Cvorg.chanOutputGain
  dsimp only
  split
  · exact h
  · split
    · exact h
    · rename_i hvalid
      refine ⟨configGain_applyOutgain _, fun hat => ?_⟩
      have hat' : s.outoff = .OFFSET_2_5V := hat
      have hgain : gainApprox outgain = 14 := by
        simpa [invalidGainOffset, hat'] using hvalid
      refine ⟨hgain, ?_, (h.safe hat).2.2.congr (sameBlocks_uchan _ (by decide) _ _) rfl⟩
      rw [← hgain]
      exact configGain_applyOutgain _

theorem wchanCtl (h : GainInv s) (value : U32) :
    GainInv { s with channel := s.channel.wchan CTL value } :=
  h.congr rfl rfl rfl (configGain_wchan _ (by decide) _) (sameBlocks_wchan _ (by decide) _)

theorem quiesce (h : GainInv s) : GainInv s.quiesce := by
  refine h.congr rfl rfl rfl ?_ ((sameBlocks_achan _ (by decide) _).trans
    (sameBlocks_wchan _ (by decide) _))
  exact (configGain_wchan _ (by decide) _).trans (configGain_achan _ (by decide))

theorem playWv (h : GainInv s) : GainInv s.playWv := by
  refine h.congr rfl rfl rfl ?_ ((sameBlocks_uchan _ (by decide) _ _).trans
    (sameBlocks_wchan _ (by decide) _))
  refine (configGain_wchan _ (by decide) _).trans ?_
  rw [Channel.uchan]
  exact (configGain_ochan _ (by decide)).trans (configGain_achan _ (by decide))

theorem waveGain_of_valid {env : LoadEnv} {seq : Seq} (hvalid : invalidSeq env s seq = false)
    (hat : s.outoff = .OFFSET_2_5V) {j : ℕ} {wv : Wave} (hj : seq.waves[j]? = some wv) :
    ∀ g ∈ waveGain wv, g = gainToHw 14 := by
  intro g hg
  unfold invalidSeq at hvalid
  rw [Bool.or_eq_false_iff, List.any_eq_false] at hvalid
  have hwave := hvalid.2 (wv, j) (List.mem_zipIdx_iff_getElem?.mpr hj)
  rw [waveGain] at hg
  split at hg
  · cases hg
  · rename_i hdynamic
    have hgain : wv.gainVal = 14 := by
      rw [Bool.or_eq_true, Bool.or_eq_true, not_or, not_or] at hwave
      have hcheck : wv.dynamicGain ≠ 0 → wv.gainVal = 14 := by
        simpa [checkGainOffsetWv, invalidGainOffset, hat] using hwave.1.1
      exact hcheck hdynamic
    rw [hgain] at hg
    obtain rfl := Option.some.inj hg
    decide

theorem chanLoadseq (h : GainInv s) (env : LoadEnv) (seq : Seq) :
    GainInv (chanLoadseq env s seq).2 := by
  have hclear := h.wchanCtl (1 <<< 2)
  unfold Cvorg.chanLoadseq
  dsimp only
  split
  · exact hclear
  · split
    · exact hclear
    · rename_i hvalid
      split
      · exact hclear
      · have hquiet := hclear.quiesce
        cases hstore : storeseq env.order env.status
            ({ s with channel := s.channel.wchan CTL (1 <<< 2) } : GainState).quiesce.channel seq with
        | error e => exact hquiet
        | ok r =>
          obtain ⟨hconfig, hgains⟩ := storeseq_gains hstore
          dsimp only
          -- the new blocks were checked against the offset
          have hstored : GainInv { ({ s with channel := s.channel.wchan CTL (1 <<< 2) } :
              GainState).quiesce with channel := r.1, loaded := seq.waves.length } := by
            refine ⟨hconfig.trans hquiet.config, fun hat => ?_⟩
            obtain ⟨hstatic, hreg, -⟩ := hquiet.safe hat
            refine ⟨hstatic, hconfig.trans hreg, fun j hj g hg => ?_⟩
            rw [hgains j _ (List.getElem?_eq_getElem hj)] at hg
            exact waveGain_of_valid ((Bool.not_eq_true _).mp hvalid) hat
              (List.getElem?_eq_getElem hj) g hg
          split
          · exact hstored.playWv
          · exact hstored.playWv

theorem reset (fpga : Channel → Channel) (s : GainState) : GainInv (reset fpga s) := by
  refine ⟨?_, fun hat => ?_⟩
  · refine (configGain_applyOutEnable _).trans ?_
    exact configGain_applyOutgain _
  · cases hat

theorem step {s' : GainState} (h : GainInv s) {a : GainCall} (hmeets : MeetsOffset s a)
    (hstep : gainStep s a = some s') : GainInv s' := by
  cases a with
  | offset offset =>
    cases hstep
    exact h.chanOffset hmeets
  | outputGain busy outgain =>
    cases hstep
    exact h.chanOutputGain busy outgain
  | loadseq env seq =>
    cases hstep
    exact h.chanLoadseq env seq
  | reset fpga =>
    cases hstep
    exact GainInv.reset fpga s

theorem of_reach (h : gainSystem.ReachUnder MeetsOffset s) : GainInv s := by
  refine h.invariant (fun s hinit => ?_) fun s a s' hinv hmeets hstep => hinv.step hmeets hstep
  obtain ⟨fpga, s₀, -, rfl⟩ := hinit
  exact GainInv.reset fpga s₀

end GainInv

theorem meetsOffset_of_safe {s s' : GainState} {a : GainCall} (hstep : gainStep s a = some s')
    (hsafe : GainSafe s') : MeetsOffset s a := by
  cases a with
  | offset offset =>
    intro hoff hstatic
    have hs' : s' = GainState.applyOutoff { s with outoff := .OFFSET_2_5V } := by
      have hrun : (chanOffset s offset).2 = s' := Option.some.inj hstep
      rw [← hrun, chanOffset, if_neg fun hbad => hbad.2 hstatic, if_pos hoff]
    obtain ⟨-, -, hblocks⟩ := hsafe (by rw [hs']; rfl)
    intro i hi g hg
    refine hblocks i (by rw [hs']; exact hi) g ?_
    rw [hs', (sameBlocks_applyOutoff _).blockGain]
    exact hg
  | _ => trivial

/-- **Gain and offset.**  In every run in which 2.5 V is never applied over a loaded sequence with
another gain, every state meets the rule; and the first call that does it breaks the rule. -/
theorem gainSafe_of_reach {s : GainState} (h : gainSystem.ReachUnder MeetsOffset s) :
    GainSafe s ∧ ∀ a s', gainStep s a = some s' → (GainSafe s' ↔ MeetsOffset s a) :=
  ⟨(GainInv.of_reach h).safe, fun _ _ hstep =>
    ⟨fun hsafe => meetsOffset_of_safe hstep hsafe,
      fun hmeets => ((GainInv.of_reach h).step hmeets hstep).safe⟩⟩

/-- A module that keeps its registers when it is reset. -/
def installed : GainState :=
  reset id ⟨blankChannel, false, .OFFSET_0V, 20, false, 0⟩

/-- A ready module at 100 MHz. -/
def readyEnv : LoadEnv := ⟨.little, true, fun _ => (100000000, 100000000), true, fun _ => 0, true⟩

/-- Four points with a gain of 20 dB, or of 14 dB. -/
def loudSeq : Seq := ⟨1, [⟨1, 8, 1, 20, [4, 8, 12, 16], rfl⟩]⟩

def fittingSeq : Seq := ⟨1, [⟨1, 8, 1, 14, [4, 8, 12, 16], rfl⟩]⟩

def fittingCalls : List GainCall :=
  [.outputGain false 13, .loadseq readyEnv fittingSeq, .offset 1]

def loudCalls : List GainCall := [.outputGain false 14, .loadseq readyEnv loudSeq, .offset 1]

theorem gainSystem_installed {ok : GainState → GainCall → Prop} :
    gainSystem.ReachUnder ok installed :=
  .init ⟨id, ⟨blankChannel, false, .OFFSET_0V, 20, false, 0⟩, rfl, rfl⟩

/-- A gain of 13 dB is taken for 14 dB, and the offset is applied over a block with 14 dB. -/
theorem gainSafe_fitting :
    let s := System.runUnder gainStep MeetsOffset installed fittingCalls
    s.outoff = .OFFSET_2_5V ∧ s.loaded = 1 ∧ s.channel.blockGain 0 = some 6 ∧ GainSafe s :=
  ⟨by decide +kernel, by decide +kernel, by decide +kernel,
    (gainSafe_of_reach (gainSystem_installed.runUnder fittingCalls)).1⟩

/-- The offset is applied over a block with 20 dB. -/
theorem dynamicGain_not_safe : ∃ s, gainSystem.Reach s ∧ ¬ GainSafe s := by
  refine ⟨System.runUnder gainStep (fun _ _ => True) installed loudCalls,
    gainSystem_installed.runUnder loudCalls, fun h => ?_⟩
  obtain ⟨-, -, hblocks⟩ := h (by decide +kernel)
  exact absurd (hblocks 0 (by decide +kernel) 7 (by decide +kernel)) (by decide)

end KernelModules.Cvorg
