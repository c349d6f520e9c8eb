import KernelModules.Vd80.Configuration
import Mathlib.Tactic

/-!
# Reading the samples of a VD80

A shot of the module is a run of samples for each channel, with the trigger somewhere in it.
`READ_SAMPLE` is asked for a number of samples and for the number of them before the trigger, fits
both to what there is, and has the module read blocks of 32 samples from memory, of which a transfer
takes as many as were asked for.

* `readSample` is the call, and `Readout.positions` are the places in the shot of the samples that
  it transfers;
* `readSample_spec` is what it computes, in numbers;
* `readsShot_iff` is when the samples are a stretch of the shot, with the trigger where the call
  says: more than 32 post samples, as the register for them counts blocks less one and zero is taken
  for none; a request that does not reach over the 32-bit limit; and not more samples than the
  19 bits of the length register.

The transfer succeeds.  The debug output and the wait for the module to be idle are left out.
-/

namespace KernelModules.Vd80

abbrev U32 := BitVec 32

def actpostsamplesMask : U32 := 0x1ffffff
def shotlenMask : U32 := 0x1ffffff
def readstartMask : U32 := 0x7ffff
def readlenMask : U32 := 0x7ffff
def commandRead : U32 := 0x4
def operantMask : U32 := 0xf <<< (4 : ℕ)

/-- The status registers of a shot. -/
structure ShotStatus where
  tsr : U32
  ssr : U32
  ptsr : U32

/-- `struct vd80_sample_buf_s` -/
structure SampleBuf where
  channel : U32
  bufSizeSamples : U32
  trigPosition : U32
  samplesRead : U32
  preTrigStat : U32

/-- What `READ_SAMPLE` returns, what it leaves in the registers, and the bytes it transfers. -/
structure Readout where
  sbuf : SampleBuf
  mcr1 : U32
  mcr2 : U32
  gcr1 : U32
  dmaLength : U32

/-- `VD80_READ_SAMPLE` -/
def readSample (regs : Vd80Regs) (st : ShotStatus) (sbuf : SampleBuf) : Option Readout :=
  if regs .tcr2 = 0 then none
  else
    let actpostrig := st.tsr &&& actpostsamplesMask
    let shotlength := st.ssr &&& shotlenMask
    let actpretrig := shotlength - actpostrig
    let trigPosition := if sbuf.trigPosition > actpretrig then actpretrig else sbuf.trigPosition
    let samplestrt := shotlength - (actpostrig + trigPosition)
    let samplesRead :=
      if samplestrt + sbuf.bufSizeSamples > shotlength then shotlength - samplestrt
      else sbuf.bufSizeSamples
    let mcr1 := samplestrt / 32 &&& readstartMask
    let tval := if samplesRead < 32 then 0 else (samplesRead - 1) / 32
    some {
      sbuf := { sbuf with
        trigPosition := actpretrig - mcr1 * 32
        samplesRead := samplesRead
        preTrigStat := st.ptsr }
      mcr1 := mcr1
      mcr2 := tval &&& readlenMask
      gcr1 := commandRead ||| ((sbuf.channel - 1) <<< (4 : ℕ) &&& operantMask)
      dmaLength := samplesRead * 2 }

/-- The module reads `mcr2 + 1` blocks from block `mcr1` on, and the transfer takes two bytes for
each sample. -/
def Readout.positions (r : Readout) : List ℕ :=
  ((List.range ((r.mcr2.toNat + 1) * 32)).map (r.mcr1.toNat * 32 + ·)).take (r.dmaLength.toNat / 2)

/-- The channel that the module reads. -/
def Readout.channel (r : Readout) : ℕ := ((r.gcr1 &&& operantMask) >>> (4 : ℕ)).toNat + 1

/-! ### A shot -/

namespace ShotStatus

def actPost (st : ShotStatus) : ℕ := (st.tsr &&& actpostsamplesMask).toNat

def shotLength (st : ShotStatus) : ℕ := (st.ssr &&& shotlenMask).toNat

/-- The number of samples before the trigger, which is also the place of the first one after it. -/
def actPre (st : ShotStatus) : ℕ := st.shotLength - st.actPost

/-- The place of the first sample that is asked for. -/
def windowStart (st : ShotStatus) (trigPosition : ℕ) : ℕ :=
  st.actPre - min trigPosition st.actPre

theorem shotLength_lt (st : ShotStatus) : st.shotLength < 2 ^ 25 := by
  rw [shotLength, BitVec.toNat_and]
  exact lt_of_le_of_lt Nat.and_le_right (by decide)

end ShotStatus

/-- The samples of a shot that a request is for. -/
structure ReadCorrect (st : ShotStatus) (sbuf : SampleBuf) (r : Readout) : Prop where
  channel : r.channel = sbuf.channel.toNat
  few : r.sbuf.samplesRead.toNat ≤ sbuf.bufSizeSamples.toNat
  window : ∃ start, 32 ∣ start ∧
    r.positions = (List.range r.sbuf.samplesRead.toNat).map (start + ·) ∧
    start + r.sbuf.samplesRead.toNat ≤ st.shotLength
  trigger : r.sbuf.trigPosition.toNat < r.sbuf.samplesRead.toNat →
    r.positions[r.sbuf.trigPosition.toNat]? = some st.actPre

/-- A request is not refused, and gets the samples that it is for. -/
def ReadsShot (regs : Vd80Regs) (st : ShotStatus) (sbuf : SampleBuf) : Prop :=
  ∃ r, readSample regs st sbuf = some r ∧ ReadCorrect st sbuf r

/-! ### What the call computes -/

theorem toNat_and_mask19 (x : U32) : (x &&& 0x7ffff).toNat = x.toNat % 2 ^ 19 := by
  rw [BitVec.toNat_and]
  exact Nat.and_two_pow_sub_one_eq_mod x.toNat 19

theorem channel_eq {ch : U32} (hlow : 1 ≤ ch.toNat) (hhigh : ch.toNat ≤ 16) :
    (((commandRead ||| ((ch - 1) <<< (4 : ℕ) &&& operantMask)) &&& operantMask) >>>
      (4 : ℕ)).toNat + 1 = ch.toNat := by
  obtain ⟨n, hn⟩ : ∃ n, ch.toNat = n := ⟨_, rfl⟩
  obtain rfl : ch = BitVec.ofNat 32 n := by rw [← hn, BitVec.ofNat_toNat, BitVec.setWidth_eq]
  rw [hn] at hlow hhigh
  interval_cases n <;> decide

theorem toNat_sub_of_toNat_le {x y : U32} (h : y.toNat ≤ x.toNat) :
    (x - y).toNat = x.toNat - y.toNat := BitVec.toNat_sub_of_le (BitVec.le_def.2 h)

theorem toNat_div32 (x : U32) : (x / 32).toNat = x.toNat / 32 := BitVec.toNat_udiv

theorem toNat_blocks (x : U32) :
    ((if x < 32 then 0 else (x - 1) / 32) &&& readlenMask).toNat =
      (x.toNat - 1) / 32 % 2 ^ 19 := by
  rw [readlenMask, toNat_and_mask19]
  have h32 : (32 : U32).toNat = 32 := rfl
  have h1 : (1 : U32).toNat = 1 := rfl
  split
  next hlt =>
    rw [BitVec.lt_def, h32] at hlt
    rw [Nat.div_eq_of_lt (by omega : x.toNat - 1 < 32)]
    rfl
  next hge =>
    rw [BitVec.lt_def, h32] at hge
    rw [toNat_div32, toNat_sub_of_toNat_le (by omega), h1]

theorem readSample_spec {regs : Vd80Regs} {st : ShotStatus} (sbuf : SampleBuf)
    (hset : regs .tcr2 ≠ 0) (hpost : st.actPost ≤ st.shotLength) :
    ∃ r, readSample regs st sbuf = some r ∧
      r.sbuf.samplesRead.toNat =
        (if (st.windowStart sbuf.trigPosition.toNat + sbuf.bufSizeSamples.toNat) % 2 ^ 32 >
            st.shotLength then st.shotLength - st.windowStart sbuf.trigPosition.toNat
          else sbuf.bufSizeSamples.toNat) ∧
      r.mcr1.toNat = st.windowStart sbuf.trigPosition.toNat / 32 % 2 ^ 19 ∧
      r.mcr2.toNat = (r.sbuf.samplesRead.toNat - 1) / 32 % 2 ^ 19 ∧
      r.sbuf.trigPosition.toNat = st.actPre - r.mcr1.toNat * 32 ∧
      r.dmaLength.toNat = r.sbuf.samplesRead.toNat * 2 % 2 ^ 32 ∧
      r.gcr1 = commandRead ||| ((sbuf.channel - 1) <<< (4 : ℕ) &&& operantMask) := by
  have hshot := st.shotLength_lt
  rw [readSample, if_neg hset]
  refine ⟨_, rfl, ?_⟩
  dsimp only
  unfold ShotStatus.windowStart ShotStatus.actPre ShotStatus.actPost ShotStatus.shotLength at *
  generalize st.tsr &&& actpostsamplesMask = post at *
  generalize st.ssr &&& shotlenMask = shot at *
  have hpre : (shot - post).toNat = shot.toNat - post.toNat := toNat_sub_of_toNat_le hpost
  generalize shot - post = pre at *
  have htrig : (if sbuf.trigPosition > pre then pre else sbuf.trigPosition).toNat =
      min sbuf.trigPosition.toNat pre.toNat := by
    split
    next hgt =>
      have hgt := BitVec.lt_def.1 hgt
      omega
    next hle =>
      have hle := BitVec.not_lt.1 hle
      rw [BitVec.le_def] at hle
      omega
  generalize (if sbuf.trigPosition > pre then pre else sbuf.trigPosition) = trig at *
  have hsum : (post + trig).toNat = post.toNat + trig.toNat := by
    rw [BitVec.toNat_add]
    exact Nat.mod_eq_of_lt (by omega)
  have hstart : (shot - (post + trig)).toNat = pre.toNat - min sbuf.trigPosition.toNat pre.toNat := by
    rw [toNat_sub_of_toNat_le (by omega)]
    omega
  generalize shot - (post + trig) = start at *
  rw [← hpre, ← hstart]
  have hread : (if start + sbuf.bufSizeSamples > shot then shot - start
      else sbuf.bufSizeSamples).toNat =
      if (start.toNat + sbuf.bufSizeSamples.toNat) % 2 ^ 32 > shot.toNat then
        shot.toNat - start.toNat
      else sbuf.bufSizeSamples.toNat := by
    have hgt : start + sbuf.bufSizeSamples > shot ↔
        (start.toNat + sbuf.bufSizeSamples.toNat) % 2 ^ 32 > shot.toNat := by
      rw [gt_iff_lt, BitVec.lt_def, BitVec.toNat_add]
    by_cases h : start + sbuf.bufSizeSamples > shot
    · rw [if_pos h, if_pos (hgt.1 h), toNat_sub_of_toNat_le (by omega)]
    · rw [if_neg h, if_neg (fun h' => h (hgt.2 h'))]
  have hmcr1 : (start / 32 &&& readstartMask).toNat = start.toNat / 32 % 2 ^ 19 := by
    rw [readstartMask, toNat_and_mask19, toNat_div32]
  refine ⟨hread, hmcr1, toNat_blocks _, ?_, BitVec.toNat_mul _ _, rfl⟩
  have hback : (( start / 32 &&& readstartMask) * 32).toNat =
      (start / 32 &&& readstartMask).toNat * 32 := by
    rw [BitVec.toNat_mul, show (32 : U32).toNat = 32 from rfl]
    exact Nat.mod_eq_of_lt (by omega)
  rw [toNat_sub_of_toNat_le (by omega), hback]

theorem positions_eq (r : Readout) :
    r.positions = (List.range (min (r.dmaLength.toNat / 2) ((r.mcr2.toNat + 1) * 32))).map
      (r.mcr1.toNat * 32 + ·) := by
  rw [Readout.positions, ← List.map_take, List.take_range]

theorem tcr2_setPostsamples {regs : Vd80Regs} {n : U32} (hn : n ≠ 0) :
    (regs.setPostsamples n) .tcr2 ≠ 0 ↔ 32 < n.toNat := by
  have hpos : n.toNat ≠ 0 := fun h => hn (BitVec.eq_of_toNat_eq h)
  have htcr2 : (regs.setPostsamples n) .tcr2 = (n - 1) / 32 := by
    show (if n ≠ 0 then (n - 1) / 32 else 0) = _
    rw [if_pos hn]
  have hnum : ((n - 1) / 32).toNat = (n.toNat - 1) / 32 := by
    rw [toNat_div32, toNat_sub_of_toNat_le (y := 1) (by show 1 ≤ _; omega)]
    rfl
  rw [htcr2]
  constructor
  · intro hne
    by_contra hle
    refine hne (BitVec.eq_of_toNat_eq ?_)
    rw [hnum]
    exact Nat.div_eq_of_lt (by omega)
  · intro hlt hz
    have hzero : ((n - 1) / 32).toNat = 0 := by rw [hz]; rfl
    omega

/-! ### Every request -/

/-- For every number of post samples, every shot and every request. -/
theorem readsShot_iff (regs : Vd80Regs) (n : U32) (st : ShotStatus) (sbuf : SampleBuf)
    (hn : n ≠ 0) (hpost : st.actPost ≤ st.shotLength)
    (hchannel : 1 ≤ sbuf.channel.toNat ∧ sbuf.channel.toNat ≤ 16) :
    ReadsShot (regs.setPostsamples n) st sbuf ↔
      32 < n.toNat ∧
        st.windowStart sbuf.trigPosition.toNat + sbuf.bufSizeSamples.toNat < 2 ^ 32 ∧
        min sbuf.bufSizeSamples.toNat
          (st.shotLength - st.windowStart sbuf.trigPosition.toNat) ≤ 2 ^ 24 := by
  have hshot := st.shotLength_lt
  have hbuf := sbuf.bufSizeSamples.isLt
  have hstart : st.windowStart sbuf.trigPosition.toNat ≤ st.actPre := Nat.sub_le _ _
  have hpre : st.actPre ≤ st.shotLength := Nat.sub_le _ _
  by_cases hset : (regs.setPostsamples n) .tcr2 = 0
  · have hfew : ¬ 32 < n.toNat := fun h => (tcr2_setPostsamples hn).2 h hset
    refine iff_of_false ?_ fun h => hfew h.1
    rintro ⟨r, hr, -⟩
    rw [readSample, if_pos hset] at hr
    cases hr
  have hmany := (tcr2_setPostsamples hn).1 hset
  obtain ⟨r, hr, hread, hmcr1, hmcr2, htrig, hdma, hgcr1⟩ := readSample_spec sbuf hset hpost
  generalize st.windowStart sbuf.trigPosition.toNat = start at *
  constructor
  · rintro ⟨r', hr', hcorrect⟩
    rw [hr] at hr'
    cases hr'
    obtain ⟨first, -, hpositions, hend⟩ := hcorrect.window
    have hlength := congrArg List.length hpositions
    rw [positions_eq, List.length_map, List.length_map, List.length_range, List.length_range]
      at hlength
    have hfits : start + sbuf.bufSizeSamples.toNat < 2 ^ 32 := by
      by_contra hover
      -- the sum is small again, and nothing is cut off
      rw [if_neg (by omega)] at hread
      omega
    refine ⟨hmany, hfits, ?_⟩
    have hmin : r.sbuf.samplesRead.toNat =
        min sbuf.bufSizeSamples.toNat (st.shotLength - start) := by
      rw [hread]
      split <;> omega
    rw [← hmin]
    by_contra hlong
    -- the number of blocks loses its highest bit
    omega
  · rintro ⟨-, hfits, hlong⟩
    have hmin : r.sbuf.samplesRead.toNat =
        min sbuf.bufSizeSamples.toNat (st.shotLength - start) := by
      rw [hread]
      split <;> omega
    rw [← hmin] at hlong
    have hpositions : r.positions =
        (List.range r.sbuf.samplesRead.toNat).map (r.mcr1.toNat * 32 + ·) := by
      have hmin : min (r.dmaLength.toNat / 2) ((r.mcr2.toNat + 1) * 32) =
          r.sbuf.samplesRead.toNat := by omega
      rw [positions_eq, hmin]
    refine ⟨r, hr, ?_, by omega, ⟨r.mcr1.toNat * 32, Nat.dvd_mul_left _ _, hpositions, by omega⟩, ?_⟩
    · rw [Readout.channel, hgcr1]
      exact channel_eq hchannel.1 hchannel.2
    · intro hin
      rw [hpositions, List.getElem?_map, List.getElem?_range hin, Option.map_some]
      congr 1
      omega

/-- One hundred samples around the trigger in the middle of a shot of a thousand. -/
theorem readsShot_middle :
    (64 : U32) ≠ 0 ∧
      ReadsShot (Vd80Regs.setPostsamples (fun _ => 0) 64) ⟨500, 1000, 0⟩ ⟨1, 100, 50, 0, 0⟩ :=
  ⟨by decide, (readsShot_iff (fun _ => 0) 64 ⟨500, 1000, 0⟩ ⟨1, 100, 50, 0, 0⟩ (by decide)
    (by decide) (by decide)).2 (by decide)⟩

/-- One block of post samples is taken for none. -/
theorem one_block_refused :
    ¬ ∀ (regs : Vd80Regs) (n : U32) (st : ShotStatus) (sbuf : SampleBuf), n ≠ 0 →
      st.actPost ≤ st.shotLength → 1 ≤ sbuf.channel.toNat ∧ sbuf.channel.toNat ≤ 16 →
      ReadsShot (regs.setPostsamples n) st sbuf := by
  intro h
  obtain ⟨r, hr, -⟩ := h (fun _ => 0) 32 ⟨500, 1000, 0⟩ ⟨1, 100, 50, 0, 0⟩ (by decide) (by decide)
    (by decide)
  cases hr

end KernelModules.Vd80
