import Mathlib
import KernelModules.Lib.Packing

/-!
# Function tables of a CVORB channel

A function of a CVORB channel is a table of points in time, and the card plays it as vectors: a
number of steps of some multiple of 5 µs, with the amplitude at their end.  The library turns a
table into vectors, the driver moves these through an auto-incrementing port into the SRAM of a
submodule and back, and the library turns what it gets back into a table.

* `computeHwVector` chooses the step size, `cvorbChSetFcn` and `cvorbChGetFcn` are the two calls,
  with the driver's part in `cvorbSetFcn` and `cvorbGetFcn`;
* `GridStep` is what becomes of a step: the nearest multiple of 5 µs, and then down to a multiple
  of the least step size whose number of steps fits in 16 bits;
* `getFcn_setFcn` is the round trip.  It needs `StepFits` of every step: the product with which
  the library computes a time is a C `int`, which wraps after 35 minutes, and a step that rounds
  to nothing right after a point at time zero comes back as an internal stop.

Times are exact rationals where the library has doubles.  The host is little-endian, so the first
half word of a word is its low one.  The word that the driver reads beyond the end of its buffer is
read from the card and dropped.  The mutex, the allocations and the log are left out.
-/

namespace KernelModules.Cvorb

open Function KernelModules.Lib

abbrev U16 := BitVec 16

abbrev U32 := BitVec 32

/-! ### The SRAM of a submodule -/

/-- The SRAM pointer, a byte address that moves on with each word, and the SRAM by words. -/
structure Submodule where
  sramAddr : ℕ
  sram : ℕ → U32

abbrev Board := ℕ → Submodule

namespace Submodule

/-- A write to `CVORB_SUBMODULE_SRAM_DATA`. -/
def writeData (m : Submodule) (w : U32) : Submodule :=
  { sramAddr := m.sramAddr + 4, sram := update m.sram (m.sramAddr / 4) w }

def writeDatas (m : Submodule) (ws : List U32) : Submodule := ws.foldl writeData m

/-- A read of `CVORB_SUBMODULE_SRAM_DATA`. -/
def readData (m : Submodule) : U32 × Submodule :=
  (m.sram (m.sramAddr / 4), { m with sramAddr := m.sramAddr + 4 })

def readDatas : ℕ → Submodule → List U32 × Submodule
  | 0, m => ([], m)
  | n + 1, m =>
    let (w, m) := m.readData
    let (ws, m) := readDatas n m
    (w :: ws, m)

theorem writeDatas_sram (m : Submodule) (ws : List U32) :
    (m.writeDatas ws).sram = Packing.burst m.sram (m.sramAddr / 4) ws := by
  induction ws generalizing m with
  | nil => rfl
  | cons w ws ih =>
    have hnext : (m.sramAddr + 4) / 4 = m.sramAddr / 4 + 1 := by omega
    show ((m.writeData w).writeDatas ws).sram = _
    rw [ih, writeData, hnext, Packing.burst]

theorem readDatas_fst (m : Submodule) (n : ℕ) :
    (readDatas n m).1 = Packing.readOff m.sram (m.sramAddr / 4) n := by
  induction n generalizing m with
  | zero => rfl
  | succ n ih =>
    have hnext : (m.sramAddr + 4) / 4 = m.sramAddr / 4 + 1 := by omega
    show m.readData.1 :: (readDatas n m.readData.2).1 = _
    rw [ih, readData, Packing.readOff, hnext]

theorem readDatas_sram (m : Submodule) (n : ℕ) : (readDatas n m).2.sram = m.sram := by
  induction n generalizing m with
  | zero => rfl
  | succ n ih => exact ih _

end Submodule

/-! ### The driver -/

inductive Errno where
  | EAGAIN
  | EBADSLT
  | EBUSY
deriving DecidableEq

/-- The byte address of a function. -/
def ramaddr (channr fcnnr : ℕ) : ℕ := channr <<< (18 : ℕ) ||| fcnnr <<< (12 : ℕ)

def CVORB_MAX_VECTOR : ℕ := 680

/-- The words of a function of `nVect` vectors: three half words of header, three for each vector,
one more where that is odd, and six of footer. -/
def fcnSize32 (nVect : ℕ) : ℕ :=
  let sz := 3 + nVect * 3
  ((if sz % 2 = 1 then sz + 1 else sz) + 6) / 2

/-- `__cvorb_set_fcn`; `busy` is whether the card accesses the SRAM itself. -/
def cvorbSetFcn (busy : Bool) (submodulenr channr fcnnr : ℕ) (hwFcn : List U32) (b : Board) :
    Except Errno Unit × Board :=
  if busy then (.error .EAGAIN, b)
  else
    let m := { b submodulenr with sramAddr := ramaddr channr fcnnr }
    (.ok (), update b submodulenr (m.writeDatas hwFcn))

/-- `__cvorb_get_fcn`: the number of vectors, and the words of the function. -/
def cvorbGetFcn (busy : Bool) (submodulenr channr fcnnr : ℕ) (b : Board) :
    Except Errno (ℕ × List U32) × Board :=
  if busy then (.error .EAGAIN, b)
  else
    let m := { b submodulenr with sramAddr := ramaddr channr fcnnr }
    let hwNVector := m.readData
    let n := hwNVector.1.toNat
    if n = 0 ∨ CVORB_MAX_VECTOR ≤ n then (.error .EBADSLT, update b submodulenr hwNVector.2)
    else
      let rest := Submodule.readDatas (fcnSize32 n) hwNVector.2
      -- the last word does not fit the buffer
      (.ok (n, hwNVector.1 :: rest.1.take (fcnSize32 n - 1)), update b submodulenr rest.2)

/-! ### From points to vectors -/

/-- `struct cvorb_vector_fcn`: a time in milliseconds and an amplitude. -/
@[ext]
structure VectorFcn where
  t : ℚ
  v : U16
deriving DecidableEq

inductive LibError where
  | EINVAL
  | EINVTR
  | EVTRTOOLONG
  | ENOBUFS
  | libc (e : Errno)
deriving DecidableEq

def CVORB_MIN_STEP_SIZE : ℕ := 5

def CVORB_MAX_STEPS : ℕ := 65535

def CVORB_MAX_STEP_SIZE : ℕ := 32767

def CVORB_MAX_TIME_MIN_STEP : ℕ := CVORB_MAX_STEPS * CVORB_MIN_STEP_SIZE

/-- The longest time between two points, in microseconds. -/
def maxVectorTime : ℕ := CVORB_MAX_STEPS * CVORB_MAX_STEP_SIZE * CVORB_MIN_STEP_SIZE

/-- The step size and the number of steps that lead from one point to the next. -/
def computeHwVector (startPt endPt : VectorFcn) : Except LibError (U16 × U16) :=
  if endPt.t = 0 then
    -- an internal stop
    .ok (0xffff#16, 0#16)
  else if endPt.t ≤ startPt.t then .error .EINVTR
  else
    let lldt := (endPt.t - startPt.t) * 1000
    if lldt > maxVectorTime then .error .EVTRTOOLONG
    else
      let lldtInt := CVORB_MIN_STEP_SIZE * ⌊lldt / CVORB_MIN_STEP_SIZE + 1 / 2⌋₊
      -- `lldt_int - 1` is a `uint64_t`
      let ss := BitVec.ofNat 16
        ((lldtInt + (2 ^ 64 - 1)) % 2 ^ 64 / CVORB_MAX_TIME_MIN_STEP + 1)
      let lldtInt := lldtInt - lldtInt % (ss.toNat * CVORB_MIN_STEP_SIZE)
      .ok (ss, BitVec.ofNat 16 (lldtInt / (ss.toNat * CVORB_MIN_STEP_SIZE)))

/-- `get_hw_fcn_size32`, where no vectors stand for as many as there can be. -/
def getHwFcnSize32 (nVector : ℕ) : ℕ :=
  fcnSize32 (if nVector = 0 then CVORB_MAX_VECTOR else nVector)

/-- The half words of the vectors that lead from `startPt` through the points `pts`. -/
def hwVectors : VectorFcn → List VectorFcn → Except LibError (List U16)
  | _, [] => .ok []
  | startPt, endPt :: pts =>
    match computeHwVector startPt endPt with
    | .error e => .error e
    | .ok (ss, nos) =>
      match hwVectors endPt pts with
      | .error e => .error e
      | .ok rest => .ok (nos :: ss :: endPt.v :: rest)

/-- Two half words in a word of a little-endian host. -/
def halves (x y : U16) : U32 := x.setWidth 32 ||| y.setWidth 32 <<< (16 : ℕ)

def halfFirst (w : U32) : U16 := w.setWidth 16

def halfSecond (w : U32) : U16 := (w >>> (16 : ℕ)).setWidth 16

/-- The words of `fcn.hw_fcn`, an area of zeros that the half words `vp` are put into. -/
def hwFcnWords (sz32 : ℕ) (vp : List U16) : List U32 :=
  let ws := Packing.pack halves (fun x => halves x 0#16) vp
  ws ++ List.replicate (sz32 - ws.length) 0#32

def submoduleNr (chnr : ℕ) : ℕ := if chnr > 8 then 1 else 0

def channelNr (chnr : ℕ) : ℕ := if chnr > 8 then chnr - 9 else chnr - 1

/-- How a function reaches the driver: by a binary attribute in sysfs, or by an `ioctl`. -/
inductive Route where
  | sysfs
  | ioctl
deriving DecidableEq

def pageSize : ℕ := 4096

/-- What of `hw_fcn` reaches the driver.  One `write` to an attribute carries a page at most. -/
def Route.passed : Route → List U32 → List U32
  | .sysfs, ws => ws.take (min (4 * ws.length) pageSize / 4)
  | .ioctl, ws => ws

/-- The words for `n` vectors: a header, and the half words of the vectors. -/
def tableWords (v0 : VectorFcn) (n : ℕ) (vs : List U16) : List U32 :=
  hwFcnWords (getHwFcnSize32 n) (BitVec.ofNat 16 n :: 0#16 :: v0.v :: vs)

/-- `cvorb_ch_set_fcn` with the array `value` of `n_vector` elements.  There is no result for no
elements at all: the count wraps, and the loop leaves the array. -/
def cvorbChSetFcn (route : Route) (busy : ℕ → Bool) (chnr fcnnr : ℕ) (value : List VectorFcn)
    (b : Board) : Option (Except LibError Unit × Board) :=
  if ¬(1 ≤ chnr ∧ chnr ≤ 16) ∨ ¬(1 ≤ fcnnr ∧ fcnnr ≤ 64) ∨ value.length > CVORB_MAX_VECTOR then
    some (.error .EINVAL, b)
  else
    match value with
    | [] => none
    | v0 :: pts =>
      let nVtr := pts.length
      match hwVectors v0 pts with
      | .error e => some (.error e, b)
      | .ok vs =>
        let submodulenr := submoduleNr chnr
        match cvorbSetFcn (busy submodulenr) submodulenr (channelNr chnr) (fcnnr - 1)
            (route.passed (tableWords v0 nVtr vs)) b with
        | (.error e, b) => some (.error (.libc e), b)
        | (.ok (), b) => some (.ok (), b)

/-! ### From vectors to points -/

/-- The value of a C `int` that a product is computed in. -/
def int32 (n : ℕ) : ℤ := (n : ℤ).bmod (2 ^ 32)

/-- The points of the vectors at `vp`; `prev` is the time of the point before. -/
def userVectors : ℚ → List U16 → List VectorFcn
  | prev, nos :: ss :: v :: vp =>
    let t : ℚ :=
      if ss = 0xffff#16 then 0
      else int32 (nos.toNat * ss.toNat * CVORB_MIN_STEP_SIZE) / 1000 + prev
    ⟨t, v⟩ :: userVectors t vp
  | _, _ => []

/-- The loop over the area `hw_fcn`, which is zero where nothing was copied. -/
def userTable (n : ℕ) (hwFcn : List U32) : List VectorFcn :=
  match Packing.unpack halfFirst halfSecond (Packing.burst (fun _ => 0#32) 0 hwFcn)
    (3 + n * 3) 0 with
  | _ :: _ :: v0 :: vp => ⟨0, v0⟩ :: userVectors 0 vp
  | _ => []

/-- `cvorb_ch_get_fcn` with a buffer of `nVector` elements.  By either route the driver's number of
vectors and words arrive as they are. -/
def cvorbChGetFcn (busy : ℕ → Bool) (chnr fcnnr nVector : ℕ) (b : Board) :
    Except LibError (List VectorFcn) × Board :=
  if ¬(1 ≤ chnr ∧ chnr ≤ 16) ∨ ¬(1 ≤ fcnnr ∧ fcnnr ≤ 64) then (.error .EINVAL, b)
  else
    let submodulenr := submoduleNr chnr
    match cvorbGetFcn (busy submodulenr) submodulenr (channelNr chnr) (fcnnr - 1) b with
    | (.error e, b) => (.error (.libc e), b)
    | (.ok (n, hwFcn), b) =>
      if n > nVector then (.error .ENOBUFS, b) else (.ok (userTable n hwFcn), b)

/-! ### The words of a function -/

theorem one_le_fcnSize32 (n : ℕ) : 1 ≤ fcnSize32 n := by
  rw [fcnSize32]
  split <;> omega

theorem cvorbGetFcn_fst (s c f : ℕ) (b : Board) :
    (cvorbGetFcn false s c f b).1 =
      if ((b s).sram (ramaddr c f / 4)).toNat = 0 ∨
          CVORB_MAX_VECTOR ≤ ((b s).sram (ramaddr c f / 4)).toNat then .error .EBADSLT
      else .ok (((b s).sram (ramaddr c f / 4)).toNat, Packing.readOff (b s).sram (ramaddr c f / 4)
        (fcnSize32 ((b s).sram (ramaddr c f / 4)).toNat)) := by
  have hnext : (ramaddr c f + 4) / 4 = ramaddr c f / 4 + 1 := by omega
  rw [cvorbGetFcn, if_neg Bool.false_ne_true]
  by_cases hn : ((b s).sram (ramaddr c f / 4)).toNat = 0 ∨
      CVORB_MAX_VECTOR ≤ ((b s).sram (ramaddr c f / 4)).toNat
  · rw [if_pos hn]
    exact congrArg Prod.fst (if_pos hn)
  · obtain ⟨k, hk⟩ : ∃ k, fcnSize32 ((b s).sram (ramaddr c f / 4)).toNat = k + 1 :=
      ⟨_, (Nat.sub_add_cancel (one_le_fcnSize32 _)).symm⟩
    rw [if_neg hn]
    refine (congrArg Prod.fst (if_neg hn)).trans ?_
    simp only [Submodule.readData]
    rw [Submodule.readDatas_fst, hnext, hk, Nat.add_sub_cancel]
    rw [Packing.take_readOff _ (Nat.le_succ k), ← Packing.readOff]

theorem cvorbChGetFcn_fst (busy : ℕ → Bool) (chnr fcnnr nVector : ℕ) (b : Board) :
    (cvorbChGetFcn busy chnr fcnnr nVector b).1 =
      if ¬(1 ≤ chnr ∧ chnr ≤ 16) ∨ ¬(1 ≤ fcnnr ∧ fcnnr ≤ 64) then .error .EINVAL
      else
        match (cvorbGetFcn (busy (submoduleNr chnr)) (submoduleNr chnr) (channelNr chnr)
          (fcnnr - 1) b).1 with
        | .error e => .error (.libc e)
        | .ok (n, hwFcn) =>
          if n > nVector then .error .ENOBUFS else .ok (userTable n hwFcn) := by
  rw [cvorbChGetFcn]
  split
  · rfl
  · dsimp only
    generalize cvorbGetFcn (busy (submoduleNr chnr)) (submoduleNr chnr) (channelNr chnr)
      (fcnnr - 1) b = r
    obtain ⟨e | ⟨n, hwFcn⟩, b'⟩ := r
    · rfl
    · dsimp only
      split <;> rfl

theorem cvorbGetFcn_sram (busy : Bool) (s c f : ℕ) (b : Board) (s' : ℕ) :
    ((cvorbGetFcn busy s c f b).2 s').sram = (b s').sram := by
  simp only [cvorbGetFcn]
  split
  · rfl
  · split <;> by_cases hs : s' = s
    all_goals simp [hs, Submodule.readData, Submodule.readDatas_sram]

theorem cvorbSetFcn_sram (s c f : ℕ) (ws : List U32) (b : Board) :
    ((cvorbSetFcn false s c f ws b).2 s).sram =
      Packing.burst (b s).sram (ramaddr c f / 4) ws := by
  simp [cvorbSetFcn, Submodule.writeDatas_sram]

theorem cvorbGetFcn_cvorbSetFcn {s c f n : ℕ} {w : U32} {ws : List U32} (b : Board)
    (hw : w.toNat = n) (hn : 0 < n) (hmax : n < CVORB_MAX_VECTOR)
    (hlen : (w :: ws).length = fcnSize32 n) :
    (cvorbGetFcn false s c f (cvorbSetFcn false s c f (w :: ws) b).2).1 = .ok (n, w :: ws) := by
  have hfirst : Packing.burst (b s).sram (ramaddr c f / 4) (w :: ws) (ramaddr c f / 4) = w := by
    rw [Packing.burst, Packing.burst_of_lt (by omega), update_self]
  rw [cvorbGetFcn_fst, cvorbSetFcn_sram, hfirst, hw, if_neg (by omega), ← hlen,
    Packing.readOff_burst]

/-! ### Half words -/

theorem halfFirst_halves (x y : U16) : halfFirst (halves x y) = x := by
  apply BitVec.eq_of_getLsbD_eq
  intro i hi
  simp [halfFirst, halves, hi]

theorem halfSecond_halves (x y : U16) : halfSecond (halves x y) = y := by
  apply BitVec.eq_of_getLsbD_eq
  intro i hi
  simp [halfSecond, halves, hi, show 16 + i < 32 by omega]

theorem toNat_halves_zero (x : U16) : (halves x 0#16).toNat = x.toNat := by
  have hx := x.isLt
  simp only [halves, BitVec.setWidth_zero, BitVec.zero_shiftLeft, BitVec.or_zero,
    BitVec.toNat_setWidth]
  omega

theorem length_hwFcnWords {sz32 : ℕ} {vp : List U16} (h : (vp.length + 1) / 2 ≤ sz32) :
    (hwFcnWords sz32 vp).length = sz32 := by
  simp only [hwFcnWords, List.length_append, List.length_replicate, Packing.length_pack]
  omega

theorem unpack_hwFcnWords (sz32 : ℕ) (vp : List U16) :
    Packing.unpack halfFirst halfSecond (Packing.burst (fun _ => 0#32) 0 (hwFcnWords sz32 vp))
      vp.length 0 = vp := by
  have hwords : ∀ b, 0 ≤ b → b < 0 + (vp.length + 1) / 2 →
      Packing.burst (fun _ => 0#32) 0 (hwFcnWords sz32 vp) b =
        Packing.burst (fun _ => 0#32) 0 (Packing.pack halves (fun x => halves x 0#16) vp) b := by
    intro b _ hb
    rw [hwFcnWords, Packing.burst_append, Packing.burst_of_lt]
    rw [Packing.length_pack]
    omega
  rw [Packing.unpack_congr hwords]
  exact Packing.unpack_burst_pack halfFirst_halves halfSecond_halves
    (fun x => halfFirst_halves x 0#16) _ _ _

/-! ### The time of a step -/

/-- A step of `d` milliseconds, rounded to a multiple of 5 µs, in microseconds. -/
def nearest (d : ℚ) : ℕ := 5 * (round (d * 1000 / 5)).toNat

/-- `d'` is a step `d` rounded to a multiple of 5 µs, and then down to a multiple of the least step
size for which the number of steps fits in 16 bits. -/
def GridStep (d d' : ℚ) : Prop :=
  ∃ ss, IsLeast {k : ℕ | nearest d ≤ 65535 * (5 * k)} ss ∧
    d' * 1000 = (nearest d - nearest d % (5 * ss) : ℕ)

theorem maxVectorTime_eq : maxVectorTime = 10736926725 := by
  norm_num [maxVectorTime, CVORB_MAX_STEPS, CVORB_MAX_STEP_SIZE, CVORB_MIN_STEP_SIZE]

theorem nearest_eq {d : ℚ} (hd : 0 ≤ d) : nearest d = 5 * ⌊d * 1000 / 5 + 1 / 2⌋₊ := by
  rw [nearest, round_eq, Int.floor_toNat]

theorem nearest_mod (d : ℚ) : nearest d % 5 = 0 := by rw [nearest]; omega

theorem nearest_le {d : ℚ} (hd : 0 ≤ d) (h : d * 1000 ≤ maxVectorTime) :
    nearest d ≤ maxVectorTime := by
  have hmax : (maxVectorTime : ℚ) = 10736926725 := by
    rw [maxVectorTime_eq]
    norm_num
  have hfloor : ⌊d * 1000 / 5 + 1 / 2⌋₊ < 2147385346 := by
    rw [Nat.floor_lt (by positivity)]
    rw [hmax] at h
    norm_num
    linarith
  rw [nearest_eq hd, maxVectorTime_eq]
  omega

theorem nearest_pos_iff {d : ℚ} (hd : 0 ≤ d) : 0 < nearest d ↔ 5 / 2 ≤ d * 1000 := by
  have hfloor : 0 < ⌊d * 1000 / 5 + 1 / 2⌋₊ ↔ 1 ≤ d * 1000 / 5 + 1 / 2 := Nat.floor_pos
  rw [nearest_eq hd, Nat.mul_pos_iff_of_pos_left (by omega), hfloor]
  constructor <;> intro h <;> linarith

theorem nearest_lt_iff {d : ℚ} (hd : 0 ≤ d) :
    nearest d < 2147516410 ↔ d * 1000 < 21475164075 / 10 := by
  have hfloor : ⌊d * 1000 / 5 + 1 / 2⌋₊ < 429503282 ↔ d * 1000 / 5 + 1 / 2 < 429503282 := by
    rw [Nat.floor_lt (by positivity)]
    norm_num
  have hmul : nearest d < 2147516410 ↔ ⌊d * 1000 / 5 + 1 / 2⌋₊ < 429503282 := by
    rw [nearest_eq hd]
    omega
  rw [hmul, hfloor]
  constructor <;> intro h <;> linarith

/-- The step size that the library chooses. -/
def leastStepSize (r : ℕ) : ℕ := (r + 327674) / 327675

theorem leastStepSize_isLeast (r : ℕ) :
    IsLeast {k : ℕ | r ≤ 65535 * (5 * k)} (leastStepSize r) := by
  constructor
  · show r ≤ 65535 * (5 * leastStepSize r)
    rw [leastStepSize]
    omega
  · intro k hk
    have hk' : r ≤ 65535 * (5 * k) := hk
    rw [leastStepSize]
    omega

/-- The time that the card makes of `r` microseconds. -/
def grid (r : ℕ) : ℕ := r - r % (5 * leastStepSize r)

theorem gridStep_iff {d d' : ℚ} : GridStep d d' ↔ d' * 1000 = (grid (nearest d) : ℕ) := by
  constructor
  · rintro ⟨ss, hss, h⟩
    rw [h, grid, hss.unique (leastStepSize_isLeast _)]
  · intro h
    exact ⟨_, leastStepSize_isLeast _, h⟩

theorem grid_pos {r : ℕ} (hr : r % 5 = 0) (hpos : 0 < r) : 0 < grid r := by
  have hk : leastStepSize r = (r + 327674) / 327675 := rfl
  have hmod : r % (5 * leastStepSize r) < 5 * leastStepSize r := Nat.mod_lt _ (by omega)
  rw [grid]
  by_cases hone : leastStepSize r = 1
  · rw [hone]
    omega
  · omega

theorem grid_lt_iff {r : ℕ} (hr : r % 5 = 0) : grid r < 2 ^ 31 ↔ r < 2147516410 := by
  have hk : leastStepSize r = (r + 327674) / 327675 := rfl
  rw [grid]
  by_cases hsmall : r < 2 ^ 31
  · omega
  by_cases hlarge : 2147581950 < r
  · have hmod : r % (5 * leastStepSize r) < 5 * leastStepSize r := Nat.mod_lt _ (by omega)
    omega
  · -- between these bounds the step size is always the same
    have hss : leastStepSize r = 6554 := by omega
    rw [hss]
    omega

theorem int32_eq_iff (n : ℕ) : int32 n = n ↔ n < 2 ^ 31 := by
  unfold int32
  rw [Int.bmod_def]
  split <;> omega

/-! ### A vector there and back -/

/-- What a table has: an element is at time zero or comes later than the one before, by at most the
longest time between two points. -/
def Follows (p p' : VectorFcn) : Prop :=
  p'.t = 0 ∨ p.t < p'.t ∧ (p'.t - p.t) * 1000 ≤ maxVectorTime

/-- The vectors that survive. -/
def StepFits (p p' : VectorFcn) : Prop :=
  p'.t ≠ 0 → (p'.t - p.t) * 1000 < 21475164075 / 10 ∧ (p.t = 0 → 5 / 2 ≤ (p'.t - p.t) * 1000)

/-- An element `x.1` comes back as `x.2`, after the element before did. -/
def Returned (w x : VectorFcn × VectorFcn) : Prop :=
  x.2.v = x.1.v ∧ (x.2.t = 0 ↔ x.1.t = 0) ∧
    (x.1.t ≠ 0 → GridStep (x.1.t - w.1.t) (x.2.t - w.2.t))

theorem chosenStep {r : ℕ} (hr : r % 5 = 0) (hmax : r ≤ maxVectorTime) :
    let ss := BitVec.ofNat 16 ((r + (2 ^ 64 - 1)) % 2 ^ 64 / CVORB_MAX_TIME_MIN_STEP + 1)
    let nos := BitVec.ofNat 16
      ((r - r % (ss.toNat * CVORB_MIN_STEP_SIZE)) / (ss.toNat * CVORB_MIN_STEP_SIZE))
    ss ≠ 0xffff#16 ∧ nos.toNat * ss.toNat * CVORB_MIN_STEP_SIZE = grid r := by
  intro ss nos
  have hmin : CVORB_MAX_TIME_MIN_STEP = 327675 := rfl
  have hfive : CVORB_MIN_STEP_SIZE = 5 := rfl
  rw [maxVectorTime_eq] at hmax
  by_cases hzero : r = 0
  · subst hzero
    constructor
    · decide
    · decide
  · have hwrap : (r + (2 ^ 64 - 1)) % 2 ^ 64 = r - 1 := by omega
    have hk : leastStepSize r = (r - 1) / 327675 + 1 := by
      rw [leastStepSize]
      omega
    have hss : ss.toNat = leastStepSize r := by
      show (BitVec.ofNat 16 _).toNat = _
      rw [BitVec.toNat_ofNat, hwrap, hmin, ← hk]
      exact Nat.mod_eq_of_lt (by omega)
    have hsteps : r - r % (5 * leastStepSize r) = 5 * leastStepSize r * (r / (5 * leastStepSize r)) := by
      have hdecomp := Nat.div_add_mod r (5 * leastStepSize r)
      omega
    have hnos : nos.toNat = r / (5 * leastStepSize r) := by
      have hbound : r / (5 * leastStepSize r) ≤ 65535 := Nat.div_le_of_le_mul (by omega)
      show (BitVec.ofNat 16 _).toNat = _
      rw [BitVec.toNat_ofNat, hss, hfive, Nat.mul_comm _ 5, hsteps,
        Nat.mul_div_cancel_left _ (by omega)]
      exact Nat.mod_eq_of_lt (by omega)
    constructor
    · intro h
      have h' : ss.toNat = 65535 := by rw [h]; rfl
      omega
    · rw [hnos, hss, hfive, grid, hsteps]
      ring

theorem computeHwVector_step {p p' : VectorFcn} (h : Follows p p') (hp' : p'.t ≠ 0) :
    ∃ ss nos, computeHwVector p p' = .ok (ss, nos) ∧ ss ≠ 0xffff#16 ∧
      nos.toNat * ss.toNat * CVORB_MIN_STEP_SIZE = grid (nearest (p'.t - p.t)) := by
  obtain ⟨hlt, hmax⟩ := h.resolve_left hp'
  have hpos : 0 ≤ p'.t - p.t := by linarith
  obtain ⟨hss, hprod⟩ := chosenStep (nearest_mod (p'.t - p.t)) (nearest_le hpos hmax)
  have hfive : ((CVORB_MIN_STEP_SIZE : ℕ) : ℚ) = 5 := by norm_num [CVORB_MIN_STEP_SIZE]
  have hround : CVORB_MIN_STEP_SIZE * ⌊(p'.t - p.t) * 1000 / CVORB_MIN_STEP_SIZE + 1 / 2⌋₊ =
      nearest (p'.t - p.t) := by
    rw [nearest_eq hpos, hfive, CVORB_MIN_STEP_SIZE]
  refine ⟨_, _, ?_, hss, hprod⟩
  rw [computeHwVector, if_neg hp', if_neg (not_le.mpr hlt)]
  simp only [hround]
  rw [if_neg (not_lt.mpr hmax)]

theorem returned_iff {p p' g g' : VectorFcn} (h : Follows p p') (hp' : p'.t ≠ 0) (hg : 0 ≤ g.t)
    (hstop : g.t = 0 ↔ p.t = 0) (hv : g'.v = p'.v)
    (ht : g'.t = int32 (grid (nearest (p'.t - p.t))) / 1000 + g.t) :
    Returned (p, g) (p', g') ↔ StepFits p p' := by
  obtain ⟨hlt, hmax⟩ := h.resolve_left hp'
  have hpos : 0 ≤ p'.t - p.t := by linarith
  have hmod := nearest_mod (p'.t - p.t)
  have hint : int32 (grid (nearest (p'.t - p.t))) = grid (nearest (p'.t - p.t)) ↔
      (p'.t - p.t) * 1000 < 21475164075 / 10 := by
    rw [int32_eq_iff, grid_lt_iff hmod, nearest_lt_iff hpos]
  have hgrid : GridStep (p'.t - p.t) (g'.t - g.t) ↔
      int32 (grid (nearest (p'.t - p.t))) = grid (nearest (p'.t - p.t)) := by
    have hcancel : (g'.t - g.t) * 1000 = int32 (grid (nearest (p'.t - p.t))) := by
      rw [ht]
      ring
    rw [gridStep_iff, hcancel, ← @Int.cast_inj ℚ, Int.cast_natCast]
  constructor
  · rintro ⟨-, hzero, hstep⟩ -
    have heq := hgrid.mp (hstep hp')
    refine ⟨hint.mp heq, fun hp => ?_⟩
    rw [← nearest_pos_iff hpos]
    by_contra hnone
    -- a step of nothing after a point at zero
    have hgridZero : grid (nearest (p'.t - p.t)) = 0 := by
      rw [grid]
      omega
    apply hp'
    apply hzero.mp
    rw [ht, heq, hgridZero, hstop.mpr hp]
    norm_num
  · intro hfits
    obtain ⟨hlong, hshort⟩ := hfits hp'
    have heq := hint.mpr hlong
    refine ⟨hv, ⟨fun hzero => ?_, fun hzero => absurd hzero hp'⟩, fun _ => hgrid.mpr heq⟩
    exfalso
    rw [ht, heq, Int.cast_natCast] at hzero
    have hnonneg : (0 : ℚ) ≤ grid (nearest (p'.t - p.t)) / 1000 := by positivity
    have hgzero : g.t = 0 := by linarith only [hzero, hnonneg, hg]
    have hgridPos : 0 < grid (nearest (p'.t - p.t)) :=
      grid_pos hmod ((nearest_pos_iff hpos).mpr (hshort (hstop.mp hgzero)))
    have hmore : (0 : ℚ) < grid (nearest (p'.t - p.t)) / 1000 := by
      have hcast : (0 : ℚ) < grid (nearest (p'.t - p.t)) := Nat.cast_pos.mpr hgridPos
      positivity
    linarith only [hzero, hmore, hg]

theorem userVectors_cons {p p' : VectorFcn} {ss nos : U16} (h : Follows p p')
    (hcompute : computeHwVector p p' = .ok (ss, nos)) (g : VectorFcn) (vp : List U16) :
    ∃ g', userVectors g.t (nos :: ss :: p'.v :: vp) = g' :: userVectors g'.t vp ∧ g'.v = p'.v ∧
      (p'.t = 0 → g'.t = 0) ∧
      (p'.t ≠ 0 → g'.t = int32 (grid (nearest (p'.t - p.t))) / 1000 + g.t) := by
  refine ⟨_, rfl, rfl, fun hzero => ?_, fun hp' => ?_⟩
  · rw [computeHwVector, if_pos hzero] at hcompute
    injection hcompute with hpair
    injection hpair with hss hnos
    exact if_pos hss.symm
  · obtain ⟨ss', nos', hcompute', hss, hprod⟩ := computeHwVector_step h hp'
    rw [hcompute] at hcompute'
    injection hcompute' with hpair
    injection hpair with hss' hnos'
    subst hss' hnos'
    rw [← hprod]
    exact if_neg hss

theorem returned_iff_stepFits {p p' g g' : VectorFcn} (h : Follows p p') (hg : 0 ≤ g.t)
    (hstop : g.t = 0 ↔ p.t = 0) (hv : g'.v = p'.v) (hzero : p'.t = 0 → g'.t = 0)
    (ht : p'.t ≠ 0 → g'.t = int32 (grid (nearest (p'.t - p.t))) / 1000 + g.t) :
    Returned (p, g) (p', g') ↔ StepFits p p' := by
  by_cases hp' : p'.t = 0
  · constructor
    · intro _ hne
      exact absurd hp' hne
    · intro _
      exact ⟨hv, ⟨fun _ => hp', hzero⟩, fun hne => absurd hp' hne⟩
  · exact returned_iff h hp' hg hstop hv (ht hp')

theorem Returned.next {p p' g g' : VectorFcn} (h : Returned (p, g) (p', g')) (hg : 0 ≤ g.t) :
    0 ≤ g'.t ∧ (g'.t = 0 ↔ p'.t = 0) := by
  obtain ⟨-, hstop, hstep⟩ := h
  refine ⟨?_, hstop⟩
  by_cases hp' : p'.t = 0
  · exact (hstop.mpr hp').ge
  · have hgrid := gridStep_iff.mp (hstep hp')
    have hnonneg : (0 : ℚ) ≤ (grid (nearest (p'.t - p.t)) : ℕ) := Nat.cast_nonneg _
    linarith only [hgrid, hnonneg, hg]

theorem hwVectors_ok {p : VectorFcn} {pts : List VectorFcn} (h : (p :: pts).IsChain Follows) :
    ∃ vs, hwVectors p pts = .ok vs ∧ vs.length = pts.length * 3 := by
  induction pts generalizing p with
  | nil => exact ⟨[], rfl, rfl⟩
  | cons p' pts ih =>
    rw [List.isChain_cons_cons] at h
    obtain ⟨rest, hrest, hlen⟩ := ih h.2
    obtain ⟨ss, nos, hcompute⟩ : ∃ ss nos, computeHwVector p p' = .ok (ss, nos) := by
      by_cases hp' : p'.t = 0
      · exact ⟨_, _, by rw [computeHwVector, if_pos hp']⟩
      · obtain ⟨ss, nos, hcompute, -⟩ := computeHwVector_step h.1 hp'
        exact ⟨ss, nos, hcompute⟩
    refine ⟨nos :: ss :: p'.v :: rest, ?_, ?_⟩
    · rw [hwVectors, hcompute]
      simp only [hrest]
    · simp only [List.length_cons, hlen]
      omega

theorem userVectors_hwVectors {p g : VectorFcn} {pts : List VectorFcn} {vs : List U16}
    (h : (p :: pts).IsChain Follows) (hvs : hwVectors p pts = .ok vs) (hg : 0 ≤ g.t)
    (hstop : g.t = 0 ↔ p.t = 0) :
    ((p, g) :: pts.zip (userVectors g.t vs)).IsChain Returned ↔ (p :: pts).IsChain StepFits := by
  induction pts generalizing p g vs with
  | nil => simp
  | cons p' pts ih =>
    rw [List.isChain_cons_cons] at h
    rw [hwVectors] at hvs
    split at hvs
    · cases hvs
    · rename_i ss nos hcompute
      split at hvs
      · cases hvs
      · rename_i rest hrest
        injection hvs with hvs
        subst hvs
        obtain ⟨g', hcons, hv, hzero, ht⟩ := userVectors_cons h.1 hcompute g rest
        have hhead := returned_iff_stepFits h.1 hg hstop hv hzero ht
        rw [hcons, List.zip_cons_cons, List.isChain_cons_cons, List.isChain_cons_cons, hhead]
        refine and_congr_right fun hfits => ?_
        obtain ⟨hg', hstop'⟩ := (hhead.mpr hfits).next hg
        exact ih h.2 hrest hg' hstop'

theorem length_userVectors {g : ℚ} {vs : List U16} {n : ℕ} (h : vs.length = n * 3) :
    (userVectors g vs).length = n := by
  induction n generalizing g vs with
  | zero =>
    obtain rfl : vs = [] := List.eq_nil_of_length_eq_zero (by omega)
    rfl
  | succ n ih =>
    obtain ⟨nos, ss, v, vp, rfl⟩ : ∃ nos ss v vp, vs = nos :: ss :: v :: vp := by
      rcases vs with _ | ⟨nos, _ | ⟨ss, _ | ⟨v, vp⟩⟩⟩
      · simp at h
      · simp at h; omega
      · simp at h; omega
      · exact ⟨nos, ss, v, vp, rfl⟩
    simp only [List.length_cons] at h
    rw [userVectors, List.length_cons, ih (by omega)]

/-! ### The round trip -/

/-- A table that may be loaded. -/
structure WellFormed (table : List VectorFcn) : Prop where
  two_le : 2 ≤ table.length
  le_max : table.length ≤ CVORB_MAX_VECTOR
  start : ∀ v0 ∈ table.head?, v0.t = 0
  follows : table.IsChain Follows

/-- `got` is `table` with its amplitudes and internal stops, and with each other step as the card
can make it. -/
structure RoundTrip (table got : List VectorFcn) : Prop where
  length_eq : got.length = table.length
  head_eq : got.head? = table.head?
  returned : (table.zip got).IsChain Returned

theorem roundTrip_iff {v0 : VectorFcn} {pts : List VectorFcn} {vs : List U16}
    (h : WellFormed (v0 :: pts)) (hvs : hwVectors v0 pts = .ok vs)
    (hlen : vs.length = pts.length * 3) :
    RoundTrip (v0 :: pts) (⟨0, v0.v⟩ :: userVectors 0 vs) ↔ (v0 :: pts).IsChain StepFits := by
  have hstart : v0.t = 0 := h.start v0 rfl
  have hhead : (⟨0, v0.v⟩ : VectorFcn) = v0 := by rw [← hstart]
  have hchain := userVectors_hwVectors (g := v0) h.follows hvs hstart.ge Iff.rfl
  rw [hstart] at hchain
  rw [hhead, ← hchain]
  constructor
  · intro hback
    exact hback.returned
  · intro hback
    exact ⟨by simp [length_userVectors hlen], rfl, hback⟩

theorem eq_of_returned {p : VectorFcn} {pts gs : List VectorFcn} (hlen : gs.length = pts.length)
    (hret : ((p, p) :: pts.zip gs).IsChain Returned)
    (hgrid : (p :: pts).IsChain fun p p' => p'.t ≠ 0 → GridStep (p'.t - p.t) (p'.t - p.t)) :
    gs = pts := by
  induction pts generalizing p gs with
  | nil => exact List.eq_nil_of_length_eq_zero hlen
  | cons p' pts ih =>
    obtain ⟨g', gs, rfl⟩ : ∃ g' gs', gs = g' :: gs' := List.exists_cons_of_length_eq_add_one hlen
    rw [List.zip_cons_cons, List.isChain_cons_cons] at hret
    rw [List.isChain_cons_cons] at hgrid
    obtain ⟨⟨hv, hstop, hstep⟩, hrest⟩ := hret
    have ht : g'.t = p'.t := by
      by_cases hp' : p'.t = 0
      · rw [hp', hstop.mpr hp']
      · have hgot := gridStep_iff.mp (hstep hp')
        have hasked := gridStep_iff.mp (hgrid.1 hp')
        linarith only [hgot, hasked]
    obtain rfl : g' = p' := VectorFcn.ext ht hv
    rw [ih (by simpa using hlen) hrest hgrid.2]

theorem RoundTrip.eq_table {table got : List VectorFcn} (h : RoundTrip table got)
    (hgrid : table.IsChain fun p p' => p'.t ≠ 0 → GridStep (p'.t - p.t) (p'.t - p.t)) :
    got = table := by
  obtain ⟨hlen, hhead, hret⟩ := h
  cases table with
  | nil => exact List.eq_nil_of_length_eq_zero hlen
  | cons p pts =>
    obtain ⟨g, gs, rfl⟩ : ∃ g gs, got = g :: gs := List.exists_cons_of_length_eq_add_one hlen
    obtain rfl : g = p := by simpa using hhead
    rw [eq_of_returned (by simpa using hlen) hret hgrid]

theorem passed_tableWords (route : Route) {v0 : VectorFcn} {n : ℕ} {vs : List U16} (hn : 0 < n)
    (hmax : n < CVORB_MAX_VECTOR) (hlen : vs.length = n * 3) :
    (tableWords v0 n vs).length = fcnSize32 n ∧
      route.passed (tableWords v0 n vs) = tableWords v0 n vs := by
  have hmax' : n < 680 := hmax
  have hsize : getHwFcnSize32 n = fcnSize32 n := by rw [getHwFcnSize32, if_neg (by omega)]
  have hpage : (n * 3 + 3 + 1) / 2 ≤ fcnSize32 n ∧ fcnSize32 n ≤ 1023 := by
    rw [fcnSize32]
    split <;> omega
  have hwords : (tableWords v0 n vs).length = fcnSize32 n := by
    rw [tableWords, hsize]
    apply length_hwFcnWords
    simp only [List.length_cons, hlen]
    omega
  refine ⟨hwords, ?_⟩
  cases route with
  | sysfs =>
    apply List.take_of_length_le
    rw [hwords, pageSize]
    omega
  | ioctl => rfl

theorem userTable_tableWords {v0 : VectorFcn} {n : ℕ} {vs : List U16} (hlen : vs.length = n * 3) :
    userTable n (tableWords v0 n vs) = ⟨0, v0.v⟩ :: userVectors 0 vs := by
  have hcount : 3 + n * 3 = (BitVec.ofNat 16 n :: 0#16 :: v0.v :: vs).length := by
    simp only [List.length_cons, hlen]
    omega
  rw [userTable, tableWords, hcount, unpack_hwFcnWords]

theorem tableWords_cons (v0 : VectorFcn) (vs : List U16) {n : ℕ} (hmax : n < CVORB_MAX_VECTOR) :
    ∃ w ws, tableWords v0 n vs = w :: ws ∧ w.toNat = n := by
  have hmax' : n < 680 := hmax
  refine ⟨_, _, rfl, ?_⟩
  rw [toNat_halves_zero, BitVec.toNat_ofNat]
  exact Nat.mod_eq_of_lt (by omega)

section RoundTrip

variable {route : Route} {busy busy' : ℕ → Bool} {chnr fcnnr cap : ℕ}

theorem getFcn_of_setFcn (hchnr : 1 ≤ chnr ∧ chnr ≤ 16) (hfcnnr : 1 ≤ fcnnr ∧ fcnnr ≤ 64)
    (hbusy : busy (submoduleNr chnr) = false) (hbusy' : busy' (submoduleNr chnr) = false)
    {v0 : VectorFcn} {pts : List VectorFcn} (htable : WellFormed (v0 :: pts))
    (hcap : (v0 :: pts).length ≤ cap) (b : Board) :
    ∃ b' vs, cvorbChSetFcn route busy chnr fcnnr (v0 :: pts) b = some (.ok (), b') ∧
      (cvorbChGetFcn busy' chnr fcnnr cap b').1 = .ok (⟨0, v0.v⟩ :: userVectors 0 vs) ∧
      hwVectors v0 pts = .ok vs ∧ vs.length = pts.length * 3 := by
  obtain ⟨vs, hvs, hlen⟩ := hwVectors_ok htable.follows
  have htwo := htable.two_le
  have hmax := htable.le_max
  simp only [List.length_cons] at htwo hmax hcap
  obtain ⟨hwords, hpassed⟩ := @passed_tableWords route v0 pts.length vs (by omega) (by omega) hlen
  obtain ⟨w, ws, hcons, hw⟩ := tableWords_cons v0 vs (n := pts.length) (by omega)
  refine ⟨(cvorbSetFcn false (submoduleNr chnr) (channelNr chnr) (fcnnr - 1)
    (tableWords v0 pts.length vs) b).2, vs, ?_, ?_, hvs, hlen⟩
  · rw [cvorbChSetFcn, if_neg (by simp only [List.length_cons]; omega)]
    simp only [hvs, hbusy, hpassed, cvorbSetFcn]
    rfl
  · have hget := @cvorbGetFcn_cvorbSetFcn (submoduleNr chnr) (channelNr chnr) (fcnnr - 1)
      pts.length w ws b hw (by omega) (by omega) (by rw [← hcons, hwords])
    rw [hcons, cvorbChGetFcn_fst, if_neg (by omega), hbusy', hget]
    simp only
    rw [if_neg (by omega), ← hcons, userTable_tableWords hlen]

/-- **The round trip of a function table.**  Every table that may be loaded is, and one that is
read back is the table with its steps on the card's grid exactly when no step is as long as 35
minutes 47.5164075 seconds and none that follows a point at time zero is shorter than 2.5 µs.  A
table with its steps on the grid is then read back as it was. -/
theorem getFcn_setFcn (hchnr : 1 ≤ chnr ∧ chnr ≤ 16) (hfcnnr : 1 ≤ fcnnr ∧ fcnnr ≤ 64)
    (hbusy : busy (submoduleNr chnr) = false) (hbusy' : busy' (submoduleNr chnr) = false)
    {table : List VectorFcn} (htable : WellFormed table) (hcap : table.length ≤ cap) (b : Board) :
    ∃ b' got, cvorbChSetFcn route busy chnr fcnnr table b = some (.ok (), b') ∧
      (cvorbChGetFcn busy' chnr fcnnr cap b').1 = .ok got ∧
      (RoundTrip table got ↔ table.IsChain StepFits) ∧
      (table.IsChain StepFits →
        table.IsChain (fun p p' => p'.t ≠ 0 → GridStep (p'.t - p.t) (p'.t - p.t)) →
          got = table) := by
  obtain ⟨v0, pts, rfl⟩ : ∃ v0 pts, table = v0 :: pts := by
    have htwo := htable.two_le
    exact List.exists_cons_of_length_pos (by omega)
  obtain ⟨b', vs, hset, hget, hvs, hlen⟩ :=
    @getFcn_of_setFcn route _ _ _ _ _ hchnr hfcnnr hbusy hbusy' _ _ htable hcap b
  have hiff := roundTrip_iff htable hvs hlen
  exact ⟨b', _, hset, hget, hiff, fun hfits hgrid => (hiff.mpr hfits).eq_table hgrid⟩

end RoundTrip

/-- A rise in 10 ms, a stop, and a fall in 327.685 ms. -/
def shortTable : List VectorFcn := [⟨0, 0⟩, ⟨10, 100⟩, ⟨0, 100⟩, ⟨327685 / 1000, 0⟩]

theorem wellFormed_shortTable : WellFormed shortTable := by
  refine ⟨by decide, by decide, by simp [shortTable], ?_⟩
  simp only [shortTable, Follows, List.isChain_cons_cons, maxVectorTime_eq]
  norm_num

/-- The short table comes back. -/
theorem getFcn_setFcn_shortTable :
    ∃ b' got, cvorbChSetFcn .sysfs (fun _ => false) 9 64 shortTable (fun _ => ⟨0, fun _ => 0⟩) =
        some (.ok (), b') ∧
      (cvorbChGetFcn (fun _ => false) 9 64 4 b').1 = .ok got ∧ RoundTrip shortTable got := by
  have hfits : shortTable.IsChain StepFits := by
    simp only [shortTable, StepFits, List.isChain_cons_cons]
    norm_num
  obtain ⟨b', got, hset, hget, hback, -⟩ := @getFcn_setFcn .sysfs (fun _ => false)
    (fun _ => false) 9 64 4 (by omega) (by omega) rfl rfl _ wellFormed_shortTable (by decide)
    (fun _ => ⟨0, fun _ => 0⟩)
  exact ⟨b', got, hset, hget, hback.mpr hfits⟩

/-- One step of 35 minutes and 47.517 seconds, and one of 2 µs from time zero. -/
def longTable : List VectorFcn := [⟨0, 0⟩, ⟨2147517, 100⟩]

def tinyTable : List VectorFcn := [⟨0, 0⟩, ⟨2 / 1000, 100⟩]

theorem wellFormed_longTable : WellFormed longTable := by
  refine ⟨by decide, by decide, by simp [longTable], ?_⟩
  simp only [longTable, Follows, List.isChain_cons_cons, maxVectorTime_eq]
  norm_num

theorem wellFormed_tinyTable : WellFormed tinyTable := by
  refine ⟨by decide, by decide, by simp [tinyTable], ?_⟩
  simp only [tinyTable, Follows, List.isChain_cons_cons, maxVectorTime_eq]
  norm_num

/-- Neither of the two comes back. -/
theorem longTable_tinyTable_not_returned :
    (∃ b' got, cvorbChSetFcn .sysfs (fun _ => false) 1 1 longTable (fun _ => ⟨0, fun _ => 0⟩) =
        some (.ok (), b') ∧
      (cvorbChGetFcn (fun _ => false) 1 1 680 b').1 = .ok got ∧ ¬RoundTrip longTable got) ∧
    (∃ b' got, cvorbChSetFcn .sysfs (fun _ => false) 1 1 tinyTable (fun _ => ⟨0, fun _ => 0⟩) =
        some (.ok (), b') ∧
      (cvorbChGetFcn (fun _ => false) 1 1 680 b').1 = .ok got ∧ ¬RoundTrip tinyTable got) := by
  constructor
  · obtain ⟨b', vs, hset, hget, hvs, hlen⟩ := @getFcn_of_setFcn .sysfs (fun _ => false)
      (fun _ => false) 1 1 680 (by omega) (by omega) rfl rfl _ _ wellFormed_longTable (by decide)
      (fun _ => ⟨0, fun _ => 0⟩)
    refine ⟨b', _, hset, hget, fun hback => ?_⟩
    have hfits := (roundTrip_iff wellFormed_longTable hvs hlen).mp hback
    simp only [StepFits, List.isChain_cons_cons] at hfits
    norm_num at hfits
  · obtain ⟨b', vs, hset, hget, hvs, hlen⟩ := @getFcn_of_setFcn .sysfs (fun _ => false)
      (fun _ => false) 1 1 680 (by omega) (by omega) rfl rfl _ _ wellFormed_tinyTable (by decide)
      (fun _ => ⟨0, fun _ => 0⟩)
    refine ⟨b', _, hset, hget, fun hback => ?_⟩
    have hfits := (roundTrip_iff wellFormed_tinyTable hvs hlen).mp hback
    simp only [StepFits, List.isChain_cons_cons] at hfits
    norm_num at hfits

end KernelModules.Cvorb
