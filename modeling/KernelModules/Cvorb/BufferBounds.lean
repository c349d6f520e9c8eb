import Mathlib.Tactic
import KernelModules.Cvorb.FunctionTable

/-!
# Where the CVORB function calls write

The library encodes a function in half words and hands them to the driver as words, by an `ioctl`
or by an attribute in sysfs, and the other way round.  Each area on the way has a size of its own:
that of the library follows from the number of elements, that of the driver's `ioctl` from the
count in the SRAM, and sysfs lends a page.  Here each call is the list of its writes, and the loop
that encodes a function keeps its 32-bit counter.

* `setFcn_safe_iff`: only an empty table is a danger.  Its count of vectors wraps, the area is made
  for none, and the loop goes on for ever, unless what follows the table in memory happens not to
  be a function;
* `getFcn_safe_iff`: a function of exactly `n_vector` vectors, which is one point more, is not
  refused, and by an `ioctl` the driver writes behind its own area;
* `FcnCall.safe_iff` puts them together with the handlers of the driver on their own.

Allocations and the copies between user and kernel succeed.  The copies that the kernel makes
between a page of sysfs and the caller are those of the library only.
-/

namespace KernelModules.Cvorb

/-! ### Writes -/

/-- A write to element `index` of an area of `size` elements. -/
structure Write where
  size : ℕ
  index : ℕ
deriving DecidableEq

def Write.Inside (w : Write) : Prop := w.index < w.size

instance (w : Write) : Decidable w.Inside := inferInstanceAs (Decidable (_ < _))

def Inside (ws : List Write) : Prop := ∀ w ∈ ws, w.Inside

instance (ws : List Write) : Decidable (Inside ws) :=
  inferInstanceAs (Decidable (∀ w ∈ ws, w.Inside))

theorem inside_nil : Inside [] := fun _ hw => absurd hw List.not_mem_nil

theorem inside_append {ws vs : List Write} : Inside (ws ++ vs) ↔ Inside ws ∧ Inside vs :=
  List.forall_mem_append

/-- The first `n` elements of an area, one after the other. -/
def fill (size n : ℕ) : List Write := (List.range n).map (Write.mk size)

theorem inside_fill {size n : ℕ} : Inside (fill size n) ↔ n ≤ size := by
  simp only [Inside, fill, List.forall_mem_map, List.mem_range, Write.Inside]
  constructor
  · intro h
    by_contra hlt
    exact absurd (h size (by omega)) (lt_irrefl size)
  · intro h i hi
    omega

/-! ### The driver -/

def CVORB_SUBMODULES : ℕ := 2

/-- Writes to the two registers of the SRAM, which each submodule has for itself. -/
def sramWrites (submodulenr n : ℕ) : List Write :=
  List.replicate n ⟨CVORB_SUBMODULES, submodulenr⟩

theorem inside_sramWrites {submodulenr n : ℕ} :
    Inside (sramWrites submodulenr n) ↔ n = 0 ∨ submodulenr < CVORB_SUBMODULES := by
  simp only [Inside, sramWrites, List.mem_replicate, Write.Inside]
  constructor
  · intro h
    by_cases hn : n = 0
    · exact .inl hn
    · exact .inr (h _ ⟨hn, rfl⟩)
  · rintro (hn | hsub) w ⟨hne, rfl⟩
    · exact absurd hn hne
    · exact hsub

/-- Words that come by an `ioctl` are copied to an area of the driver. -/
def Route.copied : Route → ℕ → List Write
  | .ioctl, hwFcnSize32 => fill hwFcnSize32 hwFcnSize32
  | .sysfs, _ => []

theorem Route.inside_copied (route : Route) (size : ℕ) : Inside (route.copied size) := by
  cases route with
  | ioctl => exact inside_fill.2 le_rfl
  | sysfs => exact inside_nil

/-- `__cvorb_set_fcn`. -/
def setFcnWrites (route : Route) (busy : ℕ → Bool) (submodulenr hwFcnSize32 : ℕ) : List Write :=
  if busy submodulenr then route.copied hwFcnSize32
  else route.copied hwFcnSize32 ++ sramWrites submodulenr (1 + hwFcnSize32)

/-- The count of vectors that the SRAM holds for a function.  The address is a 32-bit number. -/
def residentVectors (b : Board) (submodulenr channr fcnnr : ℕ) : ℕ :=
  ((b submodulenr).sram (ramaddr channr fcnnr % 2 ^ 32 / 4)).toNat

/-- The driver refuses to read a function. -/
def Refused (busy : ℕ → Bool) (b : Board) (submodulenr channr fcnnr : ℕ) : Prop :=
  busy submodulenr = true ∨ residentVectors b submodulenr channr fcnnr = 0 ∨
    CVORB_MAX_VECTOR ≤ residentVectors b submodulenr channr fcnnr

instance (busy : ℕ → Bool) (b : Board) (submodulenr channr fcnnr : ℕ) :
    Decidable (Refused busy b submodulenr channr fcnnr) :=
  inferInstanceAs (Decidable (_ ∨ _ ∨ _))

/-- `__cvorb_get_fcn`, for a caller with an area of `userSize` words. -/
def getFcnWrites (route : Route) (busy : ℕ → Bool) (submodulenr channr fcnnr userSize : ℕ)
    (b : Board) : List Write :=
  if busy submodulenr then []
  else
    let hwNVector := residentVectors b submodulenr channr fcnnr
    let addr := sramWrites submodulenr 1
    if hwNVector = 0 ∨ CVORB_MAX_VECTOR ≤ hwNVector then addr
    else
      let hwFcnSz32 := fcnSize32 hwNVector
      -- element 0, and then `i <= hw_fcn_sz32`
      match route with
      | .ioctl => addr ++ fill hwFcnSz32 (hwFcnSz32 + 1) ++ fill userSize hwFcnSz32
      | .sysfs => addr ++ fill (pageSize / 4) (hwFcnSz32 + 1)

/-! ### The library -/

/-- `get_hw_fcn_size32` on 32-bit numbers. -/
def hwFcnSize32 (nVector : U32) : ℕ :=
  let nVect := if nVector = 0 then BitVec.ofNat 32 CVORB_MAX_VECTOR else nVector
  let sz := 3 + nVect * 3
  let sz := if sz.toNat % 2 = 1 then sz + 1 else sz
  ((sz + 6) >>> (1 : ℕ)).toNat

/-- The loop of `cvorb_ch_set_fcn`, with `vp` as an index of half words.  What the array `value`
does not hold is what follows it in memory. -/
def encodeLoop (value : ℕ → VectorFcn) (nVtr : U32) (size : ℕ) :
    ℕ → U32 → ℕ → Option (Except LibError Unit × List Write)
  | 0, _, _ => none
  | fuel + 1, i, vp =>
    if i ≤ nVtr then
      match computeHwVector (value (i - 1).toNat) (value i.toNat) with
      | .error e => some (.error e, [])
      | .ok _ =>
        match encodeLoop value nVtr size fuel (i + 1) (vp + 3) with
        | none => none
        | some (r, ws) => some (r, ⟨size, vp⟩ :: ⟨size, vp + 1⟩ :: ⟨size, vp + 2⟩ :: ws)
    else some (.ok (), [])

def badNumbers (chnr fcnnr : U32) : Prop :=
  ¬(1 ≤ chnr.toNat ∧ chnr.toNat ≤ 16) ∨ ¬(1 ≤ fcnnr.toNat ∧ fcnnr.toNat ≤ 64)

instance (chnr fcnnr : U32) : Decidable (badNumbers chnr fcnnr) :=
  inferInstanceAs (Decidable (_ ∨ _))

/-- `cvorb_ch_set_fcn`. -/
def cvorbChSetFcnWrites (route : Route) (busy : ℕ → Bool) (chnr fcnnr : U32)
    (value : ℕ → VectorFcn) (nVector : U32) (fuel : ℕ) : Option (List Write) :=
  if badNumbers chnr fcnnr ∨ nVector.toNat > CVORB_MAX_VECTOR then some []
  else
    let nVtr := nVector - 1
    let sz32 := hwFcnSize32 nVtr
    match encodeLoop value nVtr (2 * sz32) fuel 1 3 with
    | none => none
    | some (.error _, ws) => some (fill (2 * sz32) 3 ++ ws)
    | some (.ok _, ws) =>
      let passed := match route with
        | .sysfs => min (4 * sz32) pageSize / 4
        | .ioctl => sz32 % 2 ^ 16
      some (fill (2 * sz32) 3 ++ ws ++ setFcnWrites route busy (submoduleNr chnr.toNat) passed)

/-- `cvorb_ch_get_fcn` with an array of `n_vector` elements. -/
def cvorbChGetFcnWrites (route : Route) (busy : ℕ → Bool) (chnr fcnnr nVector : U32) (b : Board) :
    List Write :=
  if badNumbers chnr fcnnr then []
  else
    let sub := submoduleNr chnr.toNat
    let chan := channelNr chnr.toNat
    let fcn := fcnnr.toNat - 1
    let sz32 := hwFcnSize32 0
    let driver := getFcnWrites route busy sub chan fcn sz32 b
    let n := residentVectors b sub chan fcn
    if Refused busy b sub chan fcn then driver
    else
      let read := match route with
        | .sysfs => fill sz32 (fcnSize32 n)
        | .ioctl => []
      if n > nVector.toNat then driver ++ read
      -- element 0, and then `i <= fcn.n_vector`
      else driver ++ read ++ fill nVector.toNat (n + 1)

/-! ### The size of an area -/

theorem fcnSize32_lt_page {n : ℕ} (hn : n < CVORB_MAX_VECTOR) : fcnSize32 n < pageSize / 4 := by
  simp only [fcnSize32, CVORB_MAX_VECTOR, pageSize] at *
  split <;> omega

theorem half_words_le {n : ℕ} : 3 + 3 * n ≤ 2 * fcnSize32 n := by
  simp only [fcnSize32]
  split <;> omega

theorem hwFcnSize32_eq {nVector : U32} (hn : nVector.toNat ≤ CVORB_MAX_VECTOR) :
    hwFcnSize32 nVector = getHwFcnSize32 nVector.toNat := by
  obtain ⟨n, rfl⟩ : ∃ n, nVector = BitVec.ofNat 32 n := ⟨nVector.toNat, by simp⟩
  have hlt : (BitVec.ofNat 32 n).toNat < 2 ^ 32 := BitVec.isLt _
  by_cases h0 : BitVec.ofNat 32 n = 0
  · rw [h0]
    decide
  · have hne : (BitVec.ofNat 32 n).toNat ≠ 0 := fun h => h0 (BitVec.eq_of_toNat_eq h)
    generalize BitVec.ofNat 32 n = m at *
    simp only [hwFcnSize32, getHwFcnSize32, fcnSize32, h0, hne, if_false, CVORB_MAX_VECTOR] at *
    have h1 : (1 : U32).toNat = 1 := rfl
    have h3 : (3 : U32).toNat = 3 := rfl
    have h6 : (6 : U32).toNat = 6 := rfl
    have hsz : (3 + m * 3 : U32).toNat = 3 + m.toNat * 3 := by
      simp only [BitVec.toNat_add, BitVec.toNat_mul, h3]
      omega
    rw [hsz]
    split
    · simp only [BitVec.toNat_ushiftRight, BitVec.toNat_add, hsz, h1, h6,
        Nat.shiftRight_eq_div_pow]
      omega
    · simp only [BitVec.toNat_ushiftRight, BitVec.toNat_add, hsz, h6, Nat.shiftRight_eq_div_pow]
      omega

theorem hwFcnSize32_wrapped : hwFcnSize32 (0 - 1) = 3 := by decide

theorem half_words_fit (nVector : U32) (hn : nVector.toNat ≤ CVORB_MAX_VECTOR) :
    3 + 3 * nVector.toNat ≤ 2 * hwFcnSize32 nVector := by
  rw [hwFcnSize32_eq hn, getHwFcnSize32]
  split
  next h0 =>
    rw [h0]
    decide
  next => exact half_words_le

/-! ### The encoding loop -/

theorem encodeLoop_returns (value : ℕ → VectorFcn) (nVtr : U32) (size : ℕ)
    (hcount : nVtr.toNat + 1 < 2 ^ 32) (fuel : ℕ) (i : U32) (vp : ℕ)
    (hi : i.toNat ≤ nVtr.toNat + 1) (hfuel : nVtr.toNat + 1 - i.toNat < fuel) :
    ∃ r ws, encodeLoop value nVtr size fuel i vp = some (r, ws) ∧
      ∀ w ∈ ws, w.size = size ∧ w.index < vp + 3 * (nVtr.toNat + 1 - i.toNat) := by
  induction fuel generalizing i vp with
  | zero => omega
  | succ fuel ih =>
    rw [encodeLoop]
    by_cases hle : i ≤ nVtr
    · rw [if_pos hle]
      have hle' : i.toNat ≤ nVtr.toNat := BitVec.le_def.1 hle
      cases hvector : computeHwVector (value (i - 1).toNat) (value i.toNat) with
      | error e => exact ⟨_, _, rfl, fun w hw => absurd hw List.not_mem_nil⟩
      | ok v =>
        have hnext : (i + 1).toNat = i.toNat + 1 := by
          have h1 : (1 : U32).toNat = 1 := rfl
          rw [BitVec.toNat_add, h1]
          omega
        obtain ⟨r, ws, hrun, hws⟩ := ih (i + 1) (vp + 3) (by omega) (by omega)
        refine ⟨r, ⟨size, vp⟩ :: ⟨size, vp + 1⟩ :: ⟨size, vp + 2⟩ :: ws, by rw [hrun], ?_⟩
        intro w hw
        simp only [List.mem_cons] at hw
        rcases hw with rfl | rfl | rfl | hw
        · exact ⟨rfl, by show vp < _; omega⟩
        · exact ⟨rfl, by show vp + 1 < _; omega⟩
        · exact ⟨rfl, by show vp + 2 < _; omega⟩
        · have hw' := hws w hw
          exact ⟨hw'.1, by omega⟩
    · rw [if_neg hle]
      exact ⟨_, _, rfl, fun w hw => absurd hw List.not_mem_nil⟩

theorem le_wrapped (i : U32) : i ≤ 0 - 1 := by
  rw [BitVec.le_def]
  have := i.isLt
  show i.toNat ≤ 2 ^ 32 - 1
  omega

theorem encodeLoop_wrapped {value : ℕ → VectorFcn} {v₁ v₂ : U16 × U16}
    (h₁ : computeHwVector (value 0) (value 1) = .ok v₁)
    (h₂ : computeHwVector (value 1) (value 2) = .ok v₂) {fuel : ℕ}
    {r : Except LibError Unit} {ws : List Write}
    (hrun : encodeLoop value (0 - 1) 6 fuel 1 3 = some (r, ws)) : ¬ Inside ws := by
  have hfirst : computeHwVector (value ((1 : U32) - 1).toNat) (value (1 : U32).toNat) = .ok v₁ := h₁
  have hsecond : computeHwVector (value ((1 + 1 : U32) - 1).toNat) (value (1 + 1 : U32).toNat) =
      .ok v₂ := h₂
  -- one step for each of the two vectors, and one for the rest
  cases fuel with
  | zero => cases hrun
  | succ fuel =>
    rw [encodeLoop, if_pos (le_wrapped _), hfirst] at hrun
    cases fuel with
    | zero => cases hrun
    | succ fuel =>
      rw [encodeLoop, if_pos (le_wrapped _), hsecond] at hrun
      cases hrest : encodeLoop value (0 - 1) 6 fuel (1 + 1 + 1) (3 + 3 + 3) with
      | none =>
        rw [hrest] at hrun
        cases hrun
      | some p =>
        rw [hrest] at hrun
        cases hrun
        intro hin
        have hlast : (⟨6, 6⟩ : Write) ∈ (⟨6, 3⟩ :: ⟨6, 3 + 1⟩ :: ⟨6, 3 + 2⟩ ::
            ⟨6, 3 + 3⟩ :: ⟨6, 3 + 3 + 1⟩ :: ⟨6, 3 + 3 + 2⟩ :: p.2 : List Write) := by simp
        exact absurd (hin _ hlast) (by decide)

/-! ### Calls -/

/-- `struct cvorb_hw_fcn`, with the size of the area that it points to. -/
structure HwFcn where
  submodulenr : U16
  channr : U16
  fcnnr : U16
  nVector : U16
  hwFcnSize32 : U16

/-- The two calls of the library, and the handlers of the driver for a caller that does without. -/
inductive FcnCall where
  | setFcn (route : Route) (chnr fcnnr : U32) (value : ℕ → VectorFcn) (nVector : U32)
  | getFcn (route : Route) (chnr fcnnr nVector : U32)
  | ioctlSetFcn (fcn : HwFcn)
  | ioctlGetFcn (fcn : HwFcn)
  | storeFcn (submodNr : Fin CVORB_SUBMODULES) (count : ℕ)
  | readFcn (submodNr : Fin CVORB_SUBMODULES) (chanNr fcnNr : ℕ)

def FcnCall.writes (busy : ℕ → Bool) (b : Board) : FcnCall → ℕ → Option (List Write)
  | .setFcn route chnr fcnnr value nVector => cvorbChSetFcnWrites route busy chnr fcnnr value nVector
  | .getFcn route chnr fcnnr nVector => fun _ =>
    some (cvorbChGetFcnWrites route busy chnr fcnnr nVector b)
  | .ioctlSetFcn fcn => fun _ =>
    some (setFcnWrites .ioctl busy fcn.submodulenr.toNat fcn.hwFcnSize32.toNat)
  | .ioctlGetFcn fcn => fun _ =>
    some (getFcnWrites .ioctl busy fcn.submodulenr.toNat fcn.channr.toNat fcn.fcnnr.toNat
      fcn.hwFcnSize32.toNat b)
  | .storeFcn submodNr count => fun _ => some (setFcnWrites .sysfs busy submodNr (count >>> 2))
  | .readFcn submodNr chanNr fcnNr => fun _ =>
    some (getFcnWrites .sysfs busy submodNr chanNr fcnNr 0 b)

/-- The call comes to an end, and every write on the way is inside its area. -/
def FcnCall.Safe (c : FcnCall) (busy : ℕ → Bool) (b : Board) : Prop :=
  ∃ fuel ws, c.writes busy b fuel = some ws ∧ Inside ws

/-! ### What each part writes -/

theorem submoduleNr_lt (chnr : ℕ) : submoduleNr chnr < CVORB_SUBMODULES := by
  rw [submoduleNr, CVORB_SUBMODULES]
  split <;> omega

theorem inside_setFcnWrites {route : Route} {busy : ℕ → Bool} {submodulenr size : ℕ} :
    Inside (setFcnWrites route busy submodulenr size) ↔
      busy submodulenr = true ∨ submodulenr < CVORB_SUBMODULES := by
  have hcopied : Inside (route.copied size) := route.inside_copied size
  have hne : 1 + size ≠ 0 := by omega
  rw [setFcnWrites]
  by_cases hbusy : busy submodulenr = true
  · rw [if_pos hbusy]
    exact ⟨fun _ => .inl hbusy, fun _ => hcopied⟩
  · rw [if_neg hbusy, inside_append, inside_sramWrites]
    constructor
    · rintro ⟨-, hz | hsub⟩
      · exact absurd hz hne
      · exact .inr hsub
    · rintro (hb | hsub)
      · exact absurd hb hbusy
      · exact ⟨hcopied, .inr hsub⟩

theorem inside_getFcnWrites_ioctl {busy : ℕ → Bool} {submodulenr channr fcnnr userSize : ℕ}
    {b : Board} :
    Inside (getFcnWrites .ioctl busy submodulenr channr fcnnr userSize b) ↔
      busy submodulenr = true ∨
        submodulenr < CVORB_SUBMODULES ∧ Refused busy b submodulenr channr fcnnr := by
  rw [getFcnWrites, Refused]
  by_cases hbusy : busy submodulenr = true
  · rw [if_pos hbusy]
    exact ⟨fun _ => .inl hbusy, fun _ => inside_nil⟩
  · rw [if_neg hbusy]
    by_cases hslot : residentVectors b submodulenr channr fcnnr = 0 ∨
        CVORB_MAX_VECTOR ≤ residentVectors b submodulenr channr fcnnr
    · simp only [hslot, if_true, inside_sramWrites, hbusy]
      simp
    · simp only [hslot, if_false, inside_append, inside_fill, hbusy]
      constructor
      · rintro ⟨⟨-, hlong⟩, -⟩
        omega
      · rintro (hb | ⟨-, hb | hb⟩)
        · exact absurd hb Bool.false_ne_true
        · exact absurd hb Bool.false_ne_true
        · exact absurd hb not_false

theorem inside_getFcnWrites_sysfs {busy : ℕ → Bool} {submodulenr channr fcnnr userSize : ℕ}
    {b : Board} (hsub : submodulenr < CVORB_SUBMODULES) :
    Inside (getFcnWrites .sysfs busy submodulenr channr fcnnr userSize b) := by
  have haddr : Inside (sramWrites submodulenr 1) := inside_sramWrites.2 (.inr hsub)
  rw [getFcnWrites]
  split
  · exact inside_nil
  · dsimp only
    split
    · exact haddr
    next hslot =>
      push Not at hslot
      exact inside_append.2 ⟨haddr, inside_fill.2 (fcnSize32_lt_page hslot.2)⟩

theorem ramaddr_lt {channr fcnnr : ℕ} (hchan : channr < 8) (hfcn : fcnnr < 64) :
    ramaddr channr fcnnr < 2 ^ 32 := by
  rw [ramaddr, Nat.shiftLeft_eq, Nat.shiftLeft_eq]
  exact Nat.or_lt_two_pow (by omega) (by omega)

theorem refused_iff_error {busy : ℕ → Bool} {b : Board} {submodulenr channr fcnnr : ℕ}
    (hchan : channr < 8) (hfcn : fcnnr < 64) :
    Refused busy b submodulenr channr fcnnr ↔
      ∃ e, (cvorbGetFcn (busy submodulenr) submodulenr channr fcnnr b).1 = .error e := by
  have haddr : residentVectors b submodulenr channr fcnnr =
      ((b submodulenr).sram (ramaddr channr fcnnr / 4)).toNat := by
    rw [residentVectors, Nat.mod_eq_of_lt (ramaddr_lt hchan hfcn)]
  rw [Refused, haddr, cvorbGetFcn]
  by_cases hbusy : busy submodulenr = true
  · rw [if_pos hbusy]
    exact ⟨fun _ => ⟨_, rfl⟩, fun _ => .inl hbusy⟩
  · rw [if_neg hbusy]
    dsimp only
    split
    next hslot => exact ⟨fun _ => ⟨_, rfl⟩, fun _ => .inr hslot⟩
    next hslot =>
      constructor
      · rintro (h | h)
        · exact absurd h hbusy
        · exact absurd h hslot
      · rintro ⟨e, he⟩
        cases he

/-! ### The calls of the library -/

def Fails (r : Except LibError (U16 × U16)) : Prop := ∃ e, r = .error e

theorem not_fails {r : Except LibError (U16 × U16)} (h : ¬ Fails r) : ∃ v, r = .ok v := by
  cases r with
  | error e => exact absurd ⟨e, rfl⟩ h
  | ok v => exact ⟨v, rfl⟩

theorem setFcn_nonempty (route : Route) (busy : ℕ → Bool) {chnr fcnnr : U32}
    (value : ℕ → VectorFcn) {nVector : U32} (hn : nVector ≠ 0) :
    ∃ fuel ws, cvorbChSetFcnWrites route busy chnr fcnnr value nVector fuel = some ws ∧
      Inside ws := by
  by_cases hbad : badNumbers chnr fcnnr ∨ nVector.toNat > CVORB_MAX_VECTOR
  · refine ⟨0, [], ?_, inside_nil⟩
    rw [cvorbChSetFcnWrites, if_pos hbad]
  · have hmax : nVector.toNat ≤ 680 := not_lt.1 fun h => hbad (.inr h)
    have hpos : nVector.toNat ≠ 0 := fun h => hn (BitVec.eq_of_toNat_eq h)
    have hvtr : (nVector - 1).toNat = nVector.toNat - 1 := by
      have h1 : (1 : U32).toNat = 1 := rfl
      rw [BitVec.toNat_sub, h1]
      omega
    have hfit := half_words_fit (nVector - 1) (by rw [hvtr, CVORB_MAX_VECTOR]; omega)
    have h1 : (1 : U32).toNat = 1 := rfl
    obtain ⟨r, ws, hrun, hws⟩ := encodeLoop_returns value (nVector - 1)
      (2 * hwFcnSize32 (nVector - 1)) (by omega) ((nVector - 1).toNat + 1) 1 3 (by omega) (by omega)
    have hin : Inside (fill (2 * hwFcnSize32 (nVector - 1)) 3 ++ ws) := by
      refine inside_append.2 ⟨inside_fill.2 (by omega), fun w hw => ?_⟩
      obtain ⟨hsize, hindex⟩ := hws w hw
      rw [Write.Inside, hsize]
      omega
    refine ⟨(nVector - 1).toNat + 1, ?_⟩
    simp only [cvorbChSetFcnWrites, if_neg hbad, hrun]
    cases r with
    | error e => exact ⟨_, rfl, hin⟩
    | ok u =>
      exact ⟨_, rfl, inside_append.2 ⟨hin, inside_setFcnWrites.2 (.inr (submoduleNr_lt _))⟩⟩

theorem setFcn_safe_iff (route : Route) (busy : ℕ → Bool) {chnr fcnnr : U32}
    {value : ℕ → VectorFcn} {nVector : U32} :
    (∃ fuel ws, cvorbChSetFcnWrites route busy chnr fcnnr value nVector fuel = some ws ∧
        Inside ws) ↔
      badNumbers chnr fcnnr ∨ nVector ≠ 0 ∨
        Fails (computeHwVector (value 0) (value 1)) ∨
        Fails (computeHwVector (value 1) (value 2)) := by
  by_cases hn : nVector ≠ 0
  · exact ⟨fun _ => .inr (.inl hn), fun _ => setFcn_nonempty route busy value hn⟩
  obtain rfl : nVector = 0 := not_not.1 hn
  by_cases hbad : badNumbers chnr fcnnr
  · refine ⟨fun _ => .inl hbad, fun _ => ⟨0, [], ?_, inside_nil⟩⟩
    rw [cvorbChSetFcnWrites, if_pos (.inl hbad)]
  have hgo : ¬(badNumbers chnr fcnnr ∨ (0 : U32).toNat > CVORB_MAX_VECTOR) := by
    rintro (h | h)
    · exact hbad h
    · exact absurd h (by decide)
  have harea : 2 * hwFcnSize32 (0 - 1) = 6 := by rw [hwFcnSize32_wrapped]
  simp only [cvorbChSetFcnWrites, if_neg hgo, harea]
  constructor
  · rintro ⟨fuel, ws, hrun, hin⟩
    by_contra hnone
    push Not at hnone
    obtain ⟨-, -, h₁, h₂⟩ := hnone
    obtain ⟨v₁, h₁⟩ := not_fails h₁
    obtain ⟨v₂, h₂⟩ := not_fails h₂
    cases hloop : encodeLoop value (0 - 1) 6 fuel 1 3 with
    | none =>
      rw [hloop] at hrun
      cases hrun
    | some p =>
      obtain ⟨r, vs⟩ := p
      have hvs := encodeLoop_wrapped h₁ h₂ hloop
      rw [hloop] at hrun
      cases r with
      | error e =>
        cases hrun
        exact hvs (inside_append.1 hin).2
      | ok u =>
        cases hrun
        exact hvs (inside_append.1 (inside_append.1 hin).1).2
  · have hheader : Inside (fill 6 3) := inside_fill.2 (by omega)
    rintro (h | h | ⟨e, h⟩ | ⟨e, h⟩)
    · exact absurd h hbad
    · exact absurd rfl h
    · have hfirst : computeHwVector (value ((1 : U32) - 1).toNat) (value (1 : U32).toNat) =
          .error e := h
      refine ⟨1, fill 6 3 ++ [], ?_, inside_append.2 ⟨hheader, inside_nil⟩⟩
      rw [encodeLoop, if_pos (le_wrapped _), hfirst]
    · have hsecond : computeHwVector (value ((1 + 1 : U32) - 1).toNat)
          (value (1 + 1 : U32).toNat) = .error e := h
      cases hfirst : computeHwVector (value ((1 : U32) - 1).toNat) (value (1 : U32).toNat) with
      | error e' =>
        refine ⟨1, fill 6 3 ++ [], ?_, inside_append.2 ⟨hheader, inside_nil⟩⟩
        rw [encodeLoop, if_pos (le_wrapped _), hfirst]
      | ok v =>
        refine ⟨2, fill 6 3 ++ [⟨6, 3⟩, ⟨6, 3 + 1⟩, ⟨6, 3 + 2⟩], ?_,
          inside_append.2 ⟨hheader, by decide⟩⟩
        rw [encodeLoop, if_pos (le_wrapped _), hfirst]
        rw [encodeLoop, if_pos (le_wrapped _), hsecond]

theorem getFcn_safe_iff (route : Route) (busy : ℕ → Bool) {chnr fcnnr nVector : U32} {b : Board} :
    Inside (cvorbChGetFcnWrites route busy chnr fcnnr nVector b) ↔
      badNumbers chnr fcnnr ∨
        Refused busy b (submoduleNr chnr.toNat) (channelNr chnr.toNat) (fcnnr.toNat - 1) ∨
        route = .sysfs ∧ residentVectors b (submoduleNr chnr.toNat) (channelNr chnr.toNat)
          (fcnnr.toNat - 1) ≠ nVector.toNat := by
  have hlib : Inside (fill (hwFcnSize32 0) (fcnSize32 (residentVectors b
      (submoduleNr chnr.toNat) (channelNr chnr.toNat) (fcnnr.toNat - 1)))) ∨
      CVORB_MAX_VECTOR ≤ residentVectors b (submoduleNr chnr.toNat) (channelNr chnr.toNat)
        (fcnnr.toNat - 1) := by
    rw [inside_fill, show hwFcnSize32 0 = 1025 from by decide]
    by_contra hno
    push Not at hno
    have hlt := fcnSize32_lt_page hno.2
    have hpage : pageSize / 4 = 1024 := rfl
    omega
  have hsub := submoduleNr_lt chnr.toNat
  rw [cvorbChGetFcnWrites]
  by_cases hbad : badNumbers chnr fcnnr
  · rw [if_pos hbad]
    exact ⟨fun _ => .inl hbad, fun _ => inside_nil⟩
  rw [if_neg hbad]
  dsimp only
  generalize submoduleNr chnr.toNat = sub at *
  generalize channelNr chnr.toNat = chan at *
  generalize fcnnr.toNat - 1 = fcn at *
  by_cases href : Refused busy b sub chan fcn
  · have hdriver : Inside (getFcnWrites route busy sub chan fcn (hwFcnSize32 0) b) := by
      cases route with
      | sysfs => exact inside_getFcnWrites_sysfs hsub
      | ioctl => exact inside_getFcnWrites_ioctl.2 (.inr ⟨hsub, href⟩)
    rw [if_pos href]
    exact ⟨fun _ => .inr (.inl href), fun _ => hdriver⟩
  rw [if_neg href]
  have hlib := hlib.resolve_right fun h => href (.inr (.inr h))
  cases route with
  | ioctl =>
    -- the driver has written behind its area already
    have hdriver : ¬ Inside (getFcnWrites .ioctl busy sub chan fcn (hwFcnSize32 0) b) := by
      intro hin
      rcases inside_getFcnWrites_ioctl.1 hin with h | h
      · exact href (.inl h)
      · exact href h.2
    constructor
    · intro hin
      refine absurd ?_ hdriver
      split at hin
      · exact (inside_append.1 hin).1
      · exact (inside_append.1 (inside_append.1 hin).1).1
    · rintro (h | h | ⟨h, -⟩)
      · exact absurd h hbad
      · exact absurd h href
      · cases h
  | sysfs =>
    have hdriver : Inside (getFcnWrites .sysfs busy sub chan fcn (hwFcnSize32 0) b) :=
      inside_getFcnWrites_sysfs hsub
    have hread := inside_append.2 ⟨hdriver, hlib⟩
    by_cases hfew : residentVectors b sub chan fcn > nVector.toNat
    · rw [if_pos hfew]
      exact ⟨fun _ => .inr (.inr ⟨rfl, by omega⟩), fun _ => hread⟩
    · rw [if_neg hfew, inside_append, inside_fill]
      constructor
      · rintro ⟨-, hroom⟩
        exact .inr (.inr ⟨rfl, by omega⟩)
      · rintro (h | h | ⟨-, h⟩)
        · exact absurd h hbad
        · exact absurd h href
        · exact ⟨hread, by omega⟩

/-! ### Every call -/

/-- When a call writes inside its areas: a table that is not empty, a function with room for one
more point than it has vectors, and no function read by an `ioctl`. -/
def FcnCall.Bounded (busy : ℕ → Bool) (b : Board) : FcnCall → Prop
  | .setFcn _ chnr fcnnr value nVector =>
    badNumbers chnr fcnnr ∨ nVector ≠ 0 ∨ Fails (computeHwVector (value 0) (value 1)) ∨
      Fails (computeHwVector (value 1) (value 2))
  | .getFcn route chnr fcnnr nVector =>
    badNumbers chnr fcnnr ∨
      Refused busy b (submoduleNr chnr.toNat) (channelNr chnr.toNat) (fcnnr.toNat - 1) ∨
      route = .sysfs ∧ residentVectors b (submoduleNr chnr.toNat) (channelNr chnr.toNat)
        (fcnnr.toNat - 1) ≠ nVector.toNat
  | .ioctlSetFcn fcn =>
    busy fcn.submodulenr.toNat = true ∨ fcn.submodulenr.toNat < CVORB_SUBMODULES
  | .ioctlGetFcn fcn =>
    busy fcn.submodulenr.toNat = true ∨ fcn.submodulenr.toNat < CVORB_SUBMODULES ∧
      Refused busy b fcn.submodulenr.toNat fcn.channr.toNat fcn.fcnnr.toNat
  | .storeFcn _ _ => True
  | .readFcn _ _ _ => True

theorem exists_const_iff {ws : List Write} {p : List Write → Prop} :
    (∃ _ : ℕ, ∃ vs, some ws = some vs ∧ p vs) ↔ p ws := by
  constructor
  · rintro ⟨-, vs, hvs, hp⟩
    cases hvs
    exact hp
  · intro hp
    exact ⟨0, ws, rfl, hp⟩

/-- For every call, every state of the submodules and whatever the SRAM holds. -/
theorem FcnCall.safe_iff (c : FcnCall) (busy : ℕ → Bool) (b : Board) :
    c.Safe busy b ↔ c.Bounded busy b := by
  cases c with
  | setFcn route chnr fcnnr value nVector => exact setFcn_safe_iff route busy
  | getFcn route chnr fcnnr nVector => exact exists_const_iff.trans (getFcn_safe_iff route busy)
  | ioctlSetFcn fcn => exact exists_const_iff.trans inside_setFcnWrites
  | ioctlGetFcn fcn => exact exists_const_iff.trans inside_getFcnWrites_ioctl
  | storeFcn submodNr count =>
    exact exists_const_iff.trans (iff_of_true (inside_setFcnWrites.2 (.inr submodNr.2)) trivial)
  | readFcn submodNr chanNr fcnNr =>
    exact exists_const_iff.trans (iff_of_true (inside_getFcnWrites_sysfs submodNr.2) trivial)

/-- A function of one vector has two points, but passes for one that fits an array of one. -/
theorem one_point_too_many :
    ¬ ∀ (c : FcnCall) (busy : ℕ → Bool) (b : Board), c.Safe busy b := by
  intro h
  obtain ⟨fuel, ws, hws, hin⟩ := h (.getFcn .sysfs 1 1 1) (fun _ => false)
    (fun _ => ⟨0, fun _ => 1⟩)
  cases hws
  revert hin
  decide

end KernelModules.Cvorb
