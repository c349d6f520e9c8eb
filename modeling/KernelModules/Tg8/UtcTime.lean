import KernelModules.Lib.Calendar
import KernelModules.Lib.Transition

/-!
# The UTC time of the TG8 firmware

The second comes in two timing frames, with its low and its high word.  With the second one the firmware
works out the date and the time and puts them, in binary coded decimals, into `aDt`.

* `xrIsr` is what the interrupt routine does with a frame, as far as `aDt` is concerned, and `utcToTime`
  the conversion; the local variable that it fills in part comes as an argument, as whatever is on the
  stack;
* `yearLoop_eq` and `monthLoop_eq` are the two loops, and `utcToTime_date` the date of every second from
  2003 to 2099;
* `other_keeps` says what frames of other kinds leave alone;
* `utcFrames_iff` says when all of `aDt` is right afterwards: the drift is taken from the millisecond
  counter after the conversion has overwritten it.
-/

namespace KernelModules.Tg8.Firmware

open Finset KernelModules.Lib KernelModules.Lib.Calendar

/-! ### The program -/

/-- `Tg8DateTime`. -/
structure Tg8DateTime where
  aYear : BitVec 8
  aMonth : BitVec 8
  aDay : BitVec 8
  aSpare1 : BitVec 8
  aRcvErr : BitVec 8
  aHour : BitVec 8
  aMinute : BitVec 8
  aSecond : BitVec 8
  aMilliSecond : BitVec 16
  aMsDrift : BitVec 16
  deriving DecidableEq, Repr

/-- `rcv_error`. -/
structure RcvError where
  err : BitVec 8
  hour : BitVec 8
  deriving DecidableEq, Repr

/-- `utc`, `rcv_error` and `aDt`. -/
structure TimeState where
  utc : BitVec 32
  rcvError : RcvError
  aDt : Tg8DateTime
  deriving DecidableEq, Repr

/-- `YR`. -/
def yr : BitVec 32 := 1041379200

/-- `YY`. -/
def yy : ℕ := 3

/-- `dm`, as `SoftInit` fills it. -/
def dm : List ℕ := [31, 28, 31, 30, 31, 30, 31, 31, 30, 31, 30, 31]

/-- `DecToBcd`. -/
def decToBcd (dec : BitVec 8) : BitVec 8 := ((dec / 10) <<< 4) ||| ((dec % 10) &&& 0xF)

/-- The seconds of a year of the loop, `x` with its leap day. -/
def yearSeconds (i : ℕ) : ℕ := if (i + yy) % 4 = 0 then 31536000 + 86400 else 31536000

theorem yearSeconds_pos (i : ℕ) : 0 < yearSeconds i := by
  unfold yearSeconds
  split <;> omega

/-- The loop over the years: the year, what is left of the second, and whether it is a leap year. -/
def yearLoop (i utc : ℕ) : ℕ × ℕ × Bool :=
  if yearSeconds i ≤ utc then yearLoop (i + 1) (utc - yearSeconds i)
  else (i, utc, (i + yy) % 4 = 0)
termination_by utc
decreasing_by
  have hpos := yearSeconds_pos i
  omega

/-- The seconds of a month of the loop, if there is such a month in the table. -/
def monthSeconds (lp : Bool) (i : ℕ) : Option ℕ :=
  dm[i]?.map fun d => if lp ∧ i = 1 then d * 86400 + 86400 else d * 86400

/-- The loop over the months. -/
def monthLoop (lp : Bool) (i utc : ℕ) : Option (ℕ × ℕ) :=
  if i < dm.length then
    (monthSeconds lp i).bind fun x =>
      if x ≤ utc then monthLoop lp (i + 1) (utc - x) else some (i, utc)
  else none
termination_by dm.length - i

/-- `UtcToTime`, of the second `utc` and with the local variable `ldt`. -/
def utcToTime (utc : BitVec 32) (ldt : Tg8DateTime) : Option Tg8DateTime :=
  let y := yearLoop 0 (utc - yr).toNat
  (monthLoop y.2.2 0 y.2.1).map fun m =>
    { ldt with
      aYear := decToBcd (BitVec.ofNat 8 (yy + y.1))
      aMonth := decToBcd (BitVec.ofNat 8 (m.1 + 1))
      aDay := decToBcd (BitVec.ofNat 8 (m.2 / 86400 + 1))
      aHour := decToBcd (BitVec.ofNat 8 (m.2 % 86400 / 3600))
      aMinute := decToBcd (BitVec.ofNat 8 (m.2 % 86400 % 3600 / 60))
      aSecond := decToBcd (BitVec.ofNat 8 (m.2 % 86400 % 3600 % 60)) }

/-- The header of a frame. -/
def header (frame : BitVec 32) : BitVec 8 := frame.extractLsb' 24 8

/-- `Utc.UtcWord` of a frame. -/
def utcWord (frame : BitVec 32) : BitVec 16 := frame.extractLsb' 0 16

/-- `rcv_error` with a new error, copied to `aDt` with its hour. -/
def TimeState.receive (s : TimeState) (err : BitVec 8) : TimeState :=
  { s with
    rcvError := { s.rcvError with err := err }
    aDt := { s.aDt with aRcvErr := err, aHour := s.rcvError.hour } }

/-- `Xr_Isr`, with the receiver error `err` and what is on the stack. -/
def xrIsr (frame : BitVec 32) (err : BitVec 8) (stack : Tg8DateTime) (s : TimeState) :
    Option TimeState :=
  if header frame = 0x01 then
    let ms := s.aDt.aMilliSecond + 1
    some (({ s with aDt := { s.aDt with aMilliSecond := if 999 < ms then 0 else ms } } :
      TimeState).receive err)
  else if header frame = 0xB5 then some { s with utc := (utcWord frame).setWidth 32 }
  else if header frame = 0xB6 then
    (utcToTime (s.utc ||| ((utcWord frame).setWidth 32 <<< 16)) stack).map fun aDt =>
      { utc := 0
        rcvError := { s.rcvError with hour := aDt.aHour }
        aDt := { aDt with aMsDrift := aDt.aMilliSecond, aMilliSecond := 998 } }
  else some s

/-- What happens to the time: a frame is received, or `MbxProcess` finds a receiver error. -/
inductive TimeStep
  | frame (frame : BitVec 32) (err : BitVec 8) (stack : Tg8DateTime)
  | rcvError (err : BitVec 8)
  deriving DecidableEq, Repr

/-- One step. -/
def timeStep (s : TimeState) : TimeStep → Option TimeState
  | .frame f err stack => xrIsr f err stack s
  | .rcvError err => if err = 0 then some s else some (s.receive err)

/-- The step is not the reception of a UTC frame. -/
def TimeStep.Other : TimeStep → Prop
  | .frame f _ _ => header f ≠ 0xB5 ∧ header f ≠ 0xB6
  | .rcvError _ => True

/-! ### The conversion -/

/-- A number below hundred in binary coded decimals. -/
def bcd (n : ℕ) : BitVec 8 := BitVec.ofNat 8 (n / 10 * 16 + n % 10)

theorem decToBcd_ofNat {n : ℕ} (h : n < 100) : decToBcd (BitVec.ofNat 8 n) = bcd n := by
  have hall : ∀ k : Fin 100, decToBcd (BitVec.ofNat 8 k) = bcd k := by decide
  exact hall ⟨n, h⟩

theorem leap_iff {i : ℕ} (hi : i < 97) : (i + yy) % 4 = 0 ↔ IsLeap (2003 + i) := by
  unfold yy IsLeap
  omega

theorem yearSeconds_eq {i : ℕ} (hi : i < 97) : yearSeconds i = daysInYear (2003 + i) * 86400 := by
  unfold yearSeconds daysInYear
  simp only [leap_iff hi]
  split <;> rfl

theorem yearLoop_eq {i y r : ℕ} (hi : 2003 + i ≤ y) (hy : y < 2100)
    (hr : r < daysInYear y * 86400) :
    yearLoop i ((∑ k ∈ Ico (2003 + i) y, daysInYear k) * 86400 + r) =
      (y - 2003, r, decide (IsLeap y)) := by
  induction hn : y - (2003 + i) generalizing i with
  | zero =>
    obtain rfl : y = 2003 + i := by omega
    rw [yearLoop, Ico_self, sum_empty, Nat.zero_mul, Nat.zero_add, yearSeconds_eq (by omega),
      if_neg (by omega), Nat.add_sub_cancel_left]
    simp only [leap_iff (show i < 97 by omega)]
  | succ n ih =>
    have hlt : 2003 + i < y := by omega
    rw [yearLoop, sum_eq_sum_Ico_succ_bot hlt, yearSeconds_eq (by omega), Nat.add_mul,
      if_pos (by omega), ← ih (i := i + 1) (by omega) (by omega)]
    congr 1
    rw [← Nat.add_assoc 2003 i 1]
    omega

theorem monthSeconds_eq {y i : ℕ} (hi : i < 12) :
    monthSeconds (decide (IsLeap y)) i = some (daysInMonth y (i + 1) * 86400) := by
  unfold daysInMonth monthSeconds
  by_cases hleap : IsLeap y
  · simp only [hleap]
    revert i
    decide
  · simp only [hleap]
    revert i
    decide

theorem monthLoop_eq {y i m r : ℕ} (hi : i + 1 ≤ m) (hm : m ≤ 12)
    (hr : r < daysInMonth y m * 86400) :
    monthLoop (decide (IsLeap y)) i ((∑ k ∈ Ico (i + 1) m, daysInMonth y k) * 86400 + r) =
      some (m - 1, r) := by
  have hlen : i < dm.length := show i < 12 by omega
  induction hn : m - (i + 1) generalizing i with
  | zero =>
    obtain rfl : m = i + 1 := by omega
    rw [monthLoop, if_pos hlen, monthSeconds_eq (by omega), Option.bind_some, Ico_self, sum_empty,
      Nat.zero_mul, Nat.zero_add, if_neg (by omega), Nat.add_sub_cancel]
  | succ n ih =>
    have hlt : i + 1 < m := by omega
    rw [monthLoop, if_pos hlen, monthSeconds_eq (by omega), Option.bind_some,
      sum_eq_sum_Ico_succ_bot hlt, Nat.add_mul, if_pos (by omega),
      ← ih (i := i + 1) (by omega) (show i + 1 < 12 by omega) (by omega)]
    congr 1
    omega

/-- The date and the time of `aDt`. -/
structure Shows (dt : Tg8DateTime) (d : DateTime) : Prop where
  year : dt.aYear = bcd (d.year % 100)
  month : dt.aMonth = bcd d.month
  day : dt.aDay = bcd d.day
  hour : dt.aHour = bcd d.hour
  minute : dt.aMinute = bcd d.minute
  second : dt.aSecond = bcd d.second

theorem seconds_2003 : (∑ k ∈ Ico 1970 2003, daysInYear k) * 86400 = 1041379200 := by
  decide +kernel

theorem seconds_2100 : (∑ k ∈ Ico 1970 2100, daysInYear k) * 86400 = 4102444800 := by
  decide +kernel

theorem toNat_yr : yr.toNat = (∑ k ∈ Ico 1970 2003, daysInYear k) * 86400 := by
  rw [seconds_2003]
  rfl

theorem utcToTime_date {n : ℕ} {d : DateTime} (hd : IsDate n d) (hfrom : 2003 ≤ d.year)
    (hto : d.year < 2100) (hn : n < 2 ^ 32) (ldt : Tg8DateTime) :
    ∃ dt, utcToTime (BitVec.ofNat 32 n) ldt = some dt ∧ Shows dt d ∧
      dt.aMilliSecond = ldt.aMilliSecond := by
  obtain ⟨hvalid, -, hunix⟩ := hd
  have hsplit := sum_Ico_consecutive daysInYear (show 1970 ≤ 2003 by norm_num) hfrom
  have hyr := toNat_yr
  have hsec : (BitVec.ofNat 32 n - yr).toNat =
      (∑ k ∈ Ico (2003 + 0) d.year, daysInYear k) * 86400 + secondOfYear d := by
    rw [BitVec.toNat_sub, BitVec.toNat_ofNat, Nat.mod_eq_of_lt hn]
    have hle : yr.toNat ≤ 2 ^ 32 := yr.isLt.le
    unfold unixTime at hunix
    rw [← hsplit] at hunix
    rw [Nat.add_zero]
    omega
  have hday := hvalid.day_le
  have hpos := hvalid.day_pos
  have hhour := hvalid.hour_lt
  have hminute := hvalid.minute_lt
  have hsecond := hvalid.second_lt
  have hfew : daysInMonth d.year d.month ≤ 31 := by
    unfold daysInMonth
    split_ifs <;> omega
  set left := (d.day - 1) * 86400 + (d.hour * 3600 + d.minute * 60 + d.second) with hleft
  have hmonths : secondOfYear d = (∑ k ∈ Ico (0 + 1) d.month, daysInMonth d.year k) * 86400 + left := by
    rw [hleft, secondOfYear, Nat.add_mul, Nat.add_assoc]
  have hmonth := monthLoop_eq (y := d.year) (i := 0) (r := left) hvalid.month_pos hvalid.month_le
    (by omega)
  unfold utcToTime
  rw [hsec, yearLoop_eq hfrom hto hvalid.secondOfYear_lt]
  dsimp only
  rw [hmonths, hmonth]
  refine ⟨_, rfl, ⟨?_, ?_, ?_, ?_, ?_, ?_⟩, rfl⟩
  · show decToBcd (BitVec.ofNat 8 (yy + (d.year - 2003))) = _
    rw [show yy + (d.year - 2003) = d.year % 100 by unfold yy; omega]
    exact decToBcd_ofNat (Nat.mod_lt _ (by norm_num))
  · show decToBcd (BitVec.ofNat 8 (d.month - 1 + 1)) = _
    rw [Nat.sub_add_cancel hvalid.month_pos]
    exact decToBcd_ofNat (by have := hvalid.month_le; omega)
  · show decToBcd (BitVec.ofNat 8 (left / 86400 + 1)) = _
    rw [show left / 86400 + 1 = d.day by omega]
    exact decToBcd_ofNat (by omega)
  · show decToBcd (BitVec.ofNat 8 (left % 86400 / 3600)) = _
    rw [show left % 86400 / 3600 = d.hour by omega]
    exact decToBcd_ofNat (by omega)
  · show decToBcd (BitVec.ofNat 8 (left % 86400 % 3600 / 60)) = _
    rw [show left % 86400 % 3600 / 60 = d.minute by omega]
    exact decToBcd_ofNat (by omega)
  · show decToBcd (BitVec.ofNat 8 (left % 86400 % 3600 % 60)) = _
    rw [show left % 86400 % 3600 % 60 = d.second by omega]
    exact decToBcd_ofNat (by omega)

/-! ### Frames -/

/-- What other frames need and leave alone: the date with its drift, and the hour that a millisecond
frame copies. -/
structure Keeps (s s' : TimeState) : Prop where
  utc : s'.utc = s.utc
  hour : s'.rcvError.hour = s.rcvError.hour
  date : s.aDt.aHour = s.rcvError.hour → s'.aDt.aHour = s.aDt.aHour
  year : s'.aDt.aYear = s.aDt.aYear
  month : s'.aDt.aMonth = s.aDt.aMonth
  day : s'.aDt.aDay = s.aDt.aDay
  minute : s'.aDt.aMinute = s.aDt.aMinute
  second : s'.aDt.aSecond = s.aDt.aSecond
  drift : s'.aDt.aMsDrift = s.aDt.aMsDrift

theorem Keeps.trans {s t u : TimeState} (h : Keeps s t) (h' : Keeps t u) : Keeps s u where
  utc := h'.utc.trans h.utc
  hour := h'.hour.trans h.hour
  date hs := by
    have ht := h.date hs
    rw [← ht]
    exact h'.date (by rw [ht, hs, h.hour])
  year := h'.year.trans h.year
  month := h'.month.trans h.month
  day := h'.day.trans h.day
  minute := h'.minute.trans h.minute
  second := h'.second.trans h.second
  drift := h'.drift.trans h.drift

theorem receive_keeps (s : TimeState) (err : BitVec 8) : Keeps s (s.receive err) :=
  ⟨rfl, rfl, fun h => h.symm, rfl, rfl, rfl, rfl, rfl, rfl⟩

theorem other_keeps {a : TimeStep} (ha : a.Other) (s : TimeState) :
    ∃ s', timeStep s a = some s' ∧ Keeps s s' := by
  cases a with
  | frame f err stack =>
    unfold timeStep xrIsr
    dsimp only
    rw [if_neg ha.1, if_neg ha.2]
    split
    · refine ⟨_, rfl, Keeps.trans ?_ (receive_keeps _ err)⟩
      exact ⟨rfl, rfl, fun _ => rfl, rfl, rfl, rfl, rfl, rfl, rfl⟩
    · exact ⟨s, rfl, rfl, rfl, fun _ => rfl, rfl, rfl, rfl, rfl, rfl, rfl⟩
  | rcvError err =>
    unfold timeStep
    dsimp only
    split
    · exact ⟨s, rfl, rfl, rfl, fun _ => rfl, rfl, rfl, rfl, rfl, rfl, rfl⟩
    · exact ⟨_, rfl, receive_keeps s err⟩

theorem others_keep {as : List TimeStep} (h : ∀ a ∈ as, a.Other) (s : TimeState) :
    ∃ s', System.runFun timeStep s as = some s' ∧ Keeps s s' := by
  induction as generalizing s with
  | nil => exact ⟨s, rfl, rfl, rfl, fun _ => rfl, rfl, rfl, rfl, rfl, rfl, rfl⟩
  | cons a as ih =>
    obtain ⟨t, ht, hkeeps⟩ := other_keeps (h a List.mem_cons_self) s
    obtain ⟨u, hu, hrest⟩ := ih (fun b hb => h b (List.mem_cons_of_mem a hb)) t
    exact ⟨u, by rw [System.runFun, ht, Option.bind_some, hu], hkeeps.trans hrest⟩

/-- The two frames of a second. -/
structure UtcFrames (n : ℕ) (low high : BitVec 32) : Prop where
  low_header : header low = 0xB5
  low_word : (utcWord low).toNat = n % 2 ^ 16
  high_header : header high = 0xB6
  high_word : (utcWord high).toNat = n / 2 ^ 16

/-- The second is one of the years from 2003 to 2099. -/
def InYears (n : ℕ) : Prop :=
  unixTime ⟨2003, 1, 1, 0, 0, 0⟩ ≤ n ∧ n ≤ unixTime ⟨2099, 12, 31, 23, 59, 59⟩

instance (n : ℕ) : Decidable (InYears n) := inferInstanceAs (Decidable (_ ∧ _))

/-- The date and the time of a second, which has one. -/
def ShowsSecond (n : ℕ) (dt : Tg8DateTime) : Prop :=
  (∃ d, IsDate n d) ∧ ∀ d, IsDate n d → Shows dt d

theorem utc_eq {n : ℕ} (hn : n < 2 ^ 32) {low high : BitVec 16} (hlow : low.toNat = n % 2 ^ 16)
    (hhigh : high.toNat = n / 2 ^ 16) :
    low.setWidth 32 ||| (high.setWidth 32 <<< 16) = BitVec.ofNat 32 n := by
  have hshift : (n / 2 ^ 16) <<< 16 % 2 ^ 32 = 2 ^ 16 * (n / 2 ^ 16) := by
    rw [Nat.shiftLeft_eq, Nat.mul_comm]
    exact Nat.mod_eq_of_lt (by omega)
  apply BitVec.eq_of_toNat_eq
  rw [BitVec.toNat_or, BitVec.toNat_shiftLeft, BitVec.toNat_setWidth, BitVec.toNat_setWidth, hlow,
    hhigh, BitVec.toNat_ofNat, Nat.mod_eq_of_lt (show n % 2 ^ 16 < 2 ^ 32 by omega),
    Nat.mod_eq_of_lt (show n / 2 ^ 16 < 2 ^ 32 by omega), Nat.mod_eq_of_lt hn, hshift, Nat.or_comm,
    ← Nat.two_pow_add_eq_or_of_lt (Nat.mod_lt n (by norm_num))]
  exact Nat.div_add_mod n (2 ^ 16)

theorem inYears_iff (n : ℕ) : InYears n ↔ 1041379200 ≤ n ∧ n < 4102444800 := by
  have hfrom : unixTime ⟨2003, 1, 1, 0, 0, 0⟩ = 1041379200 := by decide +kernel
  have hto : unixTime ⟨2099, 12, 31, 23, 59, 59⟩ = 4102444799 := by decide +kernel
  unfold InYears
  rw [hfrom, hto]
  omega

theorem utcFrames_date {n : ℕ} (hn : InYears n) {low high : BitVec 32} (hf : UtcFrames n low high)
    {between after : List TimeStep} (hbetween : ∀ a ∈ between, a.Other)
    (hafter : ∀ a ∈ after, a.Other) (s : TimeState) (err err' : BitVec 8)
    (stack stack' : Tg8DateTime) :
    ∃ s₁ s₂, System.runFun timeStep s (.frame low err stack :: between) = some s₁ ∧
      System.runFun timeStep s₁ (.frame high err' stack' :: after) = some s₂ ∧
      ShowsSecond n s₂.aDt ∧ s₂.aDt.aMsDrift = stack'.aMilliSecond := by
  obtain ⟨hfrom, hto⟩ := (inYears_iff n).mp hn
  have hword : n < 2 ^ 32 := by omega
  have hlow : timeStep s (.frame low err stack) =
      some { s with utc := (utcWord low).setWidth 32 } := by
    unfold timeStep xrIsr
    dsimp only
    rw [hf.low_header]
    rfl
  obtain ⟨s₁, hs₁, hkeeps₁⟩ := others_keep hbetween { s with utc := (utcWord low).setWidth 32 }
  have hutc : s₁.utc ||| ((utcWord high).setWidth 32 <<< 16) = BitVec.ofNat 32 n := by
    rw [hkeeps₁.utc]
    exact utc_eq hword hf.low_word hf.high_word
  have hlt : n < (∑ k ∈ Ico 1970 2100, daysInYear k) * 86400 := by
    rw [seconds_2100]
    exact hto
  obtain ⟨d, hd⟩ := exists_isDate (by norm_num) hlt
  have hyears (d' : DateTime) (hd' : IsDate n d') : 2003 ≤ d'.year ∧ d'.year < 2100 := by
    refine ⟨hd'.le_year ?_, hd'.year_lt hlt⟩
    rw [seconds_2003]
    exact hfrom
  obtain ⟨dt, hdt, -, hms⟩ := utcToTime_date hd (hyears d hd).1 (hyears d hd).2 hword stack'
  have hshows (d' : DateTime) (hd' : IsDate n d') : Shows dt d' := by
    obtain ⟨dt', hdt', hshows, -⟩ :=
      utcToTime_date hd' (hyears d' hd').1 (hyears d' hd').2 hword stack'
    rw [hdt] at hdt'
    exact Option.some.inj hdt' ▸ hshows
  set t : TimeState := ⟨0, { s₁.rcvError with hour := dt.aHour },
    { dt with aMsDrift := dt.aMilliSecond, aMilliSecond := 998 }⟩ with ht
  have hhigh : timeStep s₁ (.frame high err' stack') = some t := by
    unfold timeStep xrIsr
    dsimp only
    rw [hf.high_header, hutc, hdt]
    rfl
  obtain ⟨s₂, hs₂, hkeeps₂⟩ := others_keep hafter t
  refine ⟨s₁, s₂, ?_, ?_, ⟨⟨d, hd⟩, fun d' hd' => ?_⟩, hkeeps₂.drift.trans hms⟩
  · rw [System.runFun, hlow, Option.bind_some, hs₁]
  · rw [System.runFun, hhigh, Option.bind_some, hs₂]
  · have h := hshows d' hd'
    exact ⟨hkeeps₂.year.trans h.year, hkeeps₂.month.trans h.month, hkeeps₂.day.trans h.day,
      (hkeeps₂.date rfl).trans h.hour, hkeeps₂.minute.trans h.minute, hkeeps₂.second.trans h.second⟩

/-- **After the two frames of a second** the date and the time are those of the second, and the drift is
the millisecond counter at the second frame exactly when that lay on the stack where the conversion has
its local variable. -/
theorem utcFrames_iff {n : ℕ} (hn : InYears n) {low high : BitVec 32} (hf : UtcFrames n low high)
    {between after : List TimeStep} (hbetween : ∀ a ∈ between, a.Other)
    (hafter : ∀ a ∈ after, a.Other) (s : TimeState) (err err' : BitVec 8)
    (stack stack' : Tg8DateTime) :
    ∃ s₁, System.runFun timeStep s (.frame low err stack :: between) = some s₁ ∧
      ((∃ s₂, System.runFun timeStep s₁ (.frame high err' stack' :: after) = some s₂ ∧
          ShowsSecond n s₂.aDt ∧ s₂.aDt.aMsDrift = s₁.aDt.aMilliSecond) ↔
        stack'.aMilliSecond = s₁.aDt.aMilliSecond) := by
  obtain ⟨s₁, s₂, hs₁, hs₂, hshows, hdrift⟩ :=
    utcFrames_date hn hf hbetween hafter s err err' stack stack'
  refine ⟨s₁, hs₁, ?_, fun heq => ⟨s₂, hs₂, hshows, hdrift.trans heq⟩⟩
  rintro ⟨t, ht, -, heq⟩
  obtain rfl : s₂ = t := Option.some.inj (hs₂.symm.trans ht)
  exact hdrift.symm.trans heq

/-- The stack is clear. -/
def clearStack : Tg8DateTime := ⟨0, 0, 0, 0, 0, 0, 0, 0, 0, 0⟩

/-- The millisecond counter is at `ms`. -/
def atMillisecond (ms : BitVec 16) : TimeState := ⟨0, ⟨0, 0⟩, { clearStack with aMilliSecond := ms }⟩

/-- The first second of 2003. -/
theorem utcFrames_iff_2003 :
    ∃ s₁, System.runFun timeStep (atMillisecond 0) [.frame 0xB5002F80 0 clearStack] = some s₁ ∧
      ((∃ s₂, System.runFun timeStep s₁ [.frame 0xB6003E12 0 clearStack] = some s₂ ∧
          ShowsSecond 1041379200 s₂.aDt ∧ s₂.aDt.aMsDrift = s₁.aDt.aMilliSecond) ↔
        clearStack.aMilliSecond = s₁.aDt.aMilliSecond) :=
  @utcFrames_iff 1041379200 (by decide +kernel) 0xB5002F80 0xB6003E12
    ⟨by decide, by decide, by decide, by decide⟩ [] [] (by simp) (by simp) _ 0 0 clearStack clearStack

/-- The drift is lost: it comes from the stack. -/
theorem drift_lost :
    ¬ ∃ s₁ s₂, System.runFun timeStep (atMillisecond 500) [.frame 0xB5002F80 0 clearStack] = some s₁ ∧
      System.runFun timeStep s₁ [.frame 0xB6003E12 0 clearStack] = some s₂ ∧
      ShowsSecond 1041379200 s₂.aDt ∧ s₂.aDt.aMsDrift = s₁.aDt.aMilliSecond := by
  rintro ⟨s₁, s₂, hs₁, hs₂, -, hdrift⟩
  obtain ⟨t₁, t₂, ht₁, ht₂, -, hstack⟩ := @utcFrames_date 1041379200 (by decide +kernel) 0xB5002F80
    0xB6003E12 ⟨by decide, by decide, by decide, by decide⟩ [] [] (by simp) (by simp)
    (atMillisecond 500) 0 0 clearStack clearStack
  obtain rfl : s₁ = t₁ := Option.some.inj (hs₁.symm.trans ht₁)
  obtain rfl : s₂ = t₂ := Option.some.inj (hs₂.symm.trans ht₂)
  have hms : s₁.aDt.aMilliSecond = 500 := by
    obtain rfl : _ = s₁ := Option.some.inj hs₁
    rfl
  rw [hstack, hms] at hdrift
  exact absurd hdrift (by decide)

end KernelModules.Tg8.Firmware
