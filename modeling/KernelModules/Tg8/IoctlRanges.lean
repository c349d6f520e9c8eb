import Mathlib.Tactic
import KernelModules.Tg8.TableExtents
import KernelModules.Lib.Transition

/-!
# What the range requests of the TG8 driver touch

An `ioctl` of the TG8 driver works on the argument of the user where it lies: `rbounds` and `wbounds`
say how many bytes there can be read and written, and a null pointer counts as none.  Here each of
the requests for a range of rows, for the newest entries of a log and for the timing objects gives
how it ends and the list of its accesses, to the argument and to the tables of the driver.

* `transfer` is the loop over the blocks of the mailbox, `serveRange` is all the requests;
* `forall_transfer` says where a transfer writes, over all that the module may answer;
* `ranges_right_iff` is the exact condition.  The test of a range refuses the last row and lets
  counts from zero down through, which `ClearUserTable` takes as a size; the size of a log entry times
  a count wraps; and the counts of a log are read through a null pointer.

The numbers are those of the 32-bit system that the driver is for.
-/

namespace KernelModules.Tg8.Driver

open KernelModules.Lib

/-! ### Accesses -/

/-- Bytes of the argument that are read or written, and bytes of a table with 256 rows of `item`
bytes. -/
inductive Access
  | read (offset length : ℕ)
  | write (offset length : ℕ)
  | table (item offset length : ℕ)
  deriving DecidableEq

/-- How many bytes can be read and written at the argument: both are an `int`. -/
structure Bounds where
  rcnt : ℕ
  wcnt : ℕ
  rcnt_lt : rcnt < 2 ^ 31
  wcnt_lt : wcnt < 2 ^ 31

/-- The counts of a null pointer. -/
def Bounds.null : Bounds := ⟨0, 0, by decide, by decide⟩

/-- The access is inside what may be read or written, or inside its table. -/
def Access.Inside (b : Bounds) : Access → Prop
  | .read offset length => offset + length ≤ b.rcnt
  | .write offset length => offset + length ≤ b.wcnt
  | .table item offset length => offset + length ≤ item * tg8Actions

/-- How a request ends: with `EINVAL`, with `OK`, with `EIO`, with a status that was never set, or
not at all, as the module does not answer. -/
inductive Ending
  | refused
  | done
  | failed
  | unset
  | waiting
  deriving DecidableEq

/-! ### Mailbox transactions -/

/-- `Tg8MBX_BUFF_SIZE`. -/
def mbxBuffSize : ℕ := 0x62A - 5 * 2 * 24

def sizeofTg8User : ℕ := 8
def sizeofTg8Gate : ℕ := 4
def sizeofTg8PpmLine : ℕ := 12
def sizeofTg8Recording : ℕ := 16
def sizeofTg8History : ℕ := 16
def sizeofTg8Clock : ℕ := 20

/-- A request that the module answers once. -/
def transaction : List Bool → Ending
  | [] => .waiting
  | true :: _ => .done
  | false :: _ => .failed

/-- The loop of `GetAction` and its like, for items of `size` bytes that go to `offset`; the status
is the one of the last block. -/
def transfer (size : ℕ) : List Bool → Ending → ℕ → ℕ → Ending × List Access
  | _, st, _, 0 => (st, [])
  | [], _, _, _ + 1 => (.waiting, [])
  | false :: _, _, _, _ + 1 => (.failed, [])
  | true :: answers, _, offset, cnt + 1 =>
    let n := min (cnt + 1) (mbxBuffSize / size)
    let r := transfer size answers .done (offset + n * size) (cnt + 1 - n)
    (r.1, .write offset (n * size) :: r.2)

/-! ### The requests -/

/-- The requests, with what lies at the argument. -/
inductive RangeRequest
  | SET_ACTION_STATE (row cnt state : BitVec 32)
  | CLEAR_ACTION (row cnt : BitVec 32)
  | USER_TABLE (row cnt : BitVec 32)
  | RECORDING_TABLE (row cnt : BitVec 32)
  | GET_PPM_LINE (row cnt : BitVec 32)
  | HISTORY_TABLE (cnt : BitVec 32)
  | CLOCK_TABLE (cnt : BitVec 32)
  | OBJECT_PARAM (id : BitVec 32) (line sel value aux : BitVec 16)
  | OBJECTS_LIST (length : BitVec 32)

section Serve

variable {Dev Card : Type*} (m : Module Dev Card) (b : Bounds) (answers : List Bool)

/-- A row of the table of actions. -/
def actionAccess (an : ℕ) : Access := .table sizeofTg8User (sizeofTg8User * an) sizeofTg8User

/-- `ChangeActionState`. -/
def changeActionStateAccesses (row : ℕ) (rows : ℤ) : List Access :=
  (List.range rows.toNat).map fun i => actionAccess (row + i)

/-- `ClearUserTable`: the tables of the actions, the gates, the identifiers and the dimensions, when
the module has cleared its own. -/
def clearUserTableAccesses (row : ℕ) (rows : BitVec 32) : List Access :=
  if transaction answers = .done then
    [sizeofTg8User, sizeofTg8Gate, 4, 1].map fun item =>
      .table item (item * row) (rows * BitVec.ofNat 32 item).toNat
  else []

/-- The case `Tg8DrvrSET_ACTION_STATE`. -/
def serveSetActionState (row rows : BitVec 32) : Ending × List Access :=
  if b.rcnt < 12 then (.refused, [])
  else if validRange row rows = false then (.refused, [.read 0 8])
  else (transaction answers, .read 0 8 :: .read 8 4 ::
    changeActionStateAccesses (row.toNat - 1) rows.toInt)

/-- The case `Tg8DrvrCLEAR_ACTION`. -/
def serveClearAction (row rows : BitVec 32) : Ending × List Access :=
  if b.rcnt < 8 then (.refused, [])
  else if validRange row rows = false then (.refused, [.read 0 8])
  else (transaction answers, .read 0 8 :: clearUserTableAccesses answers (row.toNat - 1) rows)

/-- The bytes that an answer needs: `sizeof(header)+sizeof(item)*cnt`. -/
def resultSize (header item : ℕ) (cnt : BitVec 32) : ℕ :=
  (BitVec.ofNat 32 header + BitVec.ofNat 32 item * cnt).toNat

/-- A request that reads a range of rows. -/
def serveRows (item : ℕ) (row rows : BitVec 32) : Ending × List Access :=
  if b.rcnt < 8 then (.refused, [])
  else if validRange row rows = false ∨ b.wcnt < resultSize 8 item rows then
    (.refused, [.read 0 8])
  else
    let r := transfer item answers .unset 8 rows.toInt.toNat
    (r.1, .read 0 8 :: r.2)

/-- The case `Tg8DrvrUSER_TABLE`. -/
def serveUserTable (row rows : BitVec 32) : Ending × List Access :=
  serveRows b answers sizeofTg8User row rows

/-- The case `Tg8DrvrRECORDING_TABLE`. -/
def serveRecordingTable (row rows : BitVec 32) : Ending × List Access :=
  serveRows b answers sizeofTg8Recording row rows

/-- The case `Tg8DrvrGET_PPM_LINE`. -/
def serveGetPpmLine (row rows : BitVec 32) : Ending × List Access :=
  serveRows b answers sizeofTg8PpmLine row rows

/-- A request that reads the newest entries of a log. -/
def serveNewest (item : ℕ) (cnt : BitVec 32) : Ending × List Access :=
  if b.wcnt < resultSize 4 item cnt then (.refused, [.read 0 4])
  else
    let r := transfer item answers .unset 4 cnt.toInt.toNat
    (r.1, .read 0 4 :: r.2)

/-- The case `Tg8DrvrHISTORY_TABLE`. -/
def serveHistoryTable (cnt : BitVec 32) : Ending × List Access :=
  serveNewest b answers sizeofTg8History cnt

/-- The case `Tg8DrvrCLOCK_TABLE`. -/
def serveClockTable (cnt : BitVec 32) : Ending × List Access :=
  serveNewest b answers sizeofTg8Clock cnt

/-- What `ObjById` reads. -/
def objByIdAccesses (id : BitVec 32) : List Access :=
  (List.range ((m.objById id).elim m.size (· + 1))).map fun i => .table 4 (4 * i) 4

/-- What is done for a line of the object in row `an`. -/
def serveLine (an : ℕ) (line sel : BitVec 16) : Ending × List Access :=
  let row := actionAccess (lineRow an line)
  if (m.rows an).dim.toNat < line.toNat then (.refused, [.table 1 an 1, .read 4 2])
  else if sel = selState then (transaction answers, [.table 1 an 1, .read 4 2, .read 6 6, row])
  else if sel = selDelay then
    (transaction answers,
      .table 1 an 1 :: .read 4 2 :: .read 6 6 ::
        if transaction answers = .done then [row] else [])
  else (.refused, [.table 1 an 1, .read 4 2, .read 6 6])

/-- The case `Tg8DrvrOBJECT_PARAM`. -/
def serveObjectParam (id : BitVec 32) (line sel : BitVec 16) : Ending × List Access :=
  if b.rcnt < 12 then (.refused, [])
  else
    let r := (m.objById id).elim (.refused, [.write 0 4]) fun an => serveLine m answers an line sel
    (r.1, .read 0 4 :: (objByIdAccesses m id ++ r.2))

/-- The loop of `Tg8DrvrOBJECTS_LIST` from row `i` on, with `j` identifiers found: how many there
are in the end, and the accesses. -/
def objectsLoop (dim : ℕ → ℕ) (k : ℤ) (i j : ℕ) : ℕ × List Access :=
  if i < tg8Actions ∧ (j : ℤ) < k then
    if dim i = 0 then
      let r := objectsLoop dim k (i + 1) j
      (r.1, .table 1 i 1 :: r.2)
    else
      let r := objectsLoop dim k (i + dim i) (j + 1)
      (r.1, .table 1 i 1 :: .table 4 (4 * i) 4 :: .write (4 + 4 * j) 4 :: r.2)
  else (j, [])
termination_by tg8Actions - i

/-- The case `Tg8DrvrOBJECTS_LIST`. -/
def serveObjectsList (length : BitVec 32) : Ending × List Access :=
  if b.wcnt < 4 + 4 * tg8Actions then (.refused, [])
  else
    (.done, .read 0 4 :: (objectsLoop (fun i => (m.rows i).dim.toNat) length.toInt 0 0).2 ++
      [.write 0 4])

/-- The switch of `Tg8DrvrIoctl`. -/
def serveSwitch : RangeRequest → Ending × List Access
  | .SET_ACTION_STATE row cnt _ => serveSetActionState b answers row cnt
  | .CLEAR_ACTION row cnt => serveClearAction b answers row cnt
  | .USER_TABLE row cnt => serveUserTable b answers row cnt
  | .RECORDING_TABLE row cnt => serveRecordingTable b answers row cnt
  | .GET_PPM_LINE row cnt => serveGetPpmLine b answers row cnt
  | .HISTORY_TABLE cnt => serveHistoryTable b answers cnt
  | .CLOCK_TABLE cnt => serveClockTable b answers cnt
  | .OBJECT_PARAM id line sel _ _ => serveObjectParam m b answers id line sel
  | .OBJECTS_LIST length => serveObjectsList m b length

end Serve

/-- `Tg8DrvrIoctl`, for a null pointer or an argument with its bounds. -/
def serveRange {Dev Card : Type*} (m : Module Dev Card) (arg : Option Bounds)
    (answers : List Bool) (req : RangeRequest) : Ending × List Access :=
  match arg with
  | none => serveSwitch m .null answers req
  | some b => if b.rcnt < 4 then (.refused, []) else serveSwitch m b answers req

/-! ### Ranges -/

theorem validRange_iff (row rows : BitVec 32) :
    validRange row rows = true ↔
      1 ≤ row.toInt ∧ row.toInt < 256 ∧ 1 ≤ row.toInt + rows.toInt ∧
        row.toInt + rows.toInt ≤ 256 := by
  have hrow : row ≠ 0 ↔ row.toNat ≠ 0 := by bv_omega
  have hone : (1 : BitVec 32).toNat = 1 := rfl
  have h₁ := row.isLt
  have h₂ := rows.isLt
  simp only [validRange, Bool.and_eq_true, decide_eq_true_eq]
  rw [hrow, show tg8Actions = 256 from rfl, BitVec.toNat_sub, BitVec.toNat_add, hone,
    BitVec.toInt_eq_toNat_cond, BitVec.toInt_eq_toNat_cond]
  split_ifs <;> omega

/-- The rows are not all rows of the table, or there are none. -/
def OutOfRange (row cnt : BitVec 32) : Prop :=
  cnt.toInt < 1 ∨ row.toInt < 1 ∨ 256 < row.toInt + cnt.toInt - 1

/-- The ranges that the test gets wrong: a count below one that does not lead before row 1, and a
range that ends with the last row. -/
def Misjudged (row cnt : BitVec 32) : Prop :=
  (cnt.toInt < 1 ∧ row.toInt < 256 ∧ 1 ≤ row.toInt + cnt.toInt) ∨
    (1 ≤ row.toInt ∧ 1 ≤ cnt.toInt ∧ row.toInt + cnt.toInt = 257)

theorem validRange_right_iff (row cnt : BitVec 32) :
    (validRange row cnt = false ↔ OutOfRange row cnt) ↔ ¬ Misjudged row cnt := by
  rw [← Bool.not_eq_true, validRange_iff, OutOfRange, Misjudged]
  omega

theorem count_of_valid {row cnt : BitVec 32} (hv : validRange row cnt = true)
    (hm : ¬ Misjudged row cnt) :
    1 ≤ cnt.toInt ∧ 1 ≤ row.toInt ∧ row.toInt + cnt.toInt ≤ 256 := by
  rw [validRange_iff] at hv
  rw [Misjudged] at hm
  omega

theorem toNat_of_toInt {x : BitVec 32} (h : 1 ≤ x.toInt) : (x.toNat : ℤ) = x.toInt := by
  have hlt := x.isLt
  rw [BitVec.toInt_eq_toNat_cond] at h ⊢
  split_ifs at h ⊢ <;> omega

theorem resultSize_eq {header item : ℕ} {cnt : BitVec 32} (hh : header < 2 ^ 32)
    (hi : item < 2 ^ 32) (h : header + item * cnt.toNat < 2 ^ 32) :
    resultSize header item cnt = header + item * cnt.toNat := by
  have hprod : item * cnt.toNat < 2 ^ 32 := by omega
  rw [resultSize, BitVec.toNat_add, BitVec.toNat_mul, BitVec.toNat_ofNat, BitVec.toNat_ofNat,
    Nat.mod_eq_of_lt hh, Nat.mod_eq_of_lt hi, Nat.mod_eq_of_lt hprod, Nat.mod_eq_of_lt h]

/-! ### Transfers -/

theorem transfer_inside {size : ℕ} {b : Bounds} (answers : List Bool) (st : Ending)
    {offset cnt : ℕ} (h : offset + cnt * size ≤ b.wcnt) :
    ∀ a ∈ (transfer size answers st offset cnt).2, a.Inside b := by
  induction answers generalizing st offset cnt with
  | nil => cases cnt <;> simp [transfer]
  | cons ok answers ih =>
    cases cnt with
    | zero => simp [transfer]
    | succ cnt =>
      cases ok with
      | false => simp [transfer]
      | true =>
        have hsplit : min (cnt + 1) (mbxBuffSize / size) * size +
            (cnt + 1 - min (cnt + 1) (mbxBuffSize / size)) * size = (cnt + 1) * size := by
          rw [← Nat.add_mul, Nat.add_sub_cancel' (Nat.min_le_left _ _)]
        simp only [transfer, List.forall_mem_cons]
        refine ⟨?_, ih .done ?_⟩
        · change offset + min (cnt + 1) (mbxBuffSize / size) * size ≤ b.wcnt
          omega
        · omega

theorem transfer_reaches {size : ℕ} (hsize : 0 < mbxBuffSize / size) (cnt : ℕ) (hc : 0 < cnt)
    (st : Ending) (offset : ℕ) :
    ∃ answers first length, .write first length ∈ (transfer size answers st offset cnt).2 ∧
      first + length = offset + cnt * size := by
  induction cnt using Nat.strong_induction_on generalizing st offset with
  | _ cnt ih =>
    obtain ⟨cnt, rfl⟩ := Nat.exists_eq_add_of_lt hc
    rw [Nat.zero_add] at ih ⊢
    set n := min (cnt + 1) (mbxBuffSize / size) with hn
    have hpos : 0 < n := lt_min (Nat.succ_pos _) hsize
    have hle : n ≤ cnt + 1 := Nat.min_le_left _ _
    obtain hlast | hmore := Nat.eq_or_lt_of_le hle
    · refine ⟨[true], offset, n * size, ?_, by rw [hlast]⟩
      exact List.mem_cons_self
    · obtain ⟨answers, first, length, hmem, hsum⟩ :=
        ih (cnt + 1 - n) (by omega) (by omega) .done (offset + n * size)
      refine ⟨true :: answers, first, length, List.mem_cons_of_mem _ hmem, ?_⟩
      rw [hsum, Nat.add_assoc, ← Nat.add_mul, Nat.add_sub_cancel' hle]

theorem transfer_not_refused {size : ℕ} (answers : List Bool) {st : Ending} (hst : st ≠ .refused)
    (offset cnt : ℕ) : (transfer size answers st offset cnt).1 ≠ .refused := by
  induction answers generalizing st offset cnt with
  | nil =>
    cases cnt with
    | zero => exact hst
    | succ cnt => exact fun h => by cases h
  | cons ok answers ih =>
    cases cnt with
    | zero => exact hst
    | succ cnt =>
      cases ok with
      | false => exact fun h => by cases h
      | true => exact ih (fun h => by cases h) _ _

theorem transaction_not_refused (answers : List Bool) : transaction answers ≠ .refused := by
  obtain _ | ⟨_ | _, _⟩ := answers <;> exact fun h => by cases h

/-! ### Requests for rows -/

/-- All accesses are inside, and the request is refused exactly when it has to be. -/
def Right (b : Bounds) (r : Ending × List Access) (must : Prop) : Prop :=
  (∀ a ∈ r.2, a.Inside b) ∧ (r.1 = .refused ↔ must)

section Rows

variable {b : Bounds} {answers : List Bool} {row cnt : BitVec 32}

theorem right_refused {accesses : List Access} {must : Prop} (hin : ∀ a ∈ accesses, a.Inside b) :
    Right b (.refused, accesses) must ↔ must :=
  ⟨fun h => h.2.1 rfl, fun h => ⟨hin, fun _ => h, fun _ => rfl⟩⟩

theorem right_served {e : Ending} {accesses : List Access} {must : Prop} (hr : e ≠ .refused)
    (hin : ∀ a ∈ accesses, a.Inside b) : Right b (e, accesses) must ↔ ¬ must :=
  ⟨fun h hmust => hr (h.2.2 hmust), fun h => ⟨hin, fun heq => absurd heq hr, fun hm => absurd hm h⟩⟩

theorem actionAccess_inside {an : ℕ} (h : an < tg8Actions) : (actionAccess an).Inside b := by
  change sizeofTg8User * an + sizeofTg8User ≤ sizeofTg8User * tg8Actions
  rw [← Nat.mul_succ]
  exact Nat.mul_le_mul_left _ h

theorem changeActionStateAccesses_inside (hv : validRange row cnt = true) :
    ∀ a ∈ changeActionStateAccesses (row.toNat - 1) cnt.toInt, a.Inside b := by
  rw [validRange_iff] at hv
  have hrow : (row.toNat : ℤ) = row.toInt := toNat_of_toInt hv.1
  simp only [changeActionStateAccesses, List.forall_mem_map, List.mem_range]
  intro i hi
  refine actionAccess_inside ?_
  change row.toNat - 1 + i < 256
  omega

theorem clearUserTableAccesses_inside (hv : validRange row cnt = true) (hm : ¬ Misjudged row cnt) :
    ∀ a ∈ clearUserTableAccesses answers (row.toNat - 1) cnt, a.Inside b := by
  obtain ⟨hcnt, hrow, hsum⟩ := count_of_valid hv hm
  have hc : (cnt.toNat : ℤ) = cnt.toInt := toNat_of_toInt hcnt
  have hr : (row.toNat : ℤ) = row.toInt := toNat_of_toInt hrow
  have hitem : ∀ item ≤ 8, (Access.table item (item * (row.toNat - 1))
      (cnt * BitVec.ofNat 32 item).toNat).Inside b := by
    intro item hitem
    have hlast : item * (row.toNat - 1 + cnt.toNat) ≤ item * tg8Actions :=
      Nat.mul_le_mul_left _ (by change _ ≤ 256; omega)
    have hsmall : cnt.toNat * item < 2 ^ 32 :=
      (Nat.mul_le_mul (by omega : cnt.toNat ≤ 256) hitem).trans_lt (by decide)
    have hlen : (cnt * BitVec.ofNat 32 item).toNat = item * cnt.toNat := by
      rw [BitVec.toNat_mul, BitVec.toNat_ofNat, Nat.mod_eq_of_lt (by omega : item < 2 ^ 32),
        Nat.mod_eq_of_lt hsmall, Nat.mul_comm]
    change item * (row.toNat - 1) + (cnt * BitVec.ofNat 32 item).toNat ≤ item * tg8Actions
    rwa [hlen, ← Nat.mul_add]
  rw [clearUserTableAccesses]
  split_ifs
  · simp only [List.map_cons, List.map_nil, List.forall_mem_cons]
    exact ⟨hitem _ (by decide), hitem _ (by decide), hitem _ (by decide), hitem _ (by decide),
      fun a ha => absurd ha List.not_mem_nil⟩
  · exact fun a ha => absurd ha List.not_mem_nil

theorem serveSetActionState_right :
    Right b (serveSetActionState b answers row cnt) (OutOfRange row cnt ∨ b.rcnt < 12) ↔
      b.rcnt < 12 ∨ ¬ Misjudged row cnt := by
  rw [serveSetActionState]
  split_ifs with hshort hv
  · rw [right_refused (by simp)]
    simp [hshort]
  · have hread : (Access.read 0 8).Inside b := by
      change 0 + 8 ≤ b.rcnt
      omega
    rw [right_refused (by simpa using hread), ← validRange_right_iff]
    simp [hshort, hv]
  · rw [Bool.not_eq_false] at hv
    have hin := changeActionStateAccesses_inside (b := b) hv
    rw [right_served (transaction_not_refused answers), ← validRange_right_iff]
    · simp [hshort, hv]
    · simp only [List.forall_mem_cons]
      refine ⟨?_, ?_, hin⟩
      · change 0 + 8 ≤ b.rcnt
        omega
      · change 8 + 4 ≤ b.rcnt
        omega

theorem serveClearAction_right :
    Right b (serveClearAction b answers row cnt) (OutOfRange row cnt ∨ b.rcnt < 8) ↔
      b.rcnt < 8 ∨ ¬ Misjudged row cnt := by
  rw [serveClearAction]
  split_ifs with hshort hv
  · rw [right_refused (by simp)]
    simp [hshort]
  · have hread : (Access.read 0 8).Inside b := by
      change 0 + 8 ≤ b.rcnt
      omega
    rw [right_refused (by simpa using hread), ← validRange_right_iff]
    simp [hshort, hv]
  · rw [Bool.not_eq_false] at hv
    by_cases hm : Misjudged row cnt
    · have hout : OutOfRange row cnt := by
        by_contra hno
        have hright := (validRange_right_iff row cnt).not_left.2 hm
        simp [hv, hno] at hright
      simp only [hshort, hm, not_true_eq_false, or_false, iff_false]
      exact fun hr => transaction_not_refused answers (hr.2.2 hout)
    · have hin : ∀ a ∈ clearUserTableAccesses answers (row.toNat - 1) cnt, a.Inside b :=
        clearUserTableAccesses_inside hv hm
      rw [right_served (transaction_not_refused answers), ← validRange_right_iff]
      · simp [hshort, hv]
      · simp only [List.forall_mem_cons]
        refine ⟨?_, hin⟩
        change 0 + 8 ≤ b.rcnt
        omega

/-- What a request that reads rows of `item` bytes is to refuse. -/
def RowsMustRefuse (b : Bounds) (item : ℕ) (row cnt : BitVec 32) : Prop :=
  OutOfRange row cnt ∨ b.rcnt < 8 ∨ (b.wcnt : ℤ) < 8 + item * cnt.toInt

/-- What it does refuse rightly, or serve. -/
def RowsFine (b : Bounds) (item : ℕ) (row cnt : BitVec 32) : Prop :=
  b.rcnt < 8 ∨ ¬ Misjudged row cnt ∨ b.wcnt < resultSize 8 item cnt

theorem lt_resultSize_iff {item : ℕ} (hitem : item ≤ 16) (hpos : 1 ≤ cnt.toInt)
    (hle : cnt.toInt ≤ 256) :
    b.wcnt < resultSize 8 item cnt ↔ (b.wcnt : ℤ) < 8 + item * cnt.toInt := by
  have hc : (cnt.toNat : ℤ) = cnt.toInt := toNat_of_toInt hpos
  have hprod : item * cnt.toNat ≤ 16 * 256 := Nat.mul_le_mul hitem (by omega)
  rw [resultSize_eq (by decide) (by omega) (by omega), ← hc]
  norm_cast

theorem mustRefuse_iff_of_refused {item : ℕ} (hitem : item ≤ 16) (hlong : ¬ b.rcnt < 8)
    (hno : validRange row cnt = false ∨ b.wcnt < resultSize 8 item cnt) :
    RowsMustRefuse b item row cnt ↔ RowsFine b item row cnt := by
  have hright := validRange_right_iff row cnt
  have hvalid := validRange_iff row cnt
  have hsize := @lt_resultSize_iff b cnt item hitem
  rw [RowsMustRefuse, RowsFine]
  simp only [hlong, false_or]
  by_cases hm : Misjudged row cnt
  · obtain ⟨hcnt, hrow, hsum⟩ | ⟨hrow, hcnt, hsum⟩ := hm
    · -- a count below one: the test has let it through, the buffer is too short
      have hv : validRange row cnt = true := hvalid.2 (by omega)
      have hbuf : b.wcnt < resultSize 8 item cnt := hno.resolve_left (by simp [hv])
      exact iff_of_true (.inl (.inl hcnt)) (.inr hbuf)
    · -- the last row: the test has refused it
      have hin : ¬ OutOfRange row cnt := by
        rw [OutOfRange]
        omega
      have hm : Misjudged row cnt := .inr ⟨hrow, hcnt, hsum⟩
      rw [hsize hcnt (by omega)]
      simp [hin, hm]
  · refine iff_of_true ?_ (.inl hm)
    cases hv : validRange row cnt with
    | false => exact .inl ((hright.2 hm).1 hv)
    | true =>
      obtain ⟨hcnt, hrow, hsum⟩ := count_of_valid hv hm
      have hbuf : b.wcnt < resultSize 8 item cnt := hno.resolve_left (by simp [hv])
      exact .inr ((hsize hcnt (by omega)).1 hbuf)

theorem mustRefuse_iff_of_served {item : ℕ} (hitem : item ≤ 16) (hlong : ¬ b.rcnt < 8)
    (hv : validRange row cnt = true) (hbuf : ¬ b.wcnt < resultSize 8 item cnt) :
    ¬ RowsMustRefuse b item row cnt ↔ RowsFine b item row cnt := by
  have hsize := @lt_resultSize_iff b cnt item hitem
  rw [validRange_iff] at hv
  rw [RowsMustRefuse, RowsFine]
  simp only [hlong, hbuf, false_or, or_false]
  refine not_congr ?_
  obtain hcnt | hcnt := Int.lt_or_le cnt.toInt 1
  · exact iff_of_true (.inl (.inl hcnt)) (.inl ⟨hcnt, hv.2.1, hv.2.2.1⟩)
  · rw [hsize hcnt (by omega)] at hbuf
    refine iff_of_false ?_ ?_
    · rw [OutOfRange]
      omega
    · rw [Misjudged]
      omega

theorem serveRows_right {item : ℕ} (hitem : item ≤ 16) :
    Right b (serveRows b answers item row cnt) (RowsMustRefuse b item row cnt) ↔
      RowsFine b item row cnt := by
  rw [serveRows]
  split_ifs with hshort hno
  · rw [right_refused (by simp), RowsMustRefuse, RowsFine]
    simp [hshort]
  · have hread : (Access.read 0 8).Inside b := by
      change 0 + 8 ≤ b.rcnt
      omega
    rw [right_refused (by simpa using hread)]
    exact mustRefuse_iff_of_refused hitem hshort hno
  · obtain ⟨hv, hbuf⟩ := not_or.1 hno
    rw [Bool.not_eq_false] at hv
    have hserved := @transfer_not_refused item answers _
      (by decide : Ending.unset ≠ .refused) 8 cnt.toInt.toNat
    refine (right_served hserved ?_).trans (mustRefuse_iff_of_served hitem hshort hv hbuf)
    · simp only [List.forall_mem_cons]
      refine ⟨?_, ?_⟩
      · change 0 + 8 ≤ b.rcnt
        omega
      · rw [validRange_iff] at hv
        obtain hcnt | hcnt := Int.lt_or_le cnt.toInt 1
        · rw [show cnt.toInt.toNat = 0 by omega]
          cases answers <;> simp [transfer]
        · refine transfer_inside answers _ ?_
          rw [lt_resultSize_iff hitem hcnt (by omega)] at hbuf
          have hmul : ((cnt.toInt.toNat * item : ℕ) : ℤ) = item * cnt.toInt := by
            rw [Nat.cast_mul, Int.toNat_of_nonneg (by omega), mul_comm]
          omega

end Rows

/-! ### Logs and objects -/

section Newest

variable {b : Bounds} {item : ℕ} {cnt : BitVec 32}

/-- When a request for the newest entries stays inside: the count can be read, and its size is not
taken for less than it is. -/
def NewestFine (b : Bounds) (item : ℕ) (cnt : BitVec 32) : Prop :=
  4 ≤ b.rcnt ∧
    (cnt.toInt < 1 ∨ 4 + item * cnt.toNat < 2 ^ 32 ∨ b.wcnt < resultSize 4 item cnt)

theorem serveNewest_inside (hi : item < 2 ^ 32) (h : NewestFine b item cnt) (answers : List Bool) :
    ∀ a ∈ (serveNewest b answers item cnt).2, a.Inside b := by
  obtain ⟨hread, hsize⟩ := h
  have hread : (Access.read 0 4).Inside b := by
    change 0 + 4 ≤ b.rcnt
    omega
  rw [serveNewest]
  split_ifs with hbuf
  · simpa using hread
  · simp only [List.forall_mem_cons]
    refine ⟨hread, ?_⟩
    obtain hcnt | hcnt := Int.lt_or_le cnt.toInt 1
    · rw [show cnt.toInt.toNat = 0 by omega]
      cases answers <;> simp [transfer]
    · have hc : (cnt.toNat : ℤ) = cnt.toInt := toNat_of_toInt hcnt
      have hfit : 4 + item * cnt.toNat < 2 ^ 32 := by
        obtain hlow | hfit | hlow := hsize
        · omega
        · exact hfit
        · exact absurd hlow hbuf
      rw [resultSize_eq (by decide) hi hfit] at hbuf
      refine transfer_inside answers _ ?_
      rw [← hc, Int.toNat_natCast, Nat.mul_comm]
      omega

theorem serveNewest_outside (hblock : 0 < mbxBuffSize / item) (h : ¬ NewestFine b item cnt) :
    ∃ answers, ∃ a ∈ (serveNewest b answers item cnt).2, ¬ a.Inside b := by
  by_cases hread : 4 ≤ b.rcnt
  · have hwrap : ¬ (cnt.toInt < 1 ∨ 4 + item * cnt.toNat < 2 ^ 32 ∨
        b.wcnt < resultSize 4 item cnt) := fun hsize => h ⟨hread, hsize⟩
    obtain ⟨hcnt, hwrap, hbuf⟩ : 1 ≤ cnt.toInt ∧ 2 ^ 32 ≤ 4 + item * cnt.toNat ∧
        ¬ b.wcnt < resultSize 4 item cnt := by
      push Not at hwrap
      exact ⟨by omega, hwrap.2.1, by omega⟩
    have hc : (cnt.toNat : ℤ) = cnt.toInt := toNat_of_toInt hcnt
    obtain ⟨answers, first, length, hmem, hsum⟩ :=
      transfer_reaches hblock cnt.toInt.toNat (by omega) .unset 4
    refine ⟨answers, .write first length, ?_, ?_⟩
    · rw [serveNewest, if_neg hbuf]
      exact List.mem_cons_of_mem _ hmem
    · change ¬ first + length ≤ b.wcnt
      have hlt := b.wcnt_lt
      rw [hsum, ← hc, Int.toNat_natCast, Nat.mul_comm]
      omega
  · refine ⟨[], .read 0 4, ?_, ?_⟩
    · rw [serveNewest]
      split_ifs
      · exact List.mem_cons_self
      · exact List.mem_cons_self
    · change ¬ 0 + 4 ≤ b.rcnt
      omega

end Newest

section Objects

variable {Dev Card : Type*} {m : Module Dev Card} {b : Bounds} {answers : List Bool}

theorem objByIdAccesses_inside (h : m.Extents) (id : BitVec 32) :
    ∀ a ∈ objByIdAccesses m id, a.Inside b := by
  have hlen : (m.objById id).elim m.size (· + 1) ≤ tg8Actions := by
    cases hfound : m.objById id with
    | none => exact h.1
    | some an => exact (Module.objById_lt hfound).trans_le h.1
  simp only [objByIdAccesses, List.forall_mem_map, List.mem_range]
  intro i hi
  change 4 * i + 4 ≤ 4 * tg8Actions
  omega

theorem lineRow_lt (h : m.Extents) {an : ℕ} (han : an < m.size) {line : BitVec 16}
    (hline : ¬ (m.rows an).dim.toNat < line.toNat) : lineRow an line < tg8Actions := by
  have hrow : an < tg8Actions := han.trans_le h.1
  have hext := h.2 an hrow
  have hpos : line ≠ 0 → line.toNat ≠ 0 := by bv_omega
  rw [lineRow]
  split_ifs with hzero
  · exact hrow
  · have hone := hpos hzero
    omega

theorem serveLine_inside (h : m.Extents) {an : ℕ} (han : an < m.size) (hlong : ¬ b.rcnt < 12)
    (line sel : BitVec 16) : ∀ a ∈ (serveLine m answers an line sel).2, a.Inside b := by
  have hdim : (Access.table 1 an 1).Inside b := by
    change an + 1 ≤ 1 * tg8Actions
    have hsize := h.1
    omega
  have hline : (Access.read 4 2).Inside b := by
    change 4 + 2 ≤ b.rcnt
    omega
  have hrest : (Access.read 6 6).Inside b := by
    change 6 + 6 ≤ b.rcnt
    omega
  simp only [serveLine]
  split_ifs with hshort hstate hdelay hdone
  · simp [hdim, hline]
  · simp [hdim, hline, hrest, actionAccess_inside (lineRow_lt h han hshort)]
  · simp [hdim, hline, hrest, actionAccess_inside (lineRow_lt h han hshort)]
  · simp [hdim, hline, hrest]
  · simp [hdim, hline, hrest]

theorem serveObjectParam_inside_iff (h : m.Extents) (id : BitVec 32) (line sel : BitVec 16) :
    (∀ a ∈ (serveObjectParam m b answers id line sel).2, a.Inside b) ↔
      b.rcnt < 12 ∨ m.objById id ≠ none ∨ 4 ≤ b.wcnt := by
  rw [serveObjectParam]
  split_ifs with hlong
  · simp [hlong]
  have hid : (Access.read 0 4).Inside b := by
    change 0 + 4 ≤ b.rcnt
    omega
  have hsearch := objByIdAccesses_inside (b := b) h id
  have hwrite : (Access.write 0 4).Inside b ↔ 4 ≤ b.wcnt := by
    change 0 + 4 ≤ b.wcnt ↔ _
    omega
  simp only [List.forall_mem_cons, List.forall_mem_append, hid, true_and, hlong, false_or]
  cases hfound : m.objById id with
  | none => simpa [hwrite] using fun _ => hsearch
  | some an =>
    have hrest : ∀ a ∈ (serveLine m answers an line sel).2, a.Inside b :=
      serveLine_inside h (Module.objById_lt hfound) hlong line sel
    exact iff_of_true ⟨hsearch, hrest⟩ (.inl (by simp))

theorem objectsLoop_inside (hb : 4 + 4 * tg8Actions ≤ b.wcnt) (dim : ℕ → ℕ) (k : ℤ) (i j : ℕ)
    (hij : j ≤ i) : ∀ a ∈ (objectsLoop dim k i j).2, a.Inside b := by
  have hread : ∀ item i, i < tg8Actions → (Access.table item (item * i) item).Inside b := by
    intro item i hi
    change item * i + item ≤ item * tg8Actions
    rw [← Nat.mul_succ]
    exact Nat.mul_le_mul_left _ hi
  induction i, j using objectsLoop.induct dim k with
  | case1 i j hlt hfree ih =>
    rw [objectsLoop, if_pos hlt, if_pos hfree]
    simp only [List.forall_mem_cons]
    exact ⟨by simpa using hread 1 i hlt.1, ih (Nat.le_succ_of_le hij)⟩
  | case2 i j hlt hdim ih =>
    rw [objectsLoop, if_pos hlt, if_neg hdim]
    simp only [List.forall_mem_cons]
    refine ⟨by simpa using hread 1 i hlt.1, hread 4 i hlt.1, ?_, ih (by omega)⟩
    change 4 + 4 * j + 4 ≤ b.wcnt
    omega
  | case3 i j hdone =>
    rw [objectsLoop, if_neg hdone]
    exact fun a ha => absurd ha List.not_mem_nil

theorem serveObjectsList_inside (hread : 4 ≤ b.rcnt ∨ b.wcnt = 0) (length : BitVec 32) :
    ∀ a ∈ (serveObjectsList m b length).2, a.Inside b := by
  rw [serveObjectsList]
  split_ifs with hshort
  · exact fun a ha => absurd ha List.not_mem_nil
  · have hwide : 4 + 4 * 256 ≤ b.wcnt := Nat.not_lt.1 hshort
    have hloop := objectsLoop_inside (b := b) hwide (fun i => (m.rows i).dim.toNat) length.toInt 0 0
      (Nat.le_refl 0)
    simp only [List.cons_append, List.forall_mem_cons, List.forall_mem_append]
    refine ⟨?_, hloop, ?_, fun a ha => absurd ha List.not_mem_nil⟩
    · change 0 + 4 ≤ b.rcnt
      omega
    · change 0 + 4 ≤ b.wcnt
      omega

end Objects

/-! ### All the requests -/

/-- The requests for a range of rows are refused when there is no such range or the buffer is too
short for them. -/
def RangeRequest.RefusedRightly (b : Bounds) (refused : Prop) : RangeRequest → Prop
  | .SET_ACTION_STATE row cnt _ => refused ↔ OutOfRange row cnt ∨ b.rcnt < 12
  | .CLEAR_ACTION row cnt => refused ↔ OutOfRange row cnt ∨ b.rcnt < 8
  | .USER_TABLE row cnt => refused ↔ RowsMustRefuse b sizeofTg8User row cnt
  | .RECORDING_TABLE row cnt => refused ↔ RowsMustRefuse b sizeofTg8Recording row cnt
  | .GET_PPM_LINE row cnt => refused ↔ RowsMustRefuse b sizeofTg8PpmLine row cnt
  | .HISTORY_TABLE _ => True
  | .CLOCK_TABLE _ => True
  | .OBJECT_PARAM _ _ _ _ _ => True
  | .OBJECTS_LIST _ => True

section Requests

variable {Dev Card : Type*}

/-- Whatever the module answers, the driver stays inside its tables and the argument, and refuses
what it has to. -/
def RangesRight (m : Module Dev Card) (arg : Option Bounds) (req : RangeRequest) : Prop :=
  ∀ answers,
    (∀ a ∈ (serveRange m arg answers req).2, a.Inside (arg.getD .null)) ∧
      req.RefusedRightly (arg.getD .null) ((serveRange m arg answers req).1 = .refused)

/-- The condition for an argument with these bounds. -/
def RangeRequest.FineAt (m : Module Dev Card) (b : Bounds) : RangeRequest → Prop
  | .SET_ACTION_STATE row cnt _ => b.rcnt < 12 ∨ ¬ Misjudged row cnt
  | .CLEAR_ACTION row cnt => b.rcnt < 8 ∨ ¬ Misjudged row cnt
  | .USER_TABLE row cnt => RowsFine b sizeofTg8User row cnt
  | .RECORDING_TABLE row cnt => RowsFine b sizeofTg8Recording row cnt
  | .GET_PPM_LINE row cnt => RowsFine b sizeofTg8PpmLine row cnt
  | .HISTORY_TABLE cnt => NewestFine b sizeofTg8History cnt
  | .CLOCK_TABLE cnt => NewestFine b sizeofTg8Clock cnt
  | .OBJECT_PARAM id _ _ _ _ => b.rcnt < 12 ∨ m.objById id ≠ none ∨ 4 ≤ b.wcnt
  | .OBJECTS_LIST _ => True

/-- The condition: an argument of less than four bytes is refused as it comes. -/
def RangeRequest.Fine (req : RangeRequest) (m : Module Dev Card) : Option Bounds → Prop
  | none => req.FineAt m .null
  | some b => b.rcnt < 4 ∨ req.FineAt m b

variable {m : Module Dev Card}

/-- The same for the switch. -/
def SwitchRight (m : Module Dev Card) (b : Bounds) (req : RangeRequest) : Prop :=
  ∀ answers,
    (∀ a ∈ (serveSwitch m b answers req).2, a.Inside b) ∧
      req.RefusedRightly b ((serveSwitch m b answers req).1 = .refused)

theorem newest_right_iff {b : Bounds} {item : ℕ} {cnt : BitVec 32} (hi : item < 2 ^ 32)
    (hblock : 0 < mbxBuffSize / item) :
    (∀ answers, (∀ a ∈ (serveNewest b answers item cnt).2, a.Inside b) ∧ True) ↔
      NewestFine b item cnt := by
  constructor
  · intro h
    by_contra hno
    obtain ⟨answers, a, ha, hout⟩ := serveNewest_outside hblock hno
    exact hout ((h answers).1 a ha)
  · exact fun h answers => ⟨serveNewest_inside hi h answers, trivial⟩

theorem switchRight_iff (h : m.Extents) {b : Bounds} (hb : 4 ≤ b.rcnt ∨ b.wcnt = 0)
    (req : RangeRequest) : SwitchRight m b req ↔ req.FineAt m b := by
  cases req with
  | SET_ACTION_STATE row cnt state =>
    exact (forall_congr' fun answers => serveSetActionState_right).trans (forall_const _)
  | CLEAR_ACTION row cnt =>
    exact (forall_congr' fun answers => serveClearAction_right).trans (forall_const _)
  | USER_TABLE row cnt =>
    exact (forall_congr' fun answers => serveRows_right (by decide)).trans (forall_const _)
  | RECORDING_TABLE row cnt =>
    exact (forall_congr' fun answers => serveRows_right (by decide)).trans (forall_const _)
  | GET_PPM_LINE row cnt =>
    exact (forall_congr' fun answers => serveRows_right (by decide)).trans (forall_const _)
  | HISTORY_TABLE cnt => exact newest_right_iff (by decide) (by decide)
  | CLOCK_TABLE cnt => exact newest_right_iff (by decide) (by decide)
  | OBJECT_PARAM id line sel value aux =>
    exact (forall_congr' fun answers => (and_iff_left trivial).trans
      (serveObjectParam_inside_iff h id line sel)).trans (forall_const _)
  | OBJECTS_LIST length =>
    exact iff_of_true (fun answers => ⟨serveObjectsList_inside hb length, trivial⟩) trivial

theorem refusedRightly_short {b : Bounds} (hb : b.rcnt < 4) (req : RangeRequest) :
    req.RefusedRightly b True := by
  cases req with
  | SET_ACTION_STATE row cnt state => exact iff_of_true trivial (.inr (by omega))
  | CLEAR_ACTION row cnt => exact iff_of_true trivial (.inr (by omega))
  | USER_TABLE row cnt => exact iff_of_true trivial (.inr (.inl (by omega)))
  | RECORDING_TABLE row cnt => exact iff_of_true trivial (.inr (.inl (by omega)))
  | GET_PPM_LINE row cnt => exact iff_of_true trivial (.inr (.inl (by omega)))
  | HISTORY_TABLE cnt => trivial
  | CLOCK_TABLE cnt => trivial
  | OBJECT_PARAM id line sel value aux => trivial
  | OBJECTS_LIST length => trivial

theorem rangesRight_iff_fine (h : m.Extents) (arg : Option Bounds) (req : RangeRequest) :
    RangesRight m arg req ↔ req.Fine m arg := by
  cases arg with
  | none => exact switchRight_iff h (.inr rfl) req
  | some b =>
    by_cases hshort : b.rcnt < 4
    · refine iff_of_true (fun answers => ?_) (.inl hshort)
      rw [serveRange, if_pos hshort]
      refine ⟨fun a ha => absurd ha List.not_mem_nil, ?_⟩
      simpa using refusedRightly_short hshort req
    · have hswitch := switchRight_iff h (.inl (Nat.not_lt.1 hshort)) req
      simp only [RangesRight, serveRange, if_neg hshort, Option.getD_some]
      rw [RangeRequest.Fine, or_iff_right hshort]
      exact hswitch

/-! ### The tables that the driver can have -/

variable [DecidableEq Dev] (mailbox : MailboxOp → Card → Option Card)

/-- The requests of the devices of a module, in any order. -/
def userTables : System (Module Dev Card) (Dev × Request) :=
  System.ofFun (fun m => ∃ card, m = installed card) fun m a =>
    (serve mailbox a.1 a.2 m).map Prod.snd

variable {mailbox}

theorem userTables_extents (h : (userTables mailbox).Reach m) : m.Extents := by
  refine System.Reach.invariant ?_ ?_ h
  · rintro _ ⟨card, rfl⟩
    exact ⟨Nat.zero_le _, fun i hi => Nat.le_of_lt hi⟩
  · rintro m ⟨d, req⟩ m' hm hs
    obtain ⟨⟨rep, t⟩, ht, rfl⟩ := Option.map_eq_some_iff.1 hs
    exact hm.serve ht

/-- **The range requests.**  Over every table that the requests can leave, an argument and a request
are handled right exactly when: the range is not misjudged, or the buffer is too short for it anyway;
the count of a log is not read through a null pointer, and its size does not wrap into the buffer; and
the identifier of a parameter is known, or may be overwritten. -/
theorem ranges_right_iff (h : (userTables mailbox).Reach m) (arg : Option Bounds)
    (req : RangeRequest) : RangesRight m arg req ↔ req.Fine m arg :=
  rangesRight_iff_fine (userTables_extents h) arg req

end Requests

/-- Two rows of the table are read into a buffer that has just room for them. -/
theorem ranges_right_iff_two :
    RangesRight (installed () : Module Unit Unit) (some ⟨24, 24, by decide, by decide⟩)
      (.USER_TABLE 1 2) :=
  (ranges_right_iff (.init (S := userTables answering) ⟨(), rfl⟩) _ _).2
    (.inr (.inr (.inl (by unfold Misjudged; decide))))

/-- To clear −1 rows from row 2 on is accepted, and clears the memory behind the table. -/
theorem clear_beyond_table :
    (userTables answering).Reach (installed () : Module Unit Unit) ∧
      serveRange (installed () : Module Unit Unit) (some ⟨8, 8, by decide, by decide⟩) [true]
        (.CLEAR_ACTION 2 0xFFFFFFFF) =
        (.done, [.read 0 8, .table 8 8 4294967288, .table 4 4 4294967292, .table 4 4 4294967292,
          .table 1 1 4294967295]) ∧
      ¬ RangesRight (installed () : Module Unit Unit) (some ⟨8, 8, by decide, by decide⟩)
        (.CLEAR_ACTION 2 0xFFFFFFFF) := by
  refine ⟨.init ⟨(), rfl⟩, by decide, fun h => ?_⟩
  have hin : 8 + 4294967288 ≤ 8 * 256 := (h [true]).1 (.table 8 8 4294967288) (by decide)
  omega

end KernelModules.Tg8.Driver
