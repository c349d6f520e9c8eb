import KernelModules.Tg8.UtcTime

/-!
# Reading the histories and the clocks of the TG8 firmware

Events and reception errors are recorded in two tables that the interrupt routine goes round and the
mailbox process reads backwards, in blocks that go on where the last one ended.

* `InterTable` is such a table, with its index and its pointer; `readEntries` is a block, `getTable` a
  request and `readback` the requests of a host, each with the row that the last one returned;
* `recordHistory` and `recordClock` are the parts of `Xr_Isr` that fill the tables, `histories` and
  `clocks` the records that they complete;
* `Recorded` says which of the records are still in a table, `readback_eq` which entries the requests
  read as long as none but the first begins with row 0;
* `historyTable_readsBack_iff` and `clockTable_readsBack_iff` say when the requests get the records from
  the newest on.  A row 0 means the newest record, also where the last block has ended with entry 0.
-/

namespace KernelModules.Tg8.Firmware

open Function KernelModules.Lib

/-! ### Tables that are read backwards -/

section Table

variable {Rec : Type*}

/-- `InterHistoryTable` and `InterClockTable`: the current index and the entry that the pointer is at. -/
structure InterTable (Rec : Type*) where
  i : ℕ
  p : ℕ
  entries : ℕ → Rec

/-- The entry that the pointer is at is written. -/
def InterTable.fill (t : InterTable Rec) (f : Rec → Rec) : InterTable Rec :=
  { t with entries := update t.entries t.p (f (t.entries t.p)) }

/-- The next entry is taken. -/
def InterTable.next (size : ℕ) (t : InterTable Rec) : InterTable Rec :=
  if size ≤ t.i + 1 then { t with i := 0, p := 0 } else { t with i := t.i + 1, p := t.p + 1 }

/-- The loop of a request, from `pos` on: what is read, and the last `pos`. -/
def readEntries (size : ℕ) (entries : ℕ → Rec) : ℕ → ℕ → List Rec × ℕ
  | 0, pos => ([], pos)
  | cnt + 1, pos =>
    let pos := if pos = 0 then size - 1 else pos - 1
    let r := readEntries size entries cnt pos
    (entries pos :: r.1, r.2)

/-- Where a request begins. -/
def InterTable.start (t : InterTable Rec) (row : ℕ) : ℕ := if row = 0 then t.i else row

/-- A request: what is read, and the row that is returned. -/
def getTable (size : ℕ) (t : InterTable Rec) (row cnt : ℕ) : List Rec × ℕ :=
  let pos := t.start row
  readEntries size t.entries cnt (if size ≤ pos then size - 1 else pos)

/-- Requests of so many entries each. -/
def readback (size : ℕ) (t : InterTable Rec) : List ℕ → ℕ → List Rec × ℕ
  | [], row => ([], row)
  | cnt :: cnts, row =>
    let r := getTable size t row cnt
    let rest := readback size t cnts r.2
    (r.1 ++ rest.1, rest.2)

/-- The requests get the records from the newest on, until they have read the whole table. -/
def ReadsBack (size : ℕ) (t : InterTable Rec) (done : List Rec) (cnts : List ℕ) : Prop :=
  (readback size t cnts 0).1.take size = done.reverse.take (min cnts.sum size)

/-- No request but the last ends with entry 0, after the `n` records. -/
def NoStop (size n : ℕ) (cnts : List ℕ) : Prop :=
  ∀ before after, cnts = before ++ after → 0 < before.sum → before.sum < size → 0 < after.sum →
    before.sum ≠ n % size

/-- Those of the records that are among the last `keep` are in the table. -/
structure Recorded (size keep : ℕ) (done : List Rec) (t : InterTable Rec) : Prop where
  i_eq : t.i = done.length % size
  p_eq : t.p = t.i
  entry : ∀ k (h : k < done.length), done.length ≤ k + keep → t.entries (k % size) = done[k]

variable {size keep n : ℕ} {t : InterTable Rec} {done : List Rec}

/-! ### Recording -/

theorem Recorded.mono (h : Recorded size keep done t) {keep' : ℕ} (hle : keep' ≤ keep) :
    Recorded size keep' done t :=
  ⟨h.i_eq, h.p_eq, fun k hk hkeep => h.entry k hk (by omega)⟩

theorem mod_ne_of_recent {k : ℕ} (hk : k < n) (hrecent : n < k + size) : k % size ≠ n % size := by
  intro heq
  have hdvd : size ∣ n - k := (Nat.modEq_iff_dvd' hk.le).mp heq
  have hle := Nat.le_of_dvd (by omega) hdvd
  omega

theorem Recorded.fill (h : Recorded size keep done t) (hkeep : keep < size) (f : Rec → Rec) :
    Recorded size keep done (t.fill f) where
  i_eq := h.i_eq
  p_eq := h.p_eq
  entry k hk hrecent := by
    show update t.entries t.p _ (k % size) = done[k]
    rw [update_of_ne, h.entry k hk hrecent]
    rw [h.p_eq, h.i_eq]
    exact mod_ne_of_recent hk (by omega)

@[simp] theorem fill_entry (f : Rec → Rec) : (t.fill f).entries (t.fill f).p = f (t.entries t.p) :=
  update_self _ _ _

theorem Recorded.next (h : Recorded size (size - 1) done t) (hsize : 0 < size) :
    Recorded size size (done ++ [t.entries t.p]) (t.next size) where
  i_eq := by
    rw [List.length_append, List.length_singleton, InterTable.next, Nat.add_mod, ← h.i_eq]
    have hlt : t.i < size := by
      rw [h.i_eq]
      exact Nat.mod_lt _ hsize
    split
    · rename_i hwrap
      obtain hone | hmany : size = 1 ∨ 1 < size := by omega
      · subst hone
        exact (Nat.mod_one _).symm
      · rw [Nat.mod_eq_of_lt hmany, show t.i + 1 = size by omega, Nat.mod_self]
    · rw [Nat.mod_eq_of_lt (a := 1) (by omega), Nat.mod_eq_of_lt (by omega)]
  p_eq := by
    unfold InterTable.next
    split
    · rfl
    · exact congrArg (· + 1) h.p_eq
  entry k hk hrecent := by
    have hentries : (t.next size).entries = t.entries := by
      unfold InterTable.next
      split <;> rfl
    rw [List.length_append, List.length_singleton] at hk hrecent
    rw [hentries]
    rcases Nat.lt_or_ge k done.length with hlt | hge
    · rw [List.getElem_append_left hlt]
      exact h.entry k hlt (by omega)
    · obtain rfl : k = done.length := by omega
      rw [List.getElem_concat_length rfl, ← h.i_eq, ← h.p_eq]

/-! ### Reading -/

theorem length_readEntries (entries : ℕ → Rec) (cnt pos : ℕ) :
    (readEntries size entries cnt pos).1.length = cnt := by
  induction cnt generalizing pos with
  | zero => rfl
  | succ cnt ih => rw [readEntries, List.length_cons, ih]

theorem length_readback (cnts : List ℕ) (row : ℕ) :
    (readback size t cnts row).1.length = cnts.sum := by
  induction cnts generalizing row with
  | nil => rfl
  | cons cnt cnts ih =>
    rw [readback, List.length_append, ih, getTable, length_readEntries, List.sum_cons]

theorem take_readEntries (entries : ℕ → Rec) {a cnt : ℕ} (h : a ≤ cnt) (pos : ℕ) :
    (readEntries size entries cnt pos).1.take a = (readEntries size entries a pos).1 := by
  induction cnt generalizing a pos with
  | zero =>
    obtain rfl : a = 0 := by omega
    rfl
  | succ cnt ih =>
    cases a with
    | zero => rfl
    | succ a => rw [readEntries, readEntries, List.take_succ_cons, ih (by omega)]

theorem pred_mod (hsize : 0 < size) (m : ℕ) :
    (if (m + 1) % size = 0 then size - 1 else (m + 1) % size - 1) = m % size := by
  have hlt := Nat.mod_lt m hsize
  rw [Nat.add_mod]
  obtain hone | hmany : size = 1 ∨ 1 < size := by omega
  · subst hone
    simp only [Nat.mod_one]
    rfl
  · rw [Nat.mod_eq_of_lt hmany]
    rcases Nat.lt_or_ge (m % size + 1) size with h | h
    · rw [Nat.mod_eq_of_lt h]
      simp
    · rw [show m % size + 1 = size by omega, Nat.mod_self, if_pos rfl]
      omega

/-- The entries before entry `m`, back to front. -/
def backwards (size : ℕ) (entries : ℕ → Rec) (m cnt : ℕ) : List Rec :=
  (List.range cnt).map fun j => entries ((m - 1 - j) % size)

theorem backwards_succ (entries : ℕ → Rec) (m cnt : ℕ) :
    backwards size entries (m + 1) (cnt + 1) =
      entries (m % size) :: backwards size entries m cnt := by
  unfold backwards
  rw [List.range_succ_eq_map, List.map_cons, List.map_map]
  congr 1
  apply List.map_congr_left
  intro j _
  show entries ((m + 1 - 1 - (j + 1)) % size) = entries ((m - 1 - j) % size)
  congr 2
  omega

theorem backwards_add (entries : ℕ → Rec) (m a b : ℕ) :
    backwards size entries m (a + b) =
      backwards size entries m a ++ backwards size entries (m - a) b := by
  unfold backwards
  rw [List.range_add, List.map_append, List.map_map]
  congr 1
  apply List.map_congr_left
  intro j _
  show entries ((m - 1 - (a + j)) % size) = entries ((m - a - 1 - j) % size)
  congr 2
  omega

theorem readEntries_eq (hsize : 0 < size) (entries : ℕ → Rec) {m cnt : ℕ} (h : cnt ≤ m) :
    readEntries size entries cnt (m % size) =
      (backwards size entries m cnt, (m - cnt) % size) := by
  induction cnt generalizing m with
  | zero => rfl
  | succ cnt ih =>
    obtain ⟨m, rfl⟩ : ∃ k, m = k + 1 := ⟨m - 1, by omega⟩
    rw [readEntries]
    simp only [pred_mod hsize]
    rw [ih (by omega), backwards_succ, show m + 1 - (cnt + 1) = m - cnt by omega]

theorem start_lt (hsize : 0 < size) (hi : t.i = n % size) {row : ℕ} (hrow : row < size) :
    t.start row < size := by
  unfold InterTable.start
  split
  · rw [hi]
    exact Nat.mod_lt _ hsize
  · exact hrow

theorem start_zero (hi : t.i = n % size) : t.start 0 = t.start ((n - 0) % size) := by
  unfold InterTable.start
  rw [if_pos rfl, Nat.sub_zero, hi]
  split_ifs <;> rfl

theorem start_mod (hi : t.i = n % size) {s : ℕ} (hn : s ≤ n) (hs : s < size)
    (hstop : 0 < s → s ≠ n % size) : t.start ((n - s) % size) = (n - s) % size := by
  unfold InterTable.start
  split
  · rename_i hzero
    have hmod : s % size = n % size :=
      (Nat.modEq_iff_dvd' hn).mpr (Nat.dvd_of_mod_eq_zero hzero)
    rw [Nat.mod_eq_of_lt hs] at hmod
    have hs0 : s = 0 := by
      by_contra hne
      exact hstop (Nat.pos_of_ne_zero hne) hmod
    rw [hi, hs0, Nat.sub_zero]
  · rfl

theorem start_start (row : ℕ) : t.start (t.start row) = t.start row := by
  unfold InterTable.start
  split_ifs <;> rfl

theorem readback_eq (hsize : 0 < size) (hi : t.i = n % size) {cnts : List ℕ} {s row : ℕ}
    (hn : s + cnts.sum ≤ n) (hround : s + cnts.sum ≤ size)
    (hrow : t.start row = t.start ((n - s) % size))
    (hstop : ∀ before after, cnts = before ++ after → 0 < s + before.sum → 0 < after.sum →
      s + before.sum ≠ n % size) :
    (readback size t cnts row).1 = backwards size t.entries (n - s) cnts.sum ∧
      t.start (readback size t cnts row).2 = t.start ((n - (s + cnts.sum)) % size) := by
  induction cnts generalizing s row with
  | nil => exact ⟨rfl, hrow⟩
  | cons cnt cnts ih =>
    rw [List.sum_cons] at hn hround ⊢
    have hlt : t.start ((n - s) % size) < size := start_lt hsize hi (Nat.mod_lt _ hsize)
    have hnext : getTable size t row cnt =
        (backwards size t.entries (n - s) cnt, (getTable size t row cnt).2) ∧
        t.start (getTable size t row cnt).2 = t.start ((n - (s + cnt)) % size) := by
      unfold getTable
      dsimp only
      rw [hrow, if_neg (by omega)]
      rcases Nat.eq_zero_or_pos cnt with rfl | hpos
      · exact ⟨rfl, start_start _⟩
      · have hstart := start_mod hi (show s ≤ n by omega) (show s < size by omega) fun hs =>
          hstop [] (cnt :: cnts) rfl (by simpa using hs) (by rw [List.sum_cons]; omega)
        rw [hstart, readEntries_eq hsize t.entries (by omega)]
        exact ⟨rfl, by rw [Nat.sub_sub]⟩
    obtain ⟨hlist, hrow'⟩ := @ih (s + cnt) (getTable size t row cnt).2 (by omega)
      (by omega) hnext.2 fun before after heq h0 ha => by
        have h := hstop (cnt :: before) after (by rw [heq]; rfl)
        rw [List.sum_cons, ← Nat.add_assoc] at h
        exact h h0 ha
    rw [readback]
    dsimp only
    rw [hlist, hrow', backwards_add, Nat.sub_sub, Nat.add_assoc]
    refine ⟨?_, rfl⟩
    rw [hnext.1]

theorem Recorded.backwards_eq (h : Recorded size keep done t) {cnt : ℕ} (hcnt : cnt ≤ done.length)
    (hkeep : cnt ≤ keep) : backwards size t.entries done.length cnt = done.reverse.take cnt := by
  apply List.ext_getElem
  · rw [backwards, List.length_map, List.length_range, List.length_take, List.length_reverse]
    omega
  · intro j hj hj'
    rw [backwards, List.length_map, List.length_range] at hj
    simp only [backwards, List.getElem_map, List.getElem_range, List.getElem_take,
      List.getElem_reverse]
    exact h.entry (done.length - 1 - j) (by omega) (by omega)

theorem readback_append (before after : List ℕ) (row : ℕ) :
    readback size t (before ++ after) row =
      ((readback size t before row).1 ++ (readback size t after (readback size t before row).2).1,
        (readback size t after (readback size t before row).2).2) := by
  induction before generalizing row with
  | nil => rfl
  | cons cnt before ih => simp only [List.cons_append, readback, ih, List.append_assoc]

theorem exists_split {cnts : List ℕ} (h : size < cnts.sum) :
    ∃ before cnt after, cnts = before ++ cnt :: after ∧ before.sum ≤ size ∧
      size < before.sum + cnt := by
  induction cnts generalizing size with
  | nil => simp at h
  | cons cnt cnts ih =>
    rw [List.sum_cons] at h
    by_cases hcnt : size < cnt
    · exact ⟨[], cnt, cnts, rfl, Nat.zero_le _, by simpa using hcnt⟩
    · obtain ⟨before, c, after, rfl, hle, hlt⟩ := @ih (size - cnt) (by omega)
      refine ⟨cnt :: before, c, after, rfl, ?_, ?_⟩
      · rw [List.sum_cons]
        omega
      · rw [List.sum_cons]
        omega

theorem take_readback (hsize : 0 < size) (hi : t.i = n % size) {cnts : List ℕ}
    (hn : min cnts.sum size ≤ n) (hstop : NoStop size n cnts) :
    (readback size t cnts 0).1.take size = backwards size t.entries n (min cnts.sum size) := by
  have hinner (before after : List ℕ) (heq : cnts = before ++ after) (hle : before.sum ≤ size)
      (hmin : before.sum ≤ n) :
      (readback size t before 0).1 = backwards size t.entries n before.sum ∧
        t.start (readback size t before 0).2 = t.start ((n - before.sum) % size) := by
    have h := @readback_eq Rec size n t hsize hi before 0 0 (by omega) (by omega) (start_zero hi)
      fun b a hb h0 ha => by
        rw [Nat.zero_add] at h0 ⊢
        have hsum : before.sum = b.sum + a.sum := by rw [hb, List.sum_append]
        exact hstop b (a ++ after) (by rw [heq, hb, List.append_assoc]) h0 (by omega)
          (by rw [List.sum_append]; omega)
    simpa using h
  rcases Nat.lt_or_ge size cnts.sum with hmany | hfew
  · obtain ⟨before, cnt, after, heq, hle, hlt⟩ := exists_split hmany
    obtain ⟨hlist, hrow⟩ := hinner before (cnt :: after) heq hle (by omega)
    have hround : size ≤ n := by omega
    rw [Nat.min_eq_right hmany.le, heq, readback_append, hlist, readback]
    have hsplit := @backwards_add Rec size t.entries n before.sum (size - before.sum)
    rw [Nat.add_sub_cancel' hle] at hsplit
    have hlen : (backwards size t.entries n before.sum).length = before.sum := by
      rw [backwards, List.length_map, List.length_range]
    rw [hsplit, List.take_append, hlen, List.take_of_length_le (by omega)]
    congr 1
    rw [List.take_append_of_le_length (by rw [getTable, length_readEntries]; omega), getTable,
      take_readEntries _ (by omega)]
    rcases Nat.lt_or_ge before.sum size with hlt' | hge
    · have hrow' : t.start (readback size t before 0).2 = (n - before.sum) % size :=
        hrow.trans (start_mod hi (by omega) hlt' fun h0 =>
          hstop before (cnt :: after) heq h0 hlt' (by rw [List.sum_cons]; omega))
      have hpos : (n - before.sum) % size < size := Nat.mod_lt _ hsize
      rw [hrow', if_neg (by omega), readEntries_eq hsize t.entries (by omega)]
    · rw [Nat.sub_eq_zero_of_le hge]
      rfl
  · rw [Nat.min_eq_left hfew, List.take_of_length_le (by rw [length_readback]; exact hfew)]
    exact (hinner cnts [] (by simp) hfew (by omega)).1

theorem Recorded.readsBack (h : Recorded size keep done t) (hsize : 0 < size) {cnts : List ℕ}
    (hn : min cnts.sum size ≤ done.length) (hkeep : min cnts.sum size ≤ keep)
    (hstop : NoStop size done.length cnts) : ReadsBack size t done cnts := by
  unfold ReadsBack
  rw [take_readback hsize h.i_eq hn hstop, h.backwards_eq hn hkeep]

theorem ReadsBack.le_length {cnts : List ℕ} (h : ReadsBack size t done cnts) :
    min cnts.sum size ≤ done.length := by
  have hlen := congrArg List.length h
  rw [List.length_take, length_readback, List.length_take, List.length_reverse] at hlen
  omega

theorem head?_readback {cnts : List ℕ} (hpos : 0 < cnts.sum) {row : ℕ} (hlt : t.start row < size) :
    (readback size t cnts row).1.head? =
      some (t.entries (if t.start row = 0 then size - 1 else t.start row - 1)) := by
  induction cnts generalizing row with
  | nil => simp at hpos
  | cons cnt cnts ih =>
    rw [readback, getTable]
    dsimp only
    rw [if_neg (by omega)]
    cases cnt with
    | zero =>
      rw [List.sum_cons, Nat.zero_add] at hpos
      have hrest := @ih hpos (t.start row) (by rw [start_start]; exact hlt)
      rw [start_start] at hrest
      exact hrest
    | succ cnt => rfl

theorem ReadsBack.newest_again {cnts : List ℕ} (h : ReadsBack size t done cnts) (hsize : 0 < size)
    (hr : Recorded size keep done t) (hkeep : 0 < keep) {before after : List ℕ}
    (heq : cnts = before ++ after) (h0 : 0 < before.sum) (hlt : before.sum < size)
    (hafter : 0 < after.sum) (hstop : before.sum = done.length % size) :
    done[done.length - 1]? = done[done.length - 1 - before.sum]? := by
  have hsum : cnts.sum = before.sum + after.sum := by rw [heq, List.sum_append]
  have hle := h.le_length
  have hn : before.sum < done.length := by omega
  have hrow : t.start (readback size t before 0).2 = before.sum := by
    have hinner := (@readback_eq Rec size _ t hsize hr.i_eq before 0 0 (by omega) (by omega)
      (start_zero hr.i_eq) fun b a hb h0 ha => by
        have hb' : before.sum = b.sum + a.sum := by rw [hb, List.sum_append]
        omega).2
    rw [hinner, Nat.zero_add, hstop, Nat.sub_mod_eq_zero_of_mod_eq (Nat.mod_mod _ _).symm]
    exact hr.i_eq
  have hnewest : t.entries (before.sum - 1) = done[done.length - 1] := by
    rw [← hr.entry (done.length - 1) (by omega) (by omega), ← pred_mod hsize,
      Nat.sub_add_cancel (by omega), ← hstop, if_neg (by omega)]
  have hread : (readback size t cnts 0).1[before.sum]? = some done[done.length - 1] := by
    rw [heq, readback_append, List.getElem?_append_right (by rw [length_readback]), length_readback,
      Nat.sub_self, ← List.head?_eq_getElem?, head?_readback hafter (by omega), hrow,
      if_neg (by omega), hnewest]
  have hsame := congrArg (fun l => l[before.sum]?) h
  simp only [List.getElem?_take] at hsame
  rw [if_pos hlt, if_pos (by omega), hread, List.getElem?_reverse (by omega)] at hsame
  rw [List.getElem?_eq_getElem (by omega)]
  exact hsame

theorem ReadsBack.oldest (h : ReadsBack size t done cnts) (hsize : 0 < size)
    (hr : Recorded size keep done t) (hall : size ≤ cnts.sum)
    (hstop : NoStop size done.length cnts) :
    done[done.length - size]? = some (t.entries t.i) := by
  have hle := h.le_length
  rw [Nat.min_eq_right hall] at hle
  unfold ReadsBack at h
  rw [take_readback hsize hr.i_eq (by omega) hstop, Nat.min_eq_right hall] at h
  have hsame := congrArg (fun l => l[size - 1]?) h
  simp only [List.getElem?_take, backwards, List.getElem?_map] at hsame
  rw [List.getElem?_range (by omega), if_pos (by omega), List.getElem?_reverse (by omega)] at hsame
  have holdest : done.length - 1 - (size - 1) = done.length - size := by omega
  rw [holdest] at hsame
  rw [← hsame, hr.i_eq, Nat.mod_eq_sub_mod hle, Option.map_some, holdest]

end Table

/-! ### The histories -/

/-- A timing frame as `Xr_Isr` gets it: the receiver error that is read with a millisecond, and the super
cycle, its time and the word of the receiver error and the time of day when it is recorded. -/
structure Received where
  frame : BitVec 32
  err : BitVec 8
  sc : BitVec 32
  occ : BitVec 32
  time : BitVec 32

/-- `Tg8History`; the receiver error and the time are copied as one word. -/
structure Tg8History where
  hEvent : BitVec 32
  hSc : BitVec 32
  hOcc : BitVec 32
  hTime : BitVec 32
  deriving DecidableEq, Repr

/-- `Tg8HISTORIES`. -/
def tg8Histories : ℕ := 1000

/-- The record of an event. -/
def Received.history (e : Received) : Tg8History := ⟨e.frame, e.sc, e.occ, e.time⟩

/-- The part of `Xr_Isr` that records an event. -/
def recordHistory (t : InterTable Tg8History) (e : Received) : InterTable Tg8History :=
  if header e.frame = 0x24 then (t.fill fun _ => e.history).next tg8Histories else t

/-- The table after the frames, from a start of the module on. -/
def historyTable (frames : List Received) : InterTable Tg8History :=
  frames.foldl recordHistory ⟨0, 0, fun _ => ⟨0, 0, 0, 0⟩⟩

/-- The records of the frames. -/
def histories (frames : List Received) : List Tg8History :=
  (frames.filter fun e => header e.frame = 0x24).map Received.history

theorem historyTable_recorded (frames : List Received) :
    Recorded tg8Histories tg8Histories (histories frames) (historyTable frames) := by
  induction frames using List.reverseRecOn with
  | nil => exact ⟨rfl, rfl, fun k hk => by simp [histories] at hk⟩
  | append_singleton frames e ih =>
    rw [historyTable, List.foldl_append, histories, List.filter_append, List.map_append]
    show Recorded _ _ (histories frames ++ _) (recordHistory (historyTable frames) e)
    unfold recordHistory
    by_cases he : header e.frame = 0x24
    · have hnext := ((ih.mono (show tg8Histories - 1 ≤ tg8Histories by decide)).fill (by decide)
        fun _ => e.history).next (by decide)
      rw [fill_entry] at hnext
      rw [if_pos he, List.filter_cons_of_pos (by simpa using he)]
      exact hnext
    · rw [if_neg he, List.filter_cons_of_neg (by simpa using he)]
      simpa using ih

/-- An event at the time `occ`. -/
def eventAt (occ : BitVec 32) : Received := ⟨0x24010000, 0, 0, occ, 0⟩

theorem histories_eventAt (n : ℕ) :
    histories (List.replicate n (eventAt 0) ++ [eventAt 1]) =
      List.replicate n (eventAt 0).history ++ [(eventAt 1).history] := by
  unfold histories
  rw [List.filter_append, List.filter_replicate, if_pos (by decide),
    List.filter_cons_of_pos (by decide), List.filter_nil, List.map_append, List.map_replicate]
  rfl

theorem newest_ne {Rec : Type*} {a b : Rec} (hne : a ≠ b) {n k : ℕ} (hk : 0 < k) (hkn : k ≤ n) :
    (List.replicate n a ++ [b])[n]? ≠ (List.replicate n a ++ [b])[n - k]? := by
  rw [List.getElem?_append_right (by rw [List.length_replicate]), List.length_replicate,
    Nat.sub_self, List.getElem?_append_left (by rw [List.length_replicate]; omega),
    List.getElem?_replicate, if_pos (by omega)]
  simpa using hne.symm

theorem historyTable_readsBack_iff (n : ℕ) (cnts : List ℕ) :
    (∀ frames, (histories frames).length = n →
      ReadsBack tg8Histories (historyTable frames) (histories frames) cnts) ↔
      min cnts.sum tg8Histories ≤ n ∧ NoStop tg8Histories n cnts := by
  constructor
  · intro h
    have hle : min cnts.sum tg8Histories ≤ n := by
      have hread := h (List.replicate n (eventAt 0)) (by
        unfold histories
        rw [List.filter_replicate, if_pos (by decide), List.length_map, List.length_replicate])
      have hlen := hread.le_length
      unfold histories at hlen
      rwa [List.filter_replicate, if_pos (by decide), List.length_map, List.length_replicate] at hlen
    refine ⟨hle, fun before after heq h0 hlt hafter hstop => ?_⟩
    have hsum : cnts.sum = before.sum + after.sum := by rw [heq, List.sum_append]
    -- only the newest record differs
    obtain ⟨m, rfl⟩ : ∃ m, n = m + 1 := ⟨n - 1, by omega⟩
    have hdone := histories_eventAt m
    have hlen : (histories (List.replicate m (eventAt 0) ++ [eventAt 1])).length = m + 1 := by
      rw [hdone, List.length_append, List.length_replicate, List.length_singleton]
    have hsame := (h _ hlen).newest_again (by decide) (historyTable_recorded _) (by decide) heq h0 hlt
      hafter (by rw [hlen]; exact hstop)
    rw [hlen, hdone] at hsame
    exact newest_ne (by decide) h0 (by omega) hsame
  · rintro ⟨hn, hstop⟩ frames rfl
    exact (historyTable_recorded frames).readsBack (by decide) hn (Nat.min_le_right _ _) hstop

/-! ### The clocks -/

/-- `Tg8Clock`. -/
structure Tg8Clock where
  cMsEvent : BitVec 32
  cNumOfMs : BitVec 32
  cSc : BitVec 32
  cOcc : BitVec 32
  cTime : BitVec 32
  deriving DecidableEq, Repr

/-- `Tg8CLOCKS`. -/
def tg8Clocks : ℕ := 16

/-- `Tg8MILLISECOND_HEADER`. -/
def tg8MillisecondHeader : BitVec 8 := 0x01

/-- The record of a reception error, after so many milliseconds. -/
def Received.clock (e : Received) (numOfMs : BitVec 32) : Tg8Clock :=
  ⟨e.frame, numOfMs, e.sc, e.occ, e.time⟩

/-- The part of `Xr_Isr` that counts the milliseconds and records the reception errors. -/
def recordClock (t : InterTable Tg8Clock) (e : Received) : InterTable Tg8Clock :=
  if header e.frame = tg8MillisecondHeader then
    let t := t.fill fun c => { c with cNumOfMs := c.cNumOfMs + 1 }
    if e.err = 0 then t
    else ((t.fill fun c => e.clock c.cNumOfMs).next tg8Clocks).fill fun c => { c with cNumOfMs := 0 }
  else t

/-- The table after the frames, from a start of the module on. -/
def clockTable (frames : List Received) : InterTable Tg8Clock :=
  frames.foldl recordClock ⟨0, 0, fun _ => ⟨0, 0, 0, 0, 0⟩⟩

/-- The records of the frames, when so many milliseconds have gone by since the last error. -/
def clocks : BitVec 32 → List Received → List Tg8Clock
  | _, [] => []
  | numOfMs, e :: frames =>
    if header e.frame = tg8MillisecondHeader then
      if e.err = 0 then clocks (numOfMs + 1) frames
      else e.clock (numOfMs + 1) :: clocks 0 frames
    else clocks numOfMs frames

theorem recordClock_recorded {done : List Tg8Clock} {t : InterTable Tg8Clock}
    (h : Recorded tg8Clocks (tg8Clocks - 1) done t) (e : Received) (frames : List Received) :
    ∃ added, clocks (t.entries t.p).cNumOfMs (e :: frames) =
        added ++ clocks ((recordClock t e).entries (recordClock t e).p).cNumOfMs frames ∧
      Recorded tg8Clocks (tg8Clocks - 1) (done ++ added) (recordClock t e) := by
  unfold recordClock
  rw [clocks]
  split
  · have hcount := h.fill (by decide) fun c => { c with cNumOfMs := c.cNumOfMs + 1 }
    dsimp only
    split
    · exact ⟨[], by rw [fill_entry, List.nil_append], by rwa [List.append_nil]⟩
    · have hnext := (hcount.fill (by decide) fun c => e.clock c.cNumOfMs).next (by decide)
      have hafter := (hnext.mono (show tg8Clocks - 1 ≤ tg8Clocks by decide)).fill (by decide)
        fun c => { c with cNumOfMs := 0 }
      rw [fill_entry, fill_entry] at hafter
      exact ⟨[_], by rw [fill_entry, List.singleton_append], hafter⟩
  · exact ⟨[], rfl, by rwa [List.append_nil]⟩

theorem clockTable_recorded_of {done : List Tg8Clock} {t : InterTable Tg8Clock}
    (h : Recorded tg8Clocks (tg8Clocks - 1) done t) (frames : List Received) :
    Recorded tg8Clocks (tg8Clocks - 1) (done ++ clocks (t.entries t.p).cNumOfMs frames)
      (frames.foldl recordClock t) := by
  induction frames generalizing done t with
  | nil => rwa [clocks, List.append_nil]
  | cons e frames ih =>
    obtain ⟨added, heq, hr⟩ := recordClock_recorded h e frames
    rw [heq, ← List.append_assoc]
    exact ih hr

theorem clockTable_recorded (frames : List Received) :
    Recorded tg8Clocks (tg8Clocks - 1) (clocks 0 frames) (clockTable frames) :=
  @clockTable_recorded_of [] ⟨0, 0, fun _ => ⟨0, 0, 0, 0, 0⟩⟩
    ⟨rfl, rfl, fun _ hk => absurd hk (Nat.not_lt_zero _)⟩ frames

/-- A millisecond that is received with an error at the time `occ`. -/
def errorAt (occ : BitVec 32) : Received := ⟨0x01000000, 1, 0, occ, 0⟩

theorem clocks_errorAt (n : ℕ) (frames : List Received) :
    clocks 0 (List.replicate n (errorAt 0) ++ frames) =
      List.replicate n ((errorAt 0).clock 1) ++ clocks 0 frames := by
  induction n with
  | zero => rfl
  | succ n ih =>
    rw [List.replicate_succ, List.cons_append, clocks, if_pos (by decide), if_neg (by decide), ih]
    rfl

theorem recordClock_error (t : InterTable Tg8Clock) {e : Received}
    (he : header e.frame = tg8MillisecondHeader) (herr : ¬ e.err = 0) :
    ((recordClock t e).entries (recordClock t e).p).cNumOfMs = 0 := by
  unfold recordClock
  rw [if_pos he]
  dsimp only
  rw [if_neg herr, fill_entry]

theorem clockTable_error (frames : List Received) {e : Received}
    (he : header e.frame = tg8MillisecondHeader) (herr : ¬ e.err = 0) :
    ((clockTable (frames ++ [e])).entries (clockTable (frames ++ [e])).p).cNumOfMs = 0 := by
  unfold clockTable
  rw [List.foldl_append]
  exact recordClock_error _ he herr

theorem clockTable_readsBack_iff (n : ℕ) (cnts : List ℕ) :
    (∀ frames, (clocks 0 frames).length = n →
      ReadsBack tg8Clocks (clockTable frames) (clocks 0 frames) cnts) ↔
      cnts.sum ≤ n ∧ cnts.sum < tg8Clocks ∧ NoStop tg8Clocks n cnts := by
  constructor
  · intro h
    have hle : min cnts.sum tg8Clocks ≤ n := by
      have hlen : (clocks 0 (List.replicate n (errorAt 0))).length = n := by
        rw [← List.append_nil (List.replicate n _), clocks_errorAt, clocks, List.append_nil,
          List.length_replicate]
      have hread := (h _ hlen).le_length
      rwa [hlen] at hread
    have hlast : clocks 0 [errorAt 1] = [(errorAt 1).clock 1] := by decide
    have hstop : NoStop tg8Clocks n cnts := by
      intro before after heq h0 hlt hafter hstop
      have hsum : cnts.sum = before.sum + after.sum := by rw [heq, List.sum_append]
      obtain ⟨m, rfl⟩ : ∃ m, n = m + 1 := ⟨n - 1, by omega⟩
      have hdone := clocks_errorAt m [errorAt 1]
      rw [hlast] at hdone
      have hlen : (clocks 0 (List.replicate m (errorAt 0) ++ [errorAt 1])).length = m + 1 := by
        rw [hdone, List.length_append, List.length_replicate, List.length_singleton]
      have hsame := (h _ hlen).newest_again (by decide) (clockTable_recorded _) (by decide) heq h0 hlt
        hafter (by rw [hlen]; exact hstop)
      rw [hlen, hdone] at hsame
      exact newest_ne (by decide) h0 (by omega) hsame
    have hfew : cnts.sum < tg8Clocks := by
      by_contra hge
      rw [Nat.not_lt] at hge
      rw [Nat.min_eq_right hge] at hle
      obtain ⟨m, rfl⟩ : ∃ m, n = m + 1 := ⟨n - 1, by have : tg8Clocks = 16 := rfl; omega⟩
      have hdone := clocks_errorAt m [errorAt 0]
      rw [show clocks 0 [errorAt 0] = [(errorAt 0).clock 1] by decide] at hdone
      have hlen : (clocks 0 (List.replicate m (errorAt 0) ++ [errorAt 0])).length = m + 1 := by
        rw [hdone, List.length_append, List.length_replicate, List.length_singleton]
      have hr := clockTable_recorded (List.replicate m (errorAt 0) ++ [errorAt 0])
      have hold := (h _ hlen).oldest (by decide) hr hge (by rw [hlen]; exact hstop)
      have hcount := clockTable_error (e := errorAt 0) (List.replicate m (errorAt 0)) (by decide) (by decide)
      rw [hr.p_eq] at hcount
      rw [hdone, ← List.replicate_succ', List.getElem?_replicate] at hold
      split at hold
      · rw [← Option.some.inj hold] at hcount
        exact absurd hcount (by decide)
      · exact absurd hold (by simp)
    exact ⟨by rwa [Nat.min_eq_left hfew.le] at hle, hfew, hstop⟩
  · rintro ⟨hn, hfew, hstop⟩ frames rfl
    exact (clockTable_recorded frames).readsBack (by decide) (by omega)
      (by rw [Nat.min_eq_left hfew.le]; exact Nat.le_pred_of_lt hfew) hstop

/-! ### Both tables -/

/-- **The requests get the records** of the table from the newest on, each once, exactly when they do not
ask for more than have been recorded, none but the last ends with entry 0, and, of the clocks, they leave
out the entry that is being filled. -/
theorem tables_readsBack_iff (n : ℕ) (cnts : List ℕ) :
    ((∀ frames, (histories frames).length = n →
        ReadsBack tg8Histories (historyTable frames) (histories frames) cnts) ↔
      min cnts.sum tg8Histories ≤ n ∧ NoStop tg8Histories n cnts) ∧
    ((∀ frames, (clocks 0 frames).length = n →
        ReadsBack tg8Clocks (clockTable frames) (clocks 0 frames) cnts) ↔
      cnts.sum ≤ n ∧ cnts.sum < tg8Clocks ∧ NoStop tg8Clocks n cnts) :=
  ⟨historyTable_readsBack_iff n cnts, clockTable_readsBack_iff n cnts⟩

/-- **The newest record is read twice**: of seventeen clocks, two requests of one each. -/
theorem newest_clock_twice :
    ¬ ReadsBack tg8Clocks (clockTable (List.replicate 16 (errorAt 0) ++ [errorAt 1]))
        (clocks 0 (List.replicate 16 (errorAt 0) ++ [errorAt 1])) [1, 1] := by
  unfold ReadsBack
  decide

end KernelModules.Tg8.Firmware
