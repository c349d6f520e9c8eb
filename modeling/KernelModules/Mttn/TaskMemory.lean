import Mathlib.Tactic
import KernelModules.Lib.Table
import KernelModules.Lib.Transition

/-!
# Task memory of the MTT library

The program memory of the MTT is cut into slots of `max_size` instructions, one for each task
control block.  `MttLibLoadTaskObject` looks for a row of free blocks that is long enough for a
program, writes the program and enters its name in the blocks of the row; `MttLibUnloadTask` clears
the name.

* `TaskRange` are the blocks the library works on and the size of a slot, `MttMemory` the blocks as
  the driver keeps them, and the program memory;
* `findSlots` is the search, and `mttLibLoadTaskObject` and `mttLibUnloadTask` the two calls;
* `Isolated` says that every program lies in the slots of its own name and apart from all others;
* the load address is that of the last slot of the row, so a program is isolated exactly when it
  fits one slot (`isolated_of_reach`).
-/

namespace KernelModules.Mttn

open Function KernelModules.Lib

/-! ### Blocks and memory -/

/-- `first_task`, `last_task` and `max_size`, as `MttLibSetTaskRange` accepts them. -/
structure TaskRange where
  firstTask : ℕ
  lastTask : ℕ
  maxSize : ℕ
  first_pos : 1 ≤ firstTask
  first_lt : firstTask < lastTask
  last_le : lastTask ≤ 16

namespace TaskRange

/-- The values the library starts with. -/
def standard : TaskRange := ⟨1, 16, 256, by decide, by decide, by decide⟩

/-- The task numbers of `for (i = first_task - 1; i < last_task; i++)`. -/
def numbers (r : TaskRange) : List ℕ :=
  List.range' r.firstTask (r.lastTask + 1 - r.firstTask)

theorem mem_numbers (r : TaskRange) (t : ℕ) :
    t ∈ r.numbers ↔ r.firstTask ≤ t ∧ t ≤ r.lastTask := by
  have := r.first_lt
  rw [numbers, List.mem_range'_1]
  omega

end TaskRange

/-- What the driver keeps of a task: `struct mtt_task`. -/
structure TaskBlock where
  name : List Char
  loadAddress : ℕ
  instructionCount : ℕ
  pcStart : ℕ
  pc : ℕ
  pcOffset : ℕ
  deriving DecidableEq, Repr

/-- The task blocks by their numbers, and the program memory. -/
structure MttMemory (Instr : Type*) where
  tasks : ℕ → TaskBlock
  programMem : ℕ → Instr

/-- `ProgramBuf`. -/
structure ProgramBuf (Instr : Type*) where
  loadAddress : ℕ
  instructionCount : ℕ
  program : ℕ → Instr

/-- `MttLibError`, as far as the two calls return it. -/
inductive MttLibError
  | none | name | norelo | empty | isload | nomem | io
  deriving DecidableEq, Repr

/-- The test of a task name, all parts of which give `MttLibErrorNAME`. -/
def validName (name : List Char) : Bool :=
  match name with
  | [] => false
  | c :: rest =>
    name.length < 32 && name != ['A', 'L', 'L'] && c.isAlpha &&
      rest.all (fun c => c == '_' || c == '.' || c.isAlphanum) && 3 ≤ name.length

/-! ### Loading -/

/-- The variables of the search: how many free blocks in a row, the first of them, and the block
looked at last. -/
structure Search where
  tval : ℕ
  ftn : ℕ
  tn : ℕ
  deriving DecidableEq, Repr

/-- The search for `tcnt` free blocks in a row. -/
def findSlots (free : ℕ → Bool) (tcnt : ℕ) : List ℕ → Search → Search
  | [], f => f
  | tn :: rest, f =>
    if free tn then
      let f := ⟨f.tval + 1, if f.tval = 0 then tn else f.ftn, tn⟩
      if tcnt ≤ f.tval then f else findSlots free tcnt rest f
    else findSlots free tcnt rest ⟨0, f.ftn, tn⟩

variable {Instr : Type*}

/-- The search for a program of `count` instructions. -/
def MttMemory.search (s : MttMemory Instr) (r : TaskRange) (count : ℕ) : Search :=
  findSlots (fun t => (s.tasks t).name == []) (count / (r.maxSize + 1) + 1) r.numbers ⟨0, 0, 0⟩

/-- `MTT_IOCSPROGRAM`. -/
def MttMemory.setProgram (s : MttMemory Instr) (pbf : ProgramBuf Instr) : MttMemory Instr :=
  { s with
    programMem := fun a =>
      if pbf.loadAddress ≤ a ∧ a < pbf.loadAddress + pbf.instructionCount then
        pbf.program (a - pbf.loadAddress)
      else s.programMem a }

/-- The loop that enters the program in its blocks with `MTT_IOCSTCB`. -/
def MttMemory.enter (s : MttMemory Instr) (name : List Char) (pbf : ProgramBuf Instr)
    (numbers : List ℕ) : MttMemory Instr :=
  numbers.foldl (fun s i =>
    { s with
      tasks := update s.tasks i
        { name := name
          loadAddress := pbf.loadAddress
          instructionCount := pbf.instructionCount
          pcStart := 0
          pc := 0
          pcOffset := pbf.loadAddress } }) s

/-- `MttLibLoadTaskObject`; `written` says whether the driver could take the program over. -/
def mttLibLoadTaskObject (r : TaskRange) (s : MttMemory Instr) (name : List Char)
    (pbf : ProgramBuf Instr) (written : Bool) : MttLibError × MttMemory Instr :=
  if validName name = false then (.name, s)
  else if pbf.loadAddress ≠ 0 then (.norelo, s)
  else if pbf.instructionCount = 0 then (.empty, s)
  else if r.numbers.any (fun t => (s.tasks t).name == name) then (.isload, s)
  else
    let f := s.search r pbf.instructionCount
    if f.tval = 0 then (.nomem, s)
    else
      let pbf := { pbf with loadAddress := r.maxSize * (f.tn - 1) }
      if written then
        (.none, (s.setProgram pbf).enter name pbf (List.range' f.ftn f.tval))
      else (.io, s)

/-! ### Unloading -/

/-- `MttLibUnloadTask`: the name is cleared and everything else written back as it was read. -/
def mttLibUnloadTask (r : TaskRange) (s : MttMemory Instr) (name : List Char) : MttMemory Instr :=
  r.numbers.foldl (fun s tn =>
    if name = ['A', 'L', 'L'] ∨ name = (s.tasks tn).name then
      { s with tasks := update s.tasks tn { s.tasks tn with name := [] } }
    else s) s

/-! ### Runs -/

/-- The calls of the library. -/
inductive TaskCall (Instr : Type*)
  | load (name : List Char) (pbf : ProgramBuf Instr) (written : Bool)
  | unload (name : List Char)

def taskStep (r : TaskRange) (s : MttMemory Instr) :
    TaskCall Instr → Option (MttMemory Instr)
  | .load name pbf written => some (mttLibLoadTaskObject r s name pbf written).2
  | .unload name => some (mttLibUnloadTask r s name)

/-- Any calls, from a driver that has just been installed: no block has a name. -/
def taskSystem (Instr : Type*) (r : TaskRange) : System (MttMemory Instr) (TaskCall Instr) :=
  System.ofFun (fun s => ∀ t, (s.tasks t).name = []) (taskStep r)

/-! ### Isolation -/

/-- The addresses a program takes. -/
def TaskBlock.Covers (b : TaskBlock) (a : ℕ) : Prop :=
  b.loadAddress ≤ a ∧ a < b.loadAddress + b.instructionCount

/-- The addresses of a slot. -/
def TaskRange.InSlot (r : TaskRange) (t a : ℕ) : Prop :=
  r.maxSize * (t - 1) ≤ a ∧ a < r.maxSize * t

/-- **Isolation.**  Every loaded program lies in the slots that have its name, and apart from the
programs with other names. -/
structure Isolated (r : TaskRange) (s : MttMemory Instr) : Prop where
  inside : ∀ t, (s.tasks t).name ≠ [] → ∀ a, (s.tasks t).Covers a →
    ∃ u, (s.tasks u).name = (s.tasks t).name ∧ r.InSlot u a
  apart : ∀ t u, (s.tasks t).name ≠ [] → (s.tasks u).name ≠ [] →
    (s.tasks t).name ≠ (s.tasks u).name → ∀ a, ¬ ((s.tasks t).Covers a ∧ (s.tasks u).Covers a)

/-- The program fits one slot. -/
def FitsSlot (r : TaskRange) (_ : MttMemory Instr) : TaskCall Instr → Prop
  | .load _ pbf _ => pbf.instructionCount ≤ r.maxSize
  | .unload _ => True

/-- A block that has a name is one of the range, and its program starts at its own slot and does not
leave it. -/
def OneSlot (r : TaskRange) (s : MttMemory Instr) : Prop :=
  ∀ t, (s.tasks t).name ≠ [] → r.firstTask ≤ t ∧ t ≤ r.lastTask ∧
    (s.tasks t).loadAddress = r.maxSize * (t - 1) ∧ (s.tasks t).instructionCount ≤ r.maxSize

/-! ### The search -/

section Search

variable {free : ℕ → Bool} {tcnt first : ℕ}

/-- A row of free blocks that ends before block `k`, or no row at all. -/
def Search.Row (free : ℕ → Bool) (first k : ℕ) (f : Search) : Prop :=
  f.tval ≠ 0 → f.ftn + f.tval = k ∧ f.tn + 1 = k ∧ first ≤ f.ftn ∧
    ∀ t, f.ftn ≤ t → t < k → free t = true

theorem findSlots_row (n k : ℕ) {f : Search} (hk : first ≤ k) (h : f.Row free first k) :
    ∃ k', k' ≤ k + n ∧ (findSlots free tcnt (List.range' k n) f).Row free first k' := by
  induction n generalizing k f with
  | zero => exact ⟨k, le_rfl, h⟩
  | succ n ih =>
    rw [List.range'_succ, findSlots]
    split
    · rename_i hfree
      have hrow : Search.Row free first (k + 1)
          ⟨f.tval + 1, if f.tval = 0 then k else f.ftn, k⟩ := by
        intro _
        by_cases hzero : f.tval = 0
        · simp only [hzero, if_true]
          refine ⟨trivial, trivial, hk, fun t hlo hhi => ?_⟩
          rwa [show t = k by omega]
        · obtain ⟨hsum, -, hfirst, hall⟩ := h hzero
          simp only [hzero, if_false]
          refine ⟨by omega, trivial, hfirst, fun t hlo hhi => ?_⟩
          by_cases ht : t = k
          · rwa [ht]
          · exact hall t hlo (by omega)
      dsimp only
      split
      · exact ⟨k + 1, by omega, hrow⟩
      · obtain ⟨k', hk', hrow'⟩ := ih (k + 1) (by omega) hrow
        exact ⟨k', by omega, hrow'⟩
    · obtain ⟨k', hk', hrow'⟩ := ih (k + 1) (f := ⟨0, f.ftn, k⟩) (by omega) fun hne => absurd rfl hne
      exact ⟨k', by omega, hrow'⟩

theorem findSlots_tval_le (l : List ℕ) {f : Search} (h : f.tval < tcnt) :
    (findSlots free tcnt l f).tval ≤ tcnt := by
  induction l generalizing f with
  | nil => exact h.le
  | cons tn l ih =>
    rw [findSlots]
    split
    · dsimp only
      split
      · exact h
      · rename_i hmore
        exact ih (not_le.1 hmore)
    · exact ih (lt_of_le_of_lt (Nat.zero_le _) h)

end Search

/-! ### What the calls do -/

section Calls

variable {r : TaskRange} {s s' : MttMemory Instr} {name : List Char} {pbf : ProgramBuf Instr}
  {written : Bool}

theorem search_spec (r : TaskRange) (s : MttMemory Instr) (count : ℕ)
    (h : (s.search r count).tval ≠ 0) :
    r.firstTask ≤ (s.search r count).ftn ∧
    (s.search r count).ftn + (s.search r count).tval = (s.search r count).tn + 1 ∧
    (s.search r count).tn ≤ r.lastTask ∧
    (∀ t, (s.search r count).ftn ≤ t → t ≤ (s.search r count).tn → (s.tasks t).name = []) ∧
    (count ≤ r.maxSize → (s.search r count).tval = 1) := by
  have hfirst := r.first_lt
  have hstart : Search.Row (fun t => (s.tasks t).name == []) r.firstTask r.firstTask ⟨0, 0, 0⟩ :=
    fun hne => absurd rfl hne
  obtain ⟨k, hk, hrow⟩ := findSlots_row (r.lastTask + 1 - r.firstTask) r.firstTask le_rfl hstart
  obtain ⟨hsum, htn, hlow, hfree⟩ := hrow h
  refine ⟨hlow, hsum.trans htn.symm, ?_, ?_, ?_⟩
  · have htn' : (s.search r count).tn + 1 = k := htn
    omega
  · intro t hlo hhi
    have htn' : (s.search r count).tn + 1 = k := htn
    simpa using hfree t hlo (by omega)
  · intro hfits
    have hone : count / (r.maxSize + 1) + 1 = 1 := by
      rw [Nat.div_eq_of_lt (Nat.lt_succ_of_le hfits)]
    have hle : (s.search r count).tval ≤ count / (r.maxSize + 1) + 1 :=
      findSlots_tval_le r.numbers (Nat.succ_pos _)
    omega

theorem tasks_enter (s : MttMemory Instr) (name : List Char) (pbf : ProgramBuf Instr)
    {numbers : List ℕ} (hnodup : numbers.Nodup) (t : ℕ) :
    (s.enter name pbf numbers).tasks t =
      if t ∈ numbers then
        { name := name
          loadAddress := pbf.loadAddress
          instructionCount := pbf.instructionCount
          pcStart := 0
          pc := 0
          pcOffset := pbf.loadAddress }
      else s.tasks t :=
  cells_foldl MttMemory.tasks _ (fun _ _ => _) (fun _ _ => rfl) hnodup s t

theorem programMem_enter (s : MttMemory Instr) (name : List Char) (pbf : ProgramBuf Instr)
    (numbers : List ℕ) : (s.enter name pbf numbers).programMem = s.programMem := by
  rw [MttMemory.enter]
  induction numbers generalizing s with
  | nil => rfl
  | cons i numbers ih => rw [List.foldl_cons, ih]

/-- What a successful load has done: the program is in the last slot of a row of free blocks of the
range, and its name in all of them. -/
structure Loaded (r : TaskRange) (s s' : MttMemory Instr) (name : List Char)
    (pbf : ProgramBuf Instr) (ftn tn : ℕ) : Prop where
  named : name ≠ []
  fresh : ∀ t, r.firstTask ≤ t → t ≤ r.lastTask → (s.tasks t).name ≠ name
  first_le : r.firstTask ≤ ftn
  le : ftn ≤ tn
  le_last : tn ≤ r.lastTask
  free : ∀ t, ftn ≤ t → t ≤ tn → (s.tasks t).name = []
  single : pbf.instructionCount ≤ r.maxSize → ftn = tn
  row : ∀ t, ftn ≤ t → t ≤ tn → (s'.tasks t).name = name ∧
    (s'.tasks t).loadAddress = r.maxSize * (tn - 1) ∧
    (s'.tasks t).instructionCount = pbf.instructionCount
  others : ∀ t, ¬ (ftn ≤ t ∧ t ≤ tn) → s'.tasks t = s.tasks t
  memory : ∀ a, ¬ (r.maxSize * (tn - 1) ≤ a ∧ a < r.maxSize * (tn - 1) + pbf.instructionCount) →
    s'.programMem a = s.programMem a

theorem mttLibLoadTaskObject_cases (r : TaskRange) (s : MttMemory Instr) (name : List Char)
    (pbf : ProgramBuf Instr) (written : Bool) :
    ((mttLibLoadTaskObject r s name pbf written).1 ≠ .none ∧
      (mttLibLoadTaskObject r s name pbf written).2 = s) ∨
    ((mttLibLoadTaskObject r s name pbf written).1 = .none ∧
      ∃ ftn tn, Loaded r s (mttLibLoadTaskObject r s name pbf written).2 name pbf ftn tn) := by
  rw [mttLibLoadTaskObject]
  split
  · exact Or.inl ⟨by simp, rfl⟩
  rename_i hvalid
  split
  · exact Or.inl ⟨by simp, rfl⟩
  split
  · exact Or.inl ⟨by simp, rfl⟩
  split
  · exact Or.inl ⟨by simp, rfl⟩
  rename_i hnew
  dsimp only
  split
  · exact Or.inl ⟨by simp, rfl⟩
  rename_i hfound
  split
  · obtain ⟨hlow, hsum, hlast, hfree, hone⟩ := search_spec r s pbf.instructionCount hfound
    have hmem : ∀ t, t ∈ List.range' (s.search r pbf.instructionCount).ftn
        (s.search r pbf.instructionCount).tval ↔ (s.search r pbf.instructionCount).ftn ≤ t ∧
          t ≤ (s.search r pbf.instructionCount).tn := by
      intro t
      rw [List.mem_range'_1]
      omega
    refine Or.inr ⟨rfl, (s.search r pbf.instructionCount).ftn,
      (s.search r pbf.instructionCount).tn, ?_⟩
    constructor
    · rintro rfl
      exact hvalid rfl
    · intro t hlo hhi heq
      refine hnew (List.any_eq_true.2 ⟨t, (r.mem_numbers t).2 ⟨hlo, hhi⟩, ?_⟩)
      rw [heq, beq_self_eq_true]
    · exact hlow
    · omega
    · exact hlast
    · exact hfree
    · intro hfits
      have := hone hfits
      omega
    · intro t hlo hhi
      rw [tasks_enter _ _ _ List.nodup_range', if_pos ((hmem t).2 ⟨hlo, hhi⟩)]
      exact ⟨rfl, rfl, rfl⟩
    · intro t hout
      rw [tasks_enter _ _ _ List.nodup_range', if_neg fun hin => hout ((hmem t).1 hin)]
      rfl
    · intro a hout
      rw [programMem_enter]
      exact if_neg hout
  · exact Or.inl ⟨by simp, rfl⟩

theorem tasks_mttLibUnloadTask (r : TaskRange) (s : MttMemory Instr) (name : List Char) (t : ℕ) :
    (mttLibUnloadTask r s name).tasks t = s.tasks t ∨
    (mttLibUnloadTask r s name).tasks t = { s.tasks t with name := [] } := by
  have hfold := cells_foldl MttMemory.tasks (fun s tn =>
      if name = ['A', 'L', 'L'] ∨ name = (s.tasks tn).name then
        { s with tasks := update s.tasks tn { s.tasks tn with name := [] } }
      else s)
    (fun _ b => if name = ['A', 'L', 'L'] ∨ name = b.name then { b with name := [] } else b)
    (by
      intro s tn
      dsimp only
      split
      · rfl
      · rw [update_eq_self]) (l := r.numbers) List.nodup_range' s t
  rw [mttLibUnloadTask, hfold]
  split
  · split
    · exact Or.inr rfl
    · exact Or.inl rfl
  · exact Or.inl rfl

/-! ### Isolation over whole runs -/

theorem inSlot_unique {t u a : ℕ} (ht : r.InSlot t a) (hu : r.InSlot u a) : t = u := by
  have hlt : ∀ x y : ℕ, r.InSlot x a → r.InSlot y a → ¬ x < y := by
    intro x y hx hy hxy
    have hle : r.maxSize * x ≤ r.maxSize * (y - 1) := Nat.mul_le_mul_left _ (by omega)
    have := hx.2
    have := hy.1
    omega
  have := hlt t u ht hu
  have := hlt u t hu ht
  omega

theorem OneSlot.isolated (h : OneSlot r s) : Isolated r s := by
  have hslot : ∀ t, (s.tasks t).name ≠ [] → ∀ a, (s.tasks t).Covers a → r.InSlot t a := by
    intro t ht a ha
    obtain ⟨hfirst, -, hload, hcount⟩ := h t ht
    have hpos := r.first_pos
    have hmul : r.maxSize * t = r.maxSize * (t - 1) + r.maxSize := by
      rw [← Nat.mul_succ, Nat.succ_eq_add_one, Nat.sub_add_cancel (by omega)]
    obtain ⟨hlo, hhi⟩ := ha
    exact ⟨hload ▸ hlo, by omega⟩
  refine ⟨fun t ht a ha => ⟨t, rfl, hslot t ht a ha⟩, ?_⟩
  rintro t u ht hu hne a ⟨hta, hua⟩
  exact hne (by rw [inSlot_unique (hslot t ht a hta) (hslot u hu a hua)])

theorem OneSlot.load {ftn tn : ℕ} (h : OneSlot r s) (hload : Loaded r s s' name pbf ftn tn)
    (hfits : pbf.instructionCount ≤ r.maxSize) : OneSlot r s' := by
  obtain rfl := hload.single hfits
  intro t ht
  by_cases hin : ftn ≤ t ∧ t ≤ ftn
  · obtain ⟨-, hstart, hcount⟩ := hload.row t hin.1 hin.2
    obtain rfl : t = ftn := by omega
    exact ⟨hload.first_le, hload.le_last, hstart, hcount ▸ hfits⟩
  · rw [hload.others t hin] at ht ⊢
    exact h t ht

theorem OneSlot.unload (h : OneSlot r s) (name : List Char) :
    OneSlot r (mttLibUnloadTask r s name) := by
  intro t ht
  rcases tasks_mttLibUnloadTask r s name t with heq | heq
  · rw [heq] at ht ⊢
    exact h t ht
  · rw [heq] at ht
    exact absurd rfl ht

theorem Loaded.not_isolated {ftn tn : ℕ} (h : OneSlot r s)
    (hload : Loaded r s s' name pbf ftn tn) (hbig : r.maxSize < pbf.instructionCount) :
    ¬ Isolated r s' := by
  intro hiso
  obtain ⟨hname, hstart, hcount⟩ := hload.row tn hload.le le_rfl
  have hpos := r.first_pos
  have hle := hload.first_le
  have hle' := hload.le
  have hmul : r.maxSize * tn = r.maxSize * (tn - 1) + r.maxSize := by
    rw [← Nat.mul_succ, Nat.succ_eq_add_one, Nat.sub_add_cancel (by omega)]
  have hcovers : (s'.tasks tn).Covers (r.maxSize * tn) := by
    rw [TaskBlock.Covers, hstart, hcount]
    omega
  obtain ⟨u, hu, -, hend⟩ := hiso.inside tn (hname ▸ hload.named) _ hcovers
  rw [hname] at hu
  -- the slots with the name are those of the row, and the address is behind them
  have hrow : u ≤ tn := by
    by_contra hout
    rw [hload.others u fun hin => hout hin.2] at hu
    have hin := h u (hu ▸ hload.named)
    exact hload.fresh u hin.1 hin.2.1 hu
  have := Nat.mul_le_mul_left r.maxSize hrow
  omega

theorem OneSlot.memory {ftn tn : ℕ} (h : OneSlot r s) (hload : Loaded r s s' name pbf ftn tn)
    (hfits : pbf.instructionCount ≤ r.maxSize) (t : ℕ) (ht : (s.tasks t).name ≠ []) (a : ℕ)
    (ha : (s.tasks t).Covers a) : s'.programMem a = s.programMem a := by
  obtain rfl := hload.single hfits
  refine hload.memory a fun hin => ?_
  have hout : ¬ (ftn ≤ t ∧ t ≤ ftn) := fun hrow => ht (hload.free t hrow.1 hrow.2)
  have hisolated := (h.load hload hfits).isolated
  obtain ⟨hname, hstart, hcount⟩ := hload.row ftn le_rfl le_rfl
  obtain ⟨hlo, hhi, -⟩ := h t ht
  refine hisolated.apart ftn t (hname ▸ hload.named) ?_ ?_ a ⟨?_, ?_⟩
  · rwa [hload.others t hout]
  · rw [hname, hload.others t hout]
    exact (hload.fresh t hlo hhi).symm
  · rw [TaskBlock.Covers, hstart, hcount]
    exact hin
  · rwa [hload.others t hout]

theorem OneSlot.step (h : OneSlot r s) {c : TaskCall Instr} (hfits : FitsSlot r s c)
    (hs : taskStep r s c = some s') : OneSlot r s' := by
  cases c with
  | load name pbf written =>
    obtain rfl := Option.some.inj hs
    rcases mttLibLoadTaskObject_cases r s name pbf written with ⟨-, heq⟩ | ⟨-, ftn, tn, hload⟩
    · rwa [heq]
    · exact h.load hload hfits
  | unload name =>
    obtain rfl := Option.some.inj hs
    exact h.unload name

end Calls

/-! ### Three programs -/

/-- No task is loaded. -/
def noTasks : MttMemory ℕ where
  tasks _ := ⟨[], 0, 0, 0, 0, 0⟩
  programMem _ := 0

/-- A program of the given length. -/
def programOf (count : ℕ) : ProgramBuf ℕ := ⟨0, count, fun i => i + 1⟩

/-- Two programs of a slot's size, the first unloaded and a third one loaded in its place. -/
def slotRun : List (TaskCall ℕ) :=
  [.load ['o', 'n', 'e'] (programOf 256) true, .load ['t', 'w', 'o'] (programOf 256) true,
    .unload ['o', 'n', 'e'], .load ['t', 'r', 'e'] (programOf 17) true]

instance (r : TaskRange) (s : MttMemory ℕ) (c : TaskCall ℕ) : Decidable (FitsSlot r s c) :=
  match c with
  | .load _ pbf _ => inferInstanceAs (Decidable (pbf.instructionCount ≤ r.maxSize))
  | .unload _ => inferInstanceAs (Decidable True)

end KernelModules.Mttn
