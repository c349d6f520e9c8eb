import Mathlib.Tactic
import KernelModules.Mttn.TaskMemory

/-!
# Register and program calls of the MTT driver

The driver maps the module into memory as one structure, `MttDrvrMap`, and four handlers give a
caller access to parts of it: the task control blocks, the global registers, the local registers of
a task and the program memory.  `unsigned long` has 32 bits, as the module has.

* `MttDrvrMap` are the arrays, `Access` is an index into one of them as a handler computes it;
* `mttGsTcb`, `mttGsGrval`, `mttGsTrval` and `mttGsProgram` are the handlers: what they return, what
  they leave and what they access;
* `SetsMasked` says that setting task registers is what the mask asks for.  The loop ends with the
  first register it has written, `setsMasked_iff`;
* `Checked` says that a call stays inside the arrays or fails before it has touched the hardware.
  The number of a global register is compared as a signed number and the program memory is not
  checked at all, `checked_iff`.
-/

namespace KernelModules.Mttn

open Function

/-- A word of the module. -/
abbrev U32 := BitVec 32

/-! ### The map -/

/-- `MttDrvrTaskBlock`. -/
structure MttDrvrTaskBlock where
  pc : U32
  pcOffset : U32
  taskStatus : U32
  processorStatus : U32
  deriving DecidableEq, Repr

/-- `MttDrvrInstruction`. -/
structure MttDrvrInstruction where
  fields : U32
  srce1 : U32
  deriving DecidableEq, Repr

/-- The arrays of `MttDrvrMap`.  An index outside the array is memory of something else. -/
structure MttDrvrMap where
  tasks : ℤ → MttDrvrTaskBlock
  globalMem : ℤ → U32
  localMem : ℤ → ℕ → U32
  programMem : ℕ → MttDrvrInstruction

/-- An index into one of the arrays. -/
inductive Access
  | tasks (i : ℤ)
  | globalMem (regnum : ℤ)
  | localMem (task : ℤ) (reg : ℕ)
  | programMem (address : ℕ)
  deriving DecidableEq, Repr

/-- The index is one of the array. -/
def Access.Inside : Access → Prop
  | .tasks i => 0 ≤ i ∧ i < 16
  | .globalMem regnum => 0 ≤ regnum ∧ regnum < 224
  | .localMem task reg => (0 ≤ task ∧ task < 16) ∧ reg < 32
  | .programMem address => address < 4096

instance Access.decidableInside : ∀ a : Access, Decidable a.Inside
  | .tasks _ => inferInstanceAs (Decidable (_ ∧ _))
  | .globalMem _ => inferInstanceAs (Decidable (_ ∧ _))
  | .localMem _ _ => inferInstanceAs (Decidable (_ ∧ _))
  | .programMem _ => inferInstanceAs (Decidable (_ < _))

/-- `struct udata`, as far as the handlers use it: the map, and what the driver keeps of the
tasks. -/
structure Udata where
  map : MttDrvrMap
  localTasks : ℤ → TaskBlock

/-- The errors of the handlers. -/
inductive Errno
  | EINVAL | ENOMEM | EFAULT
  deriving DecidableEq, Repr

/-- What a handler returns, what it leaves and what it has accessed. -/
structure Handled (α : Type*) where
  result : Except Errno α
  udata : Udata
  accesses : List Access

/-- `pseterr` before the hardware has been touched. -/
def Udata.refuse {α : Type*} (d : Udata) (e : Errno) : Handled α := ⟨.error e, d, []⟩

/-! ### Task control blocks -/

/-- `MttDrvrTaskBuf`. -/
structure MttDrvrTaskBuf where
  task : U32
  fields : U32
  loadAddress : U32
  instructionCount : U32
  pcStart : U32
  controlBlock : MttDrvrTaskBlock
  name : List Char

/-- `__mtt_set_tcb` for the field with the given bit. -/
def Udata.setTcbField (d : Udata) (taskbuf : MttDrvrTaskBuf) (bit : ℕ) : Udata × List Access :=
  let i : ℤ := taskbuf.task.toNat - 1
  let t := d.localTasks i
  let tcb := d.map.tasks i
  let withTask (t : TaskBlock) : Udata := { d with localTasks := update d.localTasks i t }
  let withTcb (d : Udata) (tcb : MttDrvrTaskBlock) : Udata :=
    { d with map := { d.map with tasks := update d.map.tasks i tcb } }
  match bit with
  | 0 => (withTask { t with loadAddress := taskbuf.loadAddress.toNat }, [])
  | 1 => (withTask { t with instructionCount := taskbuf.instructionCount.toNat }, [])
  | 2 => (withTask { t with pcStart := taskbuf.pcStart.toNat }, [])
  | 3 =>
    (withTcb (withTask { t with pcOffset := taskbuf.controlBlock.pcOffset.toNat })
      { tcb with pcOffset := taskbuf.controlBlock.pcOffset }, [.tasks i])
  | 4 =>
    (withTcb (withTask { t with pc := taskbuf.controlBlock.pc.toNat })
      { tcb with pc := taskbuf.controlBlock.pc }, [.tasks i])
  | 5 => (withTask { t with name := taskbuf.name }, [])
  | _ => (d, [])

/-- The loop over the fields. -/
def Udata.setTcb (d : Udata) (taskbuf : MttDrvrTaskBuf) : Udata × List Access :=
  (List.range 6).foldl (fun r bit =>
    if taskbuf.fields.getLsbD bit then
      let s := r.1.setTcbField taskbuf bit
      (s.1, r.2 ++ s.2)
    else r) (d, [])

/-- `__mtt_get_tcb`. -/
def Udata.getTcb (d : Udata) (taskbuf : MttDrvrTaskBuf) : MttDrvrTaskBuf × List Access :=
  let i : ℤ := taskbuf.task.toNat - 1
  let t := d.localTasks i
  ({ taskbuf with
      loadAddress := BitVec.ofNat 32 t.loadAddress
      instructionCount := BitVec.ofNat 32 t.instructionCount
      pcStart := BitVec.ofNat 32 t.pcStart
      fields := 0x3f
      name := t.name
      controlBlock := d.map.tasks i }, [.tasks i])

/-- `mtt_gs_tcb_ioctl`. -/
def mttGsTcb (d : Udata) (taskbuf : MttDrvrTaskBuf) (set : Bool) : Handled MttDrvrTaskBuf :=
  if ¬ (1 ≤ taskbuf.task.toNat ∧ taskbuf.task.toNat ≤ 16) then d.refuse .EINVAL
  else if set then ⟨.ok taskbuf, (d.setTcb taskbuf).1, (d.setTcb taskbuf).2⟩
  else ⟨.ok (d.getTcb taskbuf).1, d, (d.getTcb taskbuf).2⟩

/-! ### Registers -/

/-- `MttDrvrGlobalRegBuf`. -/
structure MttDrvrGlobalRegBuf where
  regNum : U32
  regVal : U32
  deriving DecidableEq, Repr

/-- `mtt_gs_grval_ioctl`; the number is an `int`. -/
def mttGsGrval (d : Udata) (regbuf : MttDrvrGlobalRegBuf) (set : Bool) :
    Handled MttDrvrGlobalRegBuf :=
  let regnum := regbuf.regNum.toInt
  if 224 ≤ regnum then d.refuse .EINVAL
  else if set then
    ⟨.ok regbuf,
      { d with map := { d.map with globalMem := update d.map.globalMem regnum regbuf.regVal } },
      [.globalMem regnum]⟩
  else ⟨.ok { regbuf with regVal := d.map.globalMem regnum }, d, [.globalMem regnum]⟩

/-- `MttDrvrTaskRegBuf`. -/
structure MttDrvrTaskRegBuf where
  task : U32
  regMask : U32
  regVals : ℕ → U32

/-- A register of a task is written. -/
def Udata.setLocal (d : Udata) (task : ℤ) (reg : ℕ) (x : U32) : Udata :=
  { d with
    map := { d.map with
      localMem := update d.map.localMem task (update (d.map.localMem task) reg x) } }

/-- `mtt_gs_trval_ioctl`: the loop over the mask returns as soon as it has written a register. -/
def mttGsTrval (d : Udata) (trbuf : MttDrvrTaskRegBuf) (set : Bool) : Handled MttDrvrTaskRegBuf :=
  let tasknum := trbuf.task.toInt
  if ¬ (1 ≤ tasknum ∧ tasknum ≤ 16) then d.refuse .EINVAL
  else if set then
    match (List.range 32).find? fun i => trbuf.regMask.getLsbD i with
    | some i =>
      ⟨.ok trbuf, d.setLocal (tasknum - 1) i (trbuf.regVals i), [.localMem (tasknum - 1) i]⟩
    | none => d.refuse .EINVAL
  else
    ⟨.ok { trbuf with
        regVals := fun i =>
          if i < 32 then d.map.localMem (tasknum - 1) i else trbuf.regVals i
        regMask := 0xffffffff },
      d, (List.range 32).map fun i => .localMem (tasknum - 1) i⟩

/-! ### The program memory -/

/-- `MttDrvrProgramBuf`, with what stands at `Program` in the memory of the caller. -/
structure MttDrvrProgramBuf where
  loadAddress : U32
  instructionCount : U32
  program : ℕ → MttDrvrInstruction

/-- What the kernel does for a transfer: whether it has room of some size, and whether the memory of
the caller can be copied. -/
structure Kernel where
  sysbrk : U32 → Bool
  copied : Bool

/-- `mtt_gs_program_ioctl` with `mtt_gs_program`. -/
def mttGsProgram (k : Kernel) (d : Udata) (prog : MttDrvrProgramBuf) (set : Bool) :
    Handled MttDrvrProgramBuf :=
  let load := prog.loadAddress.toNat
  let elems := prog.instructionCount.toNat
  let accesses := (List.range elems).map fun i => Access.programMem (load + i)
  if ¬ k.sysbrk (prog.instructionCount * 8) then d.refuse .ENOMEM
  else if set then
    if ¬ k.copied then d.refuse .EFAULT
    else
      ⟨.ok prog,
        { d with
          map := { d.map with
            programMem := fun a =>
              if load ≤ a ∧ a < load + elems then prog.program (a - load)
              else d.map.programMem a } },
        accesses⟩
  else if ¬ k.copied then ⟨.error .EFAULT, d, accesses⟩
  else
    ⟨.ok { prog with
        program := fun i => if i < elems then d.map.programMem (load + i) else prog.program i },
      d, accesses⟩

/-! ### Task registers by mask -/

section Mask

/-- The registers a mask names. -/
def MttDrvrTaskRegBuf.Names (trbuf : MttDrvrTaskRegBuf) (i : ℕ) : Prop :=
  i < 32 ∧ trbuf.regMask.getLsbD i = true

/-- **Setting task registers** writes the registers of the mask and no others, and a get returns the
values. -/
structure SetsMasked (d : Udata) (trbuf : MttDrvrTaskRegBuf) : Prop where
  written : ∀ i, trbuf.Names i →
    (mttGsTrval d trbuf true).udata.map.localMem (trbuf.task.toInt - 1) i = trbuf.regVals i
  others : ∀ t i, ¬ (t = trbuf.task.toInt - 1 ∧ trbuf.Names i) →
    (mttGsTrval d trbuf true).udata.map.localMem t i = d.map.localMem t i
  readBack : ∃ got : MttDrvrTaskRegBuf,
    (mttGsTrval (mttGsTrval d trbuf true).udata trbuf false).result = .ok got ∧
    ∀ i, trbuf.Names i → got.regVals i = trbuf.regVals i

variable {d : Udata} {trbuf : MttDrvrTaskRegBuf}

theorem localMem_setLocal (d : Udata) (task : ℤ) (reg : ℕ) (x : U32) (t : ℤ) (i : ℕ) :
    (d.setLocal task reg x).map.localMem t i =
      if t = task ∧ i = reg then x else d.map.localMem t i := by
  dsimp only [Udata.setLocal]
  by_cases ht : t = task
  · subst ht
    rw [update_self]
    by_cases hi : i = reg
    · rw [hi, update_self, if_pos ⟨rfl, rfl⟩]
    · rw [update_of_ne hi, if_neg fun h => hi h.2]
  · rw [update_of_ne ht, if_neg fun h => ht h.1]

theorem mttGsTrval_set (htask : 1 ≤ trbuf.task.toInt ∧ trbuf.task.toInt ≤ 16) :
    (∃ i, trbuf.Names i ∧ (∀ j < i, ¬ trbuf.Names j) ∧
      (mttGsTrval d trbuf true).udata =
        d.setLocal (trbuf.task.toInt - 1) i (trbuf.regVals i)) ∨
    ((∀ i, ¬ trbuf.Names i) ∧ (mttGsTrval d trbuf true).udata = d) := by
  rw [mttGsTrval, if_neg (not_not.mpr htask), if_pos rfl]
  cases hfind : (List.range 32).find? fun i => trbuf.regMask.getLsbD i with
  | none =>
    refine Or.inr ⟨fun i hi => ?_, rfl⟩
    exact List.find?_eq_none.mp hfind i (List.mem_range.mpr hi.1) hi.2
  | some i =>
    obtain ⟨hbit, hi, hfirst⟩ := List.find?_range_eq_some.mp hfind
    refine Or.inl ⟨i, ⟨List.mem_range.mp hi, hbit⟩, fun j hj hname => ?_, rfl⟩
    simpa [hname.2] using hfirst j hj

theorem mttGsTrval_get (d : Udata) (htask : 1 ≤ trbuf.task.toInt ∧ trbuf.task.toInt ≤ 16) :
    ∃ got : MttDrvrTaskRegBuf, (mttGsTrval d trbuf false).result = .ok got ∧
      ∀ i < 32, got.regVals i = d.map.localMem (trbuf.task.toInt - 1) i := by
  rw [mttGsTrval, if_neg (not_not.mpr htask), if_neg Bool.false_ne_true]
  exact ⟨_, rfl, fun i hi => if_pos hi⟩

theorem SetsMasked.of_written (htask : 1 ≤ trbuf.task.toInt ∧ trbuf.task.toInt ≤ 16)
    (hwritten : ∀ i, trbuf.Names i →
      (mttGsTrval d trbuf true).udata.map.localMem (trbuf.task.toInt - 1) i = trbuf.regVals i)
    (hothers : ∀ t i, ¬ (t = trbuf.task.toInt - 1 ∧ trbuf.Names i) →
      (mttGsTrval d trbuf true).udata.map.localMem t i = d.map.localMem t i) :
    SetsMasked d trbuf := by
  obtain ⟨got, hgot, hvals⟩ := mttGsTrval_get (mttGsTrval d trbuf true).udata htask
  exact ⟨hwritten, hothers, got, hgot, fun i hi => (hvals i hi.1).trans (hwritten i hi)⟩

/-- **Task registers.**  Setting registers does what the mask asks for exactly when every register
of the mask but the first already has its value. -/
theorem setsMasked_iff (htask : 1 ≤ trbuf.task.toInt ∧ trbuf.task.toInt ≤ 16) :
    SetsMasked d trbuf ↔ ∀ i, trbuf.Names i → (∃ j < i, trbuf.Names j) →
      d.map.localMem (trbuf.task.toInt - 1) i = trbuf.regVals i := by
  obtain ⟨k, hk, hfirst, hset⟩ | ⟨hnone, hset⟩ := mttGsTrval_set (d := d) htask
  · have hcell : ∀ t i, (mttGsTrval d trbuf true).udata.map.localMem t i =
        if t = trbuf.task.toInt - 1 ∧ i = k then trbuf.regVals k else d.map.localMem t i := by
      intro t i
      rw [hset, localMem_setLocal]
    constructor
    · rintro h i hi ⟨j, hj, hname⟩
      -- the first register of the mask is not behind register `j`
      have hle : k ≤ j := not_lt.mp fun hlt => hfirst j hlt hname
      rw [← h.written i hi, hcell, if_neg (by omega)]
    · intro hlater
      refine SetsMasked.of_written htask (fun i hi => ?_) fun t i hout => ?_
      · rw [hcell]
        by_cases hik : i = k
        · rw [hik, if_pos ⟨rfl, rfl⟩]
        · have hlt : k < i := by
            have : ¬ i < k := fun hlt => hfirst i hlt hi
            omega
          rw [if_neg fun h => hik h.2, hlater i hi ⟨k, hlt, hk⟩]
      · rw [hcell, if_neg]
        rintro ⟨ht, rfl⟩
        exact hout ⟨ht, hk⟩
  · refine iff_of_true (SetsMasked.of_written htask (fun i hi => absurd hi (hnone i)) ?_) ?_
    · intro t i _
      rw [hset]
    · exact fun i hi => absurd hi (hnone i)

end Mask

/-- Registers 0 and 1 of task 1 are to be 5 and 7. -/
def twoRegisters : MttDrvrTaskRegBuf := ⟨1, 3, fun i => 5 + 2 * BitVec.ofNat 32 i⟩

/-- A module whose memory is zero. -/
def zeroModule : Udata where
  map :=
    { tasks := fun _ => ⟨0, 0, 0, 0⟩
      globalMem := fun _ => 0
      localMem := fun _ _ => 0
      programMem := fun _ => ⟨0, 0⟩ }
  localTasks := fun _ => ⟨[], 0, 0, 0, 0, 0⟩

/-- A mask with the last register only. -/
theorem setsMasked_iff_last : SetsMasked zeroModule ⟨16, 0x80000000, fun _ => 9⟩ := by
  refine (setsMasked_iff (by decide)).mpr ?_
  rintro i ⟨hi, hbit⟩ ⟨j, hj, -, hbit'⟩
  have honly : ∀ k < 32, (0x80000000 : U32).getLsbD k = true → k = 31 := by decide
  have := honly i hi hbit
  have := honly j (by omega) hbit'
  omega

/-- Of two registers only the first is written. -/
theorem setsMasked_second_lost :
    ¬ ∀ (d : Udata) (trbuf : MttDrvrTaskRegBuf),
      1 ≤ trbuf.task.toInt ∧ trbuf.task.toInt ≤ 16 → SetsMasked d trbuf := by
  intro hall
  have hwritten := (hall zeroModule twoRegisters (by decide)).written 1 ⟨by decide, by decide⟩
  exact absurd hwritten (by decide)

/-! ### Bounds -/

/-- The calls with an index or a length in their argument. -/
inductive DriverCall
  | tcb (taskbuf : MttDrvrTaskBuf) (set : Bool)
  | grval (regbuf : MttDrvrGlobalRegBuf) (set : Bool)
  | trval (trbuf : MttDrvrTaskRegBuf) (set : Bool)
  | program (k : Kernel) (prog : MttDrvrProgramBuf) (set : Bool)

namespace DriverCall

/-- What a call accesses. -/
def accesses (d : Udata) : DriverCall → List Access
  | .tcb taskbuf set => (mttGsTcb d taskbuf set).accesses
  | .grval regbuf set => (mttGsGrval d regbuf set).accesses
  | .trval trbuf set => (mttGsTrval d trbuf set).accesses
  | .program k prog set => (mttGsProgram k d prog set).accesses

/-- The call fails. -/
def Fails (d : Udata) : DriverCall → Prop
  | .tcb taskbuf set => ∃ e, (mttGsTcb d taskbuf set).result = .error e
  | .grval regbuf set => ∃ e, (mttGsGrval d regbuf set).result = .error e
  | .trval trbuf set => ∃ e, (mttGsTrval d trbuf set).result = .error e
  | .program k prog set => ∃ e, (mttGsProgram k d prog set).result = .error e

/-- The indices that the argument names, all its numbers being unsigned. -/
def named : DriverCall → List Access
  | .tcb taskbuf _ => [.tasks (taskbuf.task.toNat - 1)]
  | .grval regbuf _ => [.globalMem regbuf.regNum.toNat]
  | .trval trbuf _ => [.localMem (trbuf.task.toNat - 1) 0]
  | .program _ prog _ =>
    (List.range prog.instructionCount.toNat).map fun i => .programMem (prog.loadAddress.toNat + i)

/-- **Bounds.**  All accesses are inside the arrays; and a call that names an index outside fails
and accesses nothing. -/
def Checked (d : Udata) (c : DriverCall) : Prop :=
  (∀ a ∈ c.accesses d, a.Inside) ∧
    ((∃ a ∈ c.named, ¬ a.Inside) → c.Fails d ∧ c.accesses d = [])

/-- The condition on a call: the number of a global register is not negative as an `int`; and a
program that the driver gets to transfer has no instructions, or ends inside the program memory. -/
def Bounded : DriverCall → Prop
  | .tcb _ _ => True
  | .grval regbuf _ => regbuf.regNum.toNat < 2 ^ 31
  | .trval _ _ => True
  | .program k prog set =>
    k.sysbrk (prog.instructionCount * 8) = true → (set = true → k.copied = true) →
      prog.instructionCount = 0 ∨ prog.loadAddress.toNat + prog.instructionCount.toNat ≤ 4096

variable {d : Udata}

theorem accesses_setTcbField (taskbuf : MttDrvrTaskBuf) (bit : ℕ) :
    ∀ a ∈ (d.setTcbField taskbuf bit).2, a = .tasks (taskbuf.task.toNat - 1) := by
  unfold Udata.setTcbField
  dsimp only
  split <;> simp

theorem accesses_setTcb (taskbuf : MttDrvrTaskBuf) :
    ∀ a ∈ (d.setTcb taskbuf).2, a = .tasks (taskbuf.task.toNat - 1) := by
  have hloop : ∀ (bits : List ℕ) (r : Udata × List Access),
      (∀ a ∈ r.2, a = .tasks (taskbuf.task.toNat - 1)) →
      ∀ a ∈ (bits.foldl (fun r bit =>
        if taskbuf.fields.getLsbD bit then
          ((r.1.setTcbField taskbuf bit).1, r.2 ++ (r.1.setTcbField taskbuf bit).2)
        else r) r).2, a = .tasks (taskbuf.task.toNat - 1) := by
    intro bits
    induction bits with
    | nil => exact fun r hr => hr
    | cons bit bits ih =>
      intro r hr
      rw [List.foldl_cons]
      refine ih _ ?_
      split
      · intro a ha
        obtain ha | ha := List.mem_append.mp ha
        · exact hr a ha
        · exact accesses_setTcbField taskbuf bit a ha
      · exact hr
  exact hloop _ (d, []) fun a ha => by cases ha

theorem tcb_checked (taskbuf : MttDrvrTaskBuf) (set : Bool) :
    (DriverCall.tcb taskbuf set).Checked d := by
  by_cases htask : 1 ≤ taskbuf.task.toNat ∧ taskbuf.task.toNat ≤ 16
  · have hinside : (Access.tasks (taskbuf.task.toNat - 1)).Inside := by
      simp only [Access.Inside]
      omega
    refine ⟨fun a ha => ?_, fun hout => ?_⟩
    · have hsame : a = .tasks (taskbuf.task.toNat - 1) := by
        rw [accesses, mttGsTcb, if_neg (not_not.mpr htask)] at ha
        cases set with
        | true => exact accesses_setTcb taskbuf a ha
        | false => exact List.mem_singleton.mp ha
      rwa [hsame]
    · obtain ⟨a, ha, hnot⟩ := hout
      rw [named, List.mem_singleton] at ha
      exact absurd (ha ▸ hinside) hnot
  · have hrefuse : mttGsTcb d taskbuf set = d.refuse .EINVAL := by rw [mttGsTcb, if_pos htask]
    rw [Checked, accesses, Fails, hrefuse]
    exact ⟨fun a ha => (by cases ha), fun _ => ⟨⟨_, rfl⟩, rfl⟩⟩

theorem trval_checked (trbuf : MttDrvrTaskRegBuf) (set : Bool) :
    (DriverCall.trval trbuf set).Checked d := by
  by_cases htask : 1 ≤ trbuf.task.toInt ∧ trbuf.task.toInt ≤ 16
  · have hnat : (trbuf.task.toNat : ℤ) = trbuf.task.toInt := by
      rw [BitVec.toInt_eq_toNat_cond] at htask ⊢
      have := trbuf.task.isLt
      split at htask <;> split <;> omega
    refine ⟨fun a ha => ?_, fun hout => ?_⟩
    · have hreg : ∃ i < 32, a = .localMem (trbuf.task.toInt - 1) i := by
        rw [accesses, mttGsTrval, if_neg (not_not.mpr htask)] at ha
        cases set with
        | true =>
          rw [if_pos rfl] at ha
          split at ha
          · rename_i i hfind
            exact ⟨i, List.mem_range.mp (List.mem_of_find?_eq_some hfind),
              List.mem_singleton.mp ha⟩
          · cases ha
        | false =>
          obtain ⟨i, hi, rfl⟩ := List.mem_map.mp ha
          exact ⟨i, List.mem_range.mp hi, rfl⟩
      obtain ⟨i, hi, rfl⟩ := hreg
      simp only [Access.Inside]
      omega
    · obtain ⟨a, ha, hnot⟩ := hout
      rw [named, List.mem_singleton] at ha
      refine absurd ?_ hnot
      rw [ha]
      simp only [Access.Inside]
      omega
  · have hrefuse : mttGsTrval d trbuf set = d.refuse .EINVAL := by rw [mttGsTrval, if_pos htask]
    rw [Checked, accesses, Fails, hrefuse]
    exact ⟨fun a ha => (by cases ha), fun _ => ⟨⟨_, rfl⟩, rfl⟩⟩

theorem grval_checked_iff (regbuf : MttDrvrGlobalRegBuf) (set : Bool) :
    (DriverCall.grval regbuf set).Checked d ↔ regbuf.regNum.toNat < 2 ^ 31 := by
  have hlt := regbuf.regNum.isLt
  have hint := BitVec.toInt_eq_toNat_cond regbuf.regNum
  by_cases hbig : 224 ≤ regbuf.regNum.toInt
  · have hrefuse : mttGsGrval d regbuf set = d.refuse .EINVAL := by rw [mttGsGrval, if_pos hbig]
    rw [Checked, accesses, Fails, hrefuse]
    refine iff_of_true ⟨fun a ha => (by cases ha), fun _ => ⟨⟨_, rfl⟩, rfl⟩⟩ ?_
    split at hint <;> omega
  · have haccesses : (DriverCall.grval regbuf set).accesses d =
        [.globalMem regbuf.regNum.toInt] := by
      rw [accesses, mttGsGrval, if_neg hbig]
      cases set <;> rfl
    rw [Checked, haccesses, List.forall_mem_singleton]
    constructor
    · rintro ⟨⟨hpos, -⟩, -⟩
      split at hint <;> omega
    · intro hsmall
      have hinside : (Access.globalMem regbuf.regNum.toInt).Inside := by
        simp only [Access.Inside]
        split at hint <;> omega
      refine ⟨hinside, fun hout => ?_⟩
      obtain ⟨a, ha, hnot⟩ := hout
      rw [named, List.mem_singleton] at ha
      have hsame : (regbuf.regNum.toNat : ℤ) = regbuf.regNum.toInt := by
        split at hint <;> omega
      rw [ha, hsame] at hnot
      exact absurd hinside hnot

theorem programMem_inside_iff (load elems : ℕ) :
    (∀ a ∈ (List.range elems).map fun i => Access.programMem (load + i), a.Inside) ↔
      elems = 0 ∨ load + elems ≤ 4096 := by
  simp only [List.forall_mem_map, List.mem_range, Access.Inside]
  constructor
  · intro hall
    by_cases hzero : elems = 0
    · exact Or.inl hzero
    · have := hall (elems - 1) (by omega)
      omega
  · rintro hbound i hi
    omega

theorem program_checked_iff (k : Kernel) (prog : MttDrvrProgramBuf) (set : Bool) :
    (DriverCall.program k prog set).Checked d ↔ (DriverCall.program k prog set).Bounded := by
  have hrefused : ∀ e, mttGsProgram k d prog set = d.refuse e →
      (DriverCall.program k prog set).Checked d := by
    intro e he
    rw [Checked, accesses, Fails, he]
    exact ⟨fun a ha => (by cases ha), fun _ => ⟨⟨_, rfl⟩, rfl⟩⟩
  rw [Bounded]
  by_cases hroom : k.sysbrk (prog.instructionCount * 8) = true
  · by_cases hcopied : set = true → k.copied = true
    · have haccesses : (DriverCall.program k prog set).accesses d =
          (DriverCall.program k prog set).named := by
        rw [accesses, mttGsProgram, if_neg (not_not.mpr hroom), named]
        cases set with
        | true => rw [if_pos rfl, if_neg (not_not.mpr (hcopied rfl))]
        | false =>
          rw [if_neg Bool.false_ne_true]
          split <;> rfl
      have hzero : prog.instructionCount = 0 ↔ prog.instructionCount.toNat = 0 := by
        rw [← BitVec.toNat_inj]
        rfl
      rw [Checked, haccesses, imp_iff_right hroom, imp_iff_right hcopied, hzero,
        ← programMem_inside_iff, named]
      refine ⟨fun h => h.1, fun hall => ⟨hall, ?_⟩⟩
      rintro ⟨a, ha, hnot⟩
      exact absurd (hall a ha) hnot
    · obtain ⟨rfl, hfault⟩ := Classical.not_imp.mp hcopied
      refine iff_of_true (hrefused .EFAULT ?_) fun _ h => absurd h hcopied
      rw [mttGsProgram, if_neg (not_not.mpr hroom), if_pos rfl, if_pos hfault]
  · refine iff_of_true (hrefused .ENOMEM ?_) fun h => absurd h hroom
    rw [mttGsProgram, if_pos hroom]

/-- **Bounds.**  A call stays inside the arrays, or fails before it has touched the hardware,
exactly when it is bounded. -/
theorem checked_iff (c : DriverCall) (d : Udata) : c.Checked d ↔ c.Bounded := by
  cases c with
  | tcb taskbuf set => exact iff_of_true (tcb_checked taskbuf set) trivial
  | grval regbuf set => exact grval_checked_iff regbuf set
  | trval trbuf set => exact iff_of_true (trval_checked trbuf set) trivial
  | program k prog set => exact program_checked_iff k prog set

/-- Global register `0xffffffff` is the word before the array, and the last of two instructions from
address 4095 on the word behind it. -/
theorem checked_outside :
    ¬ (DriverCall.grval ⟨0xffffffff, 0⟩ false).Checked zeroModule ∧
    ¬ (DriverCall.program ⟨fun _ => true, true⟩ ⟨4095, 2, fun _ => ⟨0, 0⟩⟩ true).Checked
      zeroModule := by
  constructor
  · intro h
    exact absurd (h.1 (.globalMem (-1)) (by decide)) (by decide)
  · intro h
    exact absurd (h.1 (.programMem 4096) (by decide)) (by decide)

end DriverCall

end KernelModules.Mttn
