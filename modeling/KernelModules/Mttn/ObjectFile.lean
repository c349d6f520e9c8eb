import Mathlib.Tactic
import KernelModules.Mttn.NumberText

/-!
# Object files of the MTT

`asm` writes a program as text, one line with the load address and the number of instructions and
one line for each instruction; the emulator and the library read it.  `unsigned long` and `long`
have 64 bits, `int` has 32.

* `Instruction` and `ProgramBuf` are what is written, `writeObject` is the text;
* `emuReadObject` and `mttLibReadObject` are the two readers;
* the writer prints every number as an `int` and the readers take it for an unsigned number, so that
  the upper half of a `long` is lost and a negative value comes back as a positive one
  (`readObject_writeObject`, `roundTrips_iff`).
-/

namespace KernelModules.Mttn.Object

/-- `Instruction`. -/
structure Instruction where
  dest : BitVec 8
  src2 : BitVec 8
  number : BitVec 8
  crc : BitVec 8
  src1 : BitVec 64
  deriving DecidableEq, Repr

/-- `ProgramBuf`; `InstructionCount` is the length of the program. -/
structure ProgramBuf where
  loadAddress : BitVec 64
  program : List Instruction
  deriving DecidableEq, Repr

/-! ### Writing -/

/-- The fields of an instruction as `int`, in the order in which they are written. -/
def Instruction.fields (inst : Instruction) : List (BitVec 32) :=
  [inst.number.setWidth 32, inst.src1.setWidth 32, inst.src2.setWidth 32, inst.dest.setWidth 32,
    inst.crc.setWidth 32]

/-- Numbers on one line, a blank between two of them. -/
def lineText : List (BitVec 32) → List Char
  | [] => []
  | [x] => hexText x
  | x :: y :: rest => hexText x ++ ' ' :: lineText (y :: rest)

/-- The lines of the instructions. -/
def programText : List Instruction → List Char
  | [] => []
  | inst :: rest => lineText inst.fields ++ '\n' :: programText rest

/-- `WriteObject`.  Its counter is an `int`, which overflows for more instructions than that. -/
def writeObject (code : ProgramBuf) : Option (List Char) :=
  if code.program.length < 2 ^ 31 then
    some (lineText [code.loadAddress.setWidth 32, BitVec.ofNat 32 code.program.length] ++
      '\n' :: programText code.program)
  else none

/-! ### Reading -/

/-- The numbers at the front of a line, one `strtoul` after the other. -/
def readNumbers : ℕ → List Char → List (BitVec 64)
  | 0, _ => []
  | n + 1, ln => (strtoulText ln).1 :: readNumbers n (strtoulText ln).2

/-- An instruction from the numbers of its line, `byte` being how a number is stored in a byte. -/
def instructionOf (byte : BitVec 64 → BitVec 8) (x : List (BitVec 64)) : Instruction where
  number := byte (x.getD 0 0)
  src1 := x.getD 1 0
  src2 := byte (x.getD 2 0)
  dest := byte (x.getD 3 0)
  crc := byte (x.getD 4 0)

/-- The lines of `n` instructions.  When the file has ended an instruction is left as `malloc` found
it. -/
def readProgram (parse : List Char → Instruction) : ℕ → List Char → Option (List Instruction)
  | 0, _ => some []
  | n + 1, text =>
    if text = [] then none
    else
      let ln := fgets 127 text
      (readProgram parse n ln.2).map (parse ln.1 :: ·)

/-- The reader, given how an instruction is read from its line. -/
def readObject (parse : List Char → Instruction) (text : List Char) : Option ProgramBuf :=
  if text = [] then none
  else
    let ln := fgets 127 text
    let load := strtoulText ln.1
    let count := (strtoulText load.2).1.toNat
    if count < 2 ^ 31 then
      (readProgram parse count ln.2).map fun program => ⟨load.1, program⟩
    else none

/-- `ReadObject` of the emulator. -/
def emuReadObject (text : List Char) : Option ProgramBuf :=
  readObject (fun ln => instructionOf (fun x => x.setWidth 8) (readNumbers 5 ln)) text

/-- `MttLibReadObject`, which takes the bytes for `unsigned short` first. -/
def mttLibReadObject (text : List Char) : Option ProgramBuf :=
  readObject (fun ln =>
    instructionOf (fun x => (x.setWidth 16).setWidth 8) (readNumbers 5 ln)) text

/-! ### Reading what was written -/

theorem length_lineText_le (l : List (BitVec 32)) : (lineText l).length ≤ 11 * l.length := by
  induction l with
  | nil => exact le_rfl
  | cons x l ih =>
    have hx := length_hexText_le x
    cases l with
    | nil =>
      rw [lineText, List.length_singleton]
      omega
    | cons y l =>
      rw [lineText, List.length_append, List.length_cons, List.length_cons]
      rw [List.length_cons] at ih ⊢
      omega

theorem newline_not_mem_lineText (l : List (BitVec 32)) : '\n' ∉ lineText l := by
  induction l with
  | nil => exact List.not_mem_nil
  | cons x l ih =>
    cases l with
    | nil => exact newline_not_mem_hexText x
    | cons y l =>
      rw [lineText, List.mem_append, List.mem_cons]
      rintro (h | h | h)
      · exact newline_not_mem_hexText x h
      · exact absurd h (by decide)
      · exact ih h

theorem endsNumber_newline (text : List Char) : EndsNumber ('\n' :: text) := by
  intro c hc
  obtain rfl := Option.some.inj hc
  rfl

theorem endsNumber_blank (text : List Char) : EndsNumber (' ' :: text) := by
  intro c hc
  obtain rfl := Option.some.inj hc
  rfl

theorem readNumbers_lineText (l : List (BitVec 32)) {rest : List Char} (h : EndsNumber rest) :
    readNumbers l.length (lineText l ++ rest) = l.map (BitVec.setWidth 64) ∧
      readNumbers l.length (' ' :: (lineText l ++ rest)) = l.map (BitVec.setWidth 64) := by
  induction l with
  | nil => exact ⟨rfl, rfl⟩
  | cons x l ih =>
    cases l with
    | nil =>
      obtain ⟨hread, hread'⟩ := strtoulText_hexText (x := x) h
      simp only [lineText, List.length_singleton, readNumbers, hread, hread', List.map_cons,
        List.map_nil, and_self]
    | cons y l =>
      obtain ⟨hread, hread'⟩ :=
        strtoulText_hexText (x := x) (endsNumber_blank (lineText (y :: l) ++ rest))
      have hnext := ih.2
      rw [List.length_cons] at hnext
      simp only [lineText, List.length_cons, List.append_assoc, List.cons_append, readNumbers,
        hread, hread', List.map_cons, and_self] at hnext ⊢
      rw [hnext]

theorem fgets_lineText {l : List (BitVec 32)} (hl : l.length ≤ 5) (rest : List Char) :
    fgets 127 (lineText l ++ '\n' :: rest) = (lineText l ++ ['\n'], rest) := by
  have hlength := length_lineText_le l
  exact fgets_line (newline_not_mem_lineText l) (by omega) rest

/-- What is left of an instruction: the lower half of its first operand. -/
def Instruction.truncated (inst : Instruction) : Instruction :=
  { inst with src1 := (inst.src1.setWidth 32).setWidth 64 }

/-- A byte that is written as an `int` is stored again. -/
def StoresBytes (byte : BitVec 64 → BitVec 8) : Prop :=
  ∀ x : BitVec 8, byte ((x.setWidth 32).setWidth 64) = x

theorem instructionOf_fields {byte : BitVec 64 → BitVec 8} (hbyte : StoresBytes byte)
    (inst : Instruction) :
    instructionOf byte (inst.fields.map (BitVec.setWidth 64)) = inst.truncated := by
  simp only [instructionOf, Instruction.fields, Instruction.truncated, List.map_cons,
    List.getD_cons_zero, List.getD_cons_succ, hbyte _]

theorem readProgram_programText {byte : BitVec 64 → BitVec 8} (hbyte : StoresBytes byte)
    (program : List Instruction) :
    readProgram (fun ln => instructionOf byte (readNumbers 5 ln)) program.length
      (programText program) = some (program.map Instruction.truncated) := by
  induction program with
  | nil => rfl
  | cons inst program ih =>
    have hne : programText (inst :: program) ≠ [] := by
      rw [programText]
      exact List.append_ne_nil_of_right_ne_nil _ (List.cons_ne_nil _ _)
    have hparse : readNumbers 5 (lineText inst.fields ++ ['\n']) =
        inst.fields.map (BitVec.setWidth 64) :=
      (readNumbers_lineText inst.fields (endsNumber_newline [])).1
    rw [List.length_cons, readProgram, if_neg hne, programText, fgets_lineText le_rfl]
    dsimp only
    rw [hparse, instructionOf_fields hbyte, ih]
    rfl

theorem readObject_writeObject {byte : BitVec 64 → BitVec 8} (hbyte : StoresBytes byte)
    {code : ProgramBuf} {text : List Char} (h : writeObject code = some text) :
    readObject (fun ln => instructionOf byte (readNumbers 5 ln)) text =
      some ⟨(code.loadAddress.setWidth 32).setWidth 64,
        code.program.map Instruction.truncated⟩ := by
  rw [writeObject] at h
  split at h
  · rename_i hcount
    cases h
    rw [readObject, if_neg (List.append_ne_nil_of_right_ne_nil _ (List.cons_ne_nil _ _)),
      fgets_lineText (Nat.le_of_ble_eq_true rfl)]
    have hnumbers := (readNumbers_lineText
      [code.loadAddress.setWidth 32, BitVec.ofNat 32 code.program.length]
      (endsNumber_newline [])).1
    obtain ⟨hload, hrest⟩ := List.cons.inj hnumbers
    obtain ⟨hlength, -⟩ := List.cons.inj hrest
    dsimp only
    rw [hload, hlength]
    have hsame : ((BitVec.ofNat 32 code.program.length).setWidth 64).toNat =
        code.program.length := by
      rw [BitVec.toNat_setWidth, BitVec.toNat_ofNat]
      omega
    rw [hsame, if_pos hcount, readProgram_programText hbyte]
    rfl
  · cases h

/-- **The round trip**: both readers read the program that was written. -/
def RoundTrips (code : ProgramBuf) : Prop :=
  ∃ text, writeObject code = some text ∧ emuReadObject text = some code ∧
    mttLibReadObject text = some code

theorem setWidth_eq_iff (x : BitVec 64) : (x.setWidth 32).setWidth 64 = x ↔ x.toNat < 2 ^ 32 := by
  have hlt := x.isLt
  rw [← BitVec.toNat_inj, BitVec.toNat_setWidth, BitVec.toNat_setWidth]
  omega

theorem truncated_eq_iff (inst : Instruction) :
    inst.truncated = inst ↔ inst.src1.toNat < 2 ^ 32 := by
  rw [← setWidth_eq_iff]
  constructor
  · exact fun h => congrArg Instruction.src1 h
  · intro h
    rw [Instruction.truncated, h]

/-- **Object files.**  A program comes back as it was written exactly when its load address and all
first operands are numbers of 32 bits without a sign, and its instructions can be counted with an
`int`. -/
theorem roundTrips_iff (code : ProgramBuf) :
    RoundTrips code ↔ code.loadAddress.toNat < 2 ^ 32 ∧ code.program.length < 2 ^ 31 ∧
      ∀ inst ∈ code.program, inst.src1.toNat < 2 ^ 32 := by
  have hemu : StoresBytes fun x => x.setWidth 8 := by
    intro x
    rw [← BitVec.toNat_inj]
    simp only [BitVec.toNat_setWidth]
    omega
  have hlib : StoresBytes fun x => (x.setWidth 16).setWidth 8 := by
    intro x
    rw [← BitVec.toNat_inj]
    simp only [BitVec.toNat_setWidth]
    omega
  have hprogram : code.program.map Instruction.truncated = code.program ↔
      ∀ inst ∈ code.program, inst.truncated = id inst := by
    rw [← List.map_inj_left, List.map_id]
  have hsame : (⟨(code.loadAddress.setWidth 32).setWidth 64,
      code.program.map Instruction.truncated⟩ : ProgramBuf) = code ↔
      code.loadAddress.toNat < 2 ^ 32 ∧ ∀ inst ∈ code.program, inst.src1.toNat < 2 ^ 32 := by
    rw [← setWidth_eq_iff]
    constructor
    · intro h
      refine ⟨congrArg ProgramBuf.loadAddress h, fun inst hinst => ?_⟩
      exact (truncated_eq_iff inst).mp (hprogram.mp (congrArg ProgramBuf.program h) inst hinst)
    · rintro ⟨hload, hsmall⟩
      rw [hload, hprogram.mpr fun inst hinst => (truncated_eq_iff inst).mpr (hsmall inst hinst)]
  constructor
  · rintro ⟨text, hwrite, hread, -⟩
    have hback := readObject_writeObject hemu hwrite
    rw [emuReadObject, hback] at hread
    obtain ⟨hload, hsmall⟩ := hsame.mp (Option.some.inj hread)
    refine ⟨hload, ?_, hsmall⟩
    by_contra hlong
    rw [writeObject, if_neg hlong] at hwrite
    cases hwrite
  · rintro ⟨hload, hcount, hsmall⟩
    have hwrite : writeObject code = some _ := if_pos hcount
    refine ⟨_, hwrite, ?_, ?_⟩
    · rw [emuReadObject, readObject_writeObject hemu hwrite, hsame.mpr ⟨hload, hsmall⟩]
    · rw [mttLibReadObject, readObject_writeObject hlib hwrite, hsame.mpr ⟨hload, hsmall⟩]

/-- The operand -1 comes back as 0xffffffff. -/
theorem roundTrips_negative :
    ¬ RoundTrips ⟨0, [⟨0, 0, 0xe2, 0, -1⟩]⟩ ∧
    ∃ text, writeObject ⟨0, [⟨0, 0, 0xe2, 0, -1⟩]⟩ = some text ∧
      emuReadObject text = some ⟨0, [⟨0, 0, 0xe2, 0, 0xffffffff⟩]⟩ := by
  have hwrite : writeObject ⟨0, [⟨0, 0, 0xe2, 0, -1⟩]⟩ =
      some "0x0 0x1\n0xE2 0xFFFFFFFF 0x0 0x0 0x0\n".toList := by decide +kernel
  have hread : emuReadObject "0x0 0x1\n0xE2 0xFFFFFFFF 0x0 0x0 0x0\n".toList =
      some ⟨0, [⟨0, 0, 0xe2, 0, 0xffffffff⟩]⟩ := by decide +kernel
  refine ⟨?_, _, hwrite, hread⟩
  rintro ⟨text, htext, hback, -⟩
  obtain rfl := Option.some.inj (hwrite.symm.trans htext)
  rw [hread] at hback
  exact absurd hback (by decide)

end KernelModules.Mttn.Object
