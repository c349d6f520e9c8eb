import Mathlib.Tactic
import KernelModules.Mttn.ObjectFile

/-!
# The emulator of the MTT

The emulator executes one instruction of the program memory after the other on 256 registers.  Which
operands an instruction has is written in the table of the instruction set; what it does is one
large `switch`.

* `Machine` are the static variables of the emulator and `execute` is `Execute`, which returns the
  machine and what stands in the program memory afterwards;
* `SameDeclared` are two instructions that differ in operands only that the table does not give
  them;
* `Respects` says that the instruction does the same as all those, leaves the program alone and does
  the same again.  `MOVRI` takes its second operand from the wrong field, and the watchdog counts up
  its own op code (`respects_iff`).
-/

namespace KernelModules.Mttn.Emulator

open Function KernelModules.Mttn.Object

/-! ### The machine -/

/-- `IdNumber`. -/
inductive IdNumber
  | HALT | NOOP | INT
  | WEQV | WEQR | WRLV | WRLR | WORV | WORR
  | MOVV | MOVR | MOVIR | MOVRI
  | ADDV | ADDR | SUBV | SUBR | LORV | LORR | ANDV | ANDR | XORV | XORR | LSV | LSR | RSV | RSR
  | WDOG | JMP | BEQ | BNE | BLT | BGT | BLE | BGE | BCR
  deriving DecidableEq, Repr

/-- The values of `IdNumber`. -/
def IdNumber.number : IdNumber → BitVec 8
  | .HALT => 0x00 | .NOOP => 0x4d | .INT => 0xc1
  | .WEQV => 0x91 | .WEQR => 0x11
  | .WRLV => 0x92 | .WRLR => 0x12
  | .WORV => 0x93 | .WORR => 0x13
  | .MOVV => 0xe2 | .MOVR => 0x62
  | .MOVIR => 0x64
  | .MOVRI => 0x65
  | .ADDV => 0xe6 | .ADDR => 0x66
  | .SUBV => 0xe7 | .SUBR => 0x67
  | .LORV => 0xe8 | .LORR => 0x68
  | .ANDV => 0xe9 | .ANDR => 0x69
  | .XORV => 0xea | .XORR => 0x6a
  | .LSV => 0xeb | .LSR => 0x6b
  | .RSV => 0xec | .RSR => 0x6c
  | .WDOG => 0x34
  | .JMP => 0x85
  | .BEQ => 0x86
  | .BNE => 0x87
  | .BLT => 0x88
  | .BGT => 0x89
  | .BLE => 0x8a
  | .BGE => 0x8b
  | .BCR => 0x8c

/-- All op codes. -/
def IdNumber.all : List IdNumber :=
  [.HALT, .NOOP, .INT, .WEQV, .WEQR, .WRLV, .WRLR, .WORV, .WORR, .MOVV, .MOVR, .MOVIR, .MOVRI,
    .ADDV, .ADDR, .SUBV, .SUBR, .LORV, .LORR, .ANDV, .ANDR, .XORV, .XORR, .LSV, .LSR, .RSV, .RSR,
    .WDOG, .JMP, .BEQ, .BNE, .BLT, .BGT, .BLE, .BGE, .BCR]

/-- The case of the `switch`. -/
def IdNumber.ofNumber (n : BitVec 8) : Option IdNumber :=
  IdNumber.all.find? fun id => id.number == n

/-- The text of `ShowDiffs`: the first register that has changed, with its old and new value, and
the register and value that are waited for. -/
structure Diffs where
  register : Option (ℕ × BitVec 32 × BitVec 32)
  wait : Option (BitVec 32 × BitVec 32)
  deriving DecidableEq, Repr

/-- The static variables: `Regm`, `PSwd`, `Pc`, `waiting`, `waitr`, `regwa`, and for `ShowDiffs` the
registers that were shown last and its text. -/
structure Machine where
  regm : ℕ → BitVec 32
  pSwd : BitVec 32
  pc : BitVec 32
  waiting : Bool
  waitr : BitVec 32
  regwa : BitVec 32
  shown : ℕ → BitVec 32
  dfs : Diffs

namespace Machine

/-- `ShowDiffs`. -/
def showDiffs (m : Machine) : Machine :=
  { m with
    dfs :=
      { register := ((List.range 256).find? fun i => m.shown i != m.regm i).map fun i =>
          (i, m.shown i, m.regm i)
        wait := if m.waiting then some (m.regwa, m.waitr) else none }
    shown := m.regm }

/-- `SetPSwd`. -/
def setPSwd (m : Machine) (val : BitVec 32) : Machine :=
  { m with pSwd := if val = 0 then 1 else if 0 < val.toInt then 4 else 2 }

/-- `Pc++`. -/
def next (m : Machine) : Machine := { m with pc := m.pc + 1 }

/-- The result of an operation is put into a register. -/
def put (m : Machine) (dest : ℕ) (x : BitVec 32) : Machine :=
  ({ m with regm := update m.regm dest x }.setPSwd x).showDiffs.next

/-- The register that `Src1` names; the array has no other. -/
def source (m : Machine) (src1 : BitVec 64) : Option (BitVec 32) :=
  if src1.toNat < 256 then some (m.regm src1.toNat) else none

/-- The waits: what is waited for is set up once, and then compared with the register. -/
def wait (m : Machine) (src2 : BitVec 8) (value : BitVec 32)
    (met : BitVec 32 → BitVec 32 → Bool) : Machine :=
  let m := if m.waiting then m
    else { m with waiting := true, waitr := value, regwa := src2.setWidth 32 }
  let m := if met (m.regm src2.toNat) m.waitr then { m with waiting := false }.next else m
  m.showDiffs

/-- The branches. -/
def branch (m : Machine) (taken : Bool) (src1 : BitVec 64) : Machine :=
  if taken then { m with pc := src1.setWidth 32 } else m.next

/-- Bits of `PSwd`. -/
def psEQ (m : Machine) : Bool := m.pSwd.getLsbD 0

def psLT (m : Machine) : Bool := m.pSwd.getLsbD 1

def psGT (m : Machine) : Bool := m.pSwd.getLsbD 2

def psCR (m : Machine) : Bool := m.pSwd.getLsbD 3

/-- `Regm[GREGS]`, when it is the number of a register. -/
def index (m : Machine) : Option ℕ :=
  if (m.regm 224).toNat < 256 then some (m.regm 224).toNat else none

/-- The operations with two operands; a shift is by less than the width. -/
def operate (m : Machine) (inst : Object.Instruction) (amount : ℕ) (right : BitVec 32) :
    IdNumber → Option (BitVec 32)
  | .ADDV | .ADDR => some (m.regm inst.src2.toNat + right)
  | .SUBV | .SUBR => some (m.regm inst.src2.toNat - right)
  | .LORV | .LORR => some (m.regm inst.src2.toNat ||| right)
  | .ANDV | .ANDR => some (m.regm inst.src2.toNat &&& right)
  | .XORV | .XORR => some (m.regm inst.src2.toNat ^^^ right)
  | .LSV | .LSR => if amount < 32 then some (m.regm inst.src2.toNat <<< amount) else none
  | .RSV | .RSR =>
    if amount < 32 then some ((m.regm inst.src2.toNat).sshiftRight amount) else none
  | _ => none

/-- An operation with a literal. -/
def withLiteral (m : Machine) (inst : Object.Instruction) (id : IdNumber) : Option Machine :=
  (m.operate inst inst.src1.toNat (inst.src1.setWidth 32) id).map (m.put inst.dest.toNat)

/-- An operation with a register. -/
def withRegister (m : Machine) (inst : Object.Instruction) (id : IdNumber) : Option Machine :=
  (m.source inst.src1).bind fun right =>
    (m.operate inst right.toNat right id).map (m.put inst.dest.toNat)

/-- One case of the `switch`; it is undefined for a register that there is not and a shift that is
too wide. -/
def effect (m : Machine) (inst : Object.Instruction) : IdNumber → Option Machine
  | .HALT => some m
  | .NOOP => some m.next
  | .INT => some m.next
  | .WEQV =>
    some (m.wait inst.src2 (inst.src1.setWidth 32) fun r _ => r.signExtend 64 = inst.src1)
  | .WEQR => (m.source inst.src1).map fun x => m.wait inst.src2 x fun r _ => r = x
  | .WRLV =>
    some (m.wait inst.src2 (m.regm inst.src2.toNat + inst.src1.setWidth 32) fun r w => w.sle r)
  | .WRLR =>
    (m.source inst.src1).map fun x =>
      m.wait inst.src2 (m.regm inst.src2.toNat + x) fun r w => w.sle r
  | .WORV =>
    some (m.wait inst.src2 (inst.src1.setWidth 32) fun r _ => r.signExtend 64 &&& inst.src1 ≠ 0)
  | .WORR => (m.source inst.src1).map fun x => m.wait inst.src2 x fun r _ => r &&& x ≠ 0
  | .MOVV => some (m.put inst.dest.toNat (inst.src1.setWidth 32))
  | .MOVR => (m.source inst.src1).map (m.put inst.dest.toNat)
  | .MOVIR =>
    match m.index with
    | some irg => some (m.put inst.dest.toNat (m.regm irg))
    | none => some m.next
  | .MOVRI =>
    match m.index with
    | some irg => some (m.put irg (m.regm inst.dest.toNat))
    | none => some m.next
  | .ADDR => m.withRegister inst .ADDR
  | .SUBR => m.withRegister inst .SUBR
  | .LORR => m.withRegister inst .LORR
  | .ANDR => m.withRegister inst .ANDR
  | .XORR => m.withRegister inst .XORR
  | .LSR => m.withRegister inst .LSR
  | .RSR => m.withRegister inst .RSR
  | .ADDV => m.withLiteral inst .ADDV
  | .SUBV => m.withLiteral inst .SUBV
  | .LORV => m.withLiteral inst .LORV
  | .ANDV => m.withLiteral inst .ANDV
  | .XORV => m.withLiteral inst .XORV
  | .LSV => m.withLiteral inst .LSV
  | .RSV => m.withLiteral inst .RSV
  | .WDOG => some m.next
  | .JMP => some (m.branch true inst.src1)
  | .BEQ => some (m.branch m.psEQ inst.src1)
  | .BNE => some (m.branch (!m.psEQ) inst.src1)
  | .BLT => some (m.branch m.psLT inst.src1)
  | .BGT => some (m.branch m.psGT inst.src1)
  | .BLE => some (m.branch (m.psEQ || m.psLT) inst.src1)
  | .BGE => some (m.branch (m.psEQ || m.psGT) inst.src1)
  | .BCR => some (m.branch m.psCR inst.src1)

/-- What a case of the `switch` writes into the instruction itself. -/
def rewritten (inst : Object.Instruction) : IdNumber → Object.Instruction
  | .WDOG => { inst with number := inst.number + 1 }
  | _ => inst

/-- `Execute`: the machine, and the instruction in the program memory afterwards.  A number that is
no op code does nothing. -/
def execute (m : Machine) (inst : Object.Instruction) : Option Machine × Object.Instruction :=
  match IdNumber.ofNumber inst.number with
  | some id => (m.effect inst id, rewritten inst id)
  | none => (some m, inst)

end Machine

/-! ### What the table declares -/

/-- The row of `InstructionSet` for an op code number. -/
def declaration (n : BitVec 8) : Option OpCode :=
  instructionSet.find? fun op => op.number == n.toNat

/-- Two instructions with one op code that have the same operands, as far as the table declares
them. -/
structure SameDeclared (inst inst' : Object.Instruction) : Prop where
  number : inst'.number = inst.number
  src1 : ∀ op, declaration inst.number = some op → op.src1 ≠ .nothing → inst'.src1 = inst.src1
  src2 : ∀ op, declaration inst.number = some op → op.src2 ≠ .nothing → inst'.src2 = inst.src2
  dest : ∀ op, declaration inst.number = some op → op.dest ≠ .nothing → inst'.dest = inst.dest

/-- **The instruction set is respected**: the effect depends on the declared operands only, the
program memory stays as it is, and executing the instruction again from the same machine has the
same effect. -/
structure Respects (m : Machine) (inst : Object.Instruction) : Prop where
  declared : ∀ inst', SameDeclared inst inst' → (m.execute inst').1 = (m.execute inst).1
  program : (m.execute inst).2 = inst
  again : (m.execute (m.execute inst).2).1 = (m.execute inst).1

/-! ### The cases -/

section Cases

variable {m : Machine} {inst inst' : Object.Instruction} {id : IdNumber}

theorem ofNumber_number (id : IdNumber) : IdNumber.ofNumber id.number = some id := by
  cases id <;> rfl

theorem number_of_ofNumber {n : BitVec 8} (h : IdNumber.ofNumber n = some id) : id.number = n := by
  simpa using List.find?_some (p := fun id : IdNumber => id.number == n) h

theorem declaration_isSome (id : IdNumber) : (declaration id.number).isSome := by
  cases id <;> rfl

/-- The operands that a case of the `switch` has by the table. -/
def declaredOf (id : IdNumber) : OpCode := (declaration id.number).get (declaration_isSome id)

theorem SameDeclared.operands (h : SameDeclared inst inst')
    (hid : IdNumber.ofNumber inst.number = some id) :
    ((declaredOf id).src1 ≠ .nothing → inst'.src1 = inst.src1) ∧
    ((declaredOf id).src2 ≠ .nothing → inst'.src2 = inst.src2) ∧
    ((declaredOf id).dest ≠ .nothing → inst'.dest = inst.dest) := by
  have hrow : declaration inst.number = some (declaredOf id) := by
    rw [← number_of_ofNumber hid]
    exact (Option.some_get _).symm
  exact ⟨h.src1 _ hrow, h.src2 _ hrow, h.dest _ hrow⟩

theorem effect_congr (hid : id ≠ .MOVRI)
    (h1 : (declaredOf id).src1 ≠ .nothing → inst'.src1 = inst.src1)
    (h2 : (declaredOf id).src2 ≠ .nothing → inst'.src2 = inst.src2)
    (h3 : (declaredOf id).dest ≠ .nothing → inst'.dest = inst.dest) :
    m.effect inst' id = m.effect inst id := by
  cases id with
  | MOVRI => exact absurd rfl hid
  | HALT | NOOP | INT | WDOG => rfl
  | WEQV | WEQR | WRLV | WRLR | WORV | WORR =>
    simp only [Machine.effect, h1 (by decide), h2 (by decide)]
  | MOVV | MOVR => simp only [Machine.effect, h1 (by decide), h3 (by decide)]
  | MOVIR => simp only [Machine.effect, h3 (by decide)]
  | ADDR | SUBR | LORR | ANDR | XORR | LSR | RSR =>
    simp only [Machine.effect, Machine.withRegister, Machine.operate, h1 (by decide),
      h2 (by decide), h3 (by decide)]
  | ADDV | SUBV | LORV | ANDV | XORV | LSV | RSV =>
    simp only [Machine.effect, Machine.withLiteral, Machine.operate, h1 (by decide),
      h2 (by decide), h3 (by decide)]
  | JMP | BEQ | BNE | BLT | BGT | BLE | BGE | BCR =>
    simp only [Machine.effect, h1 (by decide)]

theorem execute_of_id (hid : IdNumber.ofNumber inst.number = some id) :
    m.execute inst = (m.effect inst id, Machine.rewritten inst id) := by
  rw [Machine.execute, hid]

theorem rewritten_eq_iff : Machine.rewritten inst id = inst ↔ id ≠ .WDOG := by
  by_cases h : id = .WDOG
  · subst h
    refine iff_of_false (fun heq => ?_) fun hne => hne rfl
    have hnumber : inst.number + 1 = inst.number := congrArg Object.Instruction.number heq
    have hnever : ∀ x : BitVec 8, x + 1 ≠ x := by decide
    exact hnever _ hnumber
  · refine iff_of_true ?_ h
    cases id <;> first | rfl | exact absurd rfl h

theorem regm_put (m : Machine) (dest : ℕ) (x : BitVec 32) : (m.put dest x).regm dest = x := by
  show update m.regm dest x dest = x
  rw [update_self]

theorem movri_congr_iff :
    (∀ inst', inst'.number = inst.number → inst'.src1 = inst.src1 → inst'.src2 = inst.src2 →
      m.effect inst' .MOVRI = m.effect inst .MOVRI) ↔
    m.index = none ∨ ∀ d : BitVec 8, m.regm d.toNat = m.regm inst.dest.toNat := by
  unfold Machine.effect
  cases hindex : m.index with
  | none => exact iff_of_true (fun _ _ _ _ => rfl) (Or.inl rfl)
  | some irg =>
    constructor
    · intro hall
      refine Or.inr fun d => ?_
      have hput := Option.some.inj (hall { inst with dest := d } rfl rfl rfl)
      have hregm := congrArg (fun m => Machine.regm m irg) hput
      rwa [regm_put, regm_put] at hregm
    · rintro (h | hsame) inst' - - -
      · cases h
      · dsimp only
        rw [hsame inst'.dest]

theorem sameDeclared_movri_iff (hid : IdNumber.ofNumber inst.number = some .MOVRI) :
    SameDeclared inst inst' ↔
      inst'.number = inst.number ∧ inst'.src1 = inst.src1 ∧ inst'.src2 = inst.src2 := by
  constructor
  · intro h
    obtain ⟨h1, h2, -⟩ := h.operands hid
    exact ⟨h.number, h1 (by decide), h2 (by decide)⟩
  · rintro ⟨hnumber, h1, h2⟩
    refine ⟨hnumber, fun _ _ _ => h1, fun _ _ _ => h2, fun op hop hdest => ?_⟩
    rw [← number_of_ofNumber hid] at hop
    obtain rfl := Option.some.inj hop
    exact absurd rfl hdest

end Cases

/-- **The emulator.**  An instruction is executed as the table declares it exactly when it is not
the watchdog, and, if it is `MOVRI`, the index register names no register or all registers have the
value of the one that its third field names. -/
theorem respects_iff (m : Machine) (inst : Object.Instruction) :
    Respects m inst ↔ inst.number ≠ IdNumber.number .WDOG ∧
      (inst.number = IdNumber.number .MOVRI →
        m.index = none ∨ ∀ d : BitVec 8, m.regm d.toNat = m.regm inst.dest.toNat) := by
  cases hid : IdNumber.ofNumber inst.number with
  | none =>
    -- the number is no op code
    have hno : ∀ id : IdNumber, inst.number ≠ id.number := by
      intro id heq
      rw [heq, ofNumber_number] at hid
      cases hid
    have hidle : m.execute inst = (some m, inst) := by rw [Machine.execute, hid]
    refine iff_of_true ⟨fun inst' h => ?_, by rw [hidle], by rw [hidle, hidle]⟩
      ⟨hno .WDOG, fun h => absurd h (hno .MOVRI)⟩
    rw [hidle, Machine.execute, h.number, hid]
  | some id =>
    have hnumber := number_of_ofNumber hid
    have hinj : ∀ id' : IdNumber, inst.number = id'.number ↔ id = id' := by
      intro id'
      constructor
      · intro h
        rw [h, ofNumber_number] at hid
        exact (Option.some.inj hid).symm
      · rintro rfl
        exact hnumber.symm
    have hexec := execute_of_id (m := m) hid
    have hexec' : ∀ inst', inst'.number = inst.number →
        (m.execute inst').1 = m.effect inst' id := by
      intro inst' h
      rw [execute_of_id (h ▸ hid)]
    rw [ne_eq, hinj, hinj]
    constructor
    · intro h
      refine ⟨?_, ?_⟩
      · have hprogram := h.program
        rw [hexec] at hprogram
        exact rewritten_eq_iff.mp hprogram
      · rintro rfl
        refine movri_congr_iff.mp fun inst' hsame h1 h2 => ?_
        have := h.declared inst' ((sameDeclared_movri_iff hid).mpr ⟨hsame, h1, h2⟩)
        rwa [hexec' inst' hsame, hexec] at this
    · rintro ⟨hwdog, hmovri⟩
      have hprogram : (m.execute inst).2 = inst := by
        rw [hexec]
        exact rewritten_eq_iff.mpr hwdog
      refine ⟨fun inst' h => ?_, hprogram, by rw [hprogram]⟩
      rw [hexec' inst' h.number, hexec]
      by_cases hid' : id = .MOVRI
      · subst hid'
        obtain ⟨hsame, h1, h2⟩ := (sameDeclared_movri_iff hid).mp h
        exact movri_congr_iff.mpr (hmovri rfl) inst' hsame h1 h2
      · obtain ⟨h1, h2, h3⟩ := h.operands hid
        exact effect_congr hid' h1 h2 h3

/-- A machine with the number of each register in it. -/
def numbered : Machine where
  regm i := BitVec.ofNat 32 i
  pSwd := 0
  pc := 0
  waiting := false
  waitr := 0
  regwa := 0
  shown _ := 0
  dfs := ⟨none, none⟩

/-- `MOVRI GR1, GR2` with 7 in the field that it does not have stores register 7; and a watchdog is
none any more after it was executed. -/
theorem respects_not :
    ¬ Respects numbered ⟨7, 1, 0x65, 0, 0⟩ ∧ ¬ Respects numbered ⟨0, 0, 0x34, 0, 0⟩ := by
  constructor
  · intro h
    have hsame := h.declared ⟨8, 1, 0x65, 0, 0⟩
      ((sameDeclared_movri_iff (by decide)).mpr ⟨rfl, rfl, rfl⟩)
    have hregister : ∀ d : BitVec 8, (numbered.execute ⟨d, 1, 0x65, 0, 0⟩).1.map
        (fun m => m.regm 224) = some (BitVec.ofNat 32 d.toNat) := fun _ => rfl
    have hvalue := congrArg (Option.map fun m => Machine.regm m 224) hsame
    rw [hregister, hregister] at hvalue
    exact absurd hvalue (by decide)
  · intro h
    exact absurd (congrArg Object.Instruction.number h.program) (by decide)

end KernelModules.Mttn.Emulator
