import Mathlib.Tactic
import KernelModules.Mttn.AsmAtoms

/-!
# Labels of the MTT assembler

`Assemble` walks once over the atoms of a source text.  Names are kept in one symbol table, whether
they are labels or constants; a name in the place of a literal is replaced by the value of the
symbol, and remembered as a forward reference when that value is zero, so that `main` can patch the
instruction when the text has been read.

* `Vars` are the symbol table, the two stacks and the errors, `doExpression` works on them;
* `AsmState` adds the variables of `Assemble`, `asmStep` is what it does with one atom, `assemble`
  the walk and `passTwo` the patches of `main`;
* `Scan` is what the text says by itself: which label stands before which instruction, and which
  instruction names which symbol;
* `Resolved` says that the object has the values the text asks for.  The value zero stands for an
  undefined symbol, so a label at address zero can be defined again and a symbol that is never
  defined is not noticed; `resolved_of_meets` is what holds of the texts that avoid these and the
  writes of expressions to labels and to used symbols.
-/

namespace KernelModules.Mttn

open Function

/-! ### Symbols and stacks -/

/-- The messages of `Error`, apart from the fatal ones. -/
inductive AsmError
  | illegalCharacter | operandUnderflow | operatorUnderflow | writeToLiteral | expectedLiteral
  | expectedRegister | doubleDefinition | notContiguous | unexpectedSeperator
  deriving DecidableEq, Repr

/-- `Operand`; a symbol is known by its name. -/
structure Operand where
  symbolRef : Option Name
  literalValue : ℤ
  deriving DecidableEq, Repr

/-- The static variables: the symbol table with its names in order, the two stacks, and the errors
so far, of which `error_count` is the number. -/
structure Vars where
  names : List Name
  value : Name → ℤ
  defined : Name → Bool
  operandStack : ℕ → Operand
  operandStackSize : ℕ
  operatorStack : ℕ → OprId
  operatorStackSize : ℕ
  errors : List AsmError

namespace Vars

/-- `Error`: after ten errors the assembler exits. -/
def error (v : Vars) (e : AsmError) : Option Vars :=
  if 10 ≤ v.errors.length then none else some { v with errors := v.errors ++ [e] }

/-- `GetSymbol`: a new name enters the table; the table overflows fatally. -/
def getSymbol (v : Vars) (name : Name) : Option Vars :=
  if name ∈ v.names then some v
  else if 1024 ≤ v.names.length then none
  else some { v with names := v.names ++ [name] }

/-- The check before a label is defined. -/
def checkNew (v : Vars) (name : Name) : Option Vars :=
  if v.value name ≠ 0 then v.error .doubleDefinition else some v

/-- `PushOperand`. -/
def pushOperand (v : Vars) (operand : Operand) : Option Vars :=
  if v.operandStackSize < 64 then
    some { v with
      operandStack := update v.operandStack v.operandStackSize operand
      operandStackSize := v.operandStackSize + 1 }
  else none

/-- `PushOperator`. -/
def pushOperator (v : Vars) (opr : OprId) : Option Vars :=
  if v.operatorStackSize < 32 then
    some { v with
      operatorStack := update v.operatorStack v.operatorStackSize opr
      operatorStackSize := v.operatorStackSize + 1 }
  else none

/-- `PopOperand`: the operand, or nothing and an error. -/
def popOperand (v : Vars) : Option (Option Operand × Vars) :=
  if 0 < v.operandStackSize then
    some (some (v.operandStack (v.operandStackSize - 1)),
      { v with operandStackSize := v.operandStackSize - 1 })
  else (v.error .operandUnderflow).map fun v => (none, v)

/-- `ResetStacks`. -/
def resetStacks (v : Vars) : Vars := { v with operandStackSize := 0, operatorStackSize := 0 }

/-- `GetValue`. -/
def getValue (v : Vars) (operand : Operand) : ℤ :=
  match operand.symbolRef with
  | some name => v.value name
  | none => operand.literalValue

end Vars

/-! ### Expressions -/

/-- A `long` of 64 bits. -/
def long (x : ℤ) : ℤ := (BitVec.ofInt 64 x).toInt

/-- `true_operand` and `false_operand`. -/
def truth (b : Bool) : ℤ := if b then 0xffffffff else 0

/-- The operators with two values; a division by zero ends the program. -/
def binary : OprId → Option (ℤ → ℤ → Option ℤ)
  | .NE => some fun l r => some (truth (l ≠ r))
  | .EQ => some fun l r => some (truth (l = r))
  | .GT => some fun l r => some (truth (l > r))
  | .GE => some fun l r => some (truth (l ≥ r))
  | .LT => some fun l r => some (truth (l < r))
  | .LE => some fun l r => some (truth (l ≤ r))
  | .PL => some fun l r => some (long (l + r))
  | .MI => some fun l r => some (long (l - r))
  | .TI => some fun l r => some (long (l * r))
  | .DI => some fun l r => if r = 0 then none else some (long (l.tdiv r))
  | .AND => some fun l r => some (BitVec.ofInt 64 l &&& BitVec.ofInt 64 r).toInt
  | .OR => some fun l r => some (BitVec.ofInt 64 l ||| BitVec.ofInt 64 r).toInt
  | .XOR => some fun l r => some (BitVec.ofInt 64 l ^^^ BitVec.ofInt 64 r).toInt
  | .LSH => some fun l r => some (BitVec.ofInt 64 l <<< (r % 64).toNat).toInt
  | .RSH => some fun l r => some ((BitVec.ofInt 64 l).sshiftRight (r % 64).toNat).toInt
  | _ => none

/-- The operators with one value. -/
def unary : OprId → Option (ℤ → ℤ)
  | .NOT => some fun l => (~~~BitVec.ofInt 64 l).toInt
  | .NEG => some fun l => long (-l)
  | _ => none

/-- `++` and `--`. -/
def stepBy : OprId → Option ℤ
  | .INC => some 1
  | .DECR => some (-1)
  | _ => none

/-- What an operator leads to: the value of the expression, or the next operator, after a symbol
has been written or not, and assigned or only changed. -/
inductive Outcome
  | done (value : ℤ)
  | again (written : List (Name × Bool))
  deriving DecidableEq, Repr

namespace Vars

/-- The cases with two operands: both are popped, the right one first. -/
def withTwo (v : Vars) (k : Operand → Operand → Vars → Option (Outcome × Vars)) :
    Option (Outcome × Vars) := do
  let (right, v) ← v.popOperand
  match right with
  | none => some (.done 0, v)
  | some right =>
    let (left, v) ← v.popOperand
    match left with
    | none => some (.done 0, v)
    | some left => k left right v

/-- The cases with one operand. -/
def withOne (v : Vars) (k : Operand → Vars → Option (Outcome × Vars)) :
    Option (Outcome × Vars) := do
  let (operand, v) ← v.popOperand
  match operand with
  | none => some (.done 0, v)
  | some operand => k operand v

/-- The value of a symbol is written. -/
def setValue (v : Vars) (name : Name) (x : ℤ) : Vars := { v with value := update v.value name x }

/-- A symbol is written and defined. -/
def define (v : Vars) (name : Name) (x : ℤ) : Vars :=
  { v with value := update v.value name x, defined := update v.defined name true }

/-- One round of `DoExpression`, after the operator was popped. -/
def applyOperator (v : Vars) (opr : OprId) : Option (Outcome × Vars) :=
  match binary opr, unary opr, stepBy opr with
  | some f, _, _ => v.withTwo fun left right v => do
      let x ← f (v.getValue left) (v.getValue right)
      let v ← v.pushOperand ⟨none, x⟩
      some (.again [], v)
  | none, some f, _ => v.withOne fun left v => do
      let v ← v.pushOperand ⟨none, f (v.getValue left)⟩
      some (.again [], v)
  | none, none, some d => v.withOne fun left v =>
      match left.symbolRef with
      | some name => do
        let x := long (v.getValue left + d)
        let v ← (v.setValue name x).pushOperand ⟨none, x⟩
        some (.again [(name, false)], v)
      | none => (v.error .writeToLiteral).map fun v => (.again [], v)
  | none, none, none =>
    match opr with
    | .POP => v.withOne fun right v => some (.done right.literalValue, v)
    | .AS => v.withTwo fun left right v =>
        match left.symbolRef with
        | some name => do
          let v ← (v.define name (v.getValue right)).pushOperand right
          some (.again [(name, true)], v)
        | none => (v.error .writeToLiteral).map fun v => (.again [], v)
    | .STM => some (.done (v.operandStack v.operandStackSize).literalValue, v)
    | _ => some (.done 0, v)

/-- `DoExpression`, with `n` operators on the stack: its value, and the symbols it writes. -/
def doExpression : ℕ → Vars → Option (ℤ × List (Name × Bool) × Vars)
  | 0, v => (v.error .operatorUnderflow).map fun v => (0, [], v)
  | n + 1, v => do
    let r ← applyOperator { v with operatorStackSize := n } (v.operatorStack n)
    match r.1 with
    | .done x => some (x, [], r.2)
    | .again written =>
      let rest ← doExpression n r.2
      some (rest.1, written ++ rest.2.1, rest.2.2)

end Vars

/-! ### Assembling -/

/-- `Instruction`. -/
structure Instruction where
  number : ℕ
  src1 : ℤ
  src2 : ℕ
  dest : ℕ
  deriving DecidableEq, Repr

/-- The variables of `Assemble`, the object, and the forward references: which instruction needs
which symbol. -/
structure AsmState where
  vars : Vars
  program : ℕ → Instruction
  loadAddress : ℤ
  instructionCount : ℕ
  inst : ℕ
  index : ℕ
  pc : ℤ
  expectLit : Bool
  expectSr1 : Bool
  expectSr2 : Bool
  expectDst : Bool
  patom : Option Atom
  forward : List (ℕ × Name)

/-- `InstructionSet[i]`. -/
def opCodeAt (i : ℕ) : OpCode := instructionSet.getD i ⟨[], 0, .nothing, .nothing, .nothing⟩

/-- An operand that is a value or an address. -/
def takesLiteral (op : OpCode) : Bool := op.src1 = .literal || op.src1 = .address

/-- `CompareAtomTypes`. -/
def compareAtomTypes (x y : AtomType) : Bool :=
  x = y || (x = .expression && (y = .numeric || y = .alpha)) ||
    (y = .expression && (x = .numeric || x = .alpha)) || (x = .seperator && y = .comment) ||
    (y = .seperator && x = .comment)

/-- The atom at the head, or what follows the separators there; the last atom is kept. -/
def skipSeperators : List Atom → List Atom
  | [] => []
  | [a] => [a]
  | a :: b :: rest =>
    if compareAtomTypes a.type .seperator then skipSeperators (b :: rest) else a :: b :: rest

/-- One step on, and over the separators there. -/
def nextAtoms : List Atom → List Atom
  | [] => []
  | [a] => [a]
  | _ :: rest => skipSeperators rest

/-- The checks of `GetConfirm` in order, each for the type of one operand. -/
def confirmArgs : List (AtomType × AsmError) → List Atom → Option AsmError
  | [], _ => none
  | _, [] => none
  | (t, e) :: checks, a :: rest =>
    if compareAtomTypes a.type t then confirmArgs checks (nextAtoms (a :: rest)) else some e

/-- The operands an op code expects. -/
def expectedArgs (op : OpCode) : List (AtomType × AsmError) :=
  (if takesLiteral op then [(.expression, .expectedLiteral)] else []) ++
    (if op.src1 = .register then [(.register, .expectedRegister)] else []) ++
    (if op.src2 = .register then [(.register, .expectedRegister)] else []) ++
    (if op.dest = .register then [(.register, .expectedRegister)] else [])

namespace AsmState

/-- `Error`. -/
def error (s : AsmState) (e : AsmError) : Option AsmState :=
  (s.vars.error e).map fun v => { s with vars := v }

/-- `inst->Src1 = x`. -/
def setSrc1 (s : AsmState) (x : ℤ) : AsmState :=
  { s with program := update s.program s.inst { s.program s.inst with src1 := x } }

/-- `GetConfirm` for the op code at the head of `atoms`. -/
def getConfirm (s : AsmState) (op : OpCode) (atoms : List Atom) : Option AsmState :=
  let s := { s with
    expectLit := takesLiteral op
    expectSr1 := op.src1 = .register
    expectSr2 := op.src2 = .register
    expectDst := op.dest = .register }
  match confirmArgs (expectedArgs op) (nextAtoms atoms) with
  | none => some s
  | some e => s.error e

/-- A name in the place of a literal. -/
def useSymbol (s : AsmState) (name : Name) : Option AsmState :=
  let x := s.vars.value name
  let s : AsmState := { s.setSrc1 x with expectLit := false }
  if x = 0 then
    if 100 ≤ s.forward.length + 1 then none
    else some { s with forward := s.forward ++ [(s.inst, name)] }
  else some s

/-- The operator `:` after a name.  A value other than zero is taken for a definition. -/
def defineLabel (s : AsmState) (name : Name) : Option AsmState := do
  let v ← s.vars.getSymbol name
  let v ← v.checkNew name
  some { s with vars := v.define name s.pc }

/-- The operator `:` after a number. -/
def startAddress (s : AsmState) (x : ℤ) : Option AsmState :=
  if s.pc = 0 then some { s with pc := x, loadAddress := x } else s.error .notContiguous

/-- An op code. -/
def emit (s : AsmState) (i : ℕ) (atoms : List Atom) : Option AsmState := do
  let op := opCodeAt i
  let s := { s with inst := s.index, program := update s.program s.index ⟨0, 0, 0, 0⟩ }
  let s ← s.getConfirm op atoms
  some { s with
    program := update s.program s.inst { s.program s.inst with number := op.number }
    pc := s.pc + 1
    index := s.index + 1
    instructionCount := s.index + 1 }

/-- A register. -/
def useRegister (s : AsmState) (n : ℕ) : AsmState :=
  if s.expectSr1 then { s.setSrc1 n with expectSr1 := false }
  else if s.expectSr2 then
    { s with
      program := update s.program s.inst { s.program s.inst with src2 := n }
      expectSr2 := false }
  else if s.expectDst then
    { s with
      program := update s.program s.inst { s.program s.inst with dest := n }
      expectDst := false }
  else s

/-- A closing bracket. -/
def closeExpression (s : AsmState) : Option AsmState := do
  let r ← s.vars.doExpression s.vars.operatorStackSize
  some { ({ s with vars := r.2.2 } : AsmState).setSrc1 r.1 with expectLit := false }

/-- An opening bracket. -/
def openExpression (s : AsmState) : Option AsmState :=
  (s.vars.pushOperator .STM).map fun v => { s with vars := v, expectLit := false }

/-- The end of a line. -/
def endLine (s : AsmState) : Option AsmState :=
  let s := { s with vars := s.vars.resetStacks }
  if s.expectLit then (s.error .unexpectedSeperator).map fun s => { s with expectLit := false }
  else some s

/-- The body of the loop of `Assemble`, for the atom before `rest`. -/
def asmStep (s : AsmState) (atom : Atom) (rest : List Atom) : Option AsmState :=
  match atom with
  | .numeric x =>
    if s.expectLit then some { s.setSrc1 x with expectLit := false }
    else (s.vars.pushOperand ⟨none, x⟩).map fun v => { s with vars := v }
  | .alpha name => do
    let v ← s.vars.getSymbol name
    let s := { s with vars := v }
    if s.expectLit then s.useSymbol name
    else (s.vars.pushOperand ⟨some name, 0⟩).map fun v => { s with vars := v }
  | .operator .LBL =>
    match s.patom with
    | some (.alpha name) => s.defineLabel name
    | some (.numeric x) => s.startAddress x
    | some _ => some s
    | none => none
  | .operator opr => (s.vars.pushOperator opr).map fun v => { s with vars := v }
  | .opCode i => s.emit i (atom :: rest)
  | .register n => some (s.useRegister n)
  | .opens => s.openExpression
  | .openIndex => s.openExpression
  | .close => s.closeExpression
  | .closeIndex => s.closeExpression
  | .seperator => s.endLine
  | .comment => some s
  | .bit => some s

/-- The walk of `Assemble` over the atoms. -/
def walk : List Atom → AsmState → Option AsmState
  | [], s => some s
  | atom :: rest, s => do
    let s ← s.asmStep atom rest
    walk rest { s with patom := some atom }

/-- The state `Assemble` starts in; `illegal` tells whether `GetAtoms` has reported an error. -/
def start (illegal : Bool) : AsmState where
  vars :=
    { names := []
      value := fun _ => 0
      defined := fun _ => false
      operandStack := fun _ => ⟨none, 0⟩
      operandStackSize := 0
      operatorStack := fun _ => .NOOP
      operatorStackSize := 0
      errors := if illegal then [.illegalCharacter] else [] }
  program := fun _ => ⟨0, 0, 0, 0⟩
  loadAddress := 0
  instructionCount := 0
  inst := 0
  index := 0
  pc := 0
  expectLit := false
  expectSr1 := false
  expectSr2 := false
  expectDst := false
  patom := none
  forward := []

/-- `Assemble`. -/
def assemble (text : List Char) : Option AsmState :=
  (getAtoms text).bind fun r => walk r.1 (start r.2)

/-- The second pass in `main`: the forward references are patched. -/
def passTwo (s : AsmState) : ℕ → Instruction :=
  s.forward.foldl
    (fun program f => update program f.1 { program f.1 with src1 := s.vars.value f.2 }) s.program

end AsmState

/-! ### What the text says -/

/-- What can be read off a text: the atom before, the instructions so far, whether the last one
still takes a literal, the labels with the number of instructions before them, and which
instruction names which symbol. -/
structure Scan where
  prev : Option Atom
  count : ℕ
  wantsLit : Bool
  labels : List (Name × ℕ)
  operands : List (ℕ × Name)

namespace Scan

/-- The names of the labels. -/
def labelNames (sc : Scan) : List Name := sc.labels.map Prod.fst

/-- One atom more. -/
def step (sc : Scan) (atom : Atom) : Scan :=
  match atom with
  | .alpha name =>
    { sc with
      prev := some atom
      wantsLit := false
      operands := if sc.wantsLit then sc.operands ++ [(sc.count - 1, name)] else sc.operands }
  | .operator .LBL =>
    match sc.prev with
    | some (.alpha name) =>
      { sc with prev := some atom, labels := sc.labels ++ [(name, sc.count)] }
    | _ => { sc with prev := some atom }
  | .opCode i =>
    { sc with prev := some atom, count := sc.count + 1, wantsLit := takesLiteral (opCodeAt i) }
  | .operator _ => { sc with prev := some atom }
  | .register _ => { sc with prev := some atom }
  | .comment => { sc with prev := some atom }
  | .bit => { sc with prev := some atom }
  | _ => { sc with prev := some atom, wantsLit := false }

/-- A text before its first atom. -/
def start : Scan := ⟨none, 0, false, [], []⟩

/-- The scan of a list of atoms. -/
def ofAtoms (atoms : List Atom) : Scan := atoms.foldl step start

end Scan

/-- The labels and symbols of a text are resolved in its object: each label has the load address
plus the number of instructions before it, no label is defined twice, each instruction that names a
symbol has its value, and that symbol is defined. -/
structure Resolved (sc : Scan) (s : AsmState) : Prop where
  label_value : ∀ l ∈ sc.labels, s.vars.value l.1 = s.loadAddress + l.2
  label_once : sc.labelNames.Nodup
  operand_value : ∀ o ∈ sc.operands, (s.passTwo o.1).src1 = s.vars.value o.2
  operand_defined : ∀ o ∈ sc.operands, s.vars.defined o.2 = true

namespace AsmState

/-- The symbols that the expression closed next writes, and whether it assigns them. -/
def written (s : AsmState) : Atom → List (Name × Bool)
  | .close => ((s.vars.doExpression s.vars.operatorStackSize).map fun r => r.2.1).getD []
  | .closeIndex => ((s.vars.doExpression s.vars.operatorStackSize).map fun r => r.2.1).getD []
  | _ => []

/-- The symbol that the label before defines. -/
def labelled (s : AsmState) : Atom → List (Name × Bool)
  | .operator .LBL =>
    match s.patom with
    | some (.alpha name) => [(name, true)]
    | _ => []
  | _ => []

/-- What a closing bracket may meet: the instruction before it names no symbol, and the expression
writes no label and no symbol that an instruction names.  References that are patched in the end do
not count. -/
def ExpressionApart (s : AsmState) (sc : Scan) (written : List (Name × Bool)) : Prop :=
  (∀ o ∈ sc.operands, o.1 = s.inst → o ∈ s.forward) ∧
    ∀ w ∈ written, w.1 ∉ sc.labelNames ∧ ∀ o ∈ sc.operands, o.2 = w.1 → o ∈ s.forward

/-- The condition on one atom: a label is a new one, a start address comes before the first
instruction and (unless it is zero) before the first label, and expressions keep apart. -/
def StepMeets (s : AsmState) (sc : Scan) : Atom → Prop
  | .operator .LBL =>
    match sc.prev with
    | some (.alpha name) => name ∉ sc.labelNames
    | some (.numeric x) => sc.count = 0 ∧ (x = 0 ∨ sc.labels = [])
    | _ => True
  | .close => s.ExpressionApart sc (s.written .close)
  | .closeIndex => s.ExpressionApart sc (s.written .closeIndex)
  | _ => True

/-- The condition on a text from some atom on: on each atom, and in the end every symbol that an
instruction names is a label or was assigned. -/
def Meets : List Atom → Scan → List Name → AsmState → Prop
  | [], sc, assigned, _ => ∀ o ∈ sc.operands, o.2 ∈ sc.labelNames ∨ o.2 ∈ assigned
  | atom :: rest, sc, assigned, s =>
    s.StepMeets sc atom ∧ ∀ s', s.asmStep atom rest = some s' →
      Meets rest (sc.step atom)
        (assigned ++ ((s.written atom).filter Prod.snd).map Prod.fst)
        { s' with patom := some atom }

instance (s : AsmState) (sc : Scan) (written : List (Name × Bool)) :
    Decidable (s.ExpressionApart sc written) :=
  inferInstanceAs (Decidable (_ ∧ _))

instance (s : AsmState) (sc : Scan) (atom : Atom) : Decidable (s.StepMeets sc atom) := by
  unfold StepMeets
  split
  · split <;> infer_instance
  all_goals infer_instance

instance decidableMeets : ∀ (atoms : List Atom) (sc : Scan) (assigned : List Name) (s : AsmState),
    Decidable (Meets atoms sc assigned s)
  | [], sc, assigned, _ =>
    inferInstanceAs (Decidable (∀ o ∈ sc.operands, o.2 ∈ sc.labelNames ∨ o.2 ∈ assigned))
  | atom :: rest, sc, assigned, s =>
    have hrest : Decidable (∀ s', s.asmStep atom rest = some s' →
        Meets rest (sc.step atom) (assigned ++ ((s.written atom).filter Prod.snd).map Prod.fst)
          { s' with patom := some atom }) :=
      match hstep : s.asmStep atom rest with
      | none => .isTrue fun _ h => by cases h
      | some s' =>
        have := decidableMeets rest (sc.step atom)
          (assigned ++ ((s.written atom).filter Prod.snd).map Prod.fst)
          { s' with patom := some atom }
        decidable_of_iff _ ⟨fun h s'' heq => Option.some.inj heq ▸ h, fun h => h s' rfl⟩
    inferInstanceAs (Decidable (_ ∧ _))

/-- What one atom has to do with expressions and numbers alone: a closing bracket keeps apart, and a
number is not negative as a `long`. -/
def StepPlain (s : AsmState) (sc : Scan) : Atom → Prop
  | .numeric x => 0 ≤ x
  | .close => s.ExpressionApart sc (s.written .close)
  | .closeIndex => s.ExpressionApart sc (s.written .closeIndex)
  | _ => True

/-- The same of every atom of a text. -/
def Plain : List Atom → Scan → AsmState → Prop
  | [], _, _ => True
  | atom :: rest, sc, s =>
    s.StepPlain sc atom ∧ ∀ s', s.asmStep atom rest = some s' →
      Plain rest (sc.step atom) { s' with patom := some atom }

end AsmState

/-! ### What the operations keep -/

namespace Vars

/-- `v'` comes from `v` by writing at most the symbols of `written`, and the assigned ones and no
others are defined in addition. -/
structure Keeps (v v' : Vars) (written : List (Name × Bool)) : Prop where
  value : ∀ name, name ∉ written.map Prod.fst → v'.value name = v.value name
  defined : ∀ name, v'.defined name = true ↔ v.defined name = true ∨ (name, true) ∈ written
  errors : v'.errors = [] → v.errors = []

variable {v v' v'' : Vars} {written written' : List (Name × Bool)} {name : Name}

theorem Keeps.of_eq (hvalue : v'.value = v.value) (hdefined : v'.defined = v.defined)
    (herrors : v'.errors = [] → v.errors = []) : Keeps v v' [] where
  value _ _ := by rw [hvalue]
  defined _ := by simp [hdefined]
  errors := herrors

theorem Keeps.trans (h : Keeps v v' written) (h' : Keeps v' v'' written') :
    Keeps v v'' (written ++ written') where
  value name hname := by
    rw [List.map_append, List.mem_append, not_or] at hname
    rw [h'.value name hname.2, h.value name hname.1]
  defined name := by rw [h'.defined, h.defined, List.mem_append, or_assoc]
  errors herr := h.errors (h'.errors herr)

theorem error_errors {e : AsmError} (h : v.error e = some v') : v'.errors ≠ [] := by
  unfold error at h
  split at h
  · cases h
  · cases h
    simp

theorem keeps_error {e : AsmError} (h : v.error e = some v') : Keeps v v' [] := by
  have hne := error_errors h
  unfold error at h
  split at h
  · cases h
  · cases h
    exact .of_eq rfl rfl fun herr => absurd herr hne

theorem keeps_getSymbol (h : v.getSymbol name = some v') : Keeps v v' [] := by
  unfold getSymbol at h
  split at h
  · cases h
    exact .of_eq rfl rfl id
  · split at h
    · cases h
    · cases h
      exact .of_eq rfl rfl id

theorem keeps_pushOperand {operand : Operand} (h : v.pushOperand operand = some v') :
    Keeps v v' [] := by
  unfold pushOperand at h
  split at h
  · cases h
    exact .of_eq rfl rfl id
  · cases h

theorem keeps_pushOperator {opr : OprId} (h : v.pushOperator opr = some v') : Keeps v v' [] := by
  unfold pushOperator at h
  split at h
  · cases h
    exact .of_eq rfl rfl id
  · cases h

theorem keeps_popOperand {r : Option Operand × Vars} (h : v.popOperand = some r) :
    Keeps v r.2 [] := by
  unfold popOperand at h
  split at h
  · cases h
    exact .of_eq rfl rfl id
  · obtain ⟨w, hw, rfl⟩ := Option.map_eq_some_iff.mp h
    exact keeps_error hw

theorem keeps_setValue (v : Vars) (name : Name) (x : ℤ) :
    Keeps v (v.setValue name x) [(name, false)] where
  value n hn := update_of_ne (by simpa using hn) _ _
  defined n := by simp [setValue]
  errors := id

theorem keeps_define (v : Vars) (name : Name) (x : ℤ) :
    Keeps v (v.define name x) [(name, true)] where
  value n hn := update_of_ne (by simpa using hn) _ _
  defined n := by
    show update v.defined name true n = true ↔ _
    by_cases hn : n = name
    · simp [hn]
    · simp [hn]
  errors := id

/-- The symbols an outcome writes. -/
def outcomeWrites : Outcome → List (Name × Bool)
  | .done _ => []
  | .again written => written

theorem keeps_withOne {k : Operand → Vars → Option (Outcome × Vars)} {r : Outcome × Vars}
    (h : v.withOne k = some r)
    (hk : ∀ operand w, k operand w = some r → Keeps w r.2 (outcomeWrites r.1)) :
    Keeps v r.2 (outcomeWrites r.1) := by
  unfold withOne at h
  obtain ⟨⟨operand, w⟩, hpop, h⟩ := Option.bind_eq_some_iff.mp h
  have hkeep := keeps_popOperand hpop
  cases operand with
  | none =>
    cases h
    exact hkeep
  | some operand => simpa using hkeep.trans (hk operand w h)

theorem keeps_withTwo {k : Operand → Operand → Vars → Option (Outcome × Vars)}
    {r : Outcome × Vars} (h : v.withTwo k = some r)
    (hk : ∀ left right w, k left right w = some r → Keeps w r.2 (outcomeWrites r.1)) :
    Keeps v r.2 (outcomeWrites r.1) := by
  unfold withTwo at h
  obtain ⟨⟨right, w⟩, hpop, h⟩ := Option.bind_eq_some_iff.mp h
  have hkeep := keeps_popOperand hpop
  cases right with
  | none =>
    cases h
    exact hkeep
  | some right =>
    obtain ⟨⟨left, w'⟩, hpop', h⟩ := Option.bind_eq_some_iff.mp h
    have hkeep' := hkeep.trans (keeps_popOperand hpop')
    cases left with
    | none =>
      cases h
      exact hkeep'
    | some left => simpa using hkeep'.trans (hk left right w' h)

theorem keeps_applyOperator {opr : OprId} {r : Outcome × Vars}
    (h : v.applyOperator opr = some r) : Keeps v r.2 (outcomeWrites r.1) := by
  unfold applyOperator at h
  split at h
  · -- two values give a third one
    refine keeps_withTwo h fun left right w hk => ?_
    obtain ⟨x, -, hk⟩ := Option.bind_eq_some_iff.mp hk
    obtain ⟨w', hpush, hk⟩ := Option.bind_eq_some_iff.mp hk
    cases hk
    exact keeps_pushOperand hpush
  · refine keeps_withOne h fun left w hk => ?_
    obtain ⟨w', hpush, hk⟩ := Option.bind_eq_some_iff.mp hk
    cases hk
    exact keeps_pushOperand hpush
  · -- a symbol is counted up or down
    refine keeps_withOne h fun left w hk => ?_
    cases href : left.symbolRef with
    | none =>
      rw [href] at hk
      obtain ⟨w', herr, rfl⟩ := Option.map_eq_some_iff.mp hk
      exact keeps_error herr
    | some name =>
      rw [href] at hk
      obtain ⟨w', hpush, hk⟩ := Option.bind_eq_some_iff.mp hk
      cases hk
      exact (keeps_setValue _ _ _).trans (keeps_pushOperand hpush)
  · split at h
    · refine keeps_withOne h fun right w hk => ?_
      cases hk
      exact .of_eq rfl rfl id
    · -- a symbol is assigned
      refine keeps_withTwo h fun left right w hk => ?_
      cases href : left.symbolRef with
      | none =>
        rw [href] at hk
        obtain ⟨w', herr, rfl⟩ := Option.map_eq_some_iff.mp hk
        exact keeps_error herr
      | some name =>
        rw [href] at hk
        obtain ⟨w', hpush, hk⟩ := Option.bind_eq_some_iff.mp hk
        cases hk
        exact (keeps_define _ _ _).trans (keeps_pushOperand hpush)
    · cases h
      exact .of_eq rfl rfl id
    · cases h
      exact .of_eq rfl rfl id

theorem keeps_doExpression {n : ℕ} {r : ℤ × List (Name × Bool) × Vars}
    (h : v.doExpression n = some r) : Keeps v r.2.2 r.2.1 := by
  induction n generalizing v r with
  | zero =>
    obtain ⟨w, herr, rfl⟩ := Option.map_eq_some_iff.mp h
    exact keeps_error herr
  | succ n ih =>
    rw [doExpression] at h
    obtain ⟨⟨outcome, w⟩, happly, h⟩ := Option.bind_eq_some_iff.mp h
    have hpop : Keeps v { v with operatorStackSize := n } [] := .of_eq rfl rfl id
    have hkeep := hpop.trans (keeps_applyOperator happly)
    cases outcome with
    | done x =>
      cases h
      exact hkeep
    | again written =>
      obtain ⟨rest, hrest, h⟩ := Option.bind_eq_some_iff.mp h
      cases h
      exact hkeep.trans (ih hrest)

end Vars

/-! ### The invariant of the walk -/

/-- What the state of the assembler has to do with the text so far. -/
structure Inv (s : AsmState) (sc : Scan) (assigned : List Name) : Prop where
  prev : sc.prev = s.patom
  count : sc.count = s.index
  lit : sc.wantsLit = s.expectLit
  pc : s.pc = s.loadAddress + s.index
  inst : 0 < s.index → s.inst + 1 = s.index
  lit_pos : s.expectLit = true → 0 < s.index ∧ s.expectSr1 = false
  label_value : ∀ l ∈ sc.labels, s.vars.value l.1 = s.loadAddress + l.2
  defined_iff : ∀ name, s.vars.defined name = true ↔ name ∈ sc.labelNames ∨ name ∈ assigned
  label_once : sc.labelNames.Nodup
  operand_lt : ∀ o ∈ sc.operands, o.1 < s.index
  operand_once : ∀ o ∈ sc.operands, ∀ o' ∈ sc.operands, o.1 = o'.1 → o = o'
  operand_last : ∀ o ∈ sc.operands, o.1 + 1 = s.index →
    s.expectLit = false ∧ s.expectSr1 = false
  forward_mem : ∀ f ∈ s.forward, f ∈ sc.operands
  operand_taken : ∀ o ∈ sc.operands, o ∉ s.forward →
    (s.program o.1).src1 = s.vars.value o.2 ∧ s.vars.value o.2 ≠ 0

namespace Inv

variable {s s' : AsmState} {sc sc' : Scan} {assigned assigned' : List Name}

theorem start (illegal : Bool) : Inv (AsmState.start illegal) Scan.start [] where
  prev := rfl
  count := rfl
  lit := rfl
  pc := rfl
  inst h := absurd h (Nat.lt_irrefl 0)
  lit_pos h := absurd h Bool.false_ne_true
  label_value _ h := absurd h List.not_mem_nil
  defined_iff name := ⟨fun h => absurd h Bool.false_ne_true, fun h => by
    obtain h | h := h
    · exact absurd h List.not_mem_nil
    · exact absurd h List.not_mem_nil⟩
  label_once := List.nodup_nil
  operand_lt _ h := absurd h List.not_mem_nil
  operand_once _ h := absurd h List.not_mem_nil
  operand_last _ h := absurd h List.not_mem_nil
  forward_mem _ h := absurd h List.not_mem_nil
  operand_taken _ h := absurd h List.not_mem_nil

theorem of_keeps (h : Inv s sc assigned) {written : List (Name × Bool)}
    (hvars : s.vars.Keeps s'.vars written)
    (hwritten : ∀ w ∈ written, w.1 ∉ sc.labelNames ∧
      ∀ o ∈ sc.operands, o.2 = w.1 → o ∈ s.forward)
    (hprogram : ∀ o ∈ sc.operands, o ∉ s.forward →
      (s'.program o.1).src1 = (s.program o.1).src1)
    (hforward : s'.forward = s.forward)
    (hplace : s'.index = s.index ∧ s'.inst = s.inst ∧ s'.pc = s.pc ∧
      s'.loadAddress = s.loadAddress)
    (hlit : s'.expectLit = true → s.expectLit = true)
    (hsr1 : s'.expectSr1 = true → s.expectSr1 = true)
    (hsame : sc'.labels = sc.labels ∧ sc'.operands = sc.operands ∧ sc'.count = sc.count)
    (hscan : sc'.wantsLit = s'.expectLit ∧ sc'.prev = s'.patom)
    (hassigned : ∀ name, name ∈ assigned' ↔ name ∈ assigned ∨ (name, true) ∈ written) :
    Inv s' sc' assigned' := by
  obtain ⟨hindex, hinst, hpc, hload⟩ := hplace
  obtain ⟨hlabels, hoperands, hcount⟩ := hsame
  have hnames : sc'.labelNames = sc.labelNames := by rw [Scan.labelNames, hlabels, Scan.labelNames]
  -- the value of a label or of a symbol in use is not written
  have hkept : ∀ name, (name ∈ sc.labelNames ∨ ∃ o ∈ sc.operands, o.2 = name ∧ o ∉ s.forward) →
      s'.vars.value name = s.vars.value name := by
    intro name hname
    refine hvars.value name fun hmem => ?_
    obtain ⟨w, hw, rfl⟩ := List.mem_map.mp hmem
    obtain ⟨hlabel, huse⟩ := hwritten w hw
    obtain hname | ⟨o, ho, heq, hnot⟩ := hname
    · exact hlabel hname
    · exact hnot (huse o ho heq)
  refine
    { prev := hscan.2
      count := by rw [hcount, hindex, h.count]
      lit := hscan.1
      pc := by rw [hpc, hload, hindex, h.pc]
      inst := by rw [hindex, hinst]; exact h.inst
      lit_pos := fun hl => ?_
      label_value := fun l hl => ?_
      defined_iff := fun name => ?_
      label_once := by rw [hnames]; exact h.label_once
      operand_lt := by rw [hoperands, hindex]; exact h.operand_lt
      operand_once := by rw [hoperands]; exact h.operand_once
      operand_last := fun o ho heq => ?_
      forward_mem := by rw [hforward, hoperands]; exact h.forward_mem
      operand_taken := fun o ho hnot => ?_ }
  · obtain ⟨hpos, hfalse⟩ := h.lit_pos (hlit hl)
    refine ⟨by rw [hindex]; exact hpos, ?_⟩
    by_contra hne
    rw [hsr1 (by simpa using hne)] at hfalse
    cases hfalse
  · rw [hlabels] at hl
    rw [hkept l.1 (.inl (List.mem_map_of_mem hl)), hload]
    exact h.label_value l hl
  · rw [hvars.defined, h.defined_iff, hnames, hassigned, or_assoc]
  · rw [hoperands] at ho
    rw [hindex] at heq
    obtain ⟨h1, h2⟩ := h.operand_last o ho heq
    constructor
    · by_contra hne
      rw [hlit (by simpa using hne)] at h1
      cases h1
    · by_contra hne
      rw [hsr1 (by simpa using hne)] at h2
      cases h2
  · rw [hoperands] at ho
    rw [hforward] at hnot
    obtain ⟨hsrc, hne⟩ := h.operand_taken o ho hnot
    have hvalue := hkept o.2 (.inr ⟨o, ho, rfl, hnot⟩)
    rw [hprogram o ho hnot, hvalue]
    exact ⟨hsrc, hne⟩

theorem ne_inst (h : Inv s sc assigned) {o : ℕ × Name} (ho : o ∈ sc.operands)
    (hexpect : s.expectLit = true ∨ s.expectSr1 = true) : o.1 ≠ s.inst := by
  intro heq
  have hlt := h.operand_lt o ho
  have hinst := h.inst (by omega)
  obtain ⟨h1, h2⟩ := h.operand_last o ho (by omega)
  rw [h1, h2] at hexpect
  simp at hexpect

theorem setSrc1_src1 {x : ℤ} {j : ℕ} (hne : j ≠ s.inst) :
    ((s.setSrc1 x).program j).src1 = (s.program j).src1 := by
  unfold AsmState.setSrc1
  dsimp only
  rw [update_of_ne hne]

theorem useRegister_frame (s : AsmState) (n : ℕ) :
    (s.useRegister n).vars = s.vars ∧ (s.useRegister n).forward = s.forward ∧
      ((s.useRegister n).index = s.index ∧ (s.useRegister n).inst = s.inst ∧
        (s.useRegister n).pc = s.pc ∧ (s.useRegister n).loadAddress = s.loadAddress) ∧
      (s.useRegister n).expectLit = s.expectLit ∧
      ((s.useRegister n).expectSr1 = true → s.expectSr1 = true) := by
  unfold AsmState.useRegister
  split
  · exact ⟨rfl, rfl, ⟨rfl, rfl, rfl, rfl⟩, rfl, fun h => absurd h Bool.false_ne_true⟩
  · split
    · exact ⟨rfl, rfl, ⟨rfl, rfl, rfl, rfl⟩, rfl, id⟩
    · split
      · exact ⟨rfl, rfl, ⟨rfl, rfl, rfl, rfl⟩, rfl, id⟩
      · exact ⟨rfl, rfl, ⟨rfl, rfl, rfl, rfl⟩, rfl, id⟩

theorem useRegister_src1 (s : AsmState) (n : ℕ) {j : ℕ} (h : s.expectSr1 = true → j ≠ s.inst) :
    ((s.useRegister n).program j).src1 = (s.program j).src1 := by
  unfold AsmState.useRegister
  split
  · rename_i hsr1
    exact setSrc1_src1 (h hsr1)
  · -- the other two registers are in other fields
    have hother : ∀ i : Instruction, i.src1 = (s.program s.inst).src1 →
        (update s.program s.inst i j).src1 = (s.program j).src1 := by
      intro i hi
      by_cases hj : j = s.inst
      · rw [hj, update_self, hi]
      · rw [update_of_ne hj]
    split
    · exact hother _ rfl
    · split
      · exact hother _ rfl
      · rfl

theorem step_numeric (h : Inv s sc assigned) {x : ℤ} {rest : List Atom}
    (hstep : s.asmStep (.numeric x) rest = some s') :
    Inv { s' with patom := some (.numeric x) } (sc.step (.numeric x)) assigned := by
  unfold AsmState.asmStep at hstep
  dsimp only at hstep
  split at hstep
  · rename_i hlit
    cases hstep
    exact h.of_keeps (.of_eq rfl rfl id) (fun w hw => absurd hw List.not_mem_nil)
      (fun o ho _ => setSrc1_src1 (h.ne_inst ho (.inl hlit))) rfl ⟨rfl, rfl, rfl, rfl⟩
      (fun hfalse => absurd hfalse Bool.false_ne_true) id ⟨rfl, rfl, rfl⟩ ⟨rfl, rfl⟩ fun _ => by simp
  · rename_i hlit
    obtain ⟨v, hpush, rfl⟩ := Option.map_eq_some_iff.mp hstep
    exact h.of_keeps (Vars.keeps_pushOperand hpush) (fun w hw => absurd hw List.not_mem_nil)
      (fun _ _ _ => rfl) rfl ⟨rfl, rfl, rfl, rfl⟩ id id ⟨rfl, rfl, rfl⟩
      ⟨(Bool.not_eq_true _).mp hlit ▸ rfl, rfl⟩ fun _ => by simp

theorem step_operator (h : Inv s sc assigned) {opr : OprId} (hopr : opr ≠ .LBL)
    {rest : List Atom} (hstep : s.asmStep (.operator opr) rest = some s') :
    Inv { s' with patom := some (.operator opr) } (sc.step (.operator opr)) assigned := by
  have hmap : (s.vars.pushOperator opr).map (fun v => { s with vars := v }) = some s' := by
    cases opr <;> first | exact hstep | exact absurd rfl hopr
  have hsc : sc.step (.operator opr) = { sc with prev := some (.operator opr) } := by
    cases opr <;> first | rfl | exact absurd rfl hopr
  obtain ⟨v, hpush, rfl⟩ := Option.map_eq_some_iff.mp hmap
  rw [hsc]
  exact h.of_keeps (Vars.keeps_pushOperator hpush) (fun w hw => absurd hw List.not_mem_nil)
    (fun _ _ _ => rfl) rfl ⟨rfl, rfl, rfl, rfl⟩ id id ⟨rfl, rfl, rfl⟩ ⟨h.lit, rfl⟩ fun _ => by simp

theorem step_register (h : Inv s sc assigned) {n : ℕ} {rest : List Atom}
    (hstep : s.asmStep (.register n) rest = some s') :
    Inv { s' with patom := some (.register n) } (sc.step (.register n)) assigned := by
  cases hstep
  obtain ⟨hvars, hforward, hplace, hlit, hsr1⟩ := useRegister_frame s n
  refine h.of_keeps (.of_eq (by rw [hvars]) (by rw [hvars]) (by rw [hvars]; exact id))
    (fun w hw => absurd hw List.not_mem_nil) (fun o ho _ => ?_) hforward hplace
    (by rw [hlit]; exact id) hsr1 ⟨rfl, rfl, rfl⟩ ⟨by rw [hlit]; exact h.lit, rfl⟩
    fun _ => by simp
  exact useRegister_src1 s n fun hexpect => h.ne_inst ho (.inr hexpect)

theorem step_opens (h : Inv s sc assigned) {atom : Atom}
    (hatom : sc.step atom = { sc with prev := some atom, wantsLit := false })
    (hstep : s.openExpression = some s') :
    Inv { s' with patom := some atom } (sc.step atom) assigned := by
  obtain ⟨v, hpush, rfl⟩ := Option.map_eq_some_iff.mp hstep
  rw [hatom]
  exact h.of_keeps (Vars.keeps_pushOperator hpush) (fun w hw => absurd hw List.not_mem_nil)
    (fun _ _ _ => rfl) rfl ⟨rfl, rfl, rfl, rfl⟩ (fun hfalse => absurd hfalse Bool.false_ne_true) id
    ⟨rfl, rfl, rfl⟩ ⟨rfl, rfl⟩ fun _ => by simp

theorem written_close {r : ℤ × List (Name × Bool) × Vars}
    (hr : s.vars.doExpression s.vars.operatorStackSize = some r) : s.written .close = r.2.1 := by
  unfold AsmState.written
  rw [hr]
  rfl

theorem step_close (h : Inv s sc assigned) {atom : Atom}
    (hatom : sc.step atom = { sc with prev := some atom, wantsLit := false })
    (hwritten : s.written atom = s.written .close)
    (hmeets : s.ExpressionApart sc (s.written .close)) (hstep : s.closeExpression = some s') :
    Inv { s' with patom := some atom } (sc.step atom)
      (assigned ++ ((s.written atom).filter Prod.snd).map Prod.fst) := by
  obtain ⟨r, hr, hstep⟩ := Option.bind_eq_some_iff.mp hstep
  have hlist := written_close hr
  cases hstep
  rw [hatom, hwritten, hlist]
  rw [hlist] at hmeets
  refine h.of_keeps (Vars.keeps_doExpression hr) hmeets.2 (fun o ho hnot => ?_) rfl
    ⟨rfl, rfl, rfl, rfl⟩ (fun hfalse => absurd hfalse Bool.false_ne_true) id ⟨rfl, rfl, rfl⟩
    ⟨rfl, rfl⟩ fun name => ?_
  · exact setSrc1_src1 (s := { s with vars := r.2.2 }) fun heq => hnot (hmeets.1 o ho heq)
  · simp [List.mem_append, List.mem_map, List.mem_filter]

theorem step_seperator (h : Inv s sc assigned) {rest : List Atom}
    (hstep : s.asmStep .seperator rest = some s') (herr : s'.vars.errors = []) :
    Inv { s' with patom := some .seperator } (sc.step .seperator) assigned := by
  have hend : s.endLine = some s' := hstep
  unfold AsmState.endLine at hend
  dsimp only at hend
  split at hend
  · -- an error was reported
    obtain ⟨w, hw, rfl⟩ := Option.map_eq_some_iff.mp hend
    obtain ⟨v, hv, rfl⟩ := Option.map_eq_some_iff.mp hw
    exact absurd herr (Vars.error_errors hv)
  · rename_i hlit
    cases hend
    exact h.of_keeps (.of_eq rfl rfl id) (fun w hw => absurd hw List.not_mem_nil)
      (fun _ _ _ => rfl) rfl ⟨rfl, rfl, rfl, rfl⟩ id id ⟨rfl, rfl, rfl⟩
      ⟨(Bool.not_eq_true _).mp hlit ▸ rfl, rfl⟩ fun _ => by simp

theorem useSymbol_ok {name : Name} (hstep : s.useSymbol name = some s') :
    s' = { s.setSrc1 (s.vars.value name) with
      expectLit := false
      forward := if s.vars.value name = 0 then s.forward ++ [(s.inst, name)] else s.forward } := by
  unfold AsmState.useSymbol at hstep
  dsimp only at hstep
  split at hstep
  · rename_i hzero
    split at hstep
    · cases hstep
    · cases hstep
      rw [if_pos hzero]
      rfl
  · rename_i hne
    cases hstep
    rw [if_neg hne]
    rfl

theorem of_useSymbol (h : Inv s sc assigned) (hlit : s.expectLit = true) {name : Name}
    (hstep : s.useSymbol name = some s') :
    Inv { s' with patom := some (.alpha name) } (sc.step (.alpha name)) assigned := by
  obtain ⟨hpos, hsr1⟩ := h.lit_pos hlit
  have hinst := h.inst hpos
  have hwants : sc.wantsLit = true := h.lit.trans hlit
  have hnew : sc.count - 1 = s.inst := by
    rw [h.count]
    omega
  have hop : (sc.step (.alpha name)).operands = sc.operands ++ [(s.inst, name)] := by
    show (if sc.wantsLit then sc.operands ++ [(sc.count - 1, name)] else sc.operands) = _
    rw [if_pos hwants, hnew]
  have hold : ∀ o ∈ sc.operands, o.1 ≠ s.inst := fun o ho => h.ne_inst ho (.inl hlit)
  have hfw : ∀ o, o ∈ s.forward → o ∈ (if s.vars.value name = 0 then
      s.forward ++ [(s.inst, name)] else s.forward) := by
    intro o ho
    split
    · exact List.mem_append_left _ ho
    · exact ho
  rw [useSymbol_ok hstep]
  refine
    { prev := rfl
      count := h.count
      lit := rfl
      pc := h.pc
      inst := h.inst
      lit_pos := fun hfalse => absurd hfalse Bool.false_ne_true
      label_value := h.label_value
      defined_iff := h.defined_iff
      label_once := h.label_once
      operand_lt := fun o ho => ?_
      operand_once := fun o ho o' ho' heq => ?_
      operand_last := fun _ _ _ => ⟨rfl, hsr1⟩
      forward_mem := fun f hf => ?_
      operand_taken := fun o ho hnot => ?_ }
  · rw [hop, List.mem_append, List.mem_singleton] at ho
    obtain ho | rfl := ho
    · exact h.operand_lt o ho
    · show s.inst < s.index
      omega
  · rw [hop, List.mem_append, List.mem_singleton] at ho ho'
    obtain ho | rfl := ho <;> obtain ho' | rfl := ho'
    · exact h.operand_once o ho o' ho' heq
    · exact absurd heq (hold o ho)
    · exact absurd heq.symm (hold o' ho')
    · rfl
  · rw [hop, List.mem_append, List.mem_singleton]
    dsimp only at hf
    split at hf
    · obtain hf | hf := List.mem_append.mp hf
      · exact .inl (h.forward_mem f hf)
      · exact .inr (List.mem_singleton.mp hf)
    · exact .inl (h.forward_mem f hf)
  · rw [hop, List.mem_append, List.mem_singleton] at ho
    dsimp only at hnot ⊢
    obtain ho | rfl := ho
    · rw [setSrc1_src1 (hold o ho)]
      exact h.operand_taken o ho fun hmem => hnot (hfw o hmem)
    · have hne : s.vars.value name ≠ 0 := by
        intro hzero
        rw [if_pos hzero] at hnot
        exact hnot (List.mem_append_right _ (List.mem_singleton.mpr rfl))
      refine ⟨?_, hne⟩
      show (update s.program s.inst { s.program s.inst with src1 := s.vars.value name }
        s.inst).src1 = _
      rw [update_self]
      rfl

theorem step_alpha (h : Inv s sc assigned) {name : Name} {rest : List Atom}
    (hstep : s.asmStep (.alpha name) rest = some s') :
    Inv { s' with patom := some (.alpha name) } (sc.step (.alpha name)) assigned := by
  obtain ⟨v, hsymbol, hstep⟩ := Option.bind_eq_some_iff.mp hstep
  have hkeep := Vars.keeps_getSymbol hsymbol
  dsimp only at hstep
  split at hstep
  · rename_i hlit
    have hsame : Inv { s with vars := v } sc assigned :=
      h.of_keeps hkeep (fun w hw => absurd hw List.not_mem_nil) (fun _ _ _ => rfl) rfl
        ⟨rfl, rfl, rfl, rfl⟩ id id ⟨rfl, rfl, rfl⟩ ⟨h.lit, h.prev⟩ fun _ => by simp
    exact hsame.of_useSymbol hlit hstep
  · rename_i hlit
    obtain ⟨v', hpush, rfl⟩ := Option.map_eq_some_iff.mp hstep
    have hwants : sc.wantsLit = false := h.lit.trans ((Bool.not_eq_true _).mp hlit)
    have hop : (sc.step (.alpha name)).operands = sc.operands := by
      show (if sc.wantsLit then sc.operands ++ [(sc.count - 1, name)] else sc.operands) = _
      rw [hwants]
      rfl
    exact h.of_keeps (hkeep.trans (Vars.keeps_pushOperand hpush))
      (fun w hw => absurd hw List.not_mem_nil) (fun _ _ _ => rfl) rfl ⟨rfl, rfl, rfl, rfl⟩ id id
      ⟨rfl, hop, rfl⟩ ⟨((Bool.not_eq_true _).mp hlit).symm, rfl⟩ fun _ => by simp

theorem defineLabel_ok {name : Name} (hstep : s.defineLabel name = some s')
    (herr : s'.vars.errors = []) :
    s.vars.value name = 0 ∧ ∃ v, s.vars.Keeps v [] ∧ s' = { s with vars := v.define name s.pc } := by
  obtain ⟨v, hsymbol, hstep⟩ := Option.bind_eq_some_iff.mp hstep
  obtain ⟨v', hcheck, hstep⟩ := Option.bind_eq_some_iff.mp hstep
  have hkeep := Vars.keeps_getSymbol hsymbol
  cases hstep
  unfold Vars.checkNew at hcheck
  split at hcheck
  · have hne : v'.errors ≠ [] := Vars.error_errors hcheck
    exact absurd herr hne
  · rename_i hzero
    cases hcheck
    refine ⟨?_, v, hkeep, rfl⟩
    rw [← hkeep.value name List.not_mem_nil]
    exact not_not.mp hzero

theorem of_defineLabel (h : Inv s sc assigned) {name : Name}
    (hprev : sc.prev = some (.alpha name)) (hnew : name ∉ sc.labelNames)
    (hstep : s.defineLabel name = some s') (herr : s'.vars.errors = []) :
    Inv { s' with patom := some (.operator .LBL) } (sc.step (.operator .LBL)) assigned := by
  obtain ⟨hzero, v, hkeep, rfl⟩ := defineLabel_ok hstep herr
  have hdefine := hkeep.trans (Vars.keeps_define v name s.pc)
  have hvalue : ∀ n, n ≠ name → (v.define name s.pc).value n = s.vars.value n :=
    fun n hn => hdefine.value n (by simpa using hn)
  have hsc : sc.step (.operator .LBL) =
      { sc with prev := some (.operator .LBL), labels := sc.labels ++ [(name, sc.count)] } := by
    unfold Scan.step
    rw [hprev]
  rw [hsc]
  refine
    { prev := rfl
      count := h.count
      lit := h.lit
      pc := h.pc
      inst := h.inst
      lit_pos := h.lit_pos
      label_value := fun l hl => ?_
      defined_iff := fun n => ?_
      label_once := ?_
      operand_lt := h.operand_lt
      operand_once := h.operand_once
      operand_last := h.operand_last
      forward_mem := h.forward_mem
      operand_taken := fun o ho hnot => ?_ }
  · obtain hl | hl := List.mem_append.mp hl
    · have hne : l.1 ≠ name := fun heq => hnew (heq ▸ List.mem_map_of_mem hl)
      show (v.define name s.pc).value l.1 = s.loadAddress + l.2
      rw [hvalue l.1 hne]
      exact h.label_value l hl
    · obtain rfl := List.mem_singleton.mp hl
      show update v.value name s.pc name = s.loadAddress + sc.count
      rw [update_self, h.count, h.pc]
  · rw [hdefine.defined, h.defined_iff, Scan.labelNames, Scan.labelNames, List.map_append,
      List.mem_append]
    simp only [List.mem_append, List.not_mem_nil, false_or, List.mem_singleton, Prod.mk.injEq,
      and_true, List.map_cons, List.map_nil]
    tauto
  · rw [Scan.labelNames, List.map_append]
    exact List.nodup_append.mpr ⟨h.label_once, List.nodup_singleton _, fun a ha b hb heq => by
      obtain rfl : b = name := by simpa using hb
      exact hnew (heq ▸ ha)⟩
  · obtain ⟨hsrc, hne⟩ := h.operand_taken o ho hnot
    have hother : o.2 ≠ name := fun heq => hne (heq ▸ hzero)
    show (s.program o.1).src1 = (v.define name s.pc).value o.2 ∧ (v.define name s.pc).value o.2 ≠ 0
    rw [hvalue o.2 hother]
    exact ⟨hsrc, hne⟩

theorem of_startAddress (h : Inv s sc assigned) {x : ℤ} (hprev : sc.prev = some (.numeric x))
    (hcount : sc.count = 0) (hfirst : x = 0 ∨ sc.labels = [])
    (hstep : s.startAddress x = some s') (herr : s'.vars.errors = []) :
    Inv { s' with patom := some (.operator .LBL) } (sc.step (.operator .LBL)) assigned := by
  have hindex : s.index = 0 := h.count.symm.trans hcount
  unfold AsmState.startAddress at hstep
  split at hstep
  · rename_i hpc
    cases hstep
    have hload : s.loadAddress = 0 := by
      have := h.pc
      rw [hpc, hindex] at this
      simpa using this.symm
    have hsc : sc.step (.operator .LBL) = { sc with prev := some (.operator .LBL) } := by
      unfold Scan.step
      rw [hprev]
    rw [hsc]
    refine { h with
      prev := rfl
      pc := by simp [hindex]
      label_value := fun l hl => ?_ }
    obtain rfl | hnone := hfirst
    · show s.vars.value l.1 = 0 + l.2
      rw [← hload]
      exact h.label_value l hl
    · rw [hnone] at hl
      exact absurd hl List.not_mem_nil
  · obtain ⟨v, hv, rfl⟩ := Option.map_eq_some_iff.mp hstep
    exact absurd herr (Vars.error_errors hv)

theorem getConfirm_ok {op : OpCode} {atoms : List Atom} (h : s.getConfirm op atoms = some s')
    (herr : s'.vars.errors = []) :
    s' = { s with
      expectLit := takesLiteral op
      expectSr1 := op.src1 = .register
      expectSr2 := op.src2 = .register
      expectDst := op.dest = .register } := by
  unfold AsmState.getConfirm at h
  dsimp only at h
  split at h
  · cases h
    rfl
  · obtain ⟨v, hv, rfl⟩ := Option.map_eq_some_iff.mp h
    exact absurd herr (Vars.error_errors hv)

theorem step_opCode (h : Inv s sc assigned) {i : ℕ} {rest : List Atom}
    (hstep : s.asmStep (.opCode i) rest = some s') (herr : s'.vars.errors = []) :
    Inv { s' with patom := some (.opCode i) } (sc.step (.opCode i)) assigned := by
  obtain ⟨s1, hconfirm, hstep⟩ := Option.bind_eq_some_iff.mp hstep
  cases hstep
  rw [getConfirm_ok hconfirm herr]
  have hold : ∀ o ∈ sc.operands, o.1 ≠ s.index := fun o ho => (h.operand_lt o ho).ne
  refine
    { prev := rfl
      count := by
        show sc.count + 1 = s.index + 1
        rw [h.count]
      lit := rfl
      pc := by
        show s.pc + 1 = s.loadAddress + ((s.index + 1 : ℕ) : ℤ)
        rw [h.pc]
        push_cast
        ring
      inst := fun _ => rfl
      lit_pos := fun hlit => ⟨Nat.succ_pos _, ?_⟩
      label_value := h.label_value
      defined_iff := h.defined_iff
      label_once := h.label_once
      operand_lt := fun o ho => (h.operand_lt o ho).trans (Nat.lt_succ_self _)
      operand_once := h.operand_once
      operand_last := fun o ho heq => absurd (Nat.succ.inj heq) (hold o ho)
      forward_mem := h.forward_mem
      operand_taken := fun o ho hnot => ?_ }
  · have hop : takesLiteral (opCodeAt i) = true := hlit
    unfold takesLiteral at hop
    show decide ((opCodeAt i).src1 = .register) = false
    cases hsrc : (opCodeAt i).src1 <;> rw [hsrc] at hop <;> first | rfl | cases hop
  · dsimp only
    rw [update_of_ne (hold o ho), update_of_ne (hold o ho)]
    exact h.operand_taken o ho hnot

theorem step (h : Inv s sc assigned) {atom : Atom} {rest : List Atom}
    (hmeets : s.StepMeets sc atom) (hstep : s.asmStep atom rest = some s')
    (herr : s'.vars.errors = []) :
    Inv { s' with patom := some atom } (sc.step atom)
      (assigned ++ ((s.written atom).filter Prod.snd).map Prod.fst) := by
  have hnil : ∀ a, s.written a = [] →
      assigned ++ ((s.written a).filter Prod.snd).map Prod.fst = assigned := by
    intro a ha
    rw [ha, List.filter_nil, List.map_nil, List.append_nil]
  -- the atoms that the assembler passes over
  have hskip : ∀ a, s.written a = [] → sc.step a = { sc with prev := some a } →
      some s = some s' → Inv { s' with patom := some a } (sc.step a)
        (assigned ++ ((s.written a).filter Prod.snd).map Prod.fst) := by
    intro a ha hsc heq
    cases heq
    rw [hnil a ha, hsc]
    exact { h with prev := rfl }
  cases atom with
  | numeric x => rw [hnil _ rfl]; exact h.step_numeric hstep
  | alpha name => rw [hnil _ rfl]; exact h.step_alpha hstep
  | operator opr =>
    by_cases hopr : opr = .LBL
    · subst hopr
      have hprev := h.prev
      cases hp : s.patom with
      | none =>
        unfold AsmState.asmStep at hstep
        rw [hp] at hstep
        cases hstep
      | some a =>
        rw [hp] at hprev
        unfold AsmState.asmStep at hstep
        unfold AsmState.StepMeets at hmeets
        rw [hp] at hstep
        rw [hprev] at hmeets
        cases a with
        | alpha name =>
          rw [hnil _ rfl]
          exact h.of_defineLabel hprev hmeets hstep herr
        | numeric x =>
          rw [hnil _ rfl]
          exact h.of_startAddress hprev hmeets.1 hmeets.2 hstep herr
        | _ => exact hskip _ rfl (by unfold Scan.step; rw [hprev]) hstep
    · rw [hnil _ rfl]
      exact h.step_operator hopr hstep
  | opCode i => rw [hnil _ rfl]; exact h.step_opCode hstep herr
  | register n => rw [hnil _ rfl]; exact h.step_register hstep
  | seperator => rw [hnil _ rfl]; exact h.step_seperator hstep herr
  | opens => rw [hnil _ rfl]; exact h.step_opens rfl hstep
  | openIndex => rw [hnil _ rfl]; exact h.step_opens rfl hstep
  | close => exact h.step_close rfl rfl hmeets hstep
  | closeIndex => exact h.step_close rfl rfl hmeets hstep
  | comment => exact hskip _ rfl rfl hstep
  | bit => exact hskip _ rfl rfl hstep

end Inv

/-! ### The whole text -/

section Text

variable {s s' : AsmState}

/-- What a step leaves alone: only an expression and a label write symbols, and only a start address
moves the load address, which it does at address zero. -/
structure Frame (s s' : AsmState) (atom : Atom) : Prop where
  vars : s.vars.Keeps s'.vars (s.written atom ++ s.labelled atom)
  load : s'.loadAddress = s.loadAddress ∧ s.pc ≤ s'.pc ∨
    s.pc = 0 ∧ ∃ x, s.patom = some (.numeric x) ∧ s'.loadAddress = x ∧ s'.pc = x

theorem frame_label (hstep : s.asmStep (.operator .LBL) [] = some s') :
    Frame s s' (.operator .LBL) := by
  unfold AsmState.asmStep at hstep
  dsimp only at hstep
  split at hstep
  · rename_i name hpatom
    obtain ⟨v, hsymbol, hstep⟩ := Option.bind_eq_some_iff.mp hstep
    obtain ⟨v', hcheck, hstep⟩ := Option.bind_eq_some_iff.mp hstep
    cases hstep
    have hkeep : v.Keeps v' [] := by
      unfold Vars.checkNew at hcheck
      split at hcheck
      · exact Vars.keeps_error hcheck
      · cases hcheck
        exact .of_eq rfl rfl id
    have hlabelled : s.labelled (.operator .LBL) = [(name, true)] := by
      unfold AsmState.labelled
      rw [hpatom]
    refine ⟨?_, .inl ⟨rfl, le_rfl⟩⟩
    rw [hlabelled]
    exact ((Vars.keeps_getSymbol hsymbol).trans hkeep).trans (Vars.keeps_define v' _ _)
  · rename_i x hpatom
    have hlabelled : s.labelled (.operator .LBL) = [] := by
      unfold AsmState.labelled
      rw [hpatom]
    unfold AsmState.startAddress at hstep
    split at hstep
    · rename_i hpc
      cases hstep
      refine ⟨?_, .inr ⟨hpc, x, hpatom, rfl, rfl⟩⟩
      rw [hlabelled]
      exact .of_eq rfl rfl id
    · obtain ⟨v, hv, rfl⟩ := Option.map_eq_some_iff.mp hstep
      refine ⟨?_, .inl ⟨rfl, le_rfl⟩⟩
      rw [hlabelled]
      exact Vars.keeps_error hv
  · rename_i a halpha hnumeric hpatom
    have hlabelled : s.labelled (.operator .LBL) = [] := by
      unfold AsmState.labelled
      rw [hpatom]
      cases a with
      | alpha name => exact absurd rfl (halpha name)
      | _ => rfl
    cases hstep
    refine ⟨?_, .inl ⟨rfl, le_rfl⟩⟩
    rw [hlabelled]
    exact .of_eq rfl rfl id
  · cases hstep

theorem frame_close {atom : Atom} (hwrites : s.written atom ++ s.labelled atom = s.written .close)
    (hstep : s.closeExpression = some s') : Frame s s' atom := by
  obtain ⟨r, hr, hstep⟩ := Option.bind_eq_some_iff.mp hstep
  cases hstep
  refine ⟨?_, .inl ⟨rfl, le_rfl⟩⟩
  rw [hwrites, Inv.written_close hr]
  exact Vars.keeps_doExpression hr

theorem asmStep_frame {atom : Atom} {rest : List Atom} (hstep : s.asmStep atom rest = some s') :
    Frame s s' atom := by
  cases atom with
  | numeric x =>
    unfold AsmState.asmStep at hstep
    dsimp only at hstep
    split at hstep
    · cases hstep
      exact ⟨.of_eq rfl rfl id, .inl ⟨rfl, le_rfl⟩⟩
    · obtain ⟨v, hpush, rfl⟩ := Option.map_eq_some_iff.mp hstep
      exact ⟨Vars.keeps_pushOperand hpush, .inl ⟨rfl, le_rfl⟩⟩
  | alpha name =>
    obtain ⟨v, hsymbol, hstep⟩ := Option.bind_eq_some_iff.mp hstep
    dsimp only at hstep
    split at hstep
    · rw [Inv.useSymbol_ok hstep]
      exact ⟨Vars.keeps_getSymbol hsymbol, .inl ⟨rfl, le_rfl⟩⟩
    · obtain ⟨v', hpush, rfl⟩ := Option.map_eq_some_iff.mp hstep
      exact ⟨(Vars.keeps_getSymbol hsymbol).trans (Vars.keeps_pushOperand hpush),
        .inl ⟨rfl, le_rfl⟩⟩
  | operator opr =>
    by_cases hopr : opr = .LBL
    · subst hopr
      exact frame_label hstep
    · have hmap : (s.vars.pushOperator opr).map (fun v => { s with vars := v }) = some s' := by
        cases opr <;> first | exact hstep | exact absurd rfl hopr
      have hlabelled : s.labelled (.operator opr) = [] := by
        cases opr <;> first | rfl | exact absurd rfl hopr
      obtain ⟨v, hpush, rfl⟩ := Option.map_eq_some_iff.mp hmap
      refine ⟨?_, .inl ⟨rfl, le_rfl⟩⟩
      rw [hlabelled]
      exact Vars.keeps_pushOperator hpush
  | opCode i =>
    obtain ⟨s1, hconfirm, hstep⟩ := Option.bind_eq_some_iff.mp hstep
    cases hstep
    unfold AsmState.getConfirm at hconfirm
    dsimp only at hconfirm
    have hnext : s.pc ≤ s.pc + 1 := by omega
    split at hconfirm
    · cases hconfirm
      exact ⟨.of_eq rfl rfl id, .inl ⟨rfl, hnext⟩⟩
    · obtain ⟨v, hv, rfl⟩ := Option.map_eq_some_iff.mp hconfirm
      exact ⟨Vars.keeps_error hv, .inl ⟨rfl, hnext⟩⟩
  | register n =>
    cases hstep
    obtain ⟨hvars, -, ⟨-, -, hpc, hload⟩, -⟩ := Inv.useRegister_frame s n
    refine ⟨?_, .inl ⟨hload, hpc.ge⟩⟩
    rw [hvars]
    exact .of_eq rfl rfl id
  | seperator =>
    have hend : s.endLine = some s' := hstep
    unfold AsmState.endLine at hend
    dsimp only at hend
    split at hend
    · obtain ⟨w, hw, rfl⟩ := Option.map_eq_some_iff.mp hend
      obtain ⟨v, hv, rfl⟩ := Option.map_eq_some_iff.mp hw
      have hreset : s.vars.Keeps s.vars.resetStacks [] := .of_eq rfl rfl id
      exact ⟨hreset.trans (Vars.keeps_error hv), .inl ⟨rfl, le_rfl⟩⟩
    · cases hend
      exact ⟨.of_eq rfl rfl id, .inl ⟨rfl, le_rfl⟩⟩
  | opens =>
    obtain ⟨v, hpush, rfl⟩ := Option.map_eq_some_iff.mp hstep
    exact ⟨Vars.keeps_pushOperator hpush, .inl ⟨rfl, le_rfl⟩⟩
  | openIndex =>
    obtain ⟨v, hpush, rfl⟩ := Option.map_eq_some_iff.mp hstep
    exact ⟨Vars.keeps_pushOperator hpush, .inl ⟨rfl, le_rfl⟩⟩
  | close => exact frame_close (List.append_nil _) hstep
  | closeIndex => exact frame_close (List.append_nil _) hstep
  | comment =>
    cases hstep
    exact ⟨.of_eq rfl rfl id, .inl ⟨rfl, le_rfl⟩⟩
  | bit =>
    cases hstep
    exact ⟨.of_eq rfl rfl id, .inl ⟨rfl, le_rfl⟩⟩

theorem walk_errors {atoms : List Atom} (hwalk : AsmState.walk atoms s = some s')
    (herr : s'.vars.errors = []) : s.vars.errors = [] := by
  induction atoms generalizing s with
  | nil =>
    cases hwalk
    exact herr
  | cons atom rest ih =>
    obtain ⟨s1, hstep, hwalk⟩ := Option.bind_eq_some_iff.mp hwalk
    have hrest := ih hwalk
    exact (asmStep_frame hstep).vars.errors hrest

theorem walk_inv {atoms : List Atom} {sc : Scan} {assigned : List Name}
    (h : Inv s sc assigned) (hmeets : AsmState.Meets atoms sc assigned s)
    (hwalk : AsmState.walk atoms s = some s') (herr : s'.vars.errors = []) :
    ∃ assigned', Inv s' (atoms.foldl Scan.step sc) assigned' ∧
      ∀ o ∈ (atoms.foldl Scan.step sc).operands,
        o.2 ∈ (atoms.foldl Scan.step sc).labelNames ∨ o.2 ∈ assigned' := by
  induction atoms generalizing s sc assigned with
  | nil =>
    cases hwalk
    exact ⟨assigned, h, hmeets⟩
  | cons atom rest ih =>
    obtain ⟨s1, hstep, hwalk⟩ := Option.bind_eq_some_iff.mp hwalk
    have herr1 := walk_errors hwalk herr
    exact ih (h.step hmeets.1 hstep herr1) (hmeets.2 s1 hstep) hwalk

/-- The patches of a list of references. -/
def patch (value : Name → ℤ) (forward : List (ℕ × Name)) (program : ℕ → Instruction) :
    ℕ → Instruction :=
  forward.foldl (fun program f => update program f.1 { program f.1 with src1 := value f.2 }) program

theorem patch_of_not_mem (value : Name → ℤ) {forward : List (ℕ × Name)}
    (program : ℕ → Instruction) {j : ℕ} (h : ∀ f ∈ forward, f.1 ≠ j) :
    patch value forward program j = program j := by
  induction forward generalizing program with
  | nil => rfl
  | cons f forward ih =>
    have hrest := ih (update program f.1 { program f.1 with src1 := value f.2 })
      fun f' hf' => h f' (List.mem_cons_of_mem _ hf')
    rw [update_of_ne (h f List.mem_cons_self).symm] at hrest
    exact hrest

theorem patch_of_mem {value : Name → ℤ} {forward : List (ℕ × Name)}
    {program : ℕ → Instruction} {o : ℕ × Name} (ho : o ∈ forward)
    (honce : ∀ f ∈ forward, f.1 = o.1 → f = o) :
    (patch value forward program o.1).src1 = value o.2 := by
  induction forward generalizing program with
  | nil => exact absurd ho List.not_mem_nil
  | cons f forward ih =>
    by_cases hmem : o ∈ forward
    · exact ih hmem fun f' hf' => honce f' (List.mem_cons_of_mem _ hf')
    · obtain rfl : o = f := (List.mem_cons.mp ho).resolve_right hmem
      have hrest := patch_of_not_mem value
        (update program o.1 { program o.1 with src1 := value o.2 })
        fun f' hf' heq => hmem (honce f' (List.mem_cons_of_mem _ hf') heq ▸ hf')
      rw [update_self] at hrest
      exact congrArg Instruction.src1 hrest

theorem Inv.resolved {sc : Scan} {assigned : List Name} (h : Inv s sc assigned)
    (hend : ∀ o ∈ sc.operands, o.2 ∈ sc.labelNames ∨ o.2 ∈ assigned) : Resolved sc s where
  label_value := h.label_value
  label_once := h.label_once
  operand_value o ho := by
    by_cases hmem : o ∈ s.forward
    · exact patch_of_mem hmem fun f hf heq => h.operand_once f (h.forward_mem f hf) o ho heq
    · have hnone : ∀ f ∈ s.forward, f.1 ≠ o.1 := fun f hf heq =>
        hmem (h.operand_once f (h.forward_mem f hf) o ho heq ▸ hf)
      have hsame : s.passTwo o.1 = s.program o.1 := patch_of_not_mem _ _ hnone
      rw [hsame]
      exact (h.operand_taken o ho hmem).1
  operand_defined o ho := by
    exact (h.defined_iff o.2).mpr (hend o ho)

/-! ### What a resolved text has met -/

theorem step_prev (sc : Scan) (atom : Atom) : (sc.step atom).prev = some atom := by
  unfold Scan.step
  split
  · rfl
  · split <;> rfl
  all_goals rfl

theorem step_labels (sc : Scan) (atom : Atom) : sc.labels <+: (sc.step atom).labels := by
  unfold Scan.step
  split
  · exact List.prefix_rfl
  · split
    · exact List.prefix_append _ _
    · exact List.prefix_rfl
  all_goals exact List.prefix_rfl

theorem foldl_labels (atoms : List Atom) (sc : Scan) :
    sc.labels <+: (atoms.foldl Scan.step sc).labels := by
  induction atoms generalizing sc with
  | nil => exact List.prefix_rfl
  | cons atom rest ih => exact (step_labels sc atom).trans (ih (sc.step atom))

theorem foldl_labelNames (atoms : List Atom) (sc : Scan) :
    sc.labelNames.Sublist (atoms.foldl Scan.step sc).labelNames :=
  (foldl_labels atoms sc).sublist.map Prod.fst

theorem label_new {sc : Scan} {name : Name} {rest : List Atom}
    (hprev : sc.prev = some (.alpha name))
    (honce : (rest.foldl Scan.step (sc.step (.operator .LBL))).labelNames.Nodup) :
    name ∉ sc.labelNames := by
  have hnodup := honce.sublist (foldl_labelNames rest _)
  have hsc : (sc.step (.operator .LBL)).labelNames = sc.labelNames ++ [name] := by
    unfold Scan.step
    rw [hprev]
    simp [Scan.labelNames]
  rw [hsc] at hnodup
  intro hmem
  exact (List.nodup_append.mp hnodup).2.2 name hmem name (List.mem_singleton.mpr rfl) rfl

theorem walk_label_value {atoms : List Atom} {sc : Scan} (hprev : sc.prev = s.patom)
    (hplain : AsmState.Plain atoms sc s) (hwalk : AsmState.walk atoms s = some s')
    (honce : (atoms.foldl Scan.step sc).labelNames.Nodup) {name : Name}
    (hname : name ∈ sc.labelNames) : s'.vars.value name = s.vars.value name := by
  induction atoms generalizing s sc with
  | nil =>
    cases hwalk
    rfl
  | cons atom rest ih =>
    obtain ⟨s1, hstep, hwalk⟩ := Option.bind_eq_some_iff.mp hwalk
    have hlater := ih (step_prev sc atom) (hplain.2 s1 hstep) hwalk honce
      ((step_labels sc atom).sublist.map Prod.fst |>.subset hname)
    refine hlater.trans ((asmStep_frame hstep).vars.value name fun hmem => ?_)
    rw [List.map_append, List.mem_append] at hmem
    obtain hmem | hmem := hmem
    · -- an expression keeps apart from the labels
      obtain ⟨w, hw, rfl⟩ := List.mem_map.mp hmem
      have hapart := hplain.1
      cases atom with
      | close => exact (hapart.2 w hw).1 hname
      | closeIndex => exact (hapart.2 w hw).1 hname
      | _ => exact absurd hw List.not_mem_nil
    · -- a second label of that name
      unfold AsmState.labelled at hmem
      split at hmem
      · split at hmem
        · rename_i other hpatom
          obtain rfl : name = other := by simpa using hmem
          exact label_new (hprev.trans hpatom) honce hname
        · exact absurd hmem List.not_mem_nil
      · exact absurd hmem List.not_mem_nil

theorem walk_loadAddress {atoms : List Atom} (hwalk : AsmState.walk atoms s = some s')
    (hpc : 0 < s.pc) : s'.loadAddress = s.loadAddress := by
  induction atoms generalizing s with
  | nil =>
    cases hwalk
    rfl
  | cons atom rest ih =>
    obtain ⟨s1, hstep, hwalk⟩ := Option.bind_eq_some_iff.mp hwalk
    obtain ⟨hload, hle⟩ | ⟨hzero, -⟩ := (asmStep_frame hstep).load
    · exact (ih hwalk (hpc.trans_le hle)).trans hload
    · omega

theorem startAddress_met {rest : List Atom} {sc : Scan} {assigned : List Name} {s1 : AsmState}
    {x : ℤ} (h : Inv s sc assigned) (hload : 0 ≤ s.loadAddress) (hx : 0 ≤ x)
    (hstep : s.startAddress x = some s1) (herr : s1.vars.errors = [])
    (hplain : AsmState.Plain rest (sc.step (.operator .LBL))
      { s1 with patom := some (.operator .LBL) })
    (hwalk : AsmState.walk rest { s1 with patom := some (.operator .LBL) } = some s')
    (hres : Resolved (rest.foldl Scan.step (sc.step (.operator .LBL))) s') :
    sc.count = 0 ∧ (x = 0 ∨ sc.labels = []) := by
  unfold AsmState.startAddress at hstep
  split at hstep
  · rename_i hzero
    have hpc := h.pc
    have hindex : s.index = 0 := by omega
    have hload0 : s.loadAddress = 0 := by omega
    cases hstep
    refine ⟨h.count.trans hindex, ?_⟩
    by_contra hnot
    rw [not_or] at hnot
    obtain ⟨l, hl⟩ := List.exists_mem_of_ne_nil _ hnot.2
    have hlater := (step_labels sc (.operator .LBL)).subset hl
    have hnow := h.label_value l hl
    have hend := hres.label_value l ((foldl_labels rest _).subset hlater)
    have hkept := walk_label_value (step_prev sc _) hplain hwalk hres.label_once
      (List.mem_map_of_mem hlater)
    have hfixed : s'.loadAddress = x := walk_loadAddress hwalk (lt_of_le_of_ne hx (Ne.symm hnot.1))
    have hvalue : s'.vars.value l.1 = s.vars.value l.1 := hkept
    omega
  · obtain ⟨v, hv, rfl⟩ := Option.map_eq_some_iff.mp hstep
    exact absurd herr (Vars.error_errors hv)

theorem loadAddress_nonneg {atom : Atom} {rest : List Atom} (hload : 0 ≤ s.loadAddress)
    (hnumeric : ∀ x, s.patom = some (.numeric x) → 0 ≤ x)
    (hstep : s.asmStep atom rest = some s') : 0 ≤ s'.loadAddress := by
  obtain ⟨heq, -⟩ | ⟨-, x, hpatom, heq, -⟩ := (asmStep_frame hstep).load
  · rw [heq]
    exact hload
  · rw [heq]
    exact hnumeric x hpatom

theorem stepMeets_of_resolved {atom : Atom} {rest : List Atom} {sc : Scan} {assigned : List Name}
    {s1 : AsmState} (h : Inv s sc assigned) (hload : 0 ≤ s.loadAddress)
    (hnumeric : ∀ x, s.patom = some (.numeric x) → 0 ≤ x)
    (hplain : AsmState.Plain (atom :: rest) sc s) (hstep : s.asmStep atom rest = some s1)
    (hwalk : AsmState.walk rest { s1 with patom := some atom } = some s')
    (herr : s1.vars.errors = [])
    (hres : Resolved (rest.foldl Scan.step (sc.step atom)) s') : s.StepMeets sc atom := by
  cases atom with
  | operator opr =>
    by_cases hopr : opr = .LBL
    · subst hopr
      unfold AsmState.StepMeets
      cases hprev : sc.prev with
      | none => trivial
      | some a =>
        cases a with
        | alpha name => exact label_new hprev hres.label_once
        | numeric x =>
          have hpatom : s.patom = some (.numeric x) := h.prev.symm.trans hprev
          unfold AsmState.asmStep at hstep
          rw [hpatom] at hstep
          exact startAddress_met h hload (hnumeric x hpatom) hstep herr
            (hplain.2 s1 (by unfold AsmState.asmStep; rw [hpatom]; exact hstep)) hwalk hres
        | _ => trivial
    · unfold AsmState.StepMeets
      cases opr <;> trivial
  | close => exact hplain.1
  | closeIndex => exact hplain.1
  | _ => trivial

theorem meets_of_resolved {atoms : List Atom} {sc : Scan} {assigned : List Name}
    (h : Inv s sc assigned) (hload : 0 ≤ s.loadAddress)
    (hnumeric : ∀ x, s.patom = some (.numeric x) → 0 ≤ x)
    (hplain : AsmState.Plain atoms sc s) (hwalk : AsmState.walk atoms s = some s')
    (herr : s'.vars.errors = []) (hres : Resolved (atoms.foldl Scan.step sc) s') :
    AsmState.Meets atoms sc assigned s := by
  induction atoms generalizing s sc assigned with
  | nil =>
    cases hwalk
    intro o ho
    exact (h.defined_iff o.2).mp (hres.operand_defined o ho)
  | cons atom rest ih =>
    obtain ⟨s1, hstep, hwalk⟩ := Option.bind_eq_some_iff.mp hwalk
    have herr1 := walk_errors hwalk herr
    have hmeets := stepMeets_of_resolved h hload hnumeric hplain hstep hwalk herr1 hres
    refine ⟨hmeets, fun s2 hstep2 => ?_⟩
    obtain rfl : s1 = s2 := Option.some.inj (hstep.symm.trans hstep2)
    have hload1 : 0 ≤ s1.loadAddress := loadAddress_nonneg hload hnumeric hstep
    refine ih (h.step hmeets hstep herr1) hload1 (fun x hx => ?_) (hplain.2 s1 hstep) hwalk hres
    obtain rfl : atom = .numeric x := Option.some.inj hx
    exact hplain.1

end Text

/-- A text with a start address, a constant, a forward and a backward reference. -/
def forwardAndBack : List Char :=
  "100:\nSTART: MOVV END, LR1\n(GAP := 2)\nMOVV GAP, LR1\nJMP START\nEND: NOOP\n".toList

/-- A label at address zero is defined again. -/
def labelTwice : List Char := "A: NOOP\nA: JMP A\n".toList

end KernelModules.Mttn
